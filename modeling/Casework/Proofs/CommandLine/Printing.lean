import Casework.CommandLine.Program
import Casework.Proofs.Render

/-!
# Printing task after task

In lines of records, what is printed for texts one after the other is what would be printed for all of them put
together line by line: a seam between two texts neither joins two records nor makes a new one.
-/

namespace Casework

/-! ## Seams -/

def recordsOfLines (ls : List (List Char)) : List (List Char) := (ls.map Text.trim).filter (!·.isEmpty)

theorem recordsOfLines_cons (l : List Char) (ls : List (List Char)) :
    recordsOfLines (l :: ls) = recordsOfLines [l] ++ recordsOfLines ls := by
  rw [← List.singleton_append, recordsOfLines, List.map_append, List.filter_append]
  rfl

theorem recordsOfLines_congr {l l' : List Char} (h : Text.trim l = Text.trim l') :
    recordsOfLines [l] = recordsOfLines [l'] := by
  rw [recordsOfLines, recordsOfLines, List.map_singleton, List.map_singleton, h]

theorem recordsOfLines_break (acc a b : List Char) :
    recordsOfLines (Text.linesFrom '\n' '\r' acc (a ++ '\n' :: b)) =
      recordsOfLines (Text.linesFrom '\n' '\r' acc a) ++ records b := by
  induction a generalizing acc with
  | nil =>
    have hseam : Text.linesFrom '\n' '\r' acc ([] ++ '\n' :: b) =
        (Text.dropReturn '\r' acc).reverse :: Text.lines b := rfl
    have hlast : recordsOfLines [acc.reverse] = recordsOfLines (Text.linesFrom '\n' '\r' acc []) := by
      cases acc <;> rfl
    rw [hseam, recordsOfLines_cons, recordsOfLines_congr (Text.trim_dropReturn acc), hlast]
    rfl
  | cons c a ih =>
    rw [List.cons_append, Text.linesFrom, Text.linesFrom]
    split
    · rw [recordsOfLines_cons, ih, ← List.append_assoc, ← recordsOfLines_cons]
    · exact ih (c :: acc)

theorem records_break (a b : List Char) : records (a ++ '\n' :: b) = records a ++ records b :=
  recordsOfLines_break [] a b

theorem records_of_blank {s : List Char} (h : s.all Text.isBlank = true) : records s = [] := by
  rw [records, List.filter_eq_nil_iff]
  intro r hr
  obtain ⟨l, hl, rfl⟩ := List.mem_map.1 hr
  have hblank : l.all Text.isBlank = true :=
    List.all_eq_true.2 fun c hc => List.all_eq_true.1 h c (Text.mem_of_mem_linesOf hl hc)
  rw [Text.trim_eq_nil.2 hblank]
  exact Bool.false_ne_true

theorem render_jsonl_break (a b : String) : render (a ++ "\n" ++ b) .jsonl = render a .jsonl ++ render b .jsonl := by
  have hseam : (a ++ "\n" ++ b).toList = a.toList ++ '\n' :: b.toList := by
    rw [String.toList_append, String.toList_append, List.append_assoc]
    rfl
  rw [render, hseam, records_break, List.flatMap_append, String.ofList_append]
  rfl

theorem render_jsonl_of_blank {s : String} (h : Text.allBlank s = true) : render s .jsonl = "" := by
  rw [render, records_of_blank h]
  rfl

theorem join_render_jsonl (outs : List String) :
    String.join (outs.map (render · .jsonl)) = render ("\n".intercalate outs) .jsonl := by
  induction outs with
  | nil => rfl
  | cons s outs ih =>
    cases outs with
    | nil => rw [List.map_singleton, String.join_cons, String.join_nil, String.append_empty, String.intercalate_singleton]
    | cons t outs =>
      rw [List.map_cons, String.join_cons, ih, String.intercalate_cons_cons, render_jsonl_break]

namespace CommandLine

def outputs (g : Graph) (r : RunResult) : List String :=
  g.orderedNames.filterMap fun n => (r.outcomes.find? n).bind Outcome.output?

theorem outputText_jsonl (g : Graph) (r : RunResult) :
    outputText g r .jsonl = String.join ((outputs g r).map (render · .jsonl)) := by
  rw [outputText, outputs]
  induction g.orderedNames with
  | nil => rfl
  | cons n names ih =>
    rw [List.map_cons, String.join_cons, ih, List.filterMap_cons]
    cases (r.outcomes.find? n).bind Outcome.output? with
    | none => rw [String.empty_append]
    | some out =>
      dsimp only
      rw [List.map_cons, String.join_cons]
      split
      · rename_i hblank
        rw [render_jsonl_of_blank hblank]
      · rfl

/-! ## Store after store -/

def Batch.Printed (g : Graph) (b : Batch) : Prop :=
  b.out = render ("\n".intercalate (b.runs.flatMap fun run => outputs g run.result)) .jsonl

section
variable {k : Conduct} {p : RunPlan} {b b' : Batch} (hformat : p.format = .jsonl)
include hformat

theorem printed_runStore {store : String} (hb : b.Printed p.graph) (h : runStore k p b store = .ok b') :
    b'.Printed p.graph := by
  unfold runStore at h
  split at h
  · cases h
  · cases h
    rw [Batch.Printed] at hb ⊢
    dsimp only
    rw [hformat, outputText_jsonl, hb, ← join_render_jsonl, ← join_render_jsonl, List.flatMap_append, List.map_append,
      String.join_append, List.flatMap_singleton]

theorem printed_runStores {stores : List String} (hb : b.Printed p.graph) (h : runStores k p b stores = .ok b') :
    b'.Printed p.graph := by
  induction stores generalizing b with
  | nil =>
    cases h
    exact hb
  | cons s ss ih =>
    rw [runStores] at h
    split at h
    · rename_i next hnext
      exact ih (printed_runStore hformat hb hnext) h
    · cases h

end

/-- Rendered in lines of records, two texts with a line feed between them give what they give one after the other,
however they begin and end. So what is printed task by task, for one store or for all of them, is one rendering of all
outputs put together line by line. -/
theorem jsonl_of_joined :
    (∀ a b : String, render (a ++ "\n" ++ b) .jsonl = render a .jsonl ++ render b .jsonl) ∧
    (∀ (g : Graph) (r : RunResult), outputText g r .jsonl = render ("\n".intercalate (outputs g r)) .jsonl) ∧
    ∀ (k : Conduct) (p : RunPlan) (w : Workflow) (h : Host) (stores : List String) (b : Batch), p.format = .jsonl →
      runStores k p { workflow := w, host := h } stores = .ok b →
      b.out = render ("\n".intercalate (b.runs.flatMap fun run => outputs p.graph run.result)) .jsonl := by
  refine ⟨render_jsonl_break, fun g r => ?_, fun k p w h stores b hformat hb => ?_⟩
  · rw [outputText_jsonl, join_render_jsonl]
  · have hstart : ({ workflow := w, host := h } : Batch).Printed p.graph := rfl
    exact printed_runStores hformat hstart hb

def hashesOutput : String := "\u00a0[ 1,2 ]\r\n7 \r"

def hashesPlan : RunPlan := ⟨⟨0, 0⟩, {}, none, .jsonl, ⟨⟨#["hashes"], #[[]], #[[]]⟩, [0]⟩⟩

def hashesResult : RunResult := { outcomes := .ofList [("hashes", ⟨.ok hashesOutput, some ⟨0, 0⟩, ⟨1, 0⟩⟩)] }

theorem hashes_jsonl_of_joined : ∃ b, runStores (fun b _ => .ok (b.workflow, b.host, hashesResult)) hashesPlan
      { workflow := {}, host := default } ["a.store", "b.store"] = .ok b ∧
    b.out = "[1,2]\n7\n[1,2]\n7\n" ∧ b.out = render ("\n".intercalate [hashesOutput, hashesOutput]) .jsonl := by
  have houtputs : outputs hashesPlan.graph hashesResult = [hashesOutput] := by decide +kernel
  have hrender : render ("\n".intercalate [hashesOutput, hashesOutput]) .jsonl = "[1,2]\n7\n[1,2]\n7\n" := by
    decide +kernel
  refine ⟨_, rfl, ?_⟩
  have hprinted := jsonl_of_joined.2.2 (fun b _ => .ok (b.workflow, b.host, hashesResult)) hashesPlan {} default
    ["a.store", "b.store"] _ rfl rfl
  simp only [List.nil_append, List.cons_append, List.flatMap_cons, List.flatMap_nil, houtputs] at hprinted
  exact ⟨hprinted.trans hrender, hprinted⟩

end CommandLine

end Casework
