import Casework.Proofs.Json.Behind
import Casework.Proofs.Store.Records

/-!
# Records behind what a file holds

A store appends without looking at what is there. What comes behind whole lines is a line of its own; behind a line
that no line feed ends, the record becomes a part of that line. That does no harm if the line holds nothing but
white space of JSON, and otherwise leaves a line that no reader takes.
-/

namespace Casework

namespace Store

open Json (Faithful nesting depthLimit)

/-! ## Lines one behind the other -/

theorem recordsOf_append (ls ms : List Text.Bytes) :
    recordsOf (ls ++ ms) = (recordsOf ls).bind fun js => (recordsOf ms).map (js ++ ·) := by
  induction ls with
  | nil =>
    rw [List.nil_append]
    change _ = (recordsOf ms).map ([] ++ ·)
    cases recordsOf ms <;> rfl
  | cons l ls ih =>
    rw [List.cons_append, recordsOf, recordsOf]
    cases Text.decode? l with
    | none => rfl
    | some s =>
      simp only [ih]
      split
      · rfl
      · cases Json.parse? s with
        | none => rfl
        | some j => cases recordsOf ls <;> cases recordsOf ms <;> rfl

theorem recordsOf_append_ok {ls ms : List Text.Bytes} {js : List Json} (h : recordsOf (ls ++ ms) = .ok js) :
    ∃ front last, recordsOf ls = .ok front ∧ recordsOf ms = .ok last ∧ js = front ++ last := by
  rw [recordsOf_append] at h
  cases hfront : recordsOf ls with
  | error e =>
    rw [hfront] at h
    cases h
  | ok front =>
    rw [hfront] at h
    cases hlast : recordsOf ms with
    | error e =>
      rw [hlast] at h
      cases h
    | ok last =>
      rw [hlast] at h
      cases h
      exact ⟨front, last, rfl, rfl, rfl⟩

/-! ## The line that is continued -/

/-- Whether the line that no line feed ends, if there is one, holds nothing but white space of JSON. -/
def isReady (b : Text.Bytes) : Bool :=
  (Text.decode? (Text.unfinished 10 b)).any fun s => s.toList.all Json.isSpace

theorem allBlank_of_spaces {s : String} (h : s.toList.all Json.isSpace) : Text.allBlank s := by
  rw [List.all_eq_true] at h
  refine List.all_eq_true.2 fun c hc => ?_
  have hspace := h c hc
  simp only [Json.isSpace, Bool.or_eq_true, decide_eq_true_eq] at hspace
  rcases hspace with ((rfl | rfl) | rfl) | rfl <;> decide

theorem recordsOf_continued {l : Text.Bytes} {js : List Json} (hlf : (10 : UInt8) ∉ l)
    (h : recordsOf (Text.byteLines l) = .ok js) (fs : List (String × Json)) (ls : List Text.Bytes) :
    recordsOf ((l ++ Text.encode (Json.obj fs).compact) :: ls) =
      if (Text.decode? l).any fun s => s.toList.all Json.isSpace then
        (recordsOf (Text.encode (Json.obj fs).compact :: ls)).map (js ++ ·)
      else .error .json := by
  by_cases hl : l = []
  · subst hl
    cases h
    change _ = (recordsOf (Text.encode (Json.obj fs).compact :: ls)).map ([] ++ ·)
    rw [List.nil_append]
    cases recordsOf (Text.encode (Json.obj fs).compact :: ls) <;> rfl
  rw [Text.byteLines, Text.linesOf_unfinished hlf hl, recordsOf] at h
  cases hs : Text.decode? l with
  | none =>
    rw [hs] at h
    cases h
  | some s =>
    simp only [hs] at h
    have hnotBlank : Text.allBlank (s ++ (Json.obj fs).compact) = false := by
      have hobj := Json.allBlank_compact_obj fs
      rw [Text.allBlank] at hobj ⊢
      rw [String.toList_append, List.all_append, hobj, Bool.and_false]
    rw [recordsOf, recordsOf, Text.decode?_append hs (Text.decode?_encode _), Text.decode?_encode]
    simp only [hnotBlank, Json.allBlank_compact_obj, Bool.false_eq_true, if_false, Option.any_some]
    by_cases hblank : Text.allBlank s = true
    · -- nothing has been read of the line so far
      rw [if_pos hblank] at h
      cases h
      rw [Json.parse?_blanks hblank]
      by_cases hspaces : s.toList.all Json.isSpace = true
      · rw [if_pos hspaces, if_pos hspaces]
        cases Json.parse? (Json.obj fs).compact with
        | none => rfl
        | some j => cases recordsOf ls <;> rfl
      · rw [if_neg hspaces, if_neg hspaces]
    · -- what stands there is a record, and the new one comes behind it on the same line
      rw [if_neg hblank] at h
      cases hj : Json.parse? s with
      | none =>
        rw [hj] at h
        cases h
      | some j =>
        rw [Json.parse?_append_obj hj, if_neg fun hspaces => hblank (allBlank_of_spaces hspaces)]

theorem byteLines_appended {front l : Text.Bytes} (hfront : Text.Finished 10 front) (hlf : (10 : UInt8) ∉ l)
    (j : Json) (js : List Json) : Text.byteLines (front ++ l ++ (j :: js).flatMap lineOf) =
      Text.byteLines front ++ (l ++ Text.encode j.compact) :: js.map fun j => Text.encode j.compact := by
  have hline : (10 : UInt8) ∉ l ++ Text.encode j.compact := by
    rw [List.mem_append, not_or]
    exact ⟨hlf, not_mem_encode_compact j (n := 10) (by omega)⟩
  have hend : (l ++ Text.encode j.compact).getLast? ≠ some 13 := by
    intro hlast
    have hne : Text.encode j.compact ≠ [] := Text.encode_ne_nil (by simpa [Json.compact] using Json.compactChars_ne_nil j)
    rw [List.getLast?_append_of_ne_nil _ hne] at hlast
    exact not_mem_encode_compact j (n := 13) (by omega) (List.mem_of_getLast? hlast)
  have htext : l ++ (j :: js).flatMap lineOf = (l ++ Text.encode j.compact) ++ 10 :: js.flatMap lineOf := by
    simp [lineOf]
  rw [List.append_assoc, htext, Text.byteLines, Text.linesOf_append hfront]
  have hrest : Text.linesFrom 10 13 [] (js.flatMap lineOf) = js.map fun j => Text.encode j.compact :=
    byteLines_lineOf js
  congr 1
  rw [Text.linesOf, Text.linesFrom_line hline, List.append_nil, Text.dropReturn_of_last hend, List.reverse_reverse,
    hrest]

theorem recordsOf_appended {b : Text.Bytes} {old js : List Json} (h : recordsOf (Text.byteLines b) = .ok old)
    (hjs : ∀ j ∈ js, IsRecord j) : recordsOf (Text.byteLines (b ++ js.flatMap lineOf)) =
      if js.isEmpty || isReady b then (reread js).map (old ++ ·) else .error .json := by
  cases js with
  | nil =>
    rw [List.flatMap_nil, List.append_nil, h]
    change _ = Except.ok (old ++ [])
    rw [List.append_nil]
  | cons j js =>
    obtain ⟨⟨fs, rfl⟩, -⟩ := List.forall_mem_cons.1 hjs
    obtain ⟨front, hfront, hb⟩ := Text.exists_finished 10 b
    have hlf := Text.not_mem_unfinished 10 b
    have hsplit : Text.byteLines b = Text.byteLines front ++ Text.byteLines (Text.unfinished 10 b) := by
      conv_lhs => rw [hb]
      exact Text.linesOf_append hfront _
    rw [hsplit] at h
    obtain ⟨first, last, hfirst, hlast, rfl⟩ := recordsOf_append_ok h
    have hlines := recordsOf_lines hjs
    rw [List.map_cons] at hlines
    conv_lhs => rw [hb]
    rw [byteLines_appended hfront hlf, recordsOf_append, hfirst, recordsOf_continued hlf hlast, hlines]
    change ((if isReady b then _ else _ : Except StoreError (List Json)).map (first ++ ·)) = _
    rw [List.isEmpty_cons, Bool.false_or]
    split
    · cases reread (Json.obj fs :: js) with
      | error e => rfl
      | ok js => exact congrArg Except.ok (List.append_assoc first last js).symm
    · rfl

/-! ## Calls on a readable store -/

theorem isReady_append_line (b : Text.Bytes) (j : Json) : isReady (b ++ lineOf j) = true := by
  have hnone : Text.unfinished 10 (b ++ lineOf j) = [] := by simp [Text.unfinished, lineOf]
  rw [isReady, hnone]
  rfl

section
variable {s : Store} {t : FileTree} {a : Address} (h : t.Leads s.itemsPath a) {old : List Json}
  (hold : s.all t = .ok old)
include h hold

theorem all_extended (calls : List (String × Json)) : s.all (s.insertEach t calls).1 =
    if (s.insertEach t calls).2.isEmpty || isReady (t.contentAt a) then
      (reread (s.insertEach t calls).2).map (old ++ ·)
    else .error .json := by
  obtain ⟨hleads, hcontent, hrecords⟩ := insertEach_leads h calls
  rw [all, lines_of_leads h] at hold
  rw [all, lines_of_leads hleads, hcontent]
  exact recordsOf_appended hold hrecords

/-- A record goes behind all that a readable file holds, and the store gives what it gave with the record behind it,
if no line is left unfinished but for white space of JSON. Behind any other unfinished line the record spoils the
store. -/
theorem all_of_insert {t' : FileTree} {unique id : String} {record : Json}
    (hinsert : s.insert t unique record = .ok (t', id)) :
    t'.contentAt a = t.contentAt a ++ lineOf (withId record id) ∧ isReady (t'.contentAt a) = true ∧
      (s.all t' = if isReady (t.contentAt a) then (reread [withId record id]).map (old ++ ·) else .error .json) ∧
      (Faithful record → nesting record ≤ depthLimit →
        (s.all t' = .ok (old ++ [withId record id]) ↔ isReady (t.contentAt a) = true)) := by
  have hone : s.insertEach t [(unique, record)] = (t', [withId record id]) := by simp [insertEach, hinsert]
  have hcontent := (insertEach_leads h [(unique, record)]).2.1
  have hall := all_extended h hold [(unique, record)]
  rw [hone] at hcontent hall
  rw [List.flatMap_singleton] at hcontent
  rw [List.isEmpty_cons, Bool.false_or] at hall
  refine ⟨hcontent, ?_, hall, ?_⟩
  · rw [hcontent]
    exact isReady_append_line _ _
  · intro hfaithful hdepth
    have hread : reread [withId record id] = .ok [withId record id] := by
      have hfaithfuls : ∀ j ∈ [withId record id], Faithful j := by simpa using faithful_withId hfaithful id
      have hdepths : ∀ j ∈ [withId record id], nesting j ≤ depthLimit := by simpa [nesting_withId] using hdepth
      rw [reread_faithful hfaithfuls, if_pos hdepths]
    rw [hall, hread]
    cases isReady (t.contentAt a) with
    | true => exact iff_of_true rfl rfl
    | false => exact iff_of_false (fun hok => by cases hok) (fun hready => by cases hready)

end

/-! ## Files that were written by other means -/

def holding (b : Text.Bytes) : FileTree := caseTree.modify ["case.store", "items.jsonl"] fun _ => b

theorem holding_leads (b : Text.Bytes) : (holding b).Leads caseStore.itemsPath ["case.store", "items.jsonl"] :=
  caseTree_leads.modify _

theorem contentAt_holding (b : Text.Bytes) : (holding b).contentAt ["case.store", "items.jsonl"] = b :=
  FileTree.contentAt_modify caseTree_leads.free _

theorem all_holding (b : Text.Bytes) : caseStore.all (holding b) = recordsOf (Text.byteLines b) := by
  rw [all, lines_of_leads (holding_leads b), contentAt_holding]
  rfl

def note : Json := .obj [("type", .str "note")]

def looseLines : Text.Bytes := Text.encode note.compact ++ [13, 10, 10, 32]

theorem reread_note : recordsOf [Text.encode note.compact] = .ok [note] := by
  have hnote : ∀ j ∈ [note], Faithful j := by
    have hfaithful : Faithful note := ⟨by decide, trivial, trivial⟩
    simpa using hfaithful
  have hread : recordsOf ([note].map fun j => Text.encode j.compact) = reread [note] :=
    recordsOf_lines (by simp [IsRecord, note])
  exact hread.trans ((reread_faithful hnote).trans (if_pos (by decide)))

theorem all_looseLines : caseStore.all (holding looseLines) = .ok [note] := by
  have hlines : Text.byteLines looseLines = [Text.encode note.compact] ++ [[], [32]] := by decide +kernel
  rw [all_holding, hlines, recordsOf_append, reread_note]
  rfl

theorem looseLines_extended : ∃ t' id, caseStore.insert (holding looseLines) "1" service = .ok (t', id) ∧
    caseStore.all t' = .ok [note, withId service "service--1"] := by
  have htype : typeOf? service = some "service" := rfl
  have hinsert := insert_of_leads (holding_leads looseLines) htype "1"
  obtain ⟨-, -, -, hextends⟩ := all_of_insert (holding_leads looseLines) all_looseLines hinsert
  have hready : isReady ((holding looseLines).contentAt ["case.store", "items.jsonl"]) = true := by
    rw [contentAt_holding]
    decide +kernel
  exact ⟨_, _, hinsert, (hextends (faithful_mixedCalls ("1", service) List.mem_cons_self) (by decide)).2 hready⟩

theorem unendedLine_spoils : caseStore.all (holding (Text.encode note.compact)) = .ok [note] ∧
    ∃ t' id, caseStore.insert (holding (Text.encode note.compact)) "1" service = .ok (t', id) ∧
      caseStore.all t' = .error .json := by
  have hlines : Text.byteLines (Text.encode note.compact) = [Text.encode note.compact] := by decide +kernel
  have hold : caseStore.all (holding (Text.encode note.compact)) = .ok [note] := by
    rw [all_holding, hlines, reread_note]
  have hleads := holding_leads (Text.encode note.compact)
  have htype : typeOf? service = some "service" := rfl
  have hinsert := insert_of_leads hleads htype "1"
  have hall := all_extended hleads hold [("1", service)]
  have hready : isReady (Text.encode note.compact) = false := by decide +kernel
  rw [contentAt_holding, hready] at hall
  simp only [insertEach, hinsert] at hall
  exact ⟨hold, _, _, hinsert, hall⟩

end Store

end Casework
