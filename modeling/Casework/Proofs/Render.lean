import Casework.Proofs.Json.Characters
import Casework.Render
import Mathlib.Data.List.Forall2

/-!
# Rendered output

Output in lines of compact records is a normal form. What is written for a line is a trimmed line by itself, which
shows the same record as the line did, so that rendering once more changes nothing and no record is lost.
-/

namespace Casework

def recordText (r : List Char) : List Char :=
  match Json.read? r with
  | some j => j.compactChars
  | none => r

theorem recordLine_eq (r : List Char) : recordLine r = recordText r ++ ['\n'] := by
  unfold recordLine recordText
  cases Json.read? r with
  | some j => rfl
  | none => rfl

inductive Shows (l : List Char) : List Char × Json → Prop
  | json {j : Json} : Json.read? (Text.trim l) = some j → Shows l (j.compactChars, j)
  | text : Json.read? (Text.trim l) = none → Shows l (Text.trim l, .str (.ofList (Text.trim l)))

theorem shows_record (l : List Char) : Shows l (recordText (Text.trim l), recordValue (Text.trim l)) := by
  unfold recordText recordValue
  cases h : Json.read? (Text.trim l) with
  | some j => exact .json h
  | none => exact .text h

def nonblankLines (s : List Char) : List (List Char) := (Text.lines s).filter fun l => !l.all Text.isBlank

theorem records_eq (s : List Char) : records s = (nonblankLines s).map Text.trim := by
  rw [records, nonblankLines, List.filter_map]
  congr 1
  refine List.filter_congr fun l _ => ?_
  change (!(Text.trim l).isEmpty) = _
  congr 1
  rw [Bool.eq_iff_iff, List.isEmpty_iff]
  exact Text.trim_eq_nil

/-! ## Records -/

structure IsRecordLine (r : List Char) : Prop where
  trimmed : Text.Trimmed r
  nonempty : r ≠ []
  unbroken : '\n' ∉ r

theorem isRecordLine_of_mem {s r : List Char} (h : r ∈ records s) : IsRecordLine r := by
  rw [records, List.mem_filter, List.mem_map] at h
  obtain ⟨⟨l, hl, rfl⟩, hne⟩ := h
  refine ⟨Text.trimmed_trim l, ?_, fun hmem => ?_⟩
  · intro hnil
    rw [hnil] at hne
    cases hne
  · exact Text.not_mem_of_mem_linesOf hl (Text.mem_of_mem_trim hmem)

theorem IsRecordLine.recordText {r : List Char} (h : IsRecordLine r) : IsRecordLine (recordText r) := by
  unfold Casework.recordText
  split
  · rename_i j _
    refine ⟨Json.trimmed_compactChars j, Json.compactChars_ne_nil j, fun hmem => ?_⟩
    exact absurd (Json.unbroken_compactChars j _ hmem) (by decide)
  · exact h

theorem records_framed {rs : List (List Char)} (h : ∀ r ∈ rs, IsRecordLine r) :
    Text.lines (rs.flatMap (· ++ ['\n'])) = rs ∧ records (rs.flatMap (· ++ ['\n'])) = rs := by
  have hlines : Text.lines (rs.flatMap (· ++ ['\n'])) = rs := by
    refine Text.linesOf_framed fun r hr => ⟨(h r hr).unbroken, fun hlast => ?_⟩
    exact absurd ((h r hr).trimmed.last _ hlast) (by decide)
  refine ⟨hlines, ?_⟩
  rw [records, hlines]
  have htrim : rs.map Text.trim = rs :=
    (List.map_congr_left fun r hr => Text.trim_eq_self (h r hr).trimmed).trans (List.map_id rs)
  rw [htrim, List.filter_eq_self]
  intro r hr
  have hne := (h r hr).nonempty
  simpa using hne

/-! ## Rendering twice -/

/-- The values of the lines read back from their compact text. -/
def ReadsBack (s : String) : Prop :=
  ∀ l ∈ Text.lines s.toList, ∀ j, Json.read? (Text.trim l) = some j → Json.read? j.compactChars = some j

section
variable {r : List Char} (h : ∀ j, Json.read? r = some j → Json.read? j.compactChars = some j)
include h

theorem read?_recordText : Json.read? (recordText r) = Json.read? r := by
  unfold recordText
  split
  · rename_i j hj
    rw [hj]
    exact h j hj
  · rfl

theorem recordText_recordText : recordText (recordText r) = recordText r := by
  cases hr : Json.read? r with
  | some j =>
    have hread := read?_recordText h
    rw [hr] at hread
    rw [recordText, hread, recordText, hr]
  | none =>
    have htext : recordText r = r := by rw [recordText, hr]
    rw [htext, htext]

theorem recordValue_recordText : recordValue (recordText r) = recordValue r := by
  rw [recordValue, recordValue, read?_recordText h]
  cases hr : Json.read? r with
  | some j => rfl
  | none => rw [recordText, hr]

end

theorem toList_render_jsonl (s : String) :
    (render s .jsonl).toList = ((records s.toList).map recordText).flatMap (· ++ ['\n']) := by
  rw [render, String.toList_ofList, List.flatMap_map]
  exact congrArg (List.flatMap · _) (funext recordLine_eq)

theorem render_json (s : String) :
    render s .json = (Json.arr ((records s.toList).map recordValue)).pretty ++ "\n" := by
  rw [render, String.ofList_append, Json.pretty]

theorem lines_render_jsonl (s : String) :
    Text.lines (render s .jsonl).toList = (records s.toList).map recordText ∧
      records (render s .jsonl).toList = (records s.toList).map recordText := by
  rw [toList_render_jsonl]
  refine records_framed fun r hr => ?_
  obtain ⟨r, hmem, rfl⟩ := List.mem_map.1 hr
  exact (isRecordLine_of_mem hmem).recordText

/-- Rendered in lines of records, output is what rendering it so again would give, and as an array it is still what
it was before. Either way there is one record for each line that is not blank, in the order of the lines: the value
of the line if it is JSON, and else its trimmed text. -/
theorem render_jsonl_normal {s : String} (h : ReadsBack s) :
    render (render s .jsonl) .jsonl = render s .jsonl ∧
    render (render s .jsonl) .json = render s .json ∧
    ∃ rs : List (List Char × Json), List.Forall₂ Shows (nonblankLines s.toList) rs ∧
      Text.lines (render s .jsonl).toList = rs.map (·.1) ∧
      render s .json = (Json.arr (rs.map (·.2))).pretty ++ "\n" := by
  have hback : ∀ r ∈ records s.toList, ∀ j, Json.read? r = some j → Json.read? j.compactChars = some j := by
    intro r hr j hj
    rw [records, List.mem_filter, List.mem_map] at hr
    obtain ⟨⟨l, hl, rfl⟩, -⟩ := hr
    exact h l hl j hj
  obtain ⟨hlines, hrecords⟩ := lines_render_jsonl s
  refine ⟨?_, ?_, ?_⟩
  · have htexts : ((records s.toList).map recordText).map recordText = (records s.toList).map recordText := by
      rw [List.map_map]
      exact List.map_congr_left fun r hr => recordText_recordText (hback r hr)
    refine String.toList_injective ?_
    rw [toList_render_jsonl, hrecords, htexts, toList_render_jsonl]
  · have hvalues : ((records s.toList).map recordText).map recordValue = (records s.toList).map recordValue := by
      rw [List.map_map]
      exact List.map_congr_left fun r hr => recordValue_recordText (hback r hr)
    rw [render_json, render_json, hrecords, hvalues]
  · refine ⟨(nonblankLines s.toList).map fun l => (recordText (Text.trim l), recordValue (Text.trim l)), ?_, ?_, ?_⟩
    · rw [List.forall₂_map_right_iff]
      exact List.forall₂_same.2 fun l _ => shows_record l
    · rw [hlines, records_eq, List.map_map, List.map_map]
      rfl
    · rw [render_json, records_eq, List.map_map, List.map_map]
      rfl

def mixedOutput : String := "\x7b\"b\": -15,  \"a\": [true]\x7d\r\n \t\n not\rjson \n\u00a0\x7b\"x\":1,\"x\":null\x7d\u0085"

theorem mixedOutput_normal : ReadsBack mixedOutput ∧
    render mixedOutput .jsonl = "\x7b\"a\":[true],\"b\":-15\x7d\nnot\rjson\n\x7b\"x\":null\x7d\n" ∧
    render (render mixedOutput .jsonl) .jsonl = render mixedOutput .jsonl ∧
    render (render mixedOutput .jsonl) .json = render mixedOutput .json := by
  have hread : (Text.lines mixedOutput.toList).map (fun l => Json.read? (Text.trim l)) =
      [some (.obj [("a", .arr [.bool true]), ("b", .int (-15))]), none, none, some (.obj [("x", .null)])] := by rfl
  have hback : ReadsBack mixedOutput := by
    intro l hl j hj
    have hmem := List.mem_map_of_mem (f := fun l => Json.read? (Text.trim l)) hl
    rw [hread, hj] at hmem
    simp only [List.mem_cons, Option.some.injEq, reduceCtorEq, List.not_mem_nil, or_false, false_or] at hmem
    rcases hmem with rfl | rfl <;> rfl
  obtain ⟨hlines, hvalues, -⟩ := render_jsonl_normal hback
  exact ⟨hback, by decide +kernel, hlines, hvalues⟩

end Casework
