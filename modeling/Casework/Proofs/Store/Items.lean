import Casework.Store.Basic
import Casework.Proofs.Host.Places
import Casework.Proofs.Json.RoundTrip
import Casework.Proofs.Text.Lines
import Casework.Proofs.Text.Utf8

/-!
# The items file

Every record is one line of the file, whatever its text holds. What is appended to the file is read back line by
line, and a line reads as its record as far as the text of the record does.
-/

namespace Casework

namespace Store

open Json (Faithful nesting depthLimit)

theorem not_mem_encode_compact (j : Json) {n : Nat} (hn : n < 0x20) : UInt8.ofNat n ∉ Text.encode j.compact := by
  intro h
  obtain ⟨c, hc, hcn⟩ := (Text.ofNat_mem_encode (by omega)).1 h
  have := Json.unbroken_compact j c hc
  omega

theorem byteLines_lineOf (js : List Json) :
    Text.byteLines (js.flatMap lineOf) = js.map fun j => Text.encode j.compact := by
  have hlines : ∀ l ∈ js.map fun j => Text.encode j.compact, (10 : UInt8) ∉ l ∧ l.getLast? ≠ some 13 := by
    intro l hl
    obtain ⟨j, _, rfl⟩ := List.mem_map.1 hl
    exact ⟨not_mem_encode_compact j (n := 10) (by omega),
      fun hlast => not_mem_encode_compact j (n := 13) (by omega) (List.mem_of_getLast? hlast)⟩
  rw [← Text.linesOf_framed hlines, List.flatMap_map]
  rfl

/-! ## Records -/

theorem obj_of_typeOf? {j : Json} {type : String} (h : typeOf? j = some type) : ∃ fs, j = .obj fs := by
  cases j with
  | obj fs => exact ⟨fs, rfl⟩
  | _ => cases h

theorem withId_obj (fs : List (String × Json)) (id : String) : ∃ fs', withId (.obj fs) id = .obj fs' := by
  rw [withId]
  split
  · exact ⟨fs, rfl⟩
  · exact ⟨_, rfl⟩

def IsRecord (j : Json) : Prop := ∃ fs, j = .obj fs

theorem isRecord_withId {j : Json} {type : String} (h : typeOf? j = some type) (id : String) :
    IsRecord (withId j id) := by
  obtain ⟨fs, rfl⟩ := obj_of_typeOf? h
  exact withId_obj fs id

theorem prepare_eq_ok {unique id : String} {record j : Json} (h : prepare unique (some record) = .ok (id, j)) :
    ∃ type, typeOf? record = some type ∧ id = type ++ "--" ++ unique ∧ j = withId record id := by
  rw [prepare] at h
  cases htype : typeOf? record with
  | none =>
    rw [htype] at h
    cases h
  | some type =>
    rw [htype] at h
    cases h
    exact ⟨type, rfl, rfl, rfl⟩

theorem isRecord_of_prepare {unique id : String} {r : Option Json} {j : Json}
    (h : prepare unique r = .ok (id, j)) : IsRecord j := by
  cases r with
  | none => cases h
  | some record =>
    obtain ⟨type, htype, -, rfl⟩ := prepare_eq_ok h
    exact isRecord_withId htype _

theorem eq_withId_of_prepare {unique id : String} {record j : Json}
    (h : prepare unique (some record) = .ok (id, j)) : j = withId record id := by
  obtain ⟨type, -, -, hj⟩ := prepare_eq_ok h
  exact hj

def reread (js : List Json) : Except StoreError (List Json) :=
  match js.mapM fun j => Json.parse? j.compact with
  | some js => .ok js
  | none => .error .json

theorem recordsOf_lines {js : List Json} (h : ∀ j ∈ js, IsRecord j) :
    recordsOf (js.map fun j => Text.encode j.compact) = reread js := by
  induction js with
  | nil => rfl
  | cons j js ih =>
    obtain ⟨⟨fs, rfl⟩, hjs⟩ := List.forall_mem_cons.1 h
    rw [List.map_cons, recordsOf, Text.decode?_encode]
    simp only [Json.allBlank_compact_obj, ih hjs, reread, List.mapM_cons]
    cases Json.parse? (Json.obj fs).compact with
    | none => rfl
    | some j =>
      cases js.mapM fun j => Json.parse? j.compact <;> rfl

theorem mapM_parse?_compact {js : List Json} (h : ∀ j ∈ js, Faithful j) :
    (js.mapM fun j => Json.parse? j.compact) = if ∀ j ∈ js, nesting j ≤ depthLimit then some js else none := by
  induction js with
  | nil => rfl
  | cons j js ih =>
    obtain ⟨hj, hjs⟩ := List.forall_mem_cons.1 h
    have hcons : (∀ i ∈ j :: js, nesting i ≤ depthLimit) ↔ nesting j ≤ depthLimit ∧ ∀ i ∈ js, nesting i ≤ depthLimit :=
      List.forall_mem_cons
    rw [List.mapM_cons, Json.parse?_compact hj, ih hjs]
    by_cases hdepth : nesting j ≤ depthLimit
    · rw [if_pos hdepth]
      by_cases hrest : ∀ j ∈ js, nesting j ≤ depthLimit
      · rw [if_pos hrest, if_pos (hcons.2 ⟨hdepth, hrest⟩)]
        rfl
      · rw [if_neg hrest, if_neg fun hall => hrest (hcons.1 hall).2]
        rfl
    · rw [if_neg hdepth, if_neg fun hall => hdepth (hcons.1 hall).1]
      rfl

theorem reread_faithful {js : List Json} (h : ∀ j ∈ js, Faithful j) :
    reread js = if ∀ j ∈ js, nesting j ≤ depthLimit then .ok js else .error .json := by
  rw [reread, mapM_parse?_compact h]
  by_cases hall : ∀ j ∈ js, nesting j ≤ depthLimit
  · rw [if_pos hall, if_pos hall]
  · rw [if_neg hall, if_neg hall]

/-! ## Appending a record -/

theorem insert_eq_ok {s : Store} {t t' : FileTree} {unique id : String} {record : Json}
    (h : s.insert t unique record = .ok (t', id)) : ∃ type, typeOf? record = some type ∧ id = type ++ "--" ++ unique ∧
      t.append s.itemsPath (lineOf (withId record id)) = .ok t' := by
  rw [insert] at h
  cases hprepare : prepare unique (some record) with
  | error e =>
    rw [hprepare] at h
    cases h
  | ok prepared =>
    obtain ⟨made, j⟩ := prepared
    obtain ⟨type, htype, hid, rfl⟩ := prepare_eq_ok hprepare
    simp only [hprepare] at h
    cases happend : t.append s.itemsPath (lineOf (withId record made)) with
    | error e =>
      rw [happend] at h
      cases h
    | ok t' =>
      rw [happend] at h
      cases h
      exact ⟨type, htype, hid, happend⟩

theorem leads_of_new {s : Store} {t : FileTree} {a : Address} (hres : t.resolve false s.itemsPath = .ok a)
    (h : t.node? a = none) : t.Leads s.itemsPath a := FileTree.leads_of_vacant hres h

section
variable {s : Store} {t : FileTree} {a : Address} (h : t.Leads s.itemsPath a)
include h

theorem lines_of_leads : s.lines t = .ok (Text.byteLines (t.contentAt a)) := by
  rw [lines, h.exists_]
  cases hn : t.node? a with
  | none =>
    have hcontent : t.contentAt a = [] := by rw [FileTree.contentAt, hn]
    rw [hcontent]
    rfl
  | some n =>
    have hread := h.read (by rw [hn]; rfl)
    rw [hread]
    rfl

theorem insert_of_leads {record : Json} {type : String} (htype : typeOf? record = some type) (unique : String) :
    s.insert t unique record = .ok ((t.modify a id).modify a (· ++ lineOf (withId record (type ++ "--" ++ unique))),
      type ++ "--" ++ unique) := by
  have happend : t.append s.itemsPath (lineOf (withId record (type ++ "--" ++ unique))) = .ok _ :=
    h.append _
  simp only [insert, prepare, htype, happend]

end

/-! ## A store in an empty directory -/

def caseStore : Store := ⟨"case.store"⟩

def caseTree : FileTree := (openAt ⟨[], "/"⟩ "case.store").1

theorem caseTree_items : caseTree.resolve false caseStore.itemsPath = .ok ["case.store", "items.jsonl"] ∧
    caseTree.node? ["case.store", "items.jsonl"] = none := by
  constructor <;> decide +kernel

theorem caseTree_leads : caseTree.Leads caseStore.itemsPath ["case.store", "items.jsonl"] :=
  leads_of_new caseTree_items.1 caseTree_items.2

end Store

end Casework
