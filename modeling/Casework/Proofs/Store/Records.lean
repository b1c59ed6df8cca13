import Casework.Proofs.Store.Items

/-!
# What a new store gives back

The records that a store has taken since it was made are read back in the order in which they were taken, unless
one of them nests deeper than the reader goes: then none is, for good.
-/

namespace Casework

namespace Store

open Json (Faithful FaithfulFields nesting nestingFields depthLimit putField putField_eq_put)

/-! ## Records with an identifier -/

theorem faithfulFields_putField {k : String} {v : Json} (hv : Faithful v) {fs : List (String × Json)}
    (h : FaithfulFields fs) : FaithfulFields (putField k v fs) := by
  induction fs with
  | nil => exact ⟨hv, h⟩
  | cons f fs ih =>
    obtain ⟨k', v'⟩ := f
    rw [putField]
    split
    · exact ⟨hv, h⟩
    · split
      · exact ⟨hv, h.2⟩
      · exact ⟨h.1, ih h.2⟩

theorem faithful_withId {j : Json} (h : Faithful j) (id : String) : Faithful (withId j id) := by
  cases j with
  | obj fs =>
    rw [withId]
    split
    · exact h
    · have hid : Faithful (.str id) := trivial
      refine ⟨?_, faithfulFields_putField hid h.2⟩
      rw [putField_eq_put]
      exact NameMap.sorted_put _ _ h.1
  | _ => exact h

theorem nestingFields_putField {k : String} {v : Json} (hv : nesting v = 0) {fs : List (String × Json)}
    (h : fs.lookup k = none) : nestingFields (putField k v fs) = nestingFields fs := by
  induction fs with
  | nil => simp [putField, nestingFields, hv]
  | cons f fs ih =>
    obtain ⟨k', v'⟩ := f
    have hne : k ≠ k' := by
      rintro rfl
      simp at h
    rw [List.lookup_cons, beq_eq_false_iff_ne.2 hne] at h
    rw [putField, if_neg hne]
    split
    · simp [nestingFields, hv]
    · rw [nestingFields, ih h, nestingFields]

theorem nesting_withId (j : Json) (id : String) : nesting (withId j id) = nesting j := by
  cases j with
  | obj fs =>
    rw [withId]
    split
    · rfl
    · rename_i hid
      have hstr : nesting (.str id) = 0 := rfl
      have hnone : fs.lookup "id" = none := Option.not_isSome_iff_eq_none.1 hid
      rw [nesting, nestingFields_putField hstr hnone, nesting]
  | _ => rfl

/-! ## Calls one after the other -/

/-- The calls, each with what makes its identifier unique and its record, in order: the tree after them, and the
records of those that succeed. A call that fails leaves the tree as it is. -/
def insertEach (s : Store) : FileTree → List (String × Json) → FileTree × List Json
  | t, [] => (t, [])
  | t, (unique, record) :: calls =>
    match s.insert t unique record with
    | .error _ => s.insertEach t calls
    | .ok (t, id) => ((s.insertEach t calls).1, withId record id :: (s.insertEach t calls).2)

theorem insert_missing {s : Store} {record : Json} (h : typeOf? record = none) (t : FileTree) (unique : String) :
    s.insert t unique record = .error .missingType := by
  rw [insert, prepare, h]

theorem insertEach_leads {s : Store} {t : FileTree} {a : Address} (h : t.Leads s.itemsPath a)
    (calls : List (String × Json)) : (s.insertEach t calls).1.Leads s.itemsPath a ∧
      (s.insertEach t calls).1.contentAt a = t.contentAt a ++ (s.insertEach t calls).2.flatMap lineOf ∧
      ∀ j ∈ (s.insertEach t calls).2, IsRecord j := by
  induction calls generalizing t with
  | nil => simp [insertEach, h]
  | cons call calls ih =>
    obtain ⟨unique, record⟩ := call
    rw [insertEach]
    cases htype : typeOf? record with
    | none =>
      rw [insert_missing htype]
      exact ih h
    | some type =>
      rw [insert_of_leads h htype]
      -- the file is made if it is not there, and then appended to; the path leads to it all along
      have hopened := h.modify id
      have happended := hopened.modify (· ++ lineOf (withId record (type ++ "--" ++ unique)))
      obtain ⟨hleads, hcontent, hrecords⟩ := ih happended
      refine ⟨hleads, ?_, List.forall_mem_cons.2 ⟨isRecord_withId htype _, hrecords⟩⟩
      rw [hcontent, FileTree.contentAt_modify hopened.free, FileTree.contentAt_modify h.free]
      simp

def handedBack (s : Store) : FileTree → List (String × Json) → List (String × Json)
  | _, [] => []
  | t, (unique, record) :: calls =>
    match s.insert t unique record with
    | .error _ => s.handedBack t calls
    | .ok (t, id) => (id, record) :: s.handedBack t calls

def stored (x : String × Json) : Json := withId x.2 x.1

theorem taken_eq_stored (s : Store) (t : FileTree) (calls : List (String × Json)) :
    (s.insertEach t calls).2 = (s.handedBack t calls).map stored := by
  induction calls generalizing t with
  | nil => rfl
  | cons call calls ih =>
    obtain ⟨unique, record⟩ := call
    rw [insertEach, handedBack]
    cases s.insert t unique record with
    | error e => exact ih t
    | ok out => exact congrArg _ (ih out.1)

def identified? (c : String × Json) : Option (String × Json) :=
  (typeOf? c.2).map fun type => (type ++ "--" ++ c.1, c.2)

theorem handedBack_of_leads {s : Store} {t : FileTree} {a : Address} (h : t.Leads s.itemsPath a)
    (calls : List (String × Json)) : s.handedBack t calls = calls.filterMap identified? := by
  induction calls generalizing t with
  | nil => rfl
  | cons call calls ih =>
    obtain ⟨unique, record⟩ := call
    rw [handedBack, List.filterMap_cons, identified?]
    cases htype : typeOf? record with
    | none =>
      rw [insert_missing htype]
      exact ih h
    | some type =>
      have hopened := h.modify id
      have happended := hopened.modify (· ++ lineOf (withId record (type ++ "--" ++ unique)))
      rw [insert_of_leads h htype]
      exact congrArg _ (ih happended)

theorem taken_of_leads {s : Store} {t : FileTree} {a : Address} (h : t.Leads s.itemsPath a)
    (calls : List (String × Json)) : (s.insertEach t calls).2 =
      calls.filterMap fun c => (typeOf? c.2).map fun type => withId c.2 (type ++ "--" ++ c.1) := by
  rw [taken_eq_stored, handedBack_of_leads h, List.map_filterMap]
  simp only [identified?, Option.map_map]
  rfl

theorem insertEach_refused {s : Store} {t : FileTree} {e : OsError} (h : t.resolve true s.itemsPath = .error e)
    (calls : List (String × Json)) : s.insertEach t calls = (t, []) := by
  have happend (b : Text.Bytes) : t.append s.itemsPath b = .error e := by
    rw [FileTree.append, FileTree.openAppend, FileTree.fileAddress, h]
    rfl
  induction calls with
  | nil => rfl
  | cons call calls ih =>
    obtain ⟨unique, record⟩ := call
    rw [insertEach]
    cases hinsert : s.insert t unique record with
    | error err => exact ih
    | ok out =>
      obtain ⟨type, -, -, hok⟩ := insert_eq_ok hinsert
      rw [happend] at hok
      cases hok

theorem faithful_insertEach {s : Store} {calls : List (String × Json)} (h : ∀ c ∈ calls, Faithful c.2)
    (t : FileTree) : ∀ j ∈ (s.insertEach t calls).2, Faithful j := by
  induction calls generalizing t with
  | nil => exact fun j hj => absurd hj List.not_mem_nil
  | cons call calls ih =>
    obtain ⟨hcall, hcalls⟩ := List.forall_mem_cons.1 h
    obtain ⟨unique, record⟩ := call
    rw [insertEach]
    cases s.insert t unique record with
    | error e => exact ih hcalls t
    | ok out => exact List.forall_mem_cons.2 ⟨faithful_withId hcall _, ih hcalls _⟩

section
variable {s : Store} {t : FileTree} (hnew : ∀ a, t.resolve false s.itemsPath = .ok a → t.node? a = none)
include hnew

theorem lines_insertEach (calls : List (String × Json)) :
    s.lines (s.insertEach t calls).1 = .ok ((s.insertEach t calls).2.map fun j => Text.encode j.compact) ∧
      ∀ j ∈ (s.insertEach t calls).2, IsRecord j := by
  cases hres : t.resolve false s.itemsPath with
  | ok a =>
    have hleads := leads_of_new hres (hnew a hres)
    obtain ⟨hleads', hcontent, hrecords⟩ := insertEach_leads hleads calls
    have hempty : t.contentAt a = [] := by rw [FileTree.contentAt, hnew a hres]
    refine ⟨?_, hrecords⟩
    rw [lines_of_leads hleads', hcontent, hempty, List.nil_append, byteLines_lineOf]
  | error e =>
    -- no link stands at the end of the path, so following it makes no difference
    have hfollow : t.resolve true s.itemsPath = .error e := by
      refine (FileTree.resolve_follow fun b target hb => ?_).trans hres
      rw [hnew b hb]
      exact fun h => by cases h
    rw [insertEach_refused hfollow]
    refine ⟨?_, fun j hj => absurd hj List.not_mem_nil⟩
    rw [lines, FileTree.exists_, FileTree.get?, FileTree.lookup, hfollow]
    rfl

theorem all_insertEach (calls : List (String × Json)) :
    s.all (s.insertEach t calls).1 = reread (s.insertEach t calls).2 := by
  obtain ⟨hlines, hrecords⟩ := lines_insertEach hnew calls
  rw [all, hlines]
  exact recordsOf_lines hrecords

theorem insert_deep {a : Address} (hres : t.resolve false s.itemsPath = .ok a) {record : Json} {type : String}
    (htype : typeOf? record = some type) (hfaithful : Faithful record) (hdeep : depthLimit < nesting record)
    (unique : String) :
    ∃ t' id, s.insert t unique record = .ok (t', id) ∧ s.all t' = .error .json := by
  have hinsert := insert_of_leads (leads_of_new hres (hnew a hres)) htype unique
  refine ⟨_, _, hinsert, ?_⟩
  have hall := all_insertEach hnew [(unique, record)]
  simp only [insertEach, hinsert] at hall
  have hfaithfuls : ∀ j ∈ [withId record (type ++ "--" ++ unique)], Faithful j := by
    simpa using faithful_withId hfaithful _
  have hspoilt : ¬ ∀ j ∈ [withId record (type ++ "--" ++ unique)], nesting j ≤ depthLimit := by
    simpa [nesting_withId] using hdeep
  rw [hall, reread_faithful hfaithfuls, if_neg hspoilt]

/-- A new store reads back what it has taken, in order and by type, each record as its text reads. Where the texts
are faithful that is the records themselves, as long as none nests deeper than the limit; one that does spoils the
store. -/
theorem all_of_taken (calls : List (String × Json)) :
    let t' := (s.insertEach t calls).1
    let taken := (s.insertEach t calls).2
    s.all t' = reread taken ∧
      (∀ type, s.select t' type = (reread taken).map fun js => js.filter fun j => typeOf? j = some type) ∧
      ((∀ c ∈ calls, Faithful c.2) →
        reread taken = if ∀ j ∈ taken, nesting j ≤ depthLimit then .ok taken else .error .json) := by
  have hall := all_insertEach hnew calls
  refine ⟨hall, fun type => ?_, fun h => reread_faithful (faithful_insertEach h t)⟩
  rw [select, hall]

end

/-! ## Runs of calls on a new store -/

theorem caseTree_new : ∀ a, caseTree.resolve false caseStore.itemsPath = .ok a → caseTree.node? a = none := by
  intro a h
  rw [caseTree_items.1] at h
  cases h
  exact caseTree_items.2

theorem taken_caseStore (calls : List (String × Json)) : (caseStore.insertEach caseTree calls).2 =
    calls.filterMap fun c => (typeOf? c.2).map fun type => withId c.2 (type ++ "--" ++ c.1) :=
  taken_of_leads caseTree_leads calls

def service : Json := .obj [("name", .str "spooler\n"), ("type", .str "service")]

def hotfix : Json := .obj [("id", .str "KB123"), ("rest", .arr [.int (-5), .null]), ("type", .str "hotfix")]

def nameless : Json := .obj [("name", .str "x")]

def mixedCalls : List (String × Json) := [("1", service), ("2", nameless), ("3", hotfix)]

theorem faithful_mixedCalls : ∀ c ∈ mixedCalls, Faithful c.2 := by
  have hservice : Faithful service := ⟨by decide, trivial, trivial, trivial⟩
  have hnameless : Faithful nameless := ⟨by simp, trivial, trivial⟩
  have hhotfix : Faithful hotfix := by
    have hsmall : Json.isWord (-5) := ⟨by decide, by decide⟩
    exact ⟨by decide, trivial, ⟨hsmall, trivial, trivial⟩, trivial, trivial⟩
  simp [mixedCalls, hservice, hnameless, hhotfix]

theorem mixedCalls_read_back :
    caseStore.all (caseStore.insertEach caseTree mixedCalls).1 = .ok [withId service "service--1", hotfix] ∧
      caseStore.select (caseStore.insertEach caseTree mixedCalls).1 "hotfix" = .ok [hotfix] := by
  obtain ⟨hall, hselect, hread⟩ := all_of_taken caseTree_new mixedCalls
  have htaken : (caseStore.insertEach caseTree mixedCalls).2 = [withId service "service--1", hotfix] := by
    rw [taken_caseStore]
    rfl
  have hreadable := hread faithful_mixedCalls
  rw [htaken, if_pos (by decide)] at hreadable
  rw [htaken, hreadable] at hall hselect
  refine ⟨hall, (hselect "hotfix").trans ?_⟩
  rfl

def nested : Nat → Json
  | 0 => .null
  | n + 1 => .arr [nested n]

theorem nesting_nested (n : Nat) : nesting (nested n) = n := by
  induction n with
  | zero => rfl
  | succ n ih => simp [nested, nesting, Json.nestingElements, ih]

theorem faithful_nested (n : Nat) : Faithful (nested n) := by
  induction n with
  | zero => trivial
  | succ n ih => exact ⟨ih, trivial⟩

def deepRecord : Json := .obj [("type", .str "note"), ("value", nested depthLimit)]

theorem deepRecord_unreadable : ∃ t' id, caseStore.insert caseTree "1" deepRecord = .ok (t', id) ∧
    caseStore.all t' = .error .json := by
  have hfaithful : Faithful deepRecord := ⟨by decide, trivial, faithful_nested depthLimit, trivial⟩
  have hdeep : depthLimit < nesting deepRecord := by
    simp [deepRecord, nesting, nestingFields, nesting_nested]
  exact insert_deep caseTree_new caseTree_items.1 rfl hfaithful hdeep "1"

end Store

end Casework
