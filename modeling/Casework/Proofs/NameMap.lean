import Casework.NameMap
import Mathlib.Data.List.Nodup

/-!
# Look-ups in maps keyed by name

What a look-up finds after each operation. Two maps with the same look-ups are equal, and the keys
of a map are fixed by which of them are there.
-/

namespace Casework.NameMap

variable {α β : Type u}

/-! ## Entries -/

theorem keys_sorted (m : NameMap α) : m.keys.Pairwise (· < ·) := List.pairwise_map.mpr m.sorted

theorem keys_nodup (m : NameMap α) : m.keys.Nodup := m.keys_sorted.imp String.ne_of_lt

theorem lookup_of_mem {α β : Type*} [BEq α] [LawfulBEq α] {l : List (α × β)} (hd : (l.map (·.1)).Nodup) {e : α × β}
    (he : e ∈ l) : l.lookup e.1 = some e.2 := by
  induction l with
  | nil => cases he
  | cons d l ih =>
    obtain ⟨hnew, hd⟩ := List.nodup_cons.mp hd
    rcases List.mem_cons.mp he with rfl | he
    · exact List.lookup_cons_self
    · have hne : e.1 ≠ d.1 := fun h => hnew (List.mem_map.mpr ⟨e, he, h⟩)
      rw [List.lookup_cons, beq_eq_false_iff_ne.mpr hne]
      exact ih hd he

theorem find?_eq_some {m : NameMap α} {k : String} {v : α} :
    m.find? k = some v ↔ (k, v) ∈ m.entries := by
  constructor
  · intro h
    obtain ⟨l₁, l₂, he, -⟩ := List.lookup_eq_some_iff.mp h
    rw [he]
    simp
  · exact fun h => lookup_of_mem m.keys_nodup h

theorem mem_keys {m : NameMap α} {k : String} : k ∈ m.keys ↔ ∃ v, m.find? k = some v := by
  simp only [keys, List.mem_map, Prod.exists, exists_and_right, exists_eq_right, find?_eq_some]

theorem find?_eq_none {m : NameMap α} {k : String} : m.find? k = none ↔ k ∉ m.keys := by
  rw [mem_keys]
  cases m.find? k <;> simp

/-! ## Extensionality -/

theorem eq_of_sorted {l l' : List String} (h : l.Pairwise (· < ·)) (h' : l'.Pairwise (· < ·))
    (hm : ∀ k, k ∈ l ↔ k ∈ l') : l = l' := by
  have hp : l.Perm l' :=
    (List.perm_ext_iff_of_nodup (h.imp String.ne_of_lt) (h'.imp String.ne_of_lt)).mpr fun k => hm k
  exact hp.eq_of_pairwise (fun _ _ _ _ hab hba => absurd hba (String.lt_asymm hab)) h h'

theorem keys_eq {m : NameMap α} {m' : NameMap β} (h : ∀ k, k ∈ m.keys ↔ k ∈ m'.keys) :
    m.keys = m'.keys := eq_of_sorted m.keys_sorted m'.keys_sorted h

theorem ext_find? {m m' : NameMap α} (h : ∀ k, m.find? k = m'.find? k) : m = m' := by
  have hnd : ∀ m : NameMap α, m.entries.Nodup := fun m =>
    m.sorted.imp fun hlt he => String.ne_of_lt hlt (congrArg Prod.fst he)
  have hp : m.entries.Perm m'.entries := by
    rw [List.perm_ext_iff_of_nodup (hnd m) (hnd m')]
    intro e
    rw [← find?_eq_some, ← find?_eq_some, h]
  have he : m.entries = m'.entries :=
    hp.eq_of_pairwise (fun _ _ _ _ hab hba => absurd hba (String.lt_asymm hab)) m.sorted m'.sorted
  cases m
  cases m'
  cases he
  rfl

/-! ## Operations -/

@[simp] theorem find?_empty (k : String) : (empty : NameMap α).find? k = none := rfl

theorem lookup_cons_ite (j : String) (e : String × α) (l : List (String × α)) :
    (e :: l).lookup j = if j = e.1 then some e.2 else l.lookup j := by
  rw [List.lookup_cons]
  by_cases h : j = e.1
  · rw [beq_iff_eq.mpr h, if_pos h]
  · rw [beq_eq_false_iff_ne.mpr h, if_neg h]

theorem lookup_put (k j : String) (v : α) (l : List (String × α)) :
    (put k v l).lookup j = if j = k then some v else l.lookup j := by
  induction l with
  | nil => rw [put, lookup_cons_ite]
  | cons e l ih =>
    obtain ⟨k', v'⟩ := e
    simp only [put]
    split
    · rw [lookup_cons_ite]
    · split
      · rename_i hk
        subst hk
        rw [lookup_cons_ite, lookup_cons_ite]
        by_cases h : j = k
        · rw [if_pos h, if_pos h]
        · rw [if_neg h, if_neg h, if_neg h]
      · rename_i hk
        rw [lookup_cons_ite, lookup_cons_ite, ih]
        by_cases h : j = k
        · subst h
          rw [if_neg hk, if_pos rfl, if_pos rfl]
        · rw [if_neg h, if_neg h]

@[simp] theorem find?_insert (m : NameMap α) (k j : String) (v : α) :
    (m.insert k v).find? j = if j = k then some v else m.find? j := lookup_put k j v m.entries

theorem mem_keys_insert {m : NameMap α} {k j : String} {v : α} :
    j ∈ (m.insert k v).keys ↔ j = k ∨ j ∈ m.keys := by
  rw [mem_keys, mem_keys, find?_insert]
  by_cases hj : j = k <;> simp [hj]

theorem lookup_map (f : α → β) (k : String) (l : List (String × α)) :
    (l.map fun e => (e.1, f e.2)).lookup k = (l.lookup k).map f := by
  induction l with
  | nil => rfl
  | cons e l ih =>
    rw [List.map_cons, lookup_cons_ite, lookup_cons_ite, ih]
    by_cases h : k = e.1
    · rw [if_pos h, if_pos h]
      rfl
    · rw [if_neg h, if_neg h]

@[simp] theorem find?_map (f : α → β) (m : NameMap α) (k : String) :
    (m.map f).find? k = (m.find? k).map f := lookup_map f k m.entries

/-! ## Entries given one after the other -/

def lastGiven? (given : List (String × α)) (k : String) : Option α := (given.filter (·.1 = k)).getLast?.map (·.2)

theorem lastGiven?_cons (e : String × α) (given : List (String × α)) (k : String) :
    lastGiven? (e :: given) k = (lastGiven? given k).or (if k = e.1 then some e.2 else none) := by
  unfold lastGiven?
  by_cases hk : e.1 = k
  · rw [List.filter_cons_of_pos (by simpa using hk), List.getLast?_cons, if_pos hk.symm]
    cases (given.filter (·.1 = k)).getLast? <;> rfl
  · rw [List.filter_cons_of_neg (by simpa using hk), if_neg (Ne.symm hk), Option.or_none]

theorem lastGiven?_append (given given' : List (String × α)) (k : String) :
    lastGiven? (given ++ given') k = (lastGiven? given' k).or (lastGiven? given k) := by
  unfold lastGiven?
  rw [List.filter_append, List.getLast?_append]
  cases (given'.filter (·.1 = k)).getLast? <;> rfl

theorem lastGiven?_isSome {given : List (String × α)} {k : String} :
    (lastGiven? given k).isSome = true ↔ k ∈ given.map (·.1) := by
  induction given with
  | nil => simp [lastGiven?]
  | cons e given ih =>
    rw [lastGiven?_cons, Option.isSome_or, Bool.or_eq_true, ih, List.map_cons, List.mem_cons, or_comm]
    by_cases hk : k = e.1 <;> simp [hk]

theorem find?_foldl_insert (given : List (String × α)) (m : NameMap α) (k : String) :
    (given.foldl (fun m e => m.insert e.1 e.2) m).find? k = (lastGiven? given k).or (m.find? k) := by
  induction given generalizing m with
  | nil => rfl
  | cons e given ih =>
    rw [List.foldl_cons, ih, find?_insert, lastGiven?_cons, Option.or_assoc]
    by_cases hk : k = e.1
    · rw [if_pos hk, if_pos hk, Option.some_or]
    · rw [if_neg hk, if_neg hk, Option.none_or]

theorem find?_ofList (given : List (String × α)) (k : String) : (ofList given).find? k = lastGiven? given k := by
  rw [ofList, find?_foldl_insert, find?_empty, Option.or_none]

theorem lastGiven?_entries (m : NameMap α) (k : String) : lastGiven? m.entries k = m.find? k := by
  have hnodup : (m.entries.map (·.1)).Nodup := m.keys_nodup
  rw [find?]
  generalize m.entries = l at hnodup ⊢
  induction l with
  | nil => rfl
  | cons e l ih =>
    obtain ⟨hnew, hnodup⟩ := List.nodup_cons.1 hnodup
    rw [lastGiven?_cons, ih hnodup, lookup_cons_ite]
    by_cases hk : k = e.1
    · have hnone : l.lookup k = none := by
        rw [List.lookup_eq_none_iff]
        intro e' he'
        rw [bne_iff_ne]
        rintro rfl
        exact hnew (List.mem_map.2 ⟨e', he', hk⟩)
      rw [hnone, if_pos hk, Option.none_or]
    · rw [if_neg hk, if_neg hk, Option.or_none]

theorem put_split (k : String) (l : List (String × α)) : ∃ before behind, ∀ v, put k v l = before ++ (k, v) :: behind := by
  induction l with
  | nil => exact ⟨[], [], fun _ => rfl⟩
  | cons e l ih =>
    by_cases hlt : k < e.1
    · exact ⟨[], e :: l, fun v => by simp [put, hlt]⟩
    by_cases heq : k = e.1
    · exact ⟨[], l, fun v => by simp [put, heq]⟩
    · obtain ⟨before, behind, hput⟩ := ih
      exact ⟨e :: before, behind, fun v => by simp [put, hlt, heq, hput]⟩

end Casework.NameMap
