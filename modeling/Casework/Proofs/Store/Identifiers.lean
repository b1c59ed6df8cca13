import Casework.Proofs.Store.Appending

/-!
# The identifiers that are handed back

A store makes an identifier for each record that it takes, hands it back, and puts it into the record unless that
brings one along. So what is handed back names the record that was stored just if none was brought, or the same.
-/

namespace Casework

namespace Store

open Json (Faithful nesting depthLimit)

def Carries (j : Json) (id : String) : Prop := j.field? "id" = some (.str id)

theorem field?_withId (fs : List (String × Json)) (id : String) :
    (withId (.obj fs) id).field? "id" = some (((Json.obj fs).field? "id").getD (.str id)) := by
  change _ = some ((fs.lookup "id").getD (.str id))
  rw [withId]
  cases hid : fs.lookup "id" with
  | some j => exact hid
  | none =>
    change (Json.putField "id" (.str id) fs).lookup "id" = _
    rw [Json.putField_eq_put, NameMap.lookup_put, if_pos rfl]
    rfl

theorem carries_withId {record : Json} (h : IsRecord record) (id id' : String) : Carries (withId record id) id' ↔
    Carries record id' ∨ record.field? "id" = none ∧ id = id' := by
  obtain ⟨fs, rfl⟩ := h
  rw [Carries, Carries, field?_withId]
  cases (Json.obj fs).field? "id" <;> simp

/-! ## Calls one after the other -/

theorem handedBack_appends (s : Store) (t : FileTree) (calls : List (String × Json)) :
    (s.handedBack t calls).foldlM (fun t x => t.append s.itemsPath (lineOf (stored x))) t =
      .ok (s.insertEach t calls).1 := by
  induction calls generalizing t with
  | nil => rfl
  | cons call calls ih =>
    obtain ⟨unique, record⟩ := call
    rw [insertEach, handedBack]
    cases hinsert : s.insert t unique record with
    | error e => exact ih t
    | ok out =>
      obtain ⟨t', id⟩ := out
      obtain ⟨-, -, -, happend⟩ := insert_eq_ok hinsert
      rw [List.foldlM_cons]
      change (t.append s.itemsPath (lineOf (withId record id)) >>= _) = _
      rw [happend]
      exact ih t'

theorem handedBack_sublist (s : Store) (t : FileTree) (calls : List (String × Json)) :
    (s.handedBack t calls).Sublist (calls.filterMap identified?) := by
  induction calls generalizing t with
  | nil => exact List.Sublist.refl _
  | cons call calls ih =>
    obtain ⟨unique, record⟩ := call
    rw [handedBack]
    cases hinsert : s.insert t unique record with
    | error e => exact (ih t).trans (List.Sublist.filterMap _ (List.sublist_cons_self _ _))
    | ok out =>
      obtain ⟨t', id⟩ := out
      obtain ⟨type, htype, rfl, -⟩ := insert_eq_ok hinsert
      rw [List.filterMap_cons, identified?, htype]
      exact (ih t').cons_cons _

theorem mem_of_handedBack {s : Store} {t : FileTree} {calls : List (String × Json)} {x : String × Json}
    (hx : x ∈ s.handedBack t calls) : IsRecord x.2 ∧ ∃ c ∈ calls, c.2 = x.2 := by
  obtain ⟨c, hmem, hc⟩ := List.mem_filterMap.1 ((handedBack_sublist s t calls).subset hx)
  obtain ⟨type, htype, rfl⟩ := Option.map_eq_some_iff.1 hc
  exact ⟨obj_of_typeOf? htype, c, hmem, rfl⟩

/-! ## Distinct identifiers -/

def uuidLength : Nat := 36

/-- The texts that make identifiers unique are of one length, so the types do not blur them. -/
theorem unique_of_identifier {type type' u v : String} (hu : u.length = uuidLength) (hv : v.length = uuidLength)
    (h : type ++ "--" ++ u = type' ++ "--" ++ v) : u = v := by
  have hchars : (type ++ "--").toList ++ u.toList = (type' ++ "--").toList ++ v.toList := by
    simpa using congrArg String.toList h
  have hlength : u.toList.length = v.toList.length := by
    rw [String.length_toList, String.length_toList, hu, hv]
  exact String.toList_injective (List.append_inj_right' hchars hlength)

theorem nodup_handedBack {calls : List (String × Json)} (hdistinct : (calls.map (·.1)).Nodup)
    (hlength : ∀ c ∈ calls, c.1.length = uuidLength) (s : Store) (t : FileTree) :
    ((s.handedBack t calls).map (·.1)).Nodup := by
  have hcalls : (calls.filterMap identified?).Pairwise fun x y => x.1 ≠ y.1 := by
    rw [List.pairwise_filterMap]
    refine List.Pairwise.imp_of_mem ?_ (List.pairwise_map.1 hdistinct)
    intro c d hc hd hne x hx y hy hsame
    obtain ⟨type, -, rfl⟩ := Option.map_eq_some_iff.1 hx
    obtain ⟨type', -, rfl⟩ := Option.map_eq_some_iff.1 hy
    exact hne (unique_of_identifier (hlength c hc) (hlength d hd) hsame)
  exact List.pairwise_map.2 (hcalls.sublist (handedBack_sublist s t calls))

/-! ## What an identifier leads to -/

/-- One place of the list, and no other, holds a record of this identifier. -/
def Identifies (js : List Json) (id : String) : Prop := ∃! k : Nat, ∃ j, js[k]? = some j ∧ Carries j id

theorem identifies_append {old : List Json} {id : String} (h : ∀ j ∈ old, ¬ Carries j id) (js : List Json) :
    Identifies (old ++ js) id ↔ Identifies js id := by
  have hplace (k : Nat) : (∃ j, (old ++ js)[k]? = some j ∧ Carries j id) ↔
      ∃ m, k = old.length + m ∧ ∃ j, js[m]? = some j ∧ Carries j id := by
    by_cases hk : k < old.length
    · rw [List.getElem?_append_left hk]
      constructor
      · rintro ⟨j, hj, hid⟩
        exact absurd hid (h j (List.mem_of_getElem? hj))
      · rintro ⟨m, rfl, -⟩
        omega
    · obtain ⟨m, rfl⟩ := Nat.exists_eq_add_of_le (Nat.le_of_not_lt hk)
      rw [List.getElem?_append_right (Nat.le_add_right _ _), Nat.add_sub_cancel_left]
      simp
  unfold Identifies
  simp only [hplace]
  constructor
  · rintro ⟨k, ⟨m, rfl, hm⟩, honly⟩
    refine ⟨m, hm, fun n hn => ?_⟩
    have := honly (old.length + n) ⟨n, rfl, hn⟩
    omega
  · rintro ⟨m, hm, honly⟩
    refine ⟨old.length + m, ⟨m, rfl, hm⟩, ?_⟩
    rintro _ ⟨n, rfl, hn⟩
    rw [honly n hn]

section
variable {s : Store} {t : FileTree} {calls : List (String × Json)} (hdistinct : (calls.map (·.1)).Nodup)
  (hlength : ∀ c ∈ calls, c.1.length = uuidLength)
include hdistinct hlength

theorem carries_stored {i k : Nat} {x y : String × Json} (hx : (s.handedBack t calls)[i]? = some x)
    (hy : (s.handedBack t calls)[k]? = some y) :
    Carries (stored y) x.1 ↔ Carries y.2 x.1 ∨ y.2.field? "id" = none ∧ k = i := by
  have hsame : y.1 = x.1 ↔ k = i := by
    have hnodup := nodup_handedBack hdistinct hlength s t
    have hxs : ((s.handedBack t calls).map (·.1))[i]? = some x.1 := by rw [List.getElem?_map, hx]; rfl
    have hys : ((s.handedBack t calls).map (·.1))[k]? = some y.1 := by rw [List.getElem?_map, hy]; rfl
    constructor
    · intro heq
      obtain ⟨hk, -⟩ := List.getElem?_eq_some_iff.1 hys
      exact (List.getElem?_inj hk hnodup).1 (by rw [hxs, hys, heq])
    · rintro rfl
      rw [hx] at hy
      cases hy
      rfl
  rw [stored, carries_withId ((mem_of_handedBack (List.mem_of_getElem? hy)).1), hsame]

theorem identifies_stored {x : String × Json} (hx : x ∈ s.handedBack t calls) :
    Identifies ((s.handedBack t calls).map stored) x.1 ↔
      if x.2.field? "id" = none then ∀ y ∈ s.handedBack t calls, ¬ Carries y.2 x.1
      else Identifies ((s.handedBack t calls).map (·.2)) x.1 := by
  obtain ⟨i, hi⟩ := List.mem_iff_getElem?.1 hx
  have hbrought (k : Nat) : (∃ j, ((s.handedBack t calls).map (·.2))[k]? = some j ∧ Carries j x.1) ↔
      ∃ y, (s.handedBack t calls)[k]? = some y ∧ Carries y.2 x.1 := by
    rw [List.getElem?_map]
    constructor
    · rintro ⟨j, hj, hid⟩
      obtain ⟨y, hy, rfl⟩ := Option.map_eq_some_iff.1 hj
      exact ⟨y, hy, hid⟩
    · rintro ⟨y, hy, hid⟩
      exact ⟨y.2, by rw [hy]; rfl, hid⟩
  have hplace (k : Nat) : (∃ j, ((s.handedBack t calls).map stored)[k]? = some j ∧ Carries j x.1) ↔
      (∃ y, (s.handedBack t calls)[k]? = some y ∧ Carries y.2 x.1) ∨ x.2.field? "id" = none ∧ k = i := by
    constructor
    · rintro ⟨j, hj, hid⟩
      rw [List.getElem?_map] at hj
      obtain ⟨y, hy, rfl⟩ := Option.map_eq_some_iff.1 hj
      rcases (carries_stored hdistinct hlength hi hy).1 hid with hid | ⟨hnone, rfl⟩
      · exact .inl ⟨y, hy, hid⟩
      · rw [hi] at hy
        cases hy
        exact .inr ⟨hnone, rfl⟩
    · have hstored {y : String × Json} (hy : (s.handedBack t calls)[k]? = some y) :
          ((s.handedBack t calls).map stored)[k]? = some (stored y) := by rw [List.getElem?_map, hy]; rfl
      rintro (⟨y, hy, hid⟩ | ⟨hnone, rfl⟩)
      · exact ⟨stored y, hstored hy, (carries_stored hdistinct hlength hi hy).2 (.inl hid)⟩
      · exact ⟨stored x, hstored hi, (carries_stored hdistinct hlength hi hi).2 (.inr ⟨hnone, rfl⟩)⟩
  unfold Identifies
  simp only [hplace, hbrought]
  split
  · rename_i hnone
    constructor
    · rintro ⟨k, -, honly⟩ y hy hid
      obtain ⟨n, hn⟩ := List.mem_iff_getElem?.1 hy
      -- the record that brings the identifier would stand where one without any does
      have hsame : n = i := (honly n (.inl ⟨y, hn, hid⟩)).trans (honly i (.inr ⟨hnone, rfl⟩)).symm
      rw [hsame, hi] at hn
      cases hn
      rw [Carries, hnone] at hid
      cases hid
    · intro hnever
      refine ⟨i, .inr ⟨hnone, rfl⟩, ?_⟩
      rintro n (⟨y, hn, hid⟩ | ⟨-, rfl⟩)
      · exact absurd hid (hnever y (List.mem_of_getElem? hn))
      · rfl
  · rename_i hown
    simp only [hown, false_and, or_false]

end

/-- Identifiers that are handed back differ. One is that of the record stored just if the record brought none, or
brought the same. Behind records that know nothing of it, it identifies one of those stored just if its record brought
none and no other record brings it, or, where that brought one too, just if one record alone brings it. A readable
store gives those stored behind what it gave. -/
theorem ids_of_run (s : Store) (t : FileTree) {calls : List (String × Json)} (hdistinct : (calls.map (·.1)).Nodup)
    (hlength : ∀ c ∈ calls, c.1.length = uuidLength) :
    let handed := s.handedBack t calls
    let t' := (s.insertEach t calls).1
    (handed.map (·.1)).Nodup ∧
      handed.foldlM (fun t x => t.append s.itemsPath (lineOf (stored x))) t = .ok t' ∧
      (∀ x ∈ handed, Carries (stored x) x.1 ↔ x.2.field? "id" = none ∨ Carries x.2 x.1) ∧
      (∀ old, ∀ x ∈ handed, (∀ j ∈ old, ¬ Carries j x.1) →
        (Identifies (old ++ handed.map stored) x.1 ↔
          if x.2.field? "id" = none then ∀ y ∈ handed, ¬ Carries y.2 x.1
          else Identifies (handed.map (·.2)) x.1)) ∧
      ∀ a old, t.Leads s.itemsPath a → s.all t = .ok old → isReady (t.contentAt a) = true →
        s.all t' = (reread (handed.map stored)).map (old ++ ·) ∧
          ((∀ c ∈ calls, Faithful c.2 ∧ nesting c.2 ≤ depthLimit) → s.all t' = .ok (old ++ handed.map stored)) := by
  intro handed t'
  refine ⟨nodup_handedBack hdistinct hlength s t, handedBack_appends s t calls, fun x hx => ?_, fun old x hx hold => ?_,
    fun a old h hold hready => ?_⟩
  · rw [stored, carries_withId (mem_of_handedBack hx).1, or_comm]
    simp
  · -- records of before do not carry the id, so it is a question of the new ones
    rw [identifies_append hold]
    exact identifies_stored hdistinct hlength hx
  · have hall : s.all t' = (reread (handed.map stored)).map (old ++ ·) := by
      rw [all_extended h hold, taken_eq_stored, hready, Bool.or_true, if_pos rfl]
    refine ⟨hall, fun hread => ?_⟩
    have hstored : ∀ j ∈ handed.map stored, Faithful j ∧ nesting j ≤ depthLimit := by
      intro j hj
      obtain ⟨x, hx, rfl⟩ := List.mem_map.1 hj
      obtain ⟨-, c, hc, hrecord⟩ := mem_of_handedBack hx
      obtain ⟨hfaithful, hdepth⟩ := hread c hc
      rw [hrecord] at hfaithful hdepth
      rw [stored, nesting_withId]
      exact ⟨faithful_withId hfaithful _, hdepth⟩
    rw [hall, reread_faithful fun j hj => (hstored j hj).1, if_pos fun j hj => (hstored j hj).2]
    rfl

def twoCalls : List (String × Json) :=
  [("00000000-0000-4000-8000-000000000001", service), ("00000000-0000-4000-8000-000000000002", hotfix)]

theorem carries_service (id : String) : ¬ Carries service id := by
  intro h
  cases h

theorem carries_hotfix (id : String) : Carries hotfix id ↔ id = "KB123" := by
  change some (Json.str "KB123") = some (Json.str id) ↔ _
  simp [eq_comm]

def twoStored : List Json := [withId service "service--00000000-0000-4000-8000-000000000001", hotfix]

theorem twoCalls_identified : caseStore.all (caseStore.insertEach caseTree twoCalls).1 = .ok twoStored ∧
    Identifies twoStored "service--00000000-0000-4000-8000-000000000001" ∧
    ¬ Identifies twoStored "hotfix--00000000-0000-4000-8000-000000000002" := by
  have hdistinct : (twoCalls.map (·.1)).Nodup := by decide
  have hlength : ∀ c ∈ twoCalls, c.1.length = uuidLength := by decide
  have hhanded : caseStore.handedBack caseTree twoCalls =
      [("service--00000000-0000-4000-8000-000000000001", service),
        ("hotfix--00000000-0000-4000-8000-000000000002", hotfix)] := handedBack_of_leads caseTree_leads twoCalls
  obtain ⟨-, -, -, hids, hreadable⟩ := ids_of_run caseStore caseTree hdistinct hlength
  have hnew : caseStore.all caseTree = reread [] := by
    have hall := all_insertEach caseTree_new []
    simpa only [insertEach] using hall
  have hready : isReady (caseTree.contentAt ["case.store", "items.jsonl"]) = true := by
    rw [FileTree.contentAt, caseTree_items.2]
    rfl
  have hread : ∀ c ∈ twoCalls, Faithful c.2 ∧ nesting c.2 ≤ depthLimit := by
    have hservice := faithful_mixedCalls ("1", service) (by simp [mixedCalls])
    have hhotfix := faithful_mixedCalls ("3", hotfix) (by simp [mixedCalls])
    have hshallow : nesting service ≤ depthLimit ∧ nesting hotfix ≤ depthLimit := by decide
    simpa [twoCalls] using ⟨⟨hservice, hshallow.1⟩, hhotfix, hshallow.2⟩
  have hall := (hreadable _ [] caseTree_leads hnew hready).2 hread
  rw [hhanded] at hall hids
  refine ⟨hall, ?_, ?_⟩
  · have hnone : service.field? "id" = none := rfl
    refine (hids [] _ List.mem_cons_self (by simp)).2 ((if_pos hnone).mpr ?_)
    simp [carries_hotfix, carries_service]
  · intro hid
    have hown : hotfix.field? "id" ≠ none := fun hnone => by cases hnone
    have hbrought := (if_neg hown).mp ((hids [] _ (List.mem_cons_of_mem _ List.mem_cons_self) (by simp)).1 hid)
    obtain ⟨k, ⟨j, hj, hcarries⟩, -⟩ := hbrought
    have hmem := List.mem_of_getElem? hj
    simp only [List.map_cons, List.map_nil, List.mem_cons, List.not_mem_nil, or_false] at hmem
    rcases hmem with rfl | rfl
    · exact carries_service _ hcarries
    · have := (carries_hotfix _).1 hcarries
      simp at this

theorem ownId_not_handedBack : ∃ t' id, caseStore.insert caseTree "00000000-0000-4000-8000-000000000001" hotfix =
    .ok (t', id) ∧ caseStore.all t' = .ok [hotfix] ∧ ¬ Carries hotfix id := by
  have htype : typeOf? hotfix = some "hotfix" := rfl
  have hinsert := insert_of_leads caseTree_leads htype "00000000-0000-4000-8000-000000000001"
  have hall := all_insertEach caseTree_new [("00000000-0000-4000-8000-000000000001", hotfix)]
  simp only [insertEach, hinsert] at hall
  have hfaithful : ∀ j ∈ [hotfix], Faithful j := by
    simpa using faithful_mixedCalls ("3", hotfix) (by simp [mixedCalls])
  refine ⟨_, _, hinsert, ?_, ?_⟩
  · exact hall.trans ((reread_faithful hfaithful).trans (if_pos (by decide)))
  · rw [carries_hotfix]
    decide

end Store

end Casework
