import Mathlib.Data.List.GetD
import Casework.Graph
import Casework.Proofs.NameMap

/-!
# Links and the requirements behind them

Links that come from tasks hold their names in order, and a link for each pair of a task and one of its
requirements, once and in both directions.
-/

namespace Casework

/-! ## Increasing lists of nodes -/

theorem mem_insertNode {n m : Nat} {l : List Nat} : m ∈ insertNode n l ↔ m = n ∨ m ∈ l := by
  induction l with
  | nil => simp [insertNode]
  | cons a l ih =>
    simp only [insertNode]
    split
    · simp
    · split
      · rename_i h
        subst h
        simp
      · rw [List.mem_cons, ih, List.mem_cons]
        exact or_left_comm

theorem insertNode_sorted {n : Nat} {l : List Nat} (h : l.Pairwise (· < ·)) :
    (insertNode n l).Pairwise (· < ·) := by
  induction l with
  | nil => simp [insertNode]
  | cons a l ih =>
    obtain ⟨ha, hl⟩ := List.pairwise_cons.mp h
    simp only [insertNode]
    split
    · rename_i hn
      refine List.pairwise_cons.mpr ⟨fun b hb => ?_, h⟩
      rcases List.mem_cons.mp hb with rfl | hb
      · exact hn
      · exact Nat.lt_trans hn (ha b hb)
    · split
      · exact h
      · refine List.pairwise_cons.mpr ⟨fun b hb => ?_, ih hl⟩
        rcases mem_insertNode.mp hb with rfl | hb
        · omega
        · exact ha b hb

theorem mem_sortNodes {m : Nat} {l : List Nat} : m ∈ sortNodes l ↔ m ∈ l := by
  induction l with
  | nil => rfl
  | cons a l ih =>
    rw [sortNodes, List.foldr_cons, mem_insertNode, List.mem_cons]
    exact or_congr_right ih

theorem sortNodes_sorted (l : List Nat) : (sortNodes l).Pairwise (· < ·) := by
  induction l with
  | nil => exact .nil
  | cons a l ih => exact insertNode_sorted ih

theorem le_of_find?_eq_some {l : List Nat} {q : Nat → Bool} {d : Nat} (hl : l.Pairwise (· < ·))
    (hd : l.find? q = some d) : ∀ p ∈ l, q p → d ≤ p := by
  induction l with
  | nil => cases hd
  | cons a l ih =>
    obtain ⟨ha, hl⟩ := List.pairwise_cons.mp hl
    intro p hp hq
    rw [List.find?_cons] at hd
    split at hd
    · cases hd
      rcases List.mem_cons.mp hp with rfl | hp
      · exact Nat.le_refl _
      · exact Nat.le_of_lt (ha p hp)
    · rename_i hqa
      rcases List.mem_cons.mp hp with rfl | hp
      · rw [hq] at hqa
        cases hqa
      · exact ih hl hd p hp hq

/-! ## Requirements -/

def Requires (tasks : NameMap Task) (a b : String) : Prop :=
  ∃ t, tasks.find? a = some t ∧ b ∈ t.requires

theorem Requires.mem_keys {tasks : NameMap Task} {a b : String} (h : Requires tasks a b) :
    a ∈ tasks.keys := by
  obtain ⟨t, ht, -⟩ := h
  exact NameMap.mem_keys.mpr ⟨t, ht⟩

namespace Links

/-- What every stage after the links relies on. -/
structure Sound (l : Links) : Prop where
  names_sorted : l.names.toList.Pairwise (· < ·)
  preds_size : l.predecessors.size = l.size
  preds_lt : ∀ n, ∀ p ∈ l.preds n, p < l.size
  preds_sorted : ∀ n, (l.preds n).Pairwise (· < ·)
  succs_sorted : ∀ p, (l.succs p).Pairwise (· < ·)
  mem_succs : ∀ n p, n ∈ l.succs p ↔ p ∈ l.preds n

structure Describes (l : Links) (tasks : NameMap Task) : Prop where
  names : l.names.toList = tasks.keys
  mem_preds : ∀ n p, p ∈ l.preds n ↔
    n < l.size ∧ p < l.size ∧ Requires tasks (l.name n) (l.name p)
  resolved : ∀ a b, Requires tasks a b → b ∈ tasks.keys

/-! ## Names of nodes -/

section
variable {l : Links}

theorem names_getElem? {n : Nat} (hn : n < l.size) : l.names.toList[n]? = some (l.name n) := by
  have hn' : n < l.names.size := hn
  simp [name, hn']

theorem lt_of_mem_preds (hl : l.Sound) {n p : Nat} (h : p ∈ l.preds n) : n < l.size := by
  rw [← hl.preds_size]
  refine Classical.byContradiction fun hn => ?_
  simp [preds, Nat.not_lt.mp hn] at h

theorem name_lt_name (hl : l.Sound) {n m : Nat} (hnm : n < m) (hm : m < l.size) :
    l.name n < l.name m := by
  have hn := names_getElem? (Nat.lt_trans hnm hm)
  have hm := names_getElem? hm
  obtain ⟨hn', hn⟩ := List.getElem?_eq_some_iff.mp hn
  obtain ⟨hm', hm⟩ := List.getElem?_eq_some_iff.mp hm
  rw [← hn, ← hm]
  exact List.pairwise_iff_getElem.mp hl.names_sorted n m hn' hm' hnm

theorem name_inj (hl : l.Sound) {n m : Nat} (hn : n < l.size) (hm : m < l.size)
    (h : l.name n = l.name m) : n = m := by
  rcases Nat.lt_trichotomy n m with hlt | rfl | hlt
  · exact absurd h (String.ne_of_lt (name_lt_name hl hlt hm))
  · rfl
  · exact absurd h.symm (String.ne_of_lt (name_lt_name hl hlt hn))

theorem mem_names {a : String} : a ∈ l.names.toList ↔ ∃ n, n < l.size ∧ l.name n = a := by
  constructor
  · intro h
    obtain ⟨n, hn, rfl⟩ := List.mem_iff_getElem.mp h
    have hn' : n < l.size := by simpa [size] using hn
    refine ⟨n, hn', ?_⟩
    have := names_getElem? hn'
    rw [List.getElem?_eq_getElem hn] at this
    exact (Option.some.inj this).symm
  · rintro ⟨n, hn, rfl⟩
    exact List.mem_of_getElem? (names_getElem? hn)

theorem node?_name (hl : l.Sound) {n : Nat} (hn : n < l.size) : l.node? (l.name n) = some n := by
  obtain ⟨hn', hg⟩ := List.getElem?_eq_some_iff.mp (names_getElem? hn)
  refine List.idxOf?_eq_some_iff.mpr ⟨hn', hg, fun j hj => ?_⟩
  have hlt := List.pairwise_iff_getElem.mp hl.names_sorted j n (Nat.lt_trans hj hn') hn' hj
  rw [← hg]
  simpa using String.ne_of_lt hlt

end

/-! ## Resolving -/

theorem resolve_ok {names : List String} {task : String} : ∀ {ds : List String} {ps : List Nat},
    resolve names task ds = .ok ps →
      (∀ d ∈ ds, d ∈ names) ∧ ∀ i, i ∈ ps ↔ ∃ d ∈ ds, names.idxOf? d = some i
  | [], ps, h => by
    simp only [resolve, Except.ok.injEq] at h
    subst h
    simp
  | d :: ds, ps, h => by
    simp only [resolve] at h
    split at h
    · cases h
    · rename_i i hi
      cases hr : resolve names task ds with
      | error e =>
        rw [hr] at h
        cases h
      | ok qs =>
        rw [hr] at h
        simp only [Except.map, Except.ok.injEq] at h
        subst h
        obtain ⟨hm, hq⟩ := resolve_ok hr
        constructor
        · intro x hx
          rcases List.mem_cons.mp hx with rfl | hx
          · exact List.isSome_idxOf?.mp (by rw [hi]; rfl)
          · exact hm x hx
        · intro j
          rw [List.mem_cons, hq]
          simp only [List.mem_cons, exists_eq_or_imp, hi, Option.some.injEq]
          exact or_congr_left eq_comm

theorem resolveAll_ok {names : List String} : ∀ {ts : List (String × Task)} {pss : List (List Nat)},
    resolveAll names ts = .ok pss → List.Forall₂ (fun e ps =>
      ∃ rs, resolve names e.1 e.2.requires = .ok rs ∧ ps = sortNodes rs) ts pss
  | [], pss, h => by
    simp only [resolveAll, Except.ok.injEq] at h
    subst h
    exact .nil
  | (name, t) :: ts, pss, h => by
    simp only [resolveAll] at h
    split at h
    · cases h
    · rename_i rs hr
      cases hts : resolveAll names ts with
      | error e =>
        rw [hts] at h
        cases h
      | ok qss =>
        rw [hts] at h
        simp only [Except.map, Except.ok.injEq] at h
        subst h
        exact .cons ⟨rs, hr, rfl⟩ (resolveAll_ok hts)

/-! ## The links of tasks -/

theorem mem_reversed {pss : List (List Nat)} {n p : Nat} (hp : p < pss.length) :
    n ∈ (reversed pss).getD p [] ↔ n < pss.length ∧ p ∈ pss.getD n [] := by
  simp [reversed, hp]

theorem reversed_sorted (pss : List (List Nat)) (p : Nat) :
    ((reversed pss).getD p []).Pairwise (· < ·) := by
  by_cases hp : p < pss.length
  · simp only [reversed, List.getD_eq_getElem?_getD, List.getElem?_map, List.getElem?_range hp,
      Option.map_some, Option.getD_some]
    exact List.pairwise_lt_range.filter _
  · simp [reversed, hp]

theorem resolveAll_mem {tasks : NameMap Task} {pss : List (List Nat)}
    (h : resolveAll tasks.keys tasks.entries = .ok pss) {n : Nat} (hn : n < tasks.keys.length) :
    (pss.getD n []).Pairwise (· < ·) ∧
    (∀ b, Requires tasks tasks.keys[n] b → b ∈ tasks.keys) ∧
    ∀ p, p ∈ pss.getD n [] ↔ ∃ b, Requires tasks tasks.keys[n] b ∧ tasks.keys.idxOf? b = some p := by
  have hf := List.forall₂_iff_get.mp (resolveAll_ok h)
  have hn' : n < tasks.entries.length := by simpa [NameMap.keys] using hn
  obtain ⟨rs, hr, hps⟩ := hf.2 n hn' (hf.1 ▸ hn')
  have hreq : ∀ b, Requires tasks tasks.keys[n] b ↔ b ∈ tasks.entries[n].2.requires := by
    intro b
    have he : tasks.find? tasks.keys[n] = some tasks.entries[n].2 := by
      rw [NameMap.find?_eq_some]
      simp only [NameMap.keys, List.getElem_map]
      exact List.getElem_mem hn'
    simp [Requires, he]
  have hget : pss.getD n [] = sortNodes rs := by
    rw [← hps]
    simp [hf.1 ▸ hn']
  obtain ⟨hm, hi⟩ := resolve_ok hr
  refine ⟨hget ▸ sortNodes_sorted rs, fun b hb => hm b ((hreq b).mp hb), fun p => ?_⟩
  rw [hget, mem_sortNodes, hi]
  simp only [hreq]
  rfl

theorem ofTasks_ok {tasks : NameMap Task} {l : Links} (h : ofTasks tasks = .ok l) :
    ∃ pss, resolveAll tasks.keys tasks.entries = .ok pss ∧ pss.length = tasks.keys.length ∧
      l = ⟨tasks.keys.toArray, pss.toArray, (reversed pss).toArray⟩ := by
  unfold ofTasks at h
  cases hp : resolveAll tasks.keys tasks.entries with
  | error e =>
    rw [hp] at h
    cases h
  | ok pss =>
    rw [hp] at h
    simp only [Except.map, Except.ok.injEq] at h
    refine ⟨pss, rfl, ?_, h.symm⟩
    rw [← (resolveAll_ok hp).length_eq, NameMap.keys, List.length_map]

theorem idxOf?_keys {tasks : NameMap Task} {b : String} {p : Nat} :
    tasks.keys.idxOf? b = some p ↔ ∃ h : p < tasks.keys.length, tasks.keys[p] = b := by
  rw [List.idxOf?_eq_some_iff]
  constructor
  · rintro ⟨h, he, -⟩
    exact ⟨h, he⟩
  · rintro ⟨h, he⟩
    refine ⟨h, he, fun j hj hb => ?_⟩
    have hlt := List.pairwise_iff_getElem.mp tasks.keys_sorted j p (Nat.lt_trans hj h) h hj
    exact String.ne_of_lt hlt (by rw [he]; exact hb)

theorem describes_ofTasks {tasks : NameMap Task} {l : Links} (h : ofTasks tasks = .ok l) :
    l.Describes tasks := by
  obtain ⟨pss, hp, hlen, rfl⟩ := ofTasks_ok h
  refine ⟨rfl, fun n p => ?_, fun a b hab => ?_⟩
  · by_cases hn : n < tasks.keys.length
    · have hm := (resolveAll_mem hp hn).2.2 p
      simp only [preds, name, size, Array.getD_eq_getD_getElem?, List.getElem?_toArray,
        ← List.getD_eq_getElem?_getD, List.size_toArray]
      rw [hm, List.getD_eq_getElem _ _ hn]
      simp only [idxOf?_keys, hn, true_and]
      constructor
      · rintro ⟨b, hb, hlt, rfl⟩
        rw [List.getD_eq_getElem _ _ hlt]
        exact ⟨hlt, hb⟩
      · rintro ⟨hlt, hb⟩
        rw [List.getD_eq_getElem _ _ hlt] at hb
        exact ⟨_, hb, hlt, rfl⟩
    · simp [preds, size, hn, hlen]
  · obtain ⟨n, hn, rfl⟩ := List.mem_iff_getElem.mp hab.mem_keys
    exact (resolveAll_mem hp hn).2.1 b hab

theorem sound_ofTasks {tasks : NameMap Task} {l : Links} (h : ofTasks tasks = .ok l) : l.Sound := by
  have hd := describes_ofTasks h
  obtain ⟨pss, hp, hlen, rfl⟩ := ofTasks_ok h
  refine ⟨tasks.keys_sorted, by simpa [size] using hlen, fun n p hm => ((hd.mem_preds n p).mp hm).2.1,
    fun n => ?_, fun p => ?_, fun n p => ?_⟩
  · by_cases hn : n < tasks.keys.length
    · simpa [preds] using (resolveAll_mem hp hn).1
    · simp [preds, hlen, Nat.not_lt.mp hn]
  · simpa [succs] using reversed_sorted pss p
  · by_cases hlt : p < pss.length
    · have hm := mem_reversed (n := n) hlt
      simp only [succs, preds, Array.getD_eq_getD_getElem?, List.getElem?_toArray,
        ← List.getD_eq_getElem?_getD]
      rw [hm]
      refine and_iff_right_of_imp fun hin => ?_
      refine Classical.byContradiction fun hn => ?_
      simp [Nat.not_lt.mp hn] at hin
    · constructor
      · intro hin
        simp [succs, reversed, Nat.not_lt.mp hlt] at hin
      · intro hin
        have := ((hd.mem_preds n p).mp hin).2.1
        simp only [size, List.size_toArray] at this
        omega

end Links

end Casework
