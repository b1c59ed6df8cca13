import Casework.Proofs.Graph.Acceptance
import Casework.Proofs.Graph.Depth
import Mathlib.Order.Bounds.Basic

/-!
# Chains of requirements

A task lies as deep as the longest chain of requirements that ends in it is long. So no level is empty, and there are
as many levels as the longest chain of all has tasks. They can be filled along the order, where each node goes to a
level that is there or opens the next one.
-/

namespace Casework

def Chain (tasks : NameMap Task) (c : List String) : Prop :=
  (∀ a ∈ c, a ∈ tasks.keys) ∧ c.IsChain (Requires tasks)

/-- The numbers of links of the chains that end in `a`. -/
def chainLengths (tasks : NameMap Task) (a : String) : Set Nat := {k | ∃ c, Chain tasks (a :: c) ∧ c.length = k}

theorem chain_singleton {tasks : NameMap Task} {a : String} : Chain tasks [a] ↔ a ∈ tasks.keys := by
  simp [Chain]

theorem chain_cons_cons {tasks : NameMap Task} {a b : String} {c : List String} :
    Chain tasks (a :: b :: c) ↔ Requires tasks a b ∧ Chain tasks (b :: c) := by
  unfold Chain
  rw [List.isChain_cons_cons, List.forall_mem_cons]
  constructor
  · rintro ⟨⟨-, hmem⟩, hab, hc⟩
    exact ⟨hab, hmem, hc⟩
  · rintro ⟨hab, hmem, hc⟩
    exact ⟨⟨hab.mem_keys, hmem⟩, hab, hc⟩

namespace Graph

def depthAt (g : Graph) (a : String) : Nat := g.depth ((g.node? a).getD 0)

section
variable {tasks : NameMap Task} {g : Graph} (hg : g.Sound) (hd : g.Describes tasks)
include hg

theorem depthAt_name {n : Nat} (hn : n < g.size) : g.depthAt (g.name n) = g.depth n := by
  rw [depthAt, Links.node?_name hg.links hn]
  rfl

theorem depth_lt_depth {n p : Nat} (hp : p ∈ g.preds n) : g.depth p < g.depth n :=
  (depth_le_iff hg (Links.lt_of_mem_preds hg.links hp)).mp (Nat.le_refl _) p hp

theorem exists_pred_of_depth {n k : Nat} (hn : n < g.size) (hk : g.depth n = k + 1) : ∃ p ∈ g.preds n, g.depth p = k := by
  have hdeep : ¬ g.depth n ≤ k := by omega
  rw [depth_le_iff hg hn] at hdeep
  push Not at hdeep
  obtain ⟨p, hp, hkp⟩ := hdeep
  have hlt := depth_lt_depth hg hp
  exact ⟨p, hp, by omega⟩

theorem exists_of_lt_height {k : Nat} (hk : k < g.height) : ∃ n < g.size, k ≤ g.depth n := by
  have hhigh : ¬ g.height ≤ k := Nat.not_le.mpr hk
  rw [height_le_iff hg] at hhigh
  push Not at hhigh
  exact hhigh

theorem depth_lt_height {n : Nat} (hn : n < g.size) : g.depth n < g.height :=
  (height_le_iff hg).mp (Nat.le_refl _) n hn

theorem exists_depth {k : Nat} : ∀ n < g.size, k ≤ g.depth n → ∃ m < g.size, g.depth m = k := by
  refine hg.induction ?_
  intro n hn ih hk
  by_cases he : g.depth n = k
  · exact ⟨n, hn, he⟩
  · obtain ⟨d, hd⟩ : ∃ d, g.depth n = d + 1 := ⟨g.depth n - 1, by omega⟩
    obtain ⟨p, hp, hpd⟩ := exists_pred_of_depth hg hn hd
    exact ih p hp (by omega)

/-! ## The longest chain -/

include hd

theorem length_le_depth {c : List String} {n : Nat} (hn : n < g.size) (hc : Chain tasks (g.name n :: c)) :
    c.length ≤ g.depth n := by
  induction c generalizing n with
  | nil => exact Nat.zero_le _
  | cons b c ih =>
    obtain ⟨hnb, hc⟩ := chain_cons_cons.mp hc
    obtain ⟨p, hp, rfl⟩ := (mem_keys_iff hd).mp (hd.resolved _ _ hnb)
    have hlt := depth_lt_depth hg ((requires_iff hd hn hp).mp hnb)
    have hle := ih hp hc
    rw [List.length_cons]
    omega

theorem exists_chain : ∀ n < g.size, ∃ c, Chain tasks (g.name n :: c) ∧ c.length = g.depth n := by
  refine hg.induction ?_
  intro n hn ih
  cases hk : g.depth n with
  | zero => exact ⟨[], chain_singleton.mpr ((mem_keys_iff hd).mpr ⟨n, hn, rfl⟩), rfl⟩
  | succ k =>
    obtain ⟨p, hp, hpk⟩ := exists_pred_of_depth hg hn hk
    obtain ⟨c, hc, hlen⟩ := ih p hp
    have hnp : Requires tasks (g.name n) (g.name p) := ((hd.mem_preds n p).mp hp).2.2
    exact ⟨g.name p :: c, chain_cons_cons.mpr ⟨hnp, hc⟩, by rw [List.length_cons, hlen, hpk]⟩

theorem isGreatest_depthAt {a : String} (ha : a ∈ tasks.keys) : IsGreatest (chainLengths tasks a) (g.depthAt a) := by
  obtain ⟨n, hn, rfl⟩ := (mem_keys_iff hd).mp ha
  rw [depthAt_name hg hn]
  refine ⟨exists_chain hg hd n hn, ?_⟩
  rintro k ⟨c, hc, rfl⟩
  exact length_le_depth hg hd hn hc

theorem isGreatest_height : IsGreatest {k | ∃ c, Chain tasks c ∧ c.length = k} g.height := by
  constructor
  · cases hh : g.height with
    | zero => exact ⟨[], ⟨by simp, .nil⟩, rfl⟩
    | succ k =>
      obtain ⟨n, hn, hk⟩ : ∃ n < g.size, k ≤ g.depth n := exists_of_lt_height hg (by omega)
      have hlt := depth_lt_height hg hn
      obtain ⟨c, hc, hlen⟩ := exists_chain hg hd n hn
      refine ⟨g.name n :: c, hc, ?_⟩
      rw [List.length_cons]
      omega
  · rintro k ⟨c, hc, rfl⟩
    cases c with
    | nil => exact Nat.zero_le _
    | cons a c =>
      obtain ⟨n, hn, rfl⟩ := (mem_keys_iff hd).mp (hc.1 a List.mem_cons_self)
      have hlt := depth_lt_height hg hn
      have hle := length_le_depth hg hd hn hc
      rw [List.length_cons]
      omega

theorem depthAt_lt_of_requires {a b : String} (hab : Relation.TransGen (Requires tasks) a b) :
    g.depthAt b < g.depthAt a := by
  have hstep : ∀ a b, Requires tasks a b → g.depthAt b < g.depthAt a := by
    intro a b hab
    obtain ⟨n, hn, rfl⟩ := (mem_keys_iff hd).mp hab.mem_keys
    obtain ⟨p, hp, rfl⟩ := (mem_keys_iff hd).mp (hd.resolved _ _ hab)
    rw [depthAt_name hg hn, depthAt_name hg hp]
    exact depth_lt_depth hg ((requires_iff hd hn hp).mp hab)
  induction hab with
  | single hab => exact hstep _ _ hab
  | tail _ hbc ih => exact Nat.lt_trans (hstep _ _ hbc) ih

end

/-! ## Levels by name -/

section
variable {g : Graph} (hg : g.Sound)
include hg

theorem levels_getD (k : Nat) : g.levels.getD k [] = g.orderedNames.filter fun a => g.depthAt a = k := by
  rw [List.getD_eq_getElem?_getD, levels_getElem? hg, orderedNames, List.filter_map]
  congr 1
  apply List.filter_congr
  intro n hn
  have hn : n < g.size := List.mem_range.mp (hg.perm.mem_iff.mp hn)
  simp [depthAt_name hg hn]

theorem exists_of_mem_levels {l : List String} (hl : l ∈ g.levels) :
    ∃ k < g.height, l = g.orderedNames.filter fun a => g.depthAt a = k := by
  obtain ⟨k, hk, rfl⟩ := List.mem_iff_getElem.mp hl
  refine ⟨k, length_levels g ▸ hk, ?_⟩
  rw [← levels_getD hg, List.getD_eq_getElem _ _ hk]

theorem exists_mem_level {k : Nat} (hk : k < g.height) : ∃ a ∈ g.orderedNames, g.depthAt a = k := by
  obtain ⟨n, hn, hkn⟩ := exists_of_lt_height hg hk
  obtain ⟨m, hm, hmk⟩ := exists_depth hg n hn hkn
  refine ⟨g.name m, List.mem_map.mpr ⟨m, hg.perm.mem_iff.mpr (List.mem_range.mpr hm), rfl⟩, ?_⟩
  rw [depthAt_name hg hm, hmk]

end

/-! ## Filling the levels -/

def putAt? (ls : List (List Nat)) (d n : Nat) : Option (List (List Nat)) :=
  if d < ls.length then some (ls.modify d (· ++ [n])) else if d = ls.length then some (ls ++ [[n]]) else none

def sink? (g : Graph) (x : Array Nat × List (List Nat)) (n : Nat) : Option (Array Nat × List (List Nat)) :=
  (putAt? x.2 (g.depthOf x.1 n) n).map fun ls => (x.1.set! n (g.depthOf x.1 n), ls)

def fillLevels? (g : Graph) : Option (List (List Nat)) :=
  (g.order.foldlM g.sink? (Array.replicate g.size 0, [])).map (·.2)

def heightAfter (g : Graph) (done : List Nat) : Nat := done.foldr (fun n h => max h (g.depth n + 1)) 0

def levelsAfter (g : Graph) (done : List Nat) : List (List Nat) :=
  (List.range (g.heightAfter done)).map fun k => done.reverse.filter fun n => g.depth n = k

section
variable {g : Graph} (hg : g.Sound)

theorem lt_heightAfter {done : List Nat} : ∀ n ∈ done, g.depth n < g.heightAfter done := by
  induction done with
  | nil => simp
  | cons m done ih =>
    intro n hn
    rw [heightAfter, List.foldr_cons]
    rcases List.mem_cons.mp hn with rfl | hn
    · omega
    · have hlt : g.depth n < g.heightAfter done := ih n hn
      unfold heightAfter at hlt
      omega

theorem putAt?_levelsAfter {done : List Nat} {n : Nat} (hn : g.depth n ≤ g.heightAfter done) :
    putAt? (g.levelsAfter done) (g.depth n) n = some (g.levelsAfter (n :: done)) := by
  have hlen : (g.levelsAfter done).length = g.heightAfter done := by simp [levelsAfter]
  have hheight : g.heightAfter (n :: done) = max (g.heightAfter done) (g.depth n + 1) := rfl
  unfold putAt?
  rw [hlen]
  rcases Nat.lt_or_eq_of_le hn with hlt | heq
  · -- the level is there already
    rw [if_pos hlt]
    have hsame : g.heightAfter (n :: done) = g.heightAfter done := by omega
    congr 1
    unfold levelsAfter
    rw [hsame]
    apply List.ext_getElem
    · simp
    · intro k hk hk'
      by_cases hkn : g.depth n = k
      · simp [hkn]
      · simp [hkn]
  · -- the level is the next one, and `n` is alone on it
    have hnot : ¬ g.depth n < g.heightAfter done := by omega
    rw [if_neg hnot, if_pos heq]
    have hmore : g.heightAfter (n :: done) = g.heightAfter done + 1 := by omega
    have hold : ∀ k < g.heightAfter done, g.depth n ≠ k := by omega
    have hnone : done.filter (fun m => g.depth m = g.depth n) = [] := by
      rw [List.filter_eq_nil_iff]
      intro m hm he
      have hlt : g.depth m < g.heightAfter done := lt_heightAfter m hm
      have he := of_decide_eq_true he
      omega
    congr 1
    unfold levelsAfter
    rw [hmore, List.range_succ, List.map_append]
    congr 1
    · apply List.map_congr_left
      intro k hk
      simp [hold k (List.mem_range.mp hk)]
    · simp [← heq, hnone]

include hg

theorem depthsAfter_eq {done : List Nat} (hb : g.Built done) : ∀ n < g.size, n ∈ done →
    (g.depthsAfter done).getD n 0 = g.depth n := by
  refine hg.induction ?_
  intro n hn ih hmem
  rw [depthsAfter_spec hb n hmem, depth_eq hg hn]
  apply depthOf_congr
  intro p hp
  exact ih p hp (hb.closed n hmem p hp)

theorem sink?_after {done : List Nat} {n : Nat} (hb : g.Built (n :: done)) :
    g.sink? (g.depthsAfter done, g.levelsAfter done) n = some (g.depthsAfter (n :: done), g.levelsAfter (n :: done)) := by
  obtain ⟨hn, -, hpreds, hb⟩ := hb
  have hdepth : g.depthOf (g.depthsAfter done) n = g.depth n := by
    rw [depth_eq hg hn]
    apply depthOf_congr
    intro p hp
    exact depthsAfter_eq hg hb p (hg.links.preds_lt n p hp) (hpreds p hp)
  have hle : g.depth n ≤ g.heightAfter done := by
    rw [depth_le_iff hg hn]
    intro p hp
    exact lt_heightAfter p (hpreds p hp)
  have hset : g.depthsAfter (n :: done) = (g.depthsAfter done).set! n (g.depth n) := by
    rw [← hdepth]
    rfl
  rw [sink?, hdepth, putAt?_levelsAfter hle, Option.map_some, hset]

theorem foldlM_sink? : ∀ {ns done : List Nat}, g.Built (ns.reverse ++ done) →
    ns.foldlM g.sink? (g.depthsAfter done, g.levelsAfter done) =
      some (g.depthsAfter (ns.reverse ++ done), g.levelsAfter (ns.reverse ++ done))
  | [], _, _ => rfl
  | n :: ns, done, hb => by
    rw [List.reverse_cons, List.append_assoc] at hb ⊢
    have hnext : g.Built (n :: done) := hb.of_append
    rw [List.foldlM_cons, sink?_after hg hnext]
    exact foldlM_sink? hb

theorem fillLevels?_eq : g.fillLevels? = some g.levelNodes := by
  have hb : g.Built (g.order.reverse ++ []) := by
    rw [List.append_nil]
    exact hg.built
  have hfill := foldlM_sink? hg hb
  have hheight : g.heightAfter (g.order.reverse ++ []) = g.height := by
    rw [List.append_nil]
    exact List.foldr_reverse ..
  have hlevels : g.levelsAfter (g.order.reverse ++ []) = g.levelNodes := by
    unfold levelsAfter
    rw [hheight, List.append_nil, List.reverse_reverse]
    rfl
  rw [hlevels] at hfill
  exact congrArg (Option.map Prod.snd) hfill

end

/-- Every task is in one level, once, and this is the level of the longest chain of requirements that ends in it. No
level is empty, each has its tasks in the order of the graph, and no task of it requires another by way of others or
at once. There are as many levels as the longest chain of all has tasks, and filling them one node after the other
never has to leave one out. -/
theorem levels_are_depths {tasks : NameMap Task} {g : Graph} (hb : build tasks = .ok g) :
    (∀ a ∈ tasks.keys, ∃ k, IsGreatest (chainLengths tasks a) k ∧
      ∀ j, (g.levels.getD j []).count a = if j = k then 1 else 0) ∧
    (∀ l ∈ g.levels, l ≠ [] ∧ l.Sublist g.orderedNames ∧ l ⊆ tasks.keys ∧
      ∀ a ∈ l, ∀ b ∈ l, ¬ Relation.TransGen (Requires tasks) a b) ∧
    IsGreatest {k | ∃ c, Chain tasks c ∧ c.length = k} g.levels.length ∧
    g.fillLevels?.map (fun ls => ls.map fun ns => ns.map g.name) = some g.levels := by
  have hg := sound_build hb
  have hd := describes_build hb
  have hperm := orderedNames_perm hg hd
  refine ⟨?_, ?_, ?_, ?_⟩
  · intro a ha
    refine ⟨g.depthAt a, isGreatest_depthAt hg hd ha, ?_⟩
    intro j
    rw [levels_getD hg]
    by_cases hj : g.depthAt a = j
    · rw [List.count_filter (by simpa using hj), if_pos hj.symm]
      exact List.count_eq_one_of_mem (hperm.nodup_iff.mpr tasks.keys_nodup) (hperm.mem_iff.mpr ha)
    · rw [if_neg (Ne.symm hj)]
      apply List.count_eq_zero_of_not_mem
      simp [hj]
  · intro l hl
    obtain ⟨k, hk, rfl⟩ := exists_of_mem_levels hg hl
    refine ⟨?_, List.filter_sublist, ?_, ?_⟩
    · obtain ⟨a, ha, hak⟩ := exists_mem_level hg hk
      exact List.ne_nil_of_mem (List.mem_filter.mpr ⟨ha, by simpa using hak⟩)
    · intro a ha
      exact hperm.mem_iff.mp (List.mem_filter.mp ha).1
    · intro a ha b hb hab
      have hlt := depthAt_lt_of_requires hg hd hab
      have hak := (List.mem_filter.mp ha).2
      have hbk := (List.mem_filter.mp hb).2
      simp only [decide_eq_true_eq] at hak hbk
      omega
  · rw [length_levels]
    exact isGreatest_height hg hd
  · rw [fillLevels?_eq hg]
    rfl

theorem fork_levels_are_depths : build fork = .ok forkGraph ∧
    forkGraph.levels = [["import"], ["hotfixes", "plaso"], ["report"]] ∧
    IsGreatest {k | ∃ c, Chain fork c ∧ c.length = k} 3 := by
  have hlevels : forkGraph.levels = [["import"], ["hotfixes", "plaso"], ["report"]] := by decide
  obtain ⟨-, -, hheight, -⟩ := levels_are_depths build_fork
  rw [hlevels] at hheight
  exact ⟨build_fork, hlevels, hheight⟩

end Graph

end Casework
