import Casework.Proofs.Graph.Order

/-!
# Depths

Depths are filled in along the order, each from those of the predecessors, and no later entry touches an
earlier one. So in the end every node has the depth that its predecessors give it, and the height is one
more than the largest of all.
-/

namespace Casework

namespace Graph

/-! ## Largest values -/

theorem foldl_max_le_iff {f : Nat → Nat} {b : Nat} : ∀ {ns : List Nat} {a : Nat},
    ns.foldl (fun d n => max d (f n)) a ≤ b ↔ a ≤ b ∧ ∀ n ∈ ns, f n ≤ b
  | [], a => by simp
  | n :: ns, a => by
    rw [List.foldl_cons, foldl_max_le_iff, Nat.max_le, and_assoc, List.forall_mem_cons]

def depth (g : Graph) (n : Nat) : Nat := g.depths.getD n 0

theorem depthOf_le_iff {g : Graph} {ds : Array Nat} {n k : Nat} :
    g.depthOf ds n ≤ k ↔ ∀ p ∈ g.preds n, ds.getD p 0 < k := by
  rw [depthOf, foldl_max_le_iff]
  exact and_iff_right (Nat.zero_le k)

theorem depthOf_congr {g : Graph} {ds es : Array Nat} {n : Nat}
    (h : ∀ p ∈ g.preds n, ds.getD p 0 = es.getD p 0) : g.depthOf ds n = g.depthOf es n :=
  List.foldl_ext _ _ _ fun d p hp => by rw [h p hp]

/-! ## Filling in -/

/-- The depths once the nodes of `done` have theirs, the latest of them first. -/
def depthsAfter (g : Graph) (done : List Nat) : Array Nat :=
  done.foldr (fun n ds => ds.set! n (g.depthOf ds n)) (Array.replicate g.size 0)

theorem depths_eq (g : Graph) : g.depths = g.depthsAfter g.order.reverse :=
  (List.foldr_reverse ..).symm

theorem size_depthsAfter (g : Graph) : ∀ done : List Nat, (g.depthsAfter done).size = g.size
  | [] => by simp [depthsAfter]
  | n :: done => by
    have ih := size_depthsAfter g done
    simpa [depthsAfter] using ih

theorem getD_set! {ds : Array Nat} {n : Nat} (hn : n < ds.size) (d m : Nat) :
    (ds.set! n d).getD m 0 = if m = n then d else ds.getD m 0 := by
  by_cases h : m = n
  · subst h
    simp [hn]
  · simp [h, Ne.symm h]

theorem depthsAfter_spec {g : Graph} : ∀ {done : List Nat}, g.Built done → ∀ n ∈ done,
    (g.depthsAfter done).getD n 0 = g.depthOf (g.depthsAfter done) n
  | [], _, n, hn => absurd hn List.not_mem_nil
  | m :: done, hb, n, hn => by
    obtain ⟨hm, hnew, hpreds, hb⟩ := hb
    have hset : ∀ k, (g.depthsAfter (m :: done)).getD k 0 =
        if k = m then g.depthOf (g.depthsAfter done) m else (g.depthsAfter done).getD k 0 :=
      getD_set! ((size_depthsAfter g done).symm ▸ hm) _
    -- what is behind keeps its depth, as `m` is none of it
    have hkeep : ∀ p ∈ done, (g.depthsAfter (m :: done)).getD p 0 = (g.depthsAfter done).getD p 0 :=
      fun p hp => by rw [hset, if_neg (fun e : p = m => hnew (e ▸ hp))]
    rcases List.mem_cons.mp hn with rfl | hn
    · rw [hset, if_pos rfl, depthOf_congr fun p hp => hkeep p (hpreds p hp)]
    · rw [hkeep n hn, depthsAfter_spec hb n hn, depthOf_congr fun p hp => hkeep p (hb.closed n hn p hp)]

section
variable {g : Graph} (hg : g.Sound)
include hg

theorem depth_eq {n : Nat} (hn : n < g.size) : g.depth n = g.depthOf g.depths n := by
  have hmem : n ∈ g.order.reverse := List.mem_reverse.mpr (hg.perm.mem_iff.mpr (List.mem_range.mpr hn))
  rw [depth, depths_eq, depthsAfter_spec hg.built n hmem]

theorem depth_le_iff {n k : Nat} (hn : n < g.size) :
    g.depth n ≤ k ↔ ∀ p ∈ g.preds n, g.depth p < k := by
  rw [depth_eq hg hn, depthOf_le_iff]
  rfl

theorem height_le_iff {k : Nat} : g.height ≤ k ↔ ∀ n < g.size, g.depth n < k := by
  rw [height, foldl_max_le_iff, and_iff_right (Nat.zero_le k)]
  refine forall_congr' fun n => ?_
  rw [hg.perm.mem_iff, List.mem_range]
  rfl

end

/-! ## Levels -/

theorem length_levels (g : Graph) : g.levels.length = g.height := by
  simp [levels, levelNodes]

theorem levels_getElem? {g : Graph} (hg : g.Sound) (k : Nat) : (g.levels[k]?).getD [] =
    (g.order.filter fun n => g.depth n = k).map g.name := by
  by_cases hk : k < g.height
  · simp [levels, levelNodes, hk, depth]
  · have hnone : g.order.filter (fun n => g.depth n = k) = [] := by
      rw [List.filter_eq_nil_iff]
      intro n hn he
      have hlt := (height_le_iff hg).mp (Nat.not_lt.mp hk) n (List.mem_range.mp (hg.perm.mem_iff.mp hn))
      exact Nat.ne_of_lt hlt (of_decide_eq_true he)
    simp [levels, levelNodes, hk, hnone]

end Graph

end Casework
