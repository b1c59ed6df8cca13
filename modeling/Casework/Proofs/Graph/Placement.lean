import Casework.Proofs.Graph.Links
import Mathlib.Data.List.Perm.Subperm

/-!
# Placing nodes

How far placing has come is fixed by the nodes placed so far: a degree counts the predecessors that are
not placed, and a node is ready if it has none left. Where nothing is ready, all that is left over waits
for something left over.
-/

namespace Casework

namespace Links

/-- Nodes placed one by one, the latest first, each after all its predecessors. -/
def Built (l : Links) : List Nat → Prop
  | [] => True
  | n :: done => n < l.size ∧ n ∉ done ∧ (∀ p ∈ l.preds n, p ∈ done) ∧ l.Built done

/-- `ns` places all that is not in `done`, each node after all its predecessors. -/
def Completes (l : Links) : List Nat → List Nat → Prop
  | done, [] => ∀ n < l.size, n ∈ done
  | done, n :: ns =>
    n < l.size ∧ n ∉ done ∧ (∀ p ∈ l.preds n, p ∈ done) ∧ l.Completes (n :: done) ns

def waiting (l : Links) (done : List Nat) (n : Nat) : Nat := (l.preds n).countP (· ∉ done)

section
variable {l : Links}

theorem Built.lt : ∀ {done : List Nat}, l.Built done → ∀ n ∈ done, n < l.size
  | m :: done, h, n, hn => by
    rcases List.mem_cons.mp hn with rfl | hn
    · exact h.1
    · exact h.2.2.2.lt n hn

theorem Built.nodup : ∀ {done : List Nat}, l.Built done → done.Nodup
  | [], _ => List.nodup_nil
  | _ :: _, h => List.nodup_cons.mpr ⟨h.2.1, h.2.2.2.nodup⟩

theorem Built.closed : ∀ {done : List Nat}, l.Built done → ∀ n ∈ done, ∀ p ∈ l.preds n, p ∈ done
  | m :: done, h, n, hn, p, hp => by
    rcases List.mem_cons.mp hn with rfl | hn
    · exact List.mem_cons_of_mem _ (h.2.2.1 p hp)
    · exact List.mem_cons_of_mem _ (h.2.2.2.closed n hn p hp)

theorem Built.length_le {done : List Nat} (h : l.Built done) : done.length ≤ l.size := by
  have hs : done ⊆ List.range l.size := fun n hn => List.mem_range.mpr (h.lt n hn)
  simpa using (h.nodup.subperm hs).length_le

theorem Built.perm {done : List Nat} (h : l.Built done) (hlen : done.length = l.size) :
    done.Perm (List.range l.size) := by
  have hs : done ⊆ List.range l.size := fun n hn => List.mem_range.mpr (h.lt n hn)
  exact (h.nodup.subperm hs).perm_of_length_le (by simp [hlen])

theorem Built.of_append : ∀ {late done : List Nat}, l.Built (late ++ done) → l.Built done
  | [], _, h => h
  | _ :: _, _, h => h.2.2.2.of_append

theorem Built.preds_of_append : ∀ {late done : List Nat} {n : Nat}, l.Built (late ++ n :: done) →
    n ∉ done ∧ ∀ p ∈ l.preds n, p ∈ done
  | [], _, _, h => ⟨h.2.1, h.2.2.1⟩
  | _ :: _, _, _, h => h.2.2.2.preds_of_append

theorem completes_of_perm : ∀ {ns done : List Nat}, (done.reverse ++ ns).Perm (List.range l.size) →
    (∀ early n late, done.reverse ++ ns = early ++ n :: late → ∀ p ∈ l.preds n, p ∈ early) →
    l.Completes done ns
  | [], done, hp, _ => fun n hn => by
    have := hp.mem_iff.mpr (List.mem_range.mpr hn)
    simpa using this
  | n :: ns, done, hp, ho => by
    have hnd : (done.reverse ++ n :: ns).Nodup := hp.nodup_iff.mpr List.nodup_range
    have hn : n < l.size := List.mem_range.mp (hp.mem_iff.mp (by simp))
    have hnp : n ∉ done := by
      intro h
      exact (List.nodup_append.mp hnd).2.2 n (List.mem_reverse.mpr h) n (by simp) rfl
    refine ⟨hn, hnp, fun p h => List.mem_reverse.mp (ho _ _ _ rfl p h), ?_⟩
    have he : (n :: done).reverse ++ ns = done.reverse ++ n :: ns := by simp
    exact completes_of_perm (by rw [he]; exact hp) (by rw [he]; exact ho)

theorem waiting_eq_zero {done : List Nat} {n : Nat} :
    l.waiting done n = 0 ↔ ∀ p ∈ l.preds n, p ∈ done := by
  simp [waiting]

theorem countP_not_mem_cons {n : Nat} {done : List Nat} (hn : n ∉ done) : ∀ {ps : List Nat}, ps.Nodup →
    ps.countP (· ∉ done) = ps.countP (· ∉ n :: done) + if n ∈ ps then 1 else 0
  | [], _ => rfl
  | p :: ps, h => by
    obtain ⟨hp, hps⟩ := List.nodup_cons.mp h
    rw [List.countP_cons, List.countP_cons, countP_not_mem_cons hn hps]
    by_cases hpn : p = n
    · subst hpn
      simp [hn, hp]
    · have hnp : n ≠ p := Ne.symm hpn
      simp only [List.mem_cons, hpn, hnp, false_or]
      omega

theorem waiting_cons (hl : l.Sound) {n : Nat} {done : List Nat} (hn : n ∉ done) (m : Nat) :
    l.waiting done m = l.waiting (n :: done) m + if n ∈ l.preds m then 1 else 0 :=
  countP_not_mem_cons hn ((hl.preds_sorted m).imp Nat.ne_of_lt)

end

end Links

namespace Placement

/-! ## Releasing successors -/

theorem degrees_release (p : Placement) (n m : Nat) :
    (p.release n).degrees.getD m 0 = p.degrees.getD m 0 - if m = n then 1 else 0 := by
  simp only [release, Array.set!_eq_setIfInBounds, Array.getD_eq_getD_getElem?,
    Array.getElem?_setIfInBounds]
  by_cases h : m = n
  · subst h
    by_cases hm : m < p.degrees.size <;> simp [hm]
  · simp [h, Ne.symm h]

theorem mem_ready_release {p : Placement} {n m : Nat} :
    m ∈ (p.release n).ready ↔ m ∈ p.ready ∨ m = n ∧ p.degrees.getD n 0 - 1 = 0 := by
  simp only [release]
  split
  · rename_i h
    rw [mem_insertNode, or_comm, and_iff_left h]
  · rename_i h
    simp only [h, and_false, or_false]

theorem ready_sorted_release {p : Placement} (h : p.ready.Pairwise (· < ·)) (n : Nat) :
    (p.release n).ready.Pairwise (· < ·) := by
  simp only [release]
  split
  · exact insertNode_sorted h
  · exact h

theorem placed_foldl_release : ∀ (ks : List Nat) (p : Placement), (ks.foldl release p).placed = p.placed
  | [], _ => rfl
  | k :: ks, p => placed_foldl_release ks (p.release k)

theorem ready_sorted_foldl : ∀ (ks : List Nat) {p : Placement}, p.ready.Pairwise (· < ·) →
    (ks.foldl release p).ready.Pairwise (· < ·)
  | [], _, h => h
  | k :: ks, _, h => ready_sorted_foldl ks (ready_sorted_release h k)

theorem degrees_foldl : ∀ {ks : List Nat} (_ : ks.Nodup) (p : Placement) (m : Nat),
    (ks.foldl release p).degrees.getD m 0 = p.degrees.getD m 0 - if m ∈ ks then 1 else 0
  | [], _, p, m => by simp
  | k :: ks, h, p, m => by
    obtain ⟨hk, hks⟩ := List.nodup_cons.mp h
    rw [List.foldl_cons, degrees_foldl hks, degrees_release]
    by_cases hm : m = k
    · subst hm
      simp [hk]
    · simp [hm]

theorem mem_ready_foldl : ∀ {ks : List Nat} (_ : ks.Nodup) (p : Placement) (m : Nat),
    m ∈ (ks.foldl release p).ready ↔ m ∈ p.ready ∨ m ∈ ks ∧ p.degrees.getD m 0 - 1 = 0
  | [], _, p, m => by simp
  | k :: ks, h, p, m => by
    obtain ⟨hk, hks⟩ := List.nodup_cons.mp h
    rw [List.foldl_cons, mem_ready_foldl hks, mem_ready_release, degrees_release]
    by_cases hm : m = k
    · subst hm
      simp [hk]
    · simp [hm]

/-! ## The invariant -/

structure Valid (l : Links) (p : Placement) : Prop where
  built : l.Built p.placed
  degree : ∀ n, p.degrees.getD n 0 = l.waiting p.placed n
  mem_ready : ∀ n, n ∈ p.ready ↔ n < l.size ∧ n ∉ p.placed ∧ ∀ q ∈ l.preds n, q ∈ p.placed
  ready_sorted : p.ready.Pairwise (· < ·)

theorem degrees_start (l : Links) (n : Nat) : (start l).degrees.getD n 0 = l.waiting [] n := by
  simp only [start, Links.waiting, Links.preds, List.not_mem_nil, not_false_eq_true, decide_true,
    List.countP_true, Array.getD_eq_getD_getElem?, Array.getElem?_map]
  cases l.predecessors[n]? <;> rfl

theorem valid_start (l : Links) : Valid l (start l) := by
  refine ⟨trivial, degrees_start l, fun n => ?_, List.pairwise_lt_range.filter _⟩
  have hd := degrees_start l n
  simp only [start] at hd ⊢
  rw [List.mem_filter, List.mem_range, decide_eq_true_iff, hd, Links.waiting_eq_zero]
  simp

section
variable {l : Links} (hl : l.Sound)
include hl

theorem degrees_place {p : Placement} {n : Nat} (h : Valid l p) (hnp : n ∉ p.placed) (rest : List Nat) (m : Nat) :
    (place l { p with ready := rest } n).degrees.getD m 0 = l.waiting (n :: p.placed) m := by
  have hw := Links.waiting_cons hl hnp m
  rw [place, degrees_foldl ((hl.succs_sorted n).imp Nat.ne_of_lt), h.degree, hw]
  simp only [hl.mem_succs]
  omega

theorem mem_ready_place {p : Placement} {n : Nat} {rest : List Nat} (h : Valid l p) (hr : p.ready = n :: rest)
    (m : Nat) : m ∈ (place l { p with ready := rest } n).ready ↔
      m < l.size ∧ m ∉ n :: p.placed ∧ ∀ q ∈ l.preds m, q ∈ n :: p.placed := by
  obtain ⟨hn, hnp, hpn⟩ := (h.mem_ready n).mp (by rw [hr]; exact List.mem_cons_self)
  have hs := h.ready_sorted
  rw [hr] at hs
  have hsucc : (l.succs n).Nodup := (hl.succs_sorted n).imp Nat.ne_of_lt
  have hself : n ∉ l.preds n := fun h => hnp (hpn n h)
  have hdeg := degrees_place hl h hnp rest m
  rw [place, degrees_foldl hsucc] at hdeg
  rw [place, mem_ready_foldl hsucc, List.mem_cons, not_or]
  constructor
  · rintro (hm | ⟨hm, hz⟩)
    · obtain ⟨h1, h2, h3⟩ := (h.mem_ready m).mp (by rw [hr]; exact List.mem_cons_of_mem _ hm)
      have hlt := (List.pairwise_cons.mp hs).1 m hm
      exact ⟨h1, ⟨Nat.ne_of_gt hlt, h2⟩, fun q hq => List.mem_cons_of_mem _ (h3 q hq)⟩
    · have hnm : n ∈ l.preds m := (hl.mem_succs m n).mp hm
      refine ⟨Links.lt_of_mem_preds hl hnm, ⟨fun he => ?_, fun hmp => hnp (h.built.closed m hmp n hnm)⟩, ?_⟩
      · subst he
        exact hself hnm
      · rw [← Links.waiting_eq_zero, ← hdeg, if_pos hm]
        exact hz
  · rintro ⟨h1, ⟨hne, h2⟩, h3⟩
    -- a node that becomes ready now was waiting for `n` alone
    by_cases hnm : n ∈ l.preds m
    · right
      have hm : m ∈ l.succs n := (hl.mem_succs m n).mpr hnm
      rw [if_pos hm, Links.waiting_eq_zero.mpr h3] at hdeg
      exact ⟨hm, hdeg⟩
    · left
      have hm : m ∈ p.ready := (h.mem_ready m).mpr ⟨h1, h2, fun q hq => by
        rcases List.mem_cons.mp (h3 q hq) with rfl | hq'
        · exact absurd hq hnm
        · exact hq'⟩
      rw [hr] at hm
      exact (List.mem_cons.mp hm).resolve_left hne

theorem valid_place {p : Placement} {n : Nat} {rest : List Nat} (h : Valid l p) (hr : p.ready = n :: rest) :
    Valid l (place l { p with ready := rest } n) ∧
      (place l { p with ready := rest } n).placed = n :: p.placed := by
  obtain ⟨hn, hnp, hpn⟩ := (h.mem_ready n).mp (by rw [hr]; exact List.mem_cons_self)
  have hs := h.ready_sorted
  rw [hr] at hs
  have hplaced : (place l { p with ready := rest } n).placed = n :: p.placed :=
    placed_foldl_release _ _
  refine ⟨⟨?_, ?_, ?_, ?_⟩, hplaced⟩
  · rw [hplaced]
    exact ⟨hn, hnp, hpn, h.built⟩
  · rw [hplaced]
    exact degrees_place hl h hnp rest
  · rw [hplaced]
    exact mem_ready_place hl h hr
  · exact ready_sorted_foldl _ (List.pairwise_cons.mp hs).2

/-! ## Whole runs -/

theorem valid_advance : ∀ (fuel : Nat) {p : Placement}, Valid l p → Valid l (advance l fuel p)
  | 0, _, h => h
  | fuel + 1, p, h => by
    rw [advance]
    split
    · exact h
    · rename_i n rest hr
      exact valid_advance fuel (valid_place hl h hr).1

theorem advance_ready : ∀ (fuel : Nat) {p : Placement}, Valid l p → l.size ≤ p.placed.length + fuel →
    (advance l fuel p).ready = []
  | 0, p, h, hf => by
    rw [advance]
    refine List.eq_nil_iff_forall_not_mem.mpr fun n hn => ?_
    obtain ⟨hlt, hnp, -⟩ := (h.mem_ready n).mp hn
    exact hnp ((h.built.perm (Nat.le_antisymm h.built.length_le hf)).mem_iff.mpr (List.mem_range.mpr hlt))
  | fuel + 1, p, h, hf => by
    rw [advance]
    split
    · assumption
    · rename_i n rest hr
      obtain ⟨hv, hp⟩ := valid_place hl h hr
      refine advance_ready fuel hv ?_
      rw [hp, List.length_cons]
      omega

theorem valid_run : Valid l (run l) := valid_advance hl _ (valid_start l)

theorem ready_run : (run l).ready = [] :=
  advance_ready hl _ (valid_start l) (Nat.le_add_left _ _)

/-! ## The least order -/

theorem prefix_advance : ∀ (fuel : Nat) {p : Placement}, Valid l p →
    p.placed.reverse <+: (advance l fuel p).placed.reverse
  | 0, _, _ => List.prefix_refl _
  | fuel + 1, p, h => by
    rw [advance]
    split
    · exact List.prefix_refl _
    · rename_i n rest hr
      obtain ⟨hv, hp⟩ := valid_place hl h hr
      refine List.IsPrefix.trans ?_ (prefix_advance fuel hv)
      rw [hp, List.reverse_cons]
      exact List.prefix_append _ _

omit hl in
theorem eq_or_lt_append (ms ns : List Nat) : ms = ms ++ ns ∨ ms < ms ++ ns := by
  cases ns with
  | nil => exact .inl (List.append_nil ms).symm
  | cons n ns =>
    have h : ms ++ [] < ms ++ n :: ns := List.append_left_lt (List.nil_lt_cons n ns)
    rw [List.append_nil] at h
    exact .inr h

/-- Any other way to place the rest comes later. -/
theorem advance_first : ∀ (fuel : Nat) {p : Placement} {ns : List Nat}, Valid l p →
    l.Completes p.placed ns → (advance l fuel p).placed.reverse = p.placed.reverse ++ ns ∨
      (advance l fuel p).placed.reverse < p.placed.reverse ++ ns
  | 0, p, ns, _, _ => eq_or_lt_append _ _
  | fuel + 1, p, ns, h, hc => by
    rw [advance]
    split
    · exact eq_or_lt_append _ _
    · rename_i n rest hr
      obtain ⟨hn, hnp, hpn⟩ := (h.mem_ready n).mp (by rw [hr]; exact List.mem_cons_self)
      obtain ⟨hv, hp⟩ := valid_place hl h hr
      cases ns with
      | nil => exact absurd (hc n hn) hnp
      | cons m ns =>
        obtain ⟨hm, hmp, hpm, hc⟩ := hc
        have hmr : m ∈ p.ready := (h.mem_ready m).mpr ⟨hm, hmp, hpm⟩
        have hs := h.ready_sorted
        rw [hr] at hmr hs
        -- the other way goes on with the same node, or with a greater one
        rcases List.mem_cons.mp hmr with rfl | hmr
        · rw [← hp] at hc
          have hle := advance_first fuel hv hc
          rw [hp] at hle
          simpa using hle
        · have hlt : n < m := (List.pairwise_cons.mp hs).1 m hmr
          obtain ⟨out, ho⟩ := prefix_advance hl fuel hv
          rw [← ho, hp, List.reverse_cons, List.append_assoc]
          exact .inr (List.append_left_lt (.rel hlt))

end

end Placement

end Casework
