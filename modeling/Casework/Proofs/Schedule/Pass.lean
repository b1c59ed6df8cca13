import Casework.Schedule.Basic
import Casework.Proofs.Graph.Order
import Mathlib.Data.List.Find

/-!
# One pass of the scheduler

What is due for a pending node depends on its predecessors only, and these come first in the order of a
graph. So a pass, skips and all, decides every node by the states that stand when the pass is over, and
it still does once the launches are started.
-/

namespace Casework

/-! ## Walking forward -/

def Graph.Forward (g : Graph) (ns : List Nat) : Prop :=
  ns.Pairwise (fun a b => a ≠ b ∧ b ∉ g.preds a) ∧ ∀ n ∈ ns, n ∉ g.preds n

theorem Links.Built.pairwise {l : Links} : ∀ {ns : List Nat}, l.Built ns →
    ns.Pairwise (fun b a => a ≠ b ∧ b ∉ l.preds a)
  | [], _ => .nil
  | _ :: _, h => List.pairwise_cons.mpr
    ⟨fun a ha => ⟨fun e => h.2.1 (e ▸ ha), fun hn => h.2.1 (h.2.2.2.closed a ha _ hn)⟩, h.2.2.2.pairwise⟩

theorem Links.Built.not_mem_preds {l : Links} : ∀ {done : List Nat}, l.Built done → ∀ n ∈ done, n ∉ l.preds n
  | m :: done, h, n, hn => by
    rcases List.mem_cons.mp hn with rfl | hn
    · exact fun hm => h.2.1 (h.2.2.1 n hm)
    · exact h.2.2.2.not_mem_preds n hn

theorem Graph.Sound.forward {g : Graph} (hg : g.Sound) : g.Forward g.order := by
  refine ⟨?_, fun n hn => hg.built.not_mem_preds n (List.mem_reverse.mpr hn)⟩
  have := List.pairwise_reverse.mpr hg.built.pairwise
  rwa [List.reverse_reverse] at this

/-! ## Deciding a state -/

namespace NodeState

def settle : NodeState → Option Step → NodeState
  | .pending, some (.skip ..) => .skipped
  | st, _ => st

def advance : NodeState → Option Step → NodeState
  | .pending, some (.skip ..) => .skipped
  | .pending, some (.launch _) => .running
  | st, _ => st

end NodeState

namespace Step

def node : Step → Nat
  | .launch n | .skip n _ => n

def launch? : Step → Option Nat
  | .launch n => some n
  | .skip .. => none

def launches (steps : List Step) : List Nat := steps.filterMap launch?

end Step

namespace Scheduler

/-! ## States of nodes -/

theorem state_setState_self {s : Scheduler} {n : Nat} (hn : n < s.states.size) (st : NodeState) :
    (s.setState n st).state n = st := by
  simp [setState, state, hn]

theorem state_setState_of_ne {n m : Nat} (h : m ≠ n) (s : Scheduler) (st : NodeState) :
    (s.setState n st).state m = s.state m := by
  simp [setState, state, Ne.symm h]

theorem state_setState {s : Scheduler} {n : Nat} (hn : n < s.states.size) (st : NodeState) (m : Nat) :
    (s.setState n st).state m = if m = n then st else s.state m := by
  by_cases h : m = n
  · subst h
    rw [if_pos rfl]
    exact state_setState_self hn st
  · rw [if_neg h]
    exact state_setState_of_ne h s st

theorem size_setState (s : Scheduler) (n : Nat) (st : NodeState) :
    (s.setState n st).states.size = s.states.size := by
  simp [setState]

theorem state_of_size_le {s : Scheduler} {n : Nat} (h : s.states.size ≤ n) : s.state n = .pending := by
  simp [state, h]

/-! ## Verdicts -/

/-- What `n` is due for if it is pending. -/
def verdict (s : Scheduler) (n : Nat) : Option Step :=
  if (s.graph.preds n).all (fun p => (s.state p).isTerminal) then
    match (s.graph.preds n).find? fun p => (s.state p).isFailure with
    | some p => some (.skip n p)
    | none => some (.launch n)
  else none

theorem due?_eq (s : Scheduler) (n : Nat) :
    s.due? n = if s.state n = .pending then s.verdict n else none := by
  unfold due? verdict
  by_cases h : s.state n = .pending
  · rw [if_pos h]
    exact if_congr (and_iff_right h) rfl rfl
  · rw [if_neg h]
    exact if_neg fun hp => h hp.1

theorem verdict_eq_none {s : Scheduler} {n : Nat} :
    s.verdict n = none ↔ ∃ p ∈ s.graph.preds n, (s.state p).isTerminal = false := by
  unfold verdict
  split
  · rename_i h
    rw [List.all_eq_true] at h
    constructor
    · intro hn
      split at hn <;> cases hn
    · rintro ⟨p, hp, hf⟩
      rw [h p hp] at hf
      cases hf
  · rename_i h
    simp only [List.all_eq_true, not_forall, Bool.not_eq_true] at h
    obtain ⟨p, hp, hf⟩ := h
    exact iff_of_true rfl ⟨p, hp, hf⟩

theorem verdict_eq_launch {s : Scheduler} {n m : Nat} :
    s.verdict n = some (.launch m) ↔ m = n ∧ ∀ p ∈ s.graph.preds n, s.state p = .done := by
  have hdone : ∀ st : NodeState, st.isTerminal = true → st.isFailure = false → st = .done := by
    intro st
    cases st <;> simp [NodeState.isTerminal, NodeState.isFailure]
  unfold verdict
  split
  · rename_i h
    rw [List.all_eq_true] at h
    split
    · rename_i q hq
      have hf := List.find?_some hq
      refine iff_of_false (fun h => by cases h) fun hall => ?_
      rw [hall.2 q (List.mem_of_find?_eq_some hq)] at hf
      cases hf
    · rename_i hq
      rw [List.find?_eq_none] at hq
      constructor
      · intro he
        cases he
        exact ⟨rfl, fun p hp => hdone _ (h p hp) (by simpa using hq p hp)⟩
      · rintro ⟨rfl, -⟩
        rfl
  · rename_i h
    refine iff_of_false (fun h => by cases h) fun hall => h ?_
    rw [List.all_eq_true]
    intro p hp
    rw [hall.2 p hp]
    rfl

theorem verdict_eq_skip {s : Scheduler} {n m d : Nat} :
    s.verdict n = some (.skip m d) ↔ m = n ∧ (∀ p ∈ s.graph.preds n, (s.state p).isTerminal) ∧
      (s.graph.preds n).find? (fun p => (s.state p).isFailure) = some d := by
  unfold verdict
  split
  · rename_i h
    rw [List.all_eq_true] at h
    split
    · rename_i q hq
      constructor
      · intro he
        cases he
        exact ⟨rfl, h, hq⟩
      · rintro ⟨rfl, -, he⟩
        rw [hq] at he
        cases he
        rfl
    · rename_i hq
      refine iff_of_false (fun h => by cases h) fun he => ?_
      rw [hq] at he
      cases he.2.2
  · rename_i h
    refine iff_of_false (fun h => by cases h) fun hall => h ?_
    rw [List.all_eq_true]
    exact hall.2.1

theorem node_of_verdict {s : Scheduler} {n : Nat} {st : Step} (h : s.verdict n = some st) : st.node = n := by
  cases st with
  | launch m => exact (verdict_eq_launch.mp h).1
  | skip m d => exact (verdict_eq_skip.mp h).1

/-- Of a predecessor it counts only whether it is over and whether it is a failure. -/
theorem verdict_congr {s t : Scheduler} {n : Nat} (hg : t.graph = s.graph)
    (h : ∀ p ∈ s.graph.preds n, (t.state p).isTerminal = (s.state p).isTerminal ∧
      (t.state p).isFailure = (s.state p).isFailure) : t.verdict n = s.verdict n := by
  have hall : (s.graph.preds n).all (fun p => (t.state p).isTerminal) =
      (s.graph.preds n).all fun p => (s.state p).isTerminal :=
    Bool.eq_iff_iff.mpr (by
      rw [List.all_eq_true, List.all_eq_true]
      exact forall₂_congr fun p hp => by rw [(h p hp).1])
  have hfind : (s.graph.preds n).find? (fun p => (t.state p).isFailure) =
      (s.graph.preds n).find? fun p => (s.state p).isFailure :=
    List.find?_congr fun p hp => (h p hp).2
  unfold verdict
  rw [hg, hall, hfind]

/-! ## Sweeps -/

def visit (s : Scheduler) (n : Nat) : Scheduler :=
  match s.due? n with
  | none => s
  | some step => s.settle step

theorem sweep_cons (s : Scheduler) (n : Nat) (ns : List Nat) : s.sweep (n :: ns) =
    (((s.visit n).sweep ns).1, (s.due? n).toList ++ ((s.visit n).sweep ns).2) := by
  rw [sweep, visit]
  cases s.due? n <;> rfl

theorem visit_cases (s : Scheduler) (n : Nat) : s.visit n = s ∨ s.visit n = s.setState n .skipped := by
  rw [visit]
  split
  · exact .inl rfl
  · rename_i step h
    rw [due?_eq] at h
    split at h
    · have hn := node_of_verdict h
      cases step with
      | launch m => exact .inl rfl
      | skip m d =>
        cases hn
        exact .inr rfl
    · cases h

theorem state_visit_of_ne {n m : Nat} (h : m ≠ n) (s : Scheduler) : (s.visit n).state m = s.state m := by
  rcases visit_cases s n with he | he
  · rw [he]
  · rw [he, state_setState_of_ne h]

theorem state_visit_self {s : Scheduler} {n : Nat} (hn : n < s.states.size) :
    (s.visit n).state n = (s.state n).settle (s.verdict n) := by
  rw [visit, due?_eq]
  by_cases hp : s.state n = .pending
  · rw [if_pos hp, hp]
    cases hv : s.verdict n with
    | none => exact hp
    | some step =>
      have hnode := node_of_verdict hv
      cases step with
      | launch m => exact hp
      | skip m d =>
        cases hnode
        exact state_setState_self hn _
  · rw [if_neg hp]
    cases hs : s.state n <;> first | rfl | exact absurd hs hp

theorem sweep_frame : ∀ (ns : List Nat) (s : Scheduler), (s.sweep ns).1.graph = s.graph ∧
    (s.sweep ns).1.active = s.active ∧ (s.sweep ns).1.states.size = s.states.size
  | [], _ => ⟨rfl, rfl, rfl⟩
  | n :: ns, s => by
    obtain ⟨hg, ha, hs⟩ := sweep_frame ns (s.visit n)
    rw [sweep_cons, hg, ha, hs]
    rcases visit_cases s n with he | he
    · rw [he]
      exact ⟨rfl, rfl, rfl⟩
    · rw [he]
      exact ⟨rfl, rfl, size_setState s n _⟩

theorem state_sweep_of_not_mem : ∀ {ns : List Nat} {m : Nat}, m ∉ ns → ∀ s : Scheduler,
    (s.sweep ns).1.state m = s.state m
  | [], _, _, _ => rfl
  | n :: ns, m, h, s => by
    rw [List.mem_cons, not_or] at h
    rw [sweep_cons, state_sweep_of_not_mem h.2, state_visit_of_ne h.1]

/-- A walk forward decides every node by the states at its end. -/
theorem sweep_spec : ∀ {ns : List Nat} {s : Scheduler}, s.graph.Forward ns → (∀ n ∈ ns, n < s.states.size) →
    (∀ m ∈ ns, (s.sweep ns).1.state m = (s.state m).settle ((s.sweep ns).1.verdict m)) ∧
      (s.sweep ns).2 = ns.filterMap fun n =>
        if s.state n = .pending then (s.sweep ns).1.verdict n else none
  | [], s, _, _ => ⟨fun _ h => absurd h List.not_mem_nil, rfl⟩
  | n :: ns, s, ⟨hp, hself⟩, hlt => by
    obtain ⟨hn, hp⟩ := List.pairwise_cons.mp hp
    obtain ⟨hg, -, hsize⟩ := sweep_frame ns (s.visit n)
    have hvisit : (s.visit n).graph = s.graph ∧ (s.visit n).states.size = s.states.size := by
      rcases visit_cases s n with he | he <;> rw [he]
      · exact ⟨rfl, rfl⟩
      · exact ⟨rfl, size_setState s n _⟩
    have hnot : n ∉ ns := fun h => (hn n h).1 rfl
    have hforward : (s.visit n).graph.Forward ns := by
      rw [hvisit.1]
      exact ⟨hp, fun m hm => hself m (List.mem_cons_of_mem _ hm)⟩
    have hsizes : ∀ m ∈ ns, m < (s.visit n).states.size := by
      rw [hvisit.2]
      exact fun m hm => hlt m (List.mem_cons_of_mem _ hm)
    obtain ⟨ihs, iht⟩ := sweep_spec hforward hsizes
    -- neither `n` nor a node behind it is a predecessor of `n`
    have hverdict : ((s.visit n).sweep ns).1.verdict n = s.verdict n := by
      refine verdict_congr (hg.trans hvisit.1) fun p hpn => ?_
      have hpn' : p ∉ ns := fun h => (hn p h).2 hpn
      have hne : p ≠ n := by
        intro he
        subst he
        exact hself p List.mem_cons_self hpn
      rw [state_sweep_of_not_mem hpn', state_visit_of_ne hne]
      exact ⟨rfl, rfl⟩
    have hkeep : ∀ m ∈ ns, (s.visit n).state m = s.state m := fun m hm =>
      state_visit_of_ne (fun e : m = n => hnot (e ▸ hm)) s
    rw [sweep_cons]
    constructor
    · intro m hm
      rcases List.mem_cons.mp hm with rfl | hm
      · rw [state_sweep_of_not_mem hnot, state_visit_self (hlt m List.mem_cons_self), hverdict]
      · rw [ihs m hm, hkeep m hm]
    · rw [List.filterMap_cons, hverdict, ← due?_eq, iht, List.filterMap_congr fun m hm => by rw [hkeep m hm]]
      cases s.due? n <;> rfl

/-! ## Starting launches -/

def startAll (s : Scheduler) (ns : List Nat) : Scheduler := ns.foldl markStarted s

def advance (s : Scheduler) : Scheduler := s.scheduleNext.1.startAll (Step.launches s.scheduleNext.2)

theorem state_markStarted {s : Scheduler} {n : Nat} (hn : n < s.states.size) (m : Nat) :
    (s.markStarted n).state m = if m = n then .running else s.state m := state_setState hn .running m

theorem startAll_frame : ∀ (ns : List Nat) (s : Scheduler),
    (s.startAll ns).graph = s.graph ∧ (s.startAll ns).states.size = s.states.size
  | [], _ => ⟨rfl, rfl⟩
  | n :: ns, s => by
    obtain ⟨hg, hs⟩ := startAll_frame ns (s.markStarted n)
    exact ⟨hg, hs.trans (size_setState s n _)⟩

theorem state_startAll : ∀ {ns : List Nat} {s : Scheduler}, (∀ n ∈ ns, n < s.states.size) → ∀ m,
    (s.startAll ns).state m = if m ∈ ns then .running else s.state m
  | [], _, _, m => by simp [startAll]
  | n :: ns, s, h, m => by
    have hsize : (s.markStarted n).states.size = s.states.size := size_setState s n _
    rw [startAll, List.foldl_cons]
    change ((s.markStarted n).startAll ns).state m = _
    rw [state_startAll (by rw [hsize]; exact fun k hk => h k (List.mem_cons_of_mem _ hk)),
      state_markStarted (h n List.mem_cons_self)]
    by_cases hm : m ∈ ns
    · simp [hm]
    · by_cases hn : m = n <;> simp [hm, hn]

/-! ## Passes over a graph -/

structure Fits (g : Graph) (s : Scheduler) : Prop where
  graph : s.graph = g
  size : s.states.size = g.size

theorem fits_new (g : Graph) : (new g).Fits g := ⟨rfl, by simp [new]⟩

section
variable {g : Graph} {s : Scheduler} (hg : g.Sound) (hs : s.Fits g)

theorem mem_order (hg : g.Sound) {n : Nat} : n ∈ g.order ↔ n < g.size := by
  rw [hg.perm.mem_iff, List.mem_range]

include hs in
theorem fits_scheduleNext : s.scheduleNext.1.Fits g := by
  obtain ⟨h1, -, h3⟩ := sweep_frame s.graph.order s
  exact ⟨h1.trans hs.graph, h3.trans hs.size⟩

include hs in
theorem fits_advance : s.advance.Fits g := by
  obtain ⟨h1, h2⟩ := startAll_frame (Step.launches s.scheduleNext.2) s.scheduleNext.1
  exact ⟨h1.trans (fits_scheduleNext hs).graph, h2.trans (fits_scheduleNext hs).size⟩

include hs in
theorem state_of_le {n : Nat} (h : g.size ≤ n) : s.state n = .pending :=
  state_of_size_le (hs.size ▸ h)

include hs in
theorem lt_of_ne_pending {n : Nat} (h : s.state n ≠ .pending) : n < g.size :=
  Classical.byContradiction fun hn => h (state_of_le hs (Nat.not_lt.mp hn))

include hg hs

theorem scheduleNext_spec :
    (∀ n < g.size, s.scheduleNext.1.state n = (s.state n).settle (s.scheduleNext.1.verdict n)) ∧
      s.scheduleNext.2 = g.order.filterMap fun n =>
        if s.state n = .pending then s.scheduleNext.1.verdict n else none := by
  have hforward : s.graph.Forward g.order := hs.graph ▸ hg.forward
  have hsizes : ∀ n ∈ g.order, n < s.states.size := fun n hn => hs.size ▸ (mem_order hg).mp hn
  have hspec := sweep_spec hforward hsizes
  rw [scheduleNext, hs.graph]
  exact ⟨fun n hn => hspec.1 n ((mem_order hg).mpr hn), hspec.2⟩

theorem mem_steps {st : Step} : st ∈ s.scheduleNext.2 ↔
    st.node < g.size ∧ s.state st.node = .pending ∧ s.scheduleNext.1.verdict st.node = some st := by
  rw [(scheduleNext_spec hg hs).2, List.mem_filterMap]
  constructor
  · rintro ⟨n, hn, h⟩
    split at h
    · have hnode := node_of_verdict h
      subst hnode
      exact ⟨(mem_order hg).mp hn, by assumption, h⟩
    · cases h
  · rintro ⟨hn, hp, hv⟩
    exact ⟨st.node, (mem_order hg).mpr hn, by rw [if_pos hp, hv]⟩

theorem nodes_sublist : (s.scheduleNext.2.map Step.node).Sublist g.order := by
  rw [(scheduleNext_spec hg hs).2]
  generalize g.order = ns
  induction ns with
  | nil => exact .slnil
  | cons n ns ih =>
    rw [List.filterMap_cons]
    split
    · exact ih.cons n
    · rename_i st h
      have hnode : st.node = n := by
        split at h
        · exact node_of_verdict h
        · cases h
      rw [List.map_cons, hnode]
      exact ih.cons_cons n

theorem nodup_nodes : (s.scheduleNext.2.map Step.node).Nodup :=
  (nodes_sublist hg hs).nodup (hg.perm.nodup_iff.mpr List.nodup_range)

theorem mem_launches {n : Nat} : n ∈ Step.launches s.scheduleNext.2 ↔
    n < g.size ∧ s.state n = .pending ∧ s.scheduleNext.1.verdict n = some (.launch n) := by
  rw [Step.launches, List.mem_filterMap]
  constructor
  · rintro ⟨st, hst, he⟩
    cases st with
    | launch m =>
      cases he
      exact (mem_steps hg hs).mp hst
    | skip m d => cases he
  · intro h
    exact ⟨.launch n, (mem_steps hg hs).mpr h, rfl⟩

theorem nodup_launches : (Step.launches s.scheduleNext.2).Nodup := by
  have hsub : ∀ steps : List Step, (Step.launches steps).Sublist (steps.map Step.node) := by
    intro steps
    induction steps with
    | nil => exact .slnil
    | cons st steps ih =>
      cases st with
      | launch n => exact ih.cons_cons n
      | skip n d => exact ih.cons n
  exact (hsub _).nodup (nodup_nodes hg hs)

theorem state_launched {n : Nat} (h : n ∈ Step.launches s.scheduleNext.2) :
    s.scheduleNext.1.state n = .pending := by
  obtain ⟨hn, hp, hv⟩ := (mem_launches hg hs).mp h
  rw [(scheduleNext_spec hg hs).1 n hn, hv, hp]
  rfl

theorem lt_size_launches : ∀ n ∈ Step.launches s.scheduleNext.2, n < s.scheduleNext.1.states.size := by
  intro n h
  rw [(fits_scheduleNext hs).size]
  exact ((mem_launches hg hs).mp h).1

theorem verdict_advance (n : Nat) : s.advance.verdict n = s.scheduleNext.1.verdict n := by
  refine verdict_congr (startAll_frame _ _).1 fun p _ => ?_
  rw [advance, state_startAll (lt_size_launches hg hs)]
  split
  · rename_i h
    rw [state_launched hg hs h]
    exact ⟨rfl, rfl⟩
  · exact ⟨rfl, rfl⟩

theorem state_advance {n : Nat} (hn : n < g.size) :
    s.advance.state n = (s.state n).advance (s.advance.verdict n) := by
  have hm := mem_launches hg hs (n := n)
  rw [verdict_advance hg hs, advance, state_startAll (lt_size_launches hg hs),
    (scheduleNext_spec hg hs).1 n hn]
  cases hp : s.state n with
  | pending =>
    cases hv : s.scheduleNext.1.verdict n with
    | none =>
      rw [if_neg (by rw [hm, hv]; simp)]
      rfl
    | some st =>
      cases st with
      | launch m =>
        have hnode : m = n := node_of_verdict hv
        subst hnode
        rw [if_pos (hm.mpr ⟨hn, hp, hv⟩)]
        rfl
      | skip m d =>
        rw [if_neg (by rw [hm, hv]; simp)]
        rfl
  | _ =>
    rw [if_neg (by rw [hm, hp]; simp)]
    rfl

end

end Scheduler

end Casework
