import Casework.Proofs.Schedule.Safety
import Mathlib.Data.List.Sort

/-!
# Passes in any state

Nodes may be marked in whatever state they are. Still the active nodes are the running ones, and a pass decides
every node by the states at its end. So it leaves nothing to skip, and the next pass finds the same launches.
-/

namespace Casework

theorem NodeState.settle_cases (st : NodeState) (v : Option Step) :
    st.settle v = st ∨ st = .pending ∧ st.settle v = .skipped := by
  unfold NodeState.settle
  split
  · exact .inr ⟨rfl, rfl⟩
  · exact .inl rfl

theorem NodeState.isFailure_eq_true {st : NodeState} : st.isFailure = true ↔ st = .failed ∨ st = .skipped := by
  cases st <;> simp [isFailure]

namespace Scheduler

/-! ## Calls -/

inductive Call (g : Graph) : Scheduler → Scheduler → Prop
  | pass (s : Scheduler) : Call g s s.scheduleNext.1
  | start (s : Scheduler) {n : Nat} : n < g.size → Call g s (s.markStarted n)
  | finish (s : Scheduler) {n : Nat} : n < g.size → Call g s (s.markDone n)
  | fail (s : Scheduler) {n : Nat} : n < g.size → Call g s (s.markFailed n)

def Called (g : Graph) (s : Scheduler) : Prop := Relation.ReflTransGen (Call g) (new g) s

section
variable {g : Graph} {s : Scheduler}

theorem Tracks.marked (h : s.Tracks g) {n : Nat} (hn : n < g.size) {st : NodeState} {active : List Nat}
    (hsorted : active.Pairwise (· < ·)) (hmem : ∀ m, m ∈ active ↔ if m = n then st = .running else m ∈ s.active) :
    Tracks g { s.setState n st with active := active } := by
  refine ⟨⟨h.fits.graph, (size_setState s n st).trans h.fits.size⟩, hsorted, ?_⟩
  intro m
  have hstate := state_setState (h.fits.size ▸ hn) st m
  show m ∈ active ↔ (s.setState n st).state m = .running
  rw [hstate, hmem]
  by_cases hm : m = n
  · simp [hm]
  · simp [hm, h.mem_active]

theorem Tracks.scheduleNext (hg : g.Sound) (h : s.Tracks g) : s.scheduleNext.1.Tracks g := by
  have hactive : s.scheduleNext.1.active = s.active := (sweep_frame _ _).2.1
  refine ⟨fits_scheduleNext h.fits, ?_, ?_⟩
  · rw [hactive]
    exact h.active_sorted
  · intro n
    rw [hactive, h.mem_active, running_of_scheduleNext hg h.fits]

theorem Tracks.call (hg : g.Sound) (h : s.Tracks g) {t : Scheduler} (hc : Call g s t) : t.Tracks g := by
  have hnodup : s.active.Nodup := h.active_sorted.imp Nat.ne_of_lt
  have herase : ∀ n m, m ∈ s.active.erase n ↔ m ≠ n ∧ m ∈ s.active := fun n m => hnodup.mem_erase_iff
  have hsorted : ∀ n, (s.active.erase n).Pairwise (· < ·) := fun n => h.active_sorted.sublist List.erase_sublist
  cases hc with
  | pass => exact h.scheduleNext hg
  | @start n hn =>
    apply h.marked hn (insertNode_sorted h.active_sorted)
    intro m
    by_cases hm : m = n <;> simp [mem_insertNode, hm]
  | @finish n hn =>
    apply h.marked hn (hsorted n)
    intro m
    by_cases hm : m = n <;> simp [herase, hm]
  | @fail n hn =>
    apply h.marked hn (hsorted n)
    intro m
    by_cases hm : m = n <;> simp [herase, hm]

theorem tracks_called (hg : g.Sound) (h : Called g s) : s.Tracks g := by
  induction h with
  | refl => exact (sound_new g).tracks
  | tail _ hc ih => exact ih.call hg hc

theorem Tracks.active_eq (h : s.Tracks g) : s.active = (List.range g.size).filter fun n => s.state n = .running := by
  apply h.active_sorted.eq_of_mem_iff (List.pairwise_lt_range.filter _)
  intro n
  rw [h.mem_active, List.mem_filter, List.mem_range, decide_eq_true_iff]
  constructor
  · intro hr
    exact ⟨lt_of_ne_pending h.fits (by simp [hr]), hr⟩
  · exact fun hr => hr.2

theorem Tracks.runningCount_eq (h : s.Tracks g) :
    s.runningCount = (List.range g.size).countP fun n => s.state n = .running := by
  rw [runningCount, h.active_eq, List.countP_eq_length_filter]

end

/-! ## What a pass leaves -/

section
variable {g : Graph} {s : Scheduler} (hg : g.Sound) (hs : s.Fits g)
include hg hs

theorem state_pass_cases (n : Nat) : s.scheduleNext.1.state n = s.state n ∨
    s.state n = .pending ∧ s.scheduleNext.1.state n = .skipped := by
  by_cases hn : n < g.size
  · rw [(scheduleNext_spec hg hs).1 n hn]
    exact NodeState.settle_cases _ _
  · rw [state_of_le hs (Nat.not_lt.mp hn), state_of_le (fits_scheduleNext hs) (Nat.not_lt.mp hn)]
    exact .inl rfl

theorem done_pass_iff (n : Nat) : s.scheduleNext.1.state n = .done ↔ s.state n = .done := by
  rcases state_pass_cases hg hs n with he | ⟨hp, hk⟩
  · rw [he]
  · simp [hp, hk]

theorem verdict_ne_skip {n : Nat} (hn : n < g.size) (hp : s.scheduleNext.1.state n = .pending) (m d : Nat) :
    s.scheduleNext.1.verdict n ≠ some (.skip m d) := by
  intro hv
  rw [(scheduleNext_spec hg hs).1 n hn, hv] at hp
  cases hst : s.state n <;> rw [hst] at hp <;> cases hp

theorem done_of_pending {n : Nat} (hn : n < g.size) (hp : s.scheduleNext.1.state n = .pending)
    (hall : ∀ p ∈ g.preds n, (s.scheduleNext.1.state p).isTerminal) : ∀ p ∈ g.preds n, s.scheduleNext.1.state p = .done := by
  have hgraph := (fits_scheduleNext hs).graph
  cases hv : s.scheduleNext.1.verdict n with
  | none =>
    obtain ⟨p, hpn, hf⟩ := verdict_eq_none.mp hv
    rw [hgraph] at hpn
    rw [hall p hpn] at hf
    cases hf
  | some st =>
    cases st with
    | launch m =>
      rw [← hgraph]
      exact (verdict_eq_launch.mp hv).2
    | skip m d => exact absurd hv (verdict_ne_skip hg hs hn hp m d)

theorem launches_eq_filter : Step.launches s.scheduleNext.2 = g.order.filter fun n =>
    s.state n = .pending ∧ s.scheduleNext.1.verdict n = some (.launch n) := by
  rw [(scheduleNext_spec hg hs).2, Step.launches, List.filterMap_filterMap, ← List.filterMap_eq_filter]
  apply List.filterMap_congr
  intro n _
  by_cases hp : s.state n = .pending
  · cases hv : s.scheduleNext.1.verdict n with
    | none => simp [hp, hv, Option.guard]
    | some st =>
      cases st with
      | launch m =>
        obtain rfl : m = n := node_of_verdict hv
        simp [hp, hv, Option.guard, Step.launch?]
      | skip m d => simp [hp, hv, Option.guard, Step.launch?]
  · simp [hp, Option.guard]

theorem launched_iff {n : Nat} (hn : n < g.size) :
    s.state n = .pending ∧ s.scheduleNext.1.verdict n = some (.launch n) ↔
      s.scheduleNext.1.state n = .pending ∧ ∀ p ∈ g.preds n, s.scheduleNext.1.state p = .done := by
  have hv := verdict_eq_launch (s := s.scheduleNext.1) (n := n) (m := n)
  rw [(fits_scheduleNext hs).graph] at hv
  constructor
  · rintro ⟨hp, hl⟩
    exact ⟨state_launched hg hs ((mem_launches hg hs).mpr ⟨hn, hp, hl⟩), (hv.mp hl).2⟩
  · rintro ⟨hp, hd⟩
    refine ⟨?_, hv.mpr ⟨rfl, hd⟩⟩
    rcases state_pass_cases hg hs n with he | ⟨hp, -⟩
    · rw [← he, hp]
    · exact hp

theorem launches_eq : Step.launches s.scheduleNext.2 = g.order.filter fun n =>
    s.scheduleNext.1.state n = .pending ∧ ∀ p ∈ g.preds n, s.scheduleNext.1.state p = .done := by
  rw [launches_eq_filter hg hs]
  apply List.filter_congr
  intro n hn
  exact decide_eq_decide.mpr (launched_iff hg hs ((mem_order hg).mp hn))

/-- In terms of the states before the pass: no pass changes what is done. -/
theorem launches_eq_before : Step.launches s.scheduleNext.2 = g.order.filter fun n =>
    s.state n = .pending ∧ ∀ p ∈ g.preds n, s.state p = .done := by
  rw [launches_eq_filter hg hs]
  apply List.filter_congr
  intro n _
  apply decide_eq_decide.mpr
  rw [verdict_eq_launch, (fits_scheduleNext hs).graph]
  simp only [done_pass_iff hg hs, true_and]

omit hg hs in
theorem sweep_eq_self : ∀ {ns : List Nat}, (∀ n ∈ ns, ∀ m d, s.due? n ≠ some (.skip m d)) →
    (s.sweep ns).1 = s ∧ (s.sweep ns).2 = (Step.launches (s.sweep ns).2).map .launch
  | [], _ => ⟨rfl, rfl⟩
  | n :: ns, h => by
    obtain ⟨hstate, hsteps⟩ := sweep_eq_self fun m hm => h m (List.mem_cons_of_mem n hm)
    have hn := h n List.mem_cons_self
    have hvisit : s.visit n = s := by
      unfold visit
      cases hd : s.due? n with
      | none => rfl
      | some st =>
        cases st with
        | launch m => rfl
        | skip m d => exact absurd hd (hn m d)
    rw [sweep_cons, hvisit]
    refine ⟨hstate, ?_⟩
    cases hd : s.due? n with
    | none => exact hsteps
    | some st =>
      cases st with
      | launch m => exact congrArg (Step.launch m :: ·) hsteps
      | skip m d => exact absurd hd (hn m d)

theorem pass_again : s.scheduleNext.1.scheduleNext =
    (s.scheduleNext.1, (Step.launches s.scheduleNext.2).map .launch) := by
  have hfits := fits_scheduleNext hs
  have hdue : ∀ n ∈ g.order, ∀ m d, s.scheduleNext.1.due? n ≠ some (.skip m d) := by
    intro n hn m d
    rw [due?_eq]
    split
    · exact verdict_ne_skip hg hs ((mem_order hg).mp hn) (by assumption) m d
    · simp
  have hsweep : s.scheduleNext.1.scheduleNext = s.scheduleNext.1.sweep g.order := by
    rw [← hfits.graph]
    rfl
  obtain ⟨hstate, hsteps⟩ := sweep_eq_self hdue
  rw [← hsweep] at hstate hsteps
  have hlaunches : Step.launches s.scheduleNext.1.scheduleNext.2 = Step.launches s.scheduleNext.2 := by
    rw [launches_eq hg hfits, launches_eq hg hs, hstate]
  rw [hlaunches] at hsteps
  exact Prod.ext hstate hsteps

/-! ## Skips -/

theorem exists_skip {n : Nat} (hp : s.state n = .pending) (hk : s.scheduleNext.1.state n = .skipped) :
    ∃ d, .skip n d ∈ s.scheduleNext.2 := by
  have hn : n < g.size := lt_of_ne_pending (fits_scheduleNext hs) (by simp [hk])
  rw [(scheduleNext_spec hg hs).1 n hn, hp] at hk
  cases hv : s.scheduleNext.1.verdict n with
  | none =>
    rw [hv] at hk
    cases hk
  | some st =>
    have hnode := node_of_verdict hv
    rw [hv] at hk
    cases st with
    | launch m => cases hk
    | skip m d =>
      cases hnode
      exact ⟨d, (mem_steps hg hs).mpr ⟨hn, hp, hv⟩⟩

theorem skip_mem_early {early late : List Step} {n d e : Nat} (hsplit : s.scheduleNext.2 = early ++ .skip n d :: late)
    (hdn : d ∈ g.preds n) (hd : .skip d e ∈ s.scheduleNext.2) : .skip d e ∈ early := by
  have hnodes := nodes_sublist hg hs
  have hforward := hg.forward.1.sublist hnodes
  rw [hsplit, List.map_append, List.map_cons] at hforward hnodes
  have hn : n ∈ g.order := hnodes.subset (by simp [Step.node])
  rw [hsplit] at hd
  rcases List.mem_append.mp hd with hd | hd
  · exact hd
  · rcases List.mem_cons.mp hd with he | hd
    · cases he
      exact absurd hdn (hg.forward.2 n hn)
    · have hbehind := (List.pairwise_append.mp hforward).2.1
      have hdl : d ∈ late.map Step.node := List.mem_map.mpr ⟨.skip d e, hd, rfl⟩
      exact absurd hdn ((List.pairwise_cons.mp hbehind).1 d hdl).2

theorem skip_blames {n d : Nat} (h : .skip n d ∈ s.scheduleNext.2) : d ∈ g.preds n ∧
    (s.scheduleNext.1.state d = .failed ∨ s.scheduleNext.1.state d = .skipped) ∧
    ∀ p ∈ g.preds n, s.scheduleNext.1.state p = .failed ∨ s.scheduleNext.1.state p = .skipped →
      Text.encode (g.name d) ≤ Text.encode (g.name p) := by
  obtain ⟨-, -, hv⟩ := (mem_steps hg hs).mp h
  obtain ⟨-, -, hfind⟩ := verdict_eq_skip.mp hv
  rw [(fits_scheduleNext hs).graph] at hfind
  have hf := List.find?_some hfind
  refine ⟨List.mem_of_find?_eq_some hfind, NodeState.isFailure_eq_true.mp hf, ?_⟩
  intro p hp hfp
  have hle := le_of_find?_eq_some (hg.links.preds_sorted n) hfind p hp (NodeState.isFailure_eq_true.mpr hfp)
  exact Graph.encode_name_le hg hle (hg.links.preds_lt n p hp)

end

/-! ## Any use -/

/-- After any calls at all, the count of the running nodes is right, and all is done just if every node is over. A
pass skips pending nodes and changes nothing else. It leaves no node pending that has a failure among predecessors
that are all over, and it launches, each once and in the order of the graph, those that have only done ones. A skip
blames the first failure by name, and stands behind the skip of what it blames. Another pass finds the same launches
and changes nothing. -/
theorem pass_settles {tasks : NameMap Task} {g : Graph} (hb : Graph.build tasks = .ok g) {s : Scheduler}
    (h : Called g s) {t : Scheduler} {steps : List Step} (hpass : s.scheduleNext = (t, steps)) :
    s.runningCount = (List.range g.size).countP (fun n => s.state n = .running) ∧
    (s.allDone = true ↔ ∀ n < g.size, (s.state n).isTerminal) ∧
    (∀ n, t.state n = s.state n ∨ s.state n = .pending ∧ t.state n = .skipped) ∧
    (∀ n < g.size, t.state n = .pending → ¬ ((∀ p ∈ g.preds n, (t.state p).isTerminal) ∧
      ∃ p ∈ g.preds n, t.state p = .failed ∨ t.state p = .skipped)) ∧
    Step.launches steps = g.order.filter (fun n => t.state n = .pending ∧ ∀ p ∈ g.preds n, t.state p = .done) ∧
    Step.launches steps = g.order.filter (fun n => s.state n = .pending ∧ ∀ p ∈ g.preds n, s.state p = .done) ∧
    (Step.launches steps).Nodup ∧
    (∀ early n d late, steps = early ++ .skip n d :: late →
      d ∈ g.preds n ∧ (t.state d = .failed ∨ t.state d = .skipped) ∧
      (∀ p ∈ g.preds n, t.state p = .failed ∨ t.state p = .skipped →
        Text.encode (g.name d) ≤ Text.encode (g.name p)) ∧
      (∀ e, .skip d e ∈ steps → .skip d e ∈ early) ∧ (s.state d = .pending → ∃ e, .skip d e ∈ early)) ∧
    t.scheduleNext = (t, (Step.launches steps).map .launch) := by
  have hg := Graph.sound_build hb
  have htracks := tracks_called hg h
  have hs := htracks.fits
  obtain rfl : s.scheduleNext.1 = t := congrArg Prod.fst hpass
  obtain rfl : s.scheduleNext.2 = steps := congrArg Prod.snd hpass
  refine ⟨htracks.runningCount_eq, htracks.allDone_iff, state_pass_cases hg hs, ?_, launches_eq hg hs,
    launches_eq_before hg hs, nodup_launches hg hs, ?_, pass_again hg hs⟩
  · rintro n hn hp ⟨hall, p, hpn, hf⟩
    have hd := done_of_pending hg hs hn hp hall p hpn
    rcases hf with hf | hf <;> rw [hd] at hf <;> cases hf
  · intro early n d late hsplit
    obtain ⟨hdn, hf, hleast⟩ := skip_blames hg hs (n := n) (d := d) (by simp [hsplit])
    have hearly : ∀ e, .skip d e ∈ s.scheduleNext.2 → .skip d e ∈ early := fun e => skip_mem_early hg hs hsplit hdn
    refine ⟨hdn, hf, hleast, hearly, ?_⟩
    intro hp
    have hk : s.scheduleNext.1.state d = .skipped := by
      rcases state_pass_cases hg hs d with he | ⟨-, hk⟩
      · rw [he, hp] at hf
        rcases hf with hf | hf <;> cases hf
      · exact hk
    obtain ⟨e, he⟩ := exists_skip hg hs hp hk
    exact ⟨e, hearly e he⟩

theorem fork_pass_settles : Graph.build Graph.fork = .ok Graph.forkGraph ∧
    Called Graph.forkGraph (((new Graph.forkGraph).markDone 1).markFailed 1) ∧
    (((new Graph.forkGraph).markDone 1).markFailed 1).scheduleNext.2 = [.skip 0 1, .skip 2 1, .skip 3 0] ∧
    (∃ e, .skip 0 e ∈ [Step.skip 0 1, .skip 2 1]) ∧
    (((new Graph.forkGraph).markDone 1).markFailed 1).scheduleNext.1.scheduleNext =
      ((((new Graph.forkGraph).markDone 1).markFailed 1).scheduleNext.1, []) := by
  have h : Called Graph.forkGraph (((new Graph.forkGraph).markDone 1).markFailed 1) :=
    (Relation.ReflTransGen.single (.finish _ (by decide))).tail (.fail _ (by decide))
  have hsteps : (((new Graph.forkGraph).markDone 1).markFailed 1).scheduleNext.2 =
      [.skip 0 1, .skip 2 1, .skip 3 0] := by decide
  obtain ⟨-, -, -, -, -, -, -, hskip, hagain⟩ := pass_settles Graph.build_fork h (Prod.ext rfl hsteps)
  exact ⟨Graph.build_fork, h, hsteps, (hskip [.skip 0 1, .skip 2 1] 3 0 [] rfl).2.2.2.2 (by decide), hagain⟩

end Scheduler

end Casework
