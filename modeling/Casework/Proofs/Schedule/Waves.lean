import Casework.Proofs.Graph.Depth
import Casework.Proofs.Schedule.Safety

/-!
# Waves

If everything that a pass launches is done before the next pass, the passes go through the graph level by
level. After `k` of them exactly the nodes above depth `k` are done, so the next one launches those of depth
`k`, in the order of the graph.
-/

namespace Casework.Scheduler

def finishAll (s : Scheduler) (ns : List Nat) : Scheduler := ns.foldl markDone s

/-- The schedulers after `k` rounds. In a round all that a pass launches is started, and then all of it is
done, each time in some order. -/
inductive Rounds (g : Graph) : Nat → Scheduler → Prop
  | zero : Rounds g 0 (new g)
  | succ {k : Nat} {s : Scheduler} {started ended : List Nat} : Rounds g k s →
    started.Perm (Step.launches s.scheduleNext.2) → ended.Perm (Step.launches s.scheduleNext.2) →
    Rounds g (k + 1) ((s.scheduleNext.1.startAll started).finishAll ended)

structure Swept (g : Graph) (k : Nat) (s : Scheduler) : Prop where
  sound : s.Sound g
  state : ∀ n < g.size, s.state n = if g.depth n < k then .done else .pending

theorem swept_new (g : Graph) : (new g).Swept g 0 :=
  ⟨sound_new g, fun n _ => by rw [state_new, if_neg (Nat.not_lt_zero _)]⟩

/-! ## Ends -/

theorem Startable.perm {g : Graph} {s : Scheduler} {ns ms : List Nat} (h : Startable g s ms) (hp : ns.Perm ms) :
    Startable g s ns :=
  ⟨hp.nodup_iff.mpr h.1, fun n hn => h.2 n (hp.mem_iff.mp hn)⟩

theorem finishAll_spec {g : Graph} : ∀ {ns : List Nat} {s : Scheduler}, s.Sound g → ns.Nodup →
    (∀ n ∈ ns, s.state n = .running) →
    (s.finishAll ns).Sound g ∧ ∀ m, (s.finishAll ns).state m = if m ∈ ns then .done else s.state m
  | [], s, hs, _, _ => ⟨hs, fun m => (if_neg List.not_mem_nil).symm⟩
  | n :: ns, s, hs, hnd, hrun => by
    obtain ⟨hn, hnd⟩ := List.nodup_cons.mp hnd
    have hr := hrun n List.mem_cons_self
    have hstate := state_ended hr .done
    have hrun' : ∀ m ∈ ns, (s.markDone n).state m = .running := by
      intro m hm
      have hne : m ≠ n := fun e => hn (e ▸ hm)
      exact (hstate m).trans ((if_neg hne).trans (hrun m (List.mem_cons_of_mem _ hm)))
    obtain ⟨ih, ihs⟩ := finishAll_spec (sound_ended hs hr .finish) hnd hrun'
    refine ⟨ih, fun m => (ihs m).trans ?_⟩
    rw [hstate]
    by_cases hm : m ∈ ns <;> by_cases he : m = n <;> simp [hm, he]

/-! ## One round -/

section
variable {g : Graph} {k : Nat} {s : Scheduler} (hg : g.Sound) (h : s.Swept g k)
include hg h

theorem state_pass_of_swept : ∀ n < g.size, s.scheduleNext.1.state n = s.state n := by
  have hcases : ∀ n < g.size, s.state n = .done ∨ s.state n = .pending := by
    intro n hn
    rw [h.state n hn]
    by_cases hk : g.depth n < k <;> simp [hk]
  refine hg.induction fun n hn ih => ?_
  rw [(scheduleNext_spec hg h.sound.fits).1 n hn]
  rcases hcases n hn with hs | hs
  · rw [hs]
    rfl
  · rw [hs]
    cases hv : s.scheduleNext.1.verdict n with
    | none => rfl
    | some v =>
      cases v with
      | launch m => rfl
      | skip m d =>
        obtain ⟨-, -, hfind⟩ := verdict_eq_skip.mp hv
        rw [(fits_scheduleNext h.sound.fits).graph] at hfind
        have hd := List.mem_of_find?_eq_some hfind
        have hf := List.find?_some hfind
        rw [ih d hd] at hf
        rcases hcases d (hg.links.preds_lt n d hd) with hs | hs <;> rw [hs] at hf <;> cases hf

theorem verdict_pass_of_swept {n : Nat} (hn : n < g.size) (hk : k ≤ g.depth n) :
    s.scheduleNext.1.verdict n = if g.depth n = k then some (.launch n) else none := by
  have hgraph := (fits_scheduleNext h.sound.fits).graph
  have hpred : ∀ p ∈ g.preds n, s.scheduleNext.1.state p = if g.depth p < k then .done else .pending := by
    intro p hp
    have hlt := hg.links.preds_lt n p hp
    rw [state_pass_of_swept hg h p hlt, h.state p hlt]
  by_cases he : g.depth n = k
  · rw [if_pos he, verdict_eq_launch, hgraph]
    refine ⟨rfl, fun p hp => ?_⟩
    rw [hpred p hp, if_pos ((Graph.depth_le_iff hg hn).mp (Nat.le_of_eq he) p hp)]
  · rw [if_neg he, verdict_eq_none, hgraph]
    have hdeep : ¬ ∀ p ∈ g.preds n, g.depth p < k := fun hall =>
      he (Nat.le_antisymm ((Graph.depth_le_iff hg hn).mpr hall) hk)
    simp only [not_forall] at hdeep
    obtain ⟨p, hp, hlt⟩ := hdeep
    refine ⟨p, hp, ?_⟩
    rw [hpred p hp, if_neg hlt]
    rfl

theorem steps_of_swept :
    s.scheduleNext.2 = (g.order.filter fun n => g.depth n = k).map Step.launch := by
  rw [(scheduleNext_spec hg h.sound.fits).2, ← List.filterMap_eq_map, List.filterMap_filter]
  refine List.filterMap_congr fun n hn => ?_
  have hlt : n < g.size := (mem_order hg).mp hn
  rw [h.state n hlt]
  by_cases hk : g.depth n < k
  · have hne : g.depth n ≠ k := Nat.ne_of_lt hk
    simp [hk, hne]
  · rw [if_neg hk, if_pos rfl, verdict_pass_of_swept hg h hlt (Nat.not_lt.mp hk)]
    simp

theorem launches_of_swept :
    Step.launches s.scheduleNext.2 = g.order.filter fun n => g.depth n = k := by
  rw [steps_of_swept hg h, Step.launches, List.filterMap_map]
  exact List.filterMap_some

theorem swept_round {started ended : List Nat} (hs : started.Perm (Step.launches s.scheduleNext.2))
    (he : ended.Perm (Step.launches s.scheduleNext.2)) :
    ((s.scheduleNext.1.startAll started).finishAll ended).Swept g (k + 1) := by
  have hfits := fits_scheduleNext h.sound.fits
  have hstart := (startable_scheduleNext hg h.sound.fits).perm hs
  have hstarted : ∀ m, (s.scheduleNext.1.startAll started).state m =
      if m ∈ started then .running else s.scheduleNext.1.state m :=
    state_startAll fun n hn => hfits.size ▸ (hstart.2 n hn).1
  have hrun : ∀ n ∈ ended, (s.scheduleNext.1.startAll started).state n = .running := by
    intro n hn
    rw [hstarted, if_pos (hs.mem_iff.mpr (he.mem_iff.mp hn))]
  have hnodup : ended.Nodup := he.nodup_iff.mpr (nodup_launches hg h.sound.fits)
  have hsound := sound_startAll (sound_scheduleNext hg h.sound) hstart
  obtain ⟨hend, hstate⟩ := finishAll_spec hsound hnodup hrun
  refine ⟨hend, fun n hn => ?_⟩
  have hmem : n ∈ Step.launches s.scheduleNext.2 ↔ g.depth n = k := by
    rw [launches_of_swept hg h, List.mem_filter, mem_order hg]
    simp [hn]
  have hbegun : n ∈ started ↔ g.depth n = k := hs.mem_iff.trans hmem
  have hended : n ∈ ended ↔ g.depth n = k := he.mem_iff.trans hmem
  rw [hstate, hstarted, state_pass_of_swept hg h n hn, h.state n hn]
  simp only [hbegun, hended]
  -- levels below stay done, level `k` was started and has ended, levels above still wait
  rcases Nat.lt_trichotomy (g.depth n) k with hlt | heq | hgt
  · have hne : g.depth n ≠ k := Nat.ne_of_lt hlt
    simp [hne, hlt, Nat.lt_succ_of_lt hlt]
  · simp [heq]
  · have hne : g.depth n ≠ k := Nat.ne_of_gt hgt
    have hnot : ¬ g.depth n < k := Nat.not_lt.mpr (Nat.le_of_lt hgt)
    have hnot' : ¬ g.depth n < k + 1 := Nat.not_lt.mpr hgt
    simp [hne, hnot, hnot']

omit hg in
theorem allDone_of_swept (hg : g.Sound) : s.allDone = true ↔ g.height ≤ k := by
  rw [allDone_iff h.sound, Graph.height_le_iff hg]
  refine forall₂_congr fun n hn => ?_
  rw [h.state n hn]
  by_cases hk : g.depth n < k <;> simp [hk, NodeState.isTerminal]

end

/-! ## All rounds -/

theorem swept_of_rounds {g : Graph} (hg : g.Sound) {k : Nat} {s : Scheduler} (h : Rounds g k s) : s.Swept g k := by
  induction h with
  | zero => exact swept_new g
  | succ _ hs he ih => exact swept_round hg ih hs he

theorem exists_rounds (g : Graph) : ∀ k, ∃ s, Rounds g k s
  | 0 => ⟨_, .zero⟩
  | k + 1 => by
    obtain ⟨s, h⟩ := exists_rounds g k
    exact ⟨_, h.succ (.refl _) (.refl _)⟩

/-- Round by round the scheduler launches the levels of the graph, each in its order, and it skips nothing. It
is done with all after as many rounds as there are levels, and not before. -/
theorem waves_are_levels {tasks : NameMap Task} {g : Graph} (hb : Graph.build tasks = .ok g) :
    (∀ k, ∃ s, Rounds g k s) ∧ ∀ k s, Rounds g k s →
      (Step.launches s.scheduleNext.2).map g.name = g.levels.getD k [] ∧
      (∀ st ∈ s.scheduleNext.2, ∃ n, st = .launch n) ∧
      (s.allDone = true ↔ g.levels.length ≤ k) := by
  have hg := Graph.sound_build hb
  refine ⟨exists_rounds g, fun k s h => ?_⟩
  have hs := swept_of_rounds hg h
  refine ⟨?_, fun st hst => ?_, ?_⟩
  · rw [launches_of_swept hg hs, List.getD_eq_getElem?_getD, Graph.levels_getElem? hg]
  · rw [steps_of_swept hg hs] at hst
    obtain ⟨n, -, rfl⟩ := List.mem_map.mp hst
    exact ⟨n, rfl⟩
  · rw [allDone_of_swept hs hg, Graph.length_levels]

theorem fork_waves_are_levels :
    Graph.build Graph.fork = .ok Graph.forkGraph ∧ ∃ s, Rounds Graph.forkGraph 2 s ∧
      (Step.launches s.scheduleNext.2).map Graph.forkGraph.name = ["report"] ∧ s.allDone ≠ true := by
  have hended : [2, 0].Perm (Step.launches (finishAll (new Graph.forkGraph).advance [1]).scheduleNext.2) := by
    decide
  have hfirst : Rounds Graph.forkGraph 1 (finishAll (new Graph.forkGraph).advance [1]) :=
    Rounds.zero.succ (.refl _) (.refl _)
  have h := hfirst.succ (.refl _) hended
  obtain ⟨hl, -, hd⟩ := (waves_are_levels Graph.build_fork).2 2 _ h
  exact ⟨Graph.build_fork, _, h, hl.trans (by decide), fun he => absurd (hd.mp he) (by decide)⟩

end Casework.Scheduler
