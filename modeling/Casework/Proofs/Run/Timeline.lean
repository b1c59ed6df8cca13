import Casework.Run.Timeline
import Casework.Proofs.Run.Invariant

/-!
# A run in time is a course

Hosts, waits, groups and the clock decide which move comes next. The run itself goes from move to move,
so that whatever holds of all courses holds of it.
-/

namespace Casework.Timeline

/-- The run of `y` is what that of `x` has come to, move by move. -/
structure Comes (x y : Timeline) : Prop where
  runner : y.runner = x.runner
  tasks : y.tasks = x.tasks
  course : ∃ ms, x.run.follow? x.runner.permits ms = some y.run

variable {x y z : Timeline}

theorem Comes.trans (h : x.Comes y) (h' : y.Comes z) : x.Comes z := by
  obtain ⟨ms, hms⟩ := h.course
  obtain ⟨ms', hms'⟩ := h'.course
  refine ⟨h'.runner.trans h.runner, h'.tasks.trans h.tasks, ms ++ ms', ?_⟩
  rw [RunState.follow?_append hms, ← h.runner]
  exact hms'

theorem comes_of_eq (hr : y.runner = x.runner) (ht : y.tasks = x.tasks) (hrun : y.run = x.run) : x.Comes y :=
  ⟨hr, ht, [], by rw [hrun]; rfl⟩

theorem comes_move (x : Timeline) (m : Move) : x.Comes (x.move m) := by
  unfold move
  split
  · rename_i s hs
    refine ⟨rfl, rfl, [(x.moment, m)], ?_⟩
    rw [RunState.follow?, hs]
    rfl
  · exact comes_of_eq rfl rfl rfl

theorem comes_proceed (node : Nat) (next : PluginEnd → Work) : ∀ (p : Plugin) (x : Timeline),
    x.Comes (x.proceed node next p).1
  | [], x => comes_of_eq rfl rfl rfl
  | s :: p, x => by
    rw [proceed]
    split
    rename_i host e _
    have hx : x.Comes { x with host } := comes_of_eq rfl rfl rfl
    cases e with
    | next => exact hx.trans (comes_proceed node next p { x with host })
    | ended e => exact comes_of_eq rfl rfl rfl
    | sleeps ms => exact comes_of_eq rfl rfl rfl
    | gathers group members timeout => exact comes_of_eq rfl rfl rfl

theorem comes_drive (node : Nat) : ∀ (w : Work) (x : Timeline), x.Comes (x.drive node w)
  | .finish r, x => comes_move x _
  | .check c next, x => comes_drive node (next _) x
  | .process i next, x => comes_of_eq rfl rfl rfl
  | .call p next, x => by
    have hp := comes_proceed node next p x
    rw [drive]
    split
    · rename_i y e he
      rw [he] at hp
      exact hp.trans (comes_drive node (next e) y)
    · rename_i y he
      rw [he] at hp
      exact hp

theorem comes_begin (x : Timeline) (node : Nat) : x.Comes (x.begin node) :=
  (comes_move x _).trans (comes_drive node _ _)

theorem acquire_of_firstWaiting? {g : Graph} {n : Nat} (h : x.run.Sound g) (hn : x.firstWaiting? = some n) :
    (x.run.step? x.runner.permits x.moment (.acquire n)).isSome := by
  unfold firstWaiting? at hn
  split at hn
  · rename_i hp
    obtain ⟨w, hw, rfl⟩ := Option.map_eq_some_iff.mp hn
    have hphase := RunState.phase?_of_mem h (List.mem_of_find?_eq_some hw)
    have hwait := List.find?_some hw
    cases hwp : w.2 with
    | waiting =>
      rw [hwp] at hphase
      simp [RunState.step?, hphase, hp]
    | _ =>
      rw [hwp] at hwait
      cases hwait
  · cases hn

theorem comes_wake (x : Timeline) (w : Wait) : x.Comes (x.wake w) := by
  unfold wake
  cases w.reason with
  | gathering group members => exact comes_drive _ _ x
  | turn => exact comes_drive _ _ x
  | sleep => exact comes_drive _ _ x

theorem comes_step (x : Timeline) : x.Comes x.step := by
  unfold step
  split
  · exact comes_move x _
  · exact comes_begin x _
  · exact comes_move x _
  · rename_i w waits _ _ _ _
    have hx : x.Comes { x with waits } := comes_of_eq rfl rfl rfl
    exact hx.trans (comes_wake _ w)
  · exact comes_of_eq rfl rfl rfl
  · exact comes_move x _

theorem comes_runFor : ∀ (fuel : Nat) (x : Timeline), x.Comes (runFor fuel x)
  | 0, x => comes_of_eq rfl rfl rfl
  | fuel + 1, x => by
    rw [runFor]
    split
    · exact comes_of_eq rfl rfl rfl
    · exact (comes_step x).trans (comes_runFor fuel x.step)

end Casework.Timeline

namespace Casework.Workflow

theorem tasks_setupGraph (w : Workflow) : w.setupGraph.1.tasks = w.tasks := by
  unfold setupGraph
  split
  · rfl
  · split <;> rfl

theorem follow_of_runWith {w : Workflow} {r : Runner} {h : Host} {x : Timeline}
    (hx : (w.runWith r h).2 = .ok x) : ∃ g, w.setupGraph.2 = .ok g ∧ x.tasks = w.tasks ∧
      ∃ ms, (RunState.start g).follow? (RunState.permitsOf r.cap) ms = some x.run := by
  have htasks := w.tasks_setupGraph
  unfold runWith at hx
  split at hx
  · cases hx
  · rename_i v g hg
    rw [hg] at htasks ⊢
    split at hx
    · cases hx
      obtain ⟨-, ht, hms⟩ := Timeline.comes_runFor (Timeline.stepLimit r g)
        { runner := r, tasks := v.tasks, host := h, run := .start g }
      exact ⟨g, rfl, ht.trans htasks, hms⟩
    · cases hx

end Casework.Workflow
