import Casework.Proofs.Run.Confluence
import Casework.Proofs.Run.History

/-!
# Every run comes to its end

As there is always a permit, a run that has not ended can go on, and its length is limited. When nothing is
left to collect every node has been skipped, or launched, worked on and collected, once.
-/

namespace Casework.RunState

section
variable {g : Graph} {s : RunState} (h : s.Sound g)
include h

theorem exists_move (cap : Option Nat) (f : String → Except TaskError String) (ht : s.turn ≠ .ended) :
    ∃ m, Obeys f g m ∧ ∀ now, (s.step? (permitsOf cap) now m).isSome := by
  cases hturn : s.turn with
  | schedule => exact ⟨.schedule, fun _ _ he => (by cases he), fun now => by simp [step?, hturn]⟩
  | ended => exact absurd hturn ht
  | collect =>
    by_cases hw : s.workers = []
    · exact ⟨.close, fun _ _ he => (by cases he), fun now => by simp [step?, hturn, hw]⟩
    · rcases exists_worker h.distinct hw cap with ⟨n, hn, hp⟩ | ⟨n, started, hn⟩ | ⟨n, o, hn⟩
      · exact ⟨.acquire n, fun _ _ he => (by cases he), fun now => by simp [step?, hn, hp]⟩
      · refine ⟨.finish n (f (g.name n)), fun k r he => ?_, fun now => by simp [step?, hn]⟩
        cases he
        rfl
      · exact ⟨.collect n, fun _ _ he => (by cases he), fun now => by simp [step?, hturn, hn]⟩

end

section
variable {g : Graph} (hg : g.Sound)
include hg

theorem exists_longer {cap : Option Nat} (f : String → Except TaskError String) {ms : List (Moment × Move)}
    {s : RunState} (hs : (start g).follow? (permitsOf cap) ms = some s) (ht : s.turn ≠ .ended) :
    ∃ x t, Obeys f g x.2 ∧ s.follow? (permitsOf cap) [x] = some t ∧
      (start g).follow? (permitsOf cap) (ms ++ [x]) = some t ∧ ms.length + 1 ≤ 4 * g.size + 2 := by
  obtain ⟨m, hm, hstep⟩ := exists_move (sound_follow hg hs) cap f ht
  obtain ⟨t, hu⟩ := Option.isSome_iff_exists.mp (hstep ⟨0, 0⟩)
  have hx : s.follow? (permitsOf cap) [(⟨0, 0⟩, m)] = some t := by
    rw [follow?, hu]
    rfl
  have hms : (start g).follow? (permitsOf cap) (ms ++ [(⟨0, 0⟩, m)]) = some t := (follow?_append hs).trans hx
  refine ⟨(⟨0, 0⟩, m), t, hm, hx, hms, ?_⟩
  simpa using length_le hg hms

/-- As long as a run has not ended it can be brought to its end. The induction is on the number of moves
that there can still be. -/
theorem exists_ended {cap : Option Nat} (f : String → Except TaskError String) {k : Nat}
    {ms : List (Moment × Move)} {s : RunState} (hs : (start g).follow? (permitsOf cap) ms = some s)
    (hk : 4 * g.size + 2 ≤ ms.length + k) :
    ∃ ms' t, (∀ x ∈ ms', Obeys f g x.2) ∧ s.follow? (permitsOf cap) ms' = some t ∧ t.turn = .ended := by
  induction k generalizing ms s with
  | zero =>
    refine ⟨[], s, fun _ h => absurd h List.not_mem_nil, rfl, Classical.byContradiction fun ht => ?_⟩
    obtain ⟨_, _, _, _, _, hlen⟩ := exists_longer hg f hs ht
    omega
  | succ k ih =>
    by_cases ht : s.turn = .ended
    · exact ⟨[], s, fun _ h => absurd h List.not_mem_nil, rfl, ht⟩
    · obtain ⟨x, u, hx, hu, hms, -⟩ := exists_longer hg f hs ht
      obtain ⟨ms', t, ho, hf, he⟩ := ih hms (by rw [List.length_append, List.length_singleton]; omega)
      refine ⟨x :: ms', t, fun y hy => ?_, (follow?_append hu).trans hf, he⟩
      rcases List.mem_cons.mp hy with rfl | hy
      · exact hx
      · exact ho y hy

end

/-! ## Nothing left to collect -/

theorem passed_of_terminal {s : RunState} {n : Nat} (h : (s.scheduler.state n).isTerminal) :
    s.passed n = [.skipped] ∨ s.passed n = [.launched, .begun, .finished, .collected] := by
  unfold passed
  generalize s.scheduler.state n = st at h
  cases st with
  | skipped => exact .inl rfl
  | done => exact .inr rfl
  | failed => exact .inr rfl
  | _ => cases h

/-- However the workers take turns, a run makes at most one pass more than there are tasks, and can go on
until it ends. No node is ever both skipped and launched, or any of it twice. When the run has nothing left
to collect, as it has when it ends, all nodes are over, each has been skipped, or else launched, worked on
and collected, and the outcomes are those of the tasks. -/
theorem runs_once {tasks : NameMap Task} {g : Graph} (hb : Graph.build tasks = .ok g) {cap : Option Nat}
    {ms : List (Moment × Move)} {s : RunState} (hs : (start g).follow? (permitsOf cap) ms = some s) :
    passes ms ≤ tasks.size + 1 ∧ ms.length ≤ 4 * tasks.size + 2 ∧
    (s.turn ≠ .ended → ∀ f, ∃ m, Obeys f g m ∧ ∀ now, (s.step? (permitsOf cap) now m).isSome) ∧
    (∀ f, ∃ ms' t, (∀ x ∈ ms', Obeys f g x.2) ∧ s.follow? (permitsOf cap) ms' = some t ∧ t.turn = .ended) ∧
    (∀ n < tasks.size, history (permitsOf cap) n (start g) ms <+: [.skipped] ∨
      history (permitsOf cap) n (start g) ms <+: [.launched, .begun, .finished, .collected]) ∧
    (s.turn = .collect ∧ s.workers = [] ∨ s.turn = .ended →
      s.scheduler.allDone = true ∧ s.outcomes.keys = tasks.keys ∧
      ∀ n < tasks.size, history (permitsOf cap) n (start g) ms = [.skipped] ∨
        history (permitsOf cap) n (start g) ms = [.launched, .begun, .finished, .collected]) := by
  have hg := Graph.sound_build hb
  have hd := Graph.describes_build hb
  have hsound := sound_follow hg hs
  have hhist : ∀ n < g.size, history (permitsOf cap) n (start g) ms = s.passed n :=
    fun n hn => history_start hg hn hs
  rw [← Graph.size_eq hd]
  refine ⟨passes_le hg hs, length_le hg hs, fun ht f => exists_move hsound cap f ht, fun f => ?_, fun n hn => ?_,
    fun hidle => ?_⟩
  · exact exists_ended hg f hs (Nat.le_add_left _ _)
  · rw [hhist n hn]
    exact marksOf_prefix _ _
  · have hover : s.turn ≠ .schedule ∧ s.workers = [] := by
      rcases hidle with ⟨ht, hw⟩ | ht
      · exact ⟨by rw [ht]; simp, hw⟩
      · exact ⟨by rw [ht]; simp, hsound.idle ht⟩
    have hterm := terminal_of_idle hg hsound hover.1 hover.2
    refine ⟨(Scheduler.allDone_iff hsound.scheduler).mpr hterm, keys_of_idle hg hd hsound hover.1 hover.2,
      fun n hn => ?_⟩
    rw [hhist n hn]
    exact passed_of_terminal (hterm n hn)

theorem fork_runs_once : ∃ s,
    (start Graph.forkGraph).follow? (permitsOf (some 0)) (forkCourse [1, 0, 2]) = some s ∧
    s.turn = .ended ∧ passes (forkCourse [1, 0, 2]) ≤ 5 ∧ s.scheduler.allDone = true ∧
    s.outcomes.keys = Graph.fork.keys := by
  obtain ⟨s, hs, he⟩ := Option.map_eq_some_iff.mp (show ((start Graph.forkGraph).follow? (permitsOf (some 0))
    (forkCourse [1, 0, 2])).map turn = some .ended by decide)
  obtain ⟨hpasses, -, -, -, -, hidle⟩ := runs_once Graph.build_fork hs
  obtain ⟨hall, hkeys, -⟩ := hidle (.inr he)
  exact ⟨s, hs, he, hpasses, hall, hkeys⟩

end Casework.RunState
