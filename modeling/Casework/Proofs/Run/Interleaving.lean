import Casework.Proofs.Run.Invariant

/-!
# Passes that take time

The coordinator takes the steps of a pass one by one, and workers move in between. All else is one move each, as
what it consists of concerns nobody else: a worker gets its permit and tells of its start, the coordinator skips
a node or collects an outcome and tells of it. Passes made at once are one way to make them.
-/

namespace Casework

/-- A run, and the steps of its last pass that are still to be taken. -/
structure OpenRun where
  run : RunState
  due : List Step := []

def RunState.swept (s : RunState) : RunState :=
  { s with scheduler := s.scheduler.scheduleNext.1, turn := .collect }

namespace OpenRun

def start (g : Graph) : OpenRun := { run := .start g }

/-- Workers move at any time; the coordinator goes on once the steps of a pass are all taken. -/
def step? (permits : Option Nat) (now : Moment) (x : OpenRun) (m : Move) : Option OpenRun :=
  match m, x.due with
  | .schedule, [] =>
    if x.run.turn = .schedule then some ⟨x.run.swept, x.run.scheduler.scheduleNext.2⟩ else none
  | .schedule, st :: due => some ⟨RunState.take now x.run st, due⟩
  | .acquire n, due => (x.run.step? permits now (.acquire n)).map (⟨·, due⟩)
  | .finish n r, due => (x.run.step? permits now (.finish n r)).map (⟨·, due⟩)
  | .collect n, [] => (x.run.step? permits now (.collect n)).map (⟨·, []⟩)
  | .close, [] => (x.run.step? permits now .close).map (⟨·, []⟩)
  | .collect _, _ :: _ | .close, _ :: _ => none

def follow? (permits : Option Nat) (x : OpenRun) (ms : List (Moment × Move)) : Option OpenRun :=
  ms.foldlM (fun x m => x.step? permits m.1 m.2) x

inductive Moved (permits : Option Nat) (now : Moment) : OpenRun → Move → OpenRun → Prop
  | pass {s : RunState} : s.turn = .schedule →
    Moved permits now ⟨s, []⟩ .schedule ⟨s.swept, s.scheduler.scheduleNext.2⟩
  | take {s : RunState} {st : Step} {due : List Step} :
    Moved permits now ⟨s, st :: due⟩ .schedule ⟨.take now s st, due⟩
  | acquire {s : RunState} {due : List Step} {n : Nat} : s.phase? n = some .waiting →
    s.hasPermit permits = true →
    Moved permits now ⟨s, due⟩ (.acquire n) ⟨(s.setPhase n (.working now)).emit (.started (s.taskName n)), due⟩
  | finish {s : RunState} {due : List Step} {n : Nat} {r : Except TaskError String} {started : Moment} :
    s.phase? n = some (.working started) →
    Moved permits now ⟨s, due⟩ (.finish n r) ⟨s.setPhase n (.finished ⟨r, some started, now⟩), due⟩
  | collect {s : RunState} {n : Nat} {o : Outcome} : s.turn = .collect → s.phase? n = some (.finished o) →
    Moved permits now ⟨s, []⟩ (.collect n) ⟨s.collect n o, []⟩
  | close {s : RunState} : s.turn = .collect → s.workers = [] →
    Moved permits now ⟨s, []⟩ .close ⟨{ s with turn := .ended }, []⟩

theorem moved_of_step? {permits : Option Nat} {now : Moment} {x y : OpenRun} {m : Move}
    (h : x.step? permits now m = some y) : Moved permits now x m y := by
  obtain ⟨s, due⟩ := x
  cases m with
  | schedule =>
    cases due with
    | nil =>
      simp only [step?] at h
      split at h
      · cases h
        exact .pass (by assumption)
      · cases h
    | cons st due =>
      cases h
      exact .take
  | acquire n =>
    obtain ⟨t, ht, rfl⟩ := Option.map_eq_some_iff.mp h
    cases RunState.moved_of_step? ht with
    | acquire hp hq => exact .acquire hp hq
  | finish n r =>
    obtain ⟨t, ht, rfl⟩ := Option.map_eq_some_iff.mp h
    cases RunState.moved_of_step? ht with
    | finish hp => exact .finish hp
  | collect n =>
    cases due with
    | nil =>
      obtain ⟨t, ht, rfl⟩ := Option.map_eq_some_iff.mp h
      cases RunState.moved_of_step? ht with
      | collect hturn hp => exact .collect hturn hp
    | cons st due => cases h
  | close =>
    cases due with
    | nil =>
      obtain ⟨t, ht, rfl⟩ := Option.map_eq_some_iff.mp h
      cases RunState.moved_of_step? ht with
      | close hturn hw => exact .close hturn hw
    | cons st due => cases h

theorem follow?_cons {permits : Option Nat} {x y : OpenRun} {m : Moment × Move} {ms : List (Moment × Move)} :
    x.follow? permits (m :: ms) = some y ↔ ∃ z, x.step? permits m.1 m.2 = some z ∧ z.follow? permits ms = some y := by
  simp only [follow?, List.foldlM_cons, Option.bind_eq_bind, Option.bind_eq_some_iff]

theorem follow_invariant {permits : Option Nat} {P : OpenRun → Prop} {Q : Move → Prop}
    (hstep : ∀ now x m y, Q m → P x → Moved permits now x m y → P y) :
    ∀ {ms : List (Moment × Move)} {x y : OpenRun}, (∀ m ∈ ms, Q m.2) → P x → x.follow? permits ms = some y → P y
  | [], x, y, _, hx, h => by
    cases h
    exact hx
  | m :: ms, x, y, hq, hx, h => by
    obtain ⟨z, hz, h⟩ := follow?_cons.mp h
    have hz := hstep m.1 x m.2 z (hq _ List.mem_cons_self) hx (moved_of_step? hz)
    exact follow_invariant hstep (fun k hk => hq k (List.mem_cons_of_mem _ hk)) hz h

/-! ## Passes made at once -/

theorem take_turn (now : Moment) (s : RunState) (st : Step) (t : Turn) :
    RunState.take now { s with turn := t } st = { RunState.take now s st with turn := t } := by
  cases st <;> rfl

theorem takeAll_turn (now : Moment) (t : Turn) : ∀ (steps : List Step) (s : RunState),
    RunState.takeAll now { s with turn := t } steps = { RunState.takeAll now s steps with turn := t }
  | [], _ => rfl
  | st :: steps, s => by
    rw [RunState.takeAll_cons, RunState.takeAll_cons, take_turn, takeAll_turn now t steps]

theorem follow?_take (permits : Option Nat) (now : Moment) : ∀ (steps : List Step) (s : RunState),
    (⟨s, steps⟩ : OpenRun).follow? permits (List.replicate steps.length (now, .schedule)) =
      some ⟨RunState.takeAll now s steps, []⟩
  | [], _ => rfl
  | st :: steps, s => by
    rw [List.length_cons, List.replicate_succ]
    exact follow?_cons.mpr ⟨_, rfl, follow?_take permits now steps _⟩

theorem follow?_schedule (permits : Option Nat) (now : Moment) {s : RunState} (ht : s.turn = .schedule) :
    (⟨s, []⟩ : OpenRun).follow? permits
      (List.replicate (s.scheduler.scheduleNext.2.length + 1) (now, .schedule)) = some ⟨s.schedule now, []⟩ := by
  have hpass : (⟨s, []⟩ : OpenRun).step? permits now .schedule = some ⟨s.swept, s.scheduler.scheduleNext.2⟩ := by
    simp [step?, ht]
  have htake : RunState.takeAll now s.swept s.scheduler.scheduleNext.2 = s.schedule now :=
    takeAll_turn now .collect s.scheduler.scheduleNext.2 { s with scheduler := s.scheduler.scheduleNext.1 }
  rw [List.replicate_succ]
  refine follow?_cons.mpr ⟨_, hpass, ?_⟩
  rw [follow?_take, htake]

theorem follow?_append {permits : Option Nat} {x y z : OpenRun} {ms ms' : List (Moment × Move)}
    (h : x.follow? permits ms = some y) (h' : y.follow? permits ms' = some z) :
    x.follow? permits (ms ++ ms') = some z := by
  unfold follow? at *
  rw [List.foldlM_append, h]
  exact h'

/-- Whatever a run comes to by passes made at once it comes to here, by the same kinds of moves. -/
theorem exists_follow? {permits : Option Nat} : ∀ {ms : List (Moment × Move)} {s t : RunState},
    s.follow? permits ms = some t →
      ∃ ms', (⟨s, []⟩ : OpenRun).follow? permits ms' = some ⟨t, []⟩ ∧ ∀ m ∈ ms', m ∈ ms
  | [], s, t, h => by
    cases h
    exact ⟨[], rfl, fun m hm => hm⟩
  | (now, m) :: ms, s, t, h => by
    rw [RunState.follow?] at h
    cases hu : s.step? permits now m with
    | none =>
      rw [hu] at h
      cases h
    | some u =>
      rw [hu] at h
      obtain ⟨ms', hms', hin⟩ := exists_follow? h
      have hstep : ∃ ks, (⟨s, []⟩ : OpenRun).follow? permits ks = some ⟨u, []⟩ ∧ ∀ k ∈ ks, k = (now, m) := by
        cases m with
        | schedule =>
          cases RunState.moved_of_step? hu with
          | schedule ht => exact ⟨_, follow?_schedule permits now ht, fun k hk => List.eq_of_mem_replicate hk⟩
        | _ => exact ⟨[_], follow?_cons.mpr ⟨⟨u, []⟩, by simp [step?, hu], rfl⟩, fun k hk => List.mem_singleton.mp hk⟩
      obtain ⟨ks, hks, hk⟩ := hstep
      refine ⟨ks ++ ms', follow?_append hks hms', fun k hkm => ?_⟩
      rcases List.mem_append.mp hkm with hkm | hkm
      · rw [hk k hkm]
        exact List.mem_cons_self
      · exact List.mem_cons_of_mem _ (hin k hkm)

end OpenRun

end Casework
