import Casework.Backend.Dispatch
import Casework.Run.State
import Casework.Workflow

/-!
# A run in time

One course that a run can take: all that is not a wait takes no time, what is launched first begins
first, and the clock goes on only when everybody waits. A worker that has run a process lets the others
go on before it goes on itself. Every change of the state of the run is one of its moves.
-/

namespace Casework

structure Runner where
  context : Context
  cap : Option Nat := none
  clock : Moment := ⟨0, 0⟩

namespace Runner

/-- More permits than a counter of permits can hold. -/
def permitLimit : Nat := pow2 61 - 1

def permits (r : Runner) : Option Nat := RunState.permitsOf r.cap

def holdsPermits (r : Runner) : Bool := r.permits.all (· ≤ permitLimit)

end Runner

/-! ## Waits -/

inductive WaitReason where
  | turn
  | sleep
  | gathering (group : String) (members : Nat)

structure Wait where
  node : Nat
  reason : WaitReason
  till : Nat
  rest : Work
  /-- The same where others were awaited in vain. -/
  late : Work

structure Timeline where
  runner : Runner
  tasks : NameMap Task
  host : Host
  run : RunState
  now : Nat := 0
  waits : List Wait := []
  groups : NameMap Nat := {}
  peak : Nat := 0

namespace Timeline

variable (x : Timeline)

def moment : Moment := x.runner.clock.after x.now

def move (m : Move) : Timeline :=
  match x.run.step? x.runner.permits x.moment m with
  | some s => { x with run := s, peak := max x.peak s.workingCount }
  | none => x

def groupSize (group : String) : Nat := (x.groups.find? group).getD 0

/-! ## Workers -/

def timeoutText : String := "barrier timeout"

def proceed (x : Timeline) (node : Nat) (next : PluginEnd → Work) : Plugin → Timeline × Option PluginEnd
  | [] => (x, some .ok)
  | s :: p =>
    let (host, e) := s.perform x.host x.runner.context.store
    let x := { x with host }
    match e with
    | .next => proceed x node next p
    | .ended e => (x, some e)
    | .sleeps ms => ({ x with waits := x.waits ++ [⟨node, .sleep, x.now + ms, .call p next, .call p next⟩] }, none)
    | .gathers group members timeout =>
      ({ x with
          groups := x.groups.insert group (x.groupSize group + 1)
          waits := x.waits ++ [⟨node, .gathering group members, x.now + timeout, .call p next,
            next (.failed [timeoutText])⟩] }, none)

def drive (x : Timeline) (node : Nat) : Work → Timeline
  | .finish r => x.move (.finish node r)
  | .check c next => drive x node (next (c.holds x.host.tree))
  | .process i next =>
    let (host, r) := x.host.run i
    { x with host, waits := x.waits ++ [⟨node, .turn, x.now, next r, next r⟩] }
  | .call p next =>
    match x.proceed node next p with
    | (x, some e) => drive x node (next e)
    | (x, none) => x

def begin (node : Nat) : Timeline :=
  let task := (x.tasks.find? (x.run.taskName node)).getD default
  (x.move (.acquire node)).drive node (x.runner.context.dispatch task)

def isGathered (w : Wait) : Bool :=
  match w.reason with
  | .gathering group members => members ≤ x.groupSize group
  | _ => false

def isDue (w : Wait) : Bool := w.till ≤ x.now || x.isGathered w

def wake (w : Wait) : Timeline :=
  match w.reason with
  | .gathering .. => x.drive w.node (if x.isGathered w then w.rest else w.late)
  | _ => x.drive w.node w.rest

/-! ## The course of a run -/

def firstWaiting? : Option Nat :=
  if x.run.hasPermit x.runner.permits then (x.run.workers.find? (·.2.isWaiting)).map (·.1) else none

def firstFinished? : Option Nat := (x.run.workers.find? (·.2.isFinished)).map (·.1)

def firstDue? (x : Timeline) : List Wait → Option (Wait × List Wait)
  | [] => none
  | w :: ws => if x.isDue w then some (w, ws) else (firstDue? x ws).map fun (v, vs) => (v, w :: vs)

def nextTime? : Option Nat := (x.waits.map (·.till)).min?

def step : Timeline :=
  match x.run.turn, x.firstWaiting?, x.firstFinished?, x.firstDue? x.waits, x.nextTime? with
  | .schedule, _, _, _, _ => x.move .schedule
  | _, some n, _, _, _ => x.begin n
  | _, none, some n, _, _ => x.move (.collect n)
  | _, none, none, some (w, waits), _ => { x with waits }.wake w
  | _, none, none, none, some t => { x with now := t }
  | _, none, none, none, none => x.move .close

def runFor : Nat → Timeline → Timeline
  | 0, x => x
  | fuel + 1, x => if x.run.turn = .ended then x else runFor fuel x.step

/-- No plugin waits more often than it has steps, and no other task runs more than two processes. -/
def waitLimit (r : Registry) : Nat := (r.entries.map fun e => e.2.length).foldl max 2

/-- A wait takes two of the things that happen, and the moves of a run are four for each task and two more. -/
def stepLimit (r : Runner) (g : Graph) : Nat := g.size * (2 * waitLimit r.context.plugins + 4) + 3

def result : RunResult :=
  { outcomes := x.run.outcomes, started := some x.runner.clock, ended := some x.moment }

def events : List Event := x.run.events.reverse

end Timeline

/-! ## Running workflows -/

inductive RunError where
  | graph (e : WorkflowError)
  | permits (n : Nat)
  deriving DecidableEq, Repr

namespace Workflow

def runWith (w : Workflow) (r : Runner) (h : Host) : Workflow × Except RunError Timeline :=
  match w.setupGraph with
  | (w, .error e) => (w, .error (.graph e))
  | (w, .ok g) =>
    if r.holdsPermits then
      (w, .ok (Timeline.runFor (Timeline.stepLimit r g)
        { runner := r, tasks := w.tasks, host := h, run := .start g }))
    else (w, .error (.permits (r.permits.getD 0)))

def run (w : Workflow) (c : Context) (h : Host) : Workflow × Except RunError Timeline :=
  w.runWith { context := { c with scriptsDir := c.env.defaultDir "scripts" }, cap := w.maxParallel } h

end Workflow

end Casework
