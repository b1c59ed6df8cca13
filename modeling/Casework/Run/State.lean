import Casework.Run.Result
import Casework.Schedule.Basic

/-!
# The state of a run

One coordinator and the workers it has launched. The coordinator makes a pass of the scheduler, waits
for one worker to finish, collects its outcome, and makes a pass again, until no worker is left. A
worker waits for a permit, works, and is finished until it is collected.
-/

namespace Casework

/-! ## Events

What happened to which task. The last event of a task says how it ended.
-/

inductive Event where
  | started (task : String)
  | completed (task : String)
  | failed (task error : String)
  | skipped (task dependency : String)
  deriving DecidableEq, Repr

namespace Event

def task : Event → String
  | started t | completed t | failed t _ | skipped t _ => t

def isFinal : Event → Bool
  | started _ => false
  | _ => true

def isFirst : Event → Bool
  | started _ | skipped .. => true
  | _ => false

/-- Nothing begins before all that it requires has ended; `ended` are the tasks that have. -/
def inOrderFrom (requires : String → List String) (ended : List String) : List Event → Bool
  | [] => true
  | e :: es =>
    (!e.isFirst || (requires e.task).all ended.contains) &&
      inOrderFrom requires (if e.isFinal then e.task :: ended else ended) es

def inOrder (requires : String → List String) (es : List Event) : Bool := inOrderFrom requires [] es

end Event

/-! ## Workers and their coordinator -/

inductive Phase where
  | waiting
  | working (started : Moment)
  | finished (outcome : Outcome)

namespace Phase

def isWaiting : Phase → Bool
  | waiting => true
  | _ => false

def isWorking : Phase → Bool
  | working _ => true
  | _ => false

def isFinished : Phase → Bool
  | finished _ => true
  | _ => false

end Phase

inductive Turn where
  | schedule
  | collect
  | ended
  deriving DecidableEq, Repr, Inhabited

structure RunState where
  scheduler : Scheduler
  turn : Turn := .schedule
  /-- The nodes launched and not collected, in the order of their launches. -/
  workers : List (Nat × Phase) := []
  outcomes : NameMap Outcome := {}
  /-- The latest first. -/
  events : List Event := []
  deriving Inhabited

inductive Move where
  | schedule
  | acquire (node : Nat)
  | finish (node : Nat) (result : Except TaskError String)
  | collect (node : Nat)
  | close

namespace RunState

variable (s : RunState)

def start (g : Graph) : RunState := { scheduler := .new g }

def taskName (n : Nat) : String := s.scheduler.graph.name n

def phase? (n : Nat) : Option Phase := s.workers.lookup n

def setPhase (n : Nat) (p : Phase) : RunState :=
  { s with workers := s.workers.map fun w => if w.1 = n then (n, p) else w }

def workingCount : Nat := s.workers.countP fun w => w.2.isWorking

def emit (e : Event) : RunState := { s with events := e :: s.events }

def record (n : Nat) (o : Outcome) : RunState :=
  { s with outcomes := s.outcomes.insert (s.taskName n) o }

/-! ## Permits -/

/-- The number of permits for a cap; there is always one at least. -/
def permitsOf (cap : Option Nat) : Option Nat := cap.map (max 1)

def hasPermit (permits : Option Nat) : Bool :=
  match permits with
  | none => true
  | some p => s.workingCount < p

/-! ## Moves -/

def take (now : Moment) (s : RunState) : Step → RunState
  | .launch n =>
    { s with scheduler := s.scheduler.markStarted n, workers := s.workers ++ [(n, .waiting)] }
  | .skip n d =>
    (s.emit (.skipped (s.taskName n) (s.taskName d))).record n
      ⟨.error (.dependencyFailed (s.taskName d)), none, now⟩

def schedule (now : Moment) : RunState :=
  let (sch, steps) := s.scheduler.scheduleNext
  { steps.foldl (take now) { s with scheduler := sch } with turn := .collect }

def finalEvent (task : String) (o : Outcome) : Event :=
  match o.result with
  | .ok _ => .completed task
  | .error e => .failed task e.message

def settle (n : Nat) (o : Outcome) : RunState :=
  { s with scheduler := if o.isSuccess then s.scheduler.markDone n else s.scheduler.markFailed n }

def collect (n : Nat) (o : Outcome) : RunState :=
  let t := ((s.settle n o).emit (finalEvent (s.taskName n) o)).record n o
  { t with workers := t.workers.filter (·.1 ≠ n), turn := .schedule }

def step? (permits : Option Nat) (now : Moment) : Move → Option RunState
  | .schedule => if s.turn = .schedule then some (s.schedule now) else none
  | .acquire n =>
    match s.phase? n with
    | some .waiting =>
      if s.hasPermit permits then some ((s.setPhase n (.working now)).emit (.started (s.taskName n)))
      else none
    | _ => none
  | .finish n r =>
    match s.phase? n with
    | some (.working started) => some (s.setPhase n (.finished ⟨r, some started, now⟩))
    | _ => none
  | .collect n =>
    match s.turn, s.phase? n with
    | .collect, some (.finished o) => some (s.collect n o)
    | _, _ => none
  | .close => if s.turn = .collect ∧ s.workers = [] then some { s with turn := .ended } else none

end RunState

end Casework
