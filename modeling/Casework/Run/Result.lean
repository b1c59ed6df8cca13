import Casework.Moment
import Casework.NameMap
import Casework.Task

/-!
# Results of a run

The outcome of every task, and the views of them: the tasks that did not succeed, the error that sums
them up, and the report.
-/

namespace Casework

inductive TaskStatus where
  | done
  | failed
  | skipped
  deriving DecidableEq, Repr

def TaskStatus.name : TaskStatus → String
  | done => "done"
  | failed => "failed"
  | skipped => "skipped"

structure Outcome where
  result : Except TaskError String
  /-- Nothing if the task was skipped. -/
  started : Option Moment
  ended : Moment

namespace Outcome

variable (o : Outcome)

def status : TaskStatus :=
  match o.result with
  | .ok _ => .done
  | .error e => if e.isDependencyFailure then .skipped else .failed

def isSuccess : Bool :=
  match o.result with
  | .ok _ => true
  | .error _ => false

def error? : Option TaskError :=
  match o.result with
  | .ok _ => none
  | .error e => some e

def output? : Option String :=
  match o.result with
  | .ok s => some s
  | .error _ => none

def outputBytes : Nat := (o.output?.map String.utf8ByteSize).getD 0

end Outcome

structure TaskReport where
  task : String
  status : TaskStatus
  started : Option Moment
  ended : Moment
  error : Option String
  outputBytes : Nat

structure RunResult where
  outcomes : NameMap Outcome := {}
  started : Option Moment := none
  ended : Option Moment := none

namespace RunResult

variable (r : RunResult)

def isSuccess : Bool := r.outcomes.entries.all fun e => e.2.isSuccess

def failed : List String := (r.outcomes.entries.filter fun e => !e.2.isSuccess).map (·.1)

def details : List String :=
  r.outcomes.entries.filterMap fun e => e.2.error?.map fun x => e.1 ++ ": " ++ x.message

def error? : Option WorkflowError :=
  if r.details.isEmpty then none
  else some (.tasksFailed r.details.length r.outcomes.size ("; ".intercalate r.details))

def check : Except WorkflowError Unit :=
  match r.error? with
  | some e => .error e
  | none => .ok ()

def report : List TaskReport :=
  r.outcomes.entries.map fun (task, o) =>
    ⟨task, o.status, o.started, o.ended, o.error?.map TaskError.message, o.outputBytes⟩

end RunResult

end Casework
