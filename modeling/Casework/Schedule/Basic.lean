import Casework.Graph

/-!
# The scheduler

Keeps the state of every node, says what may be launched next, and takes reports of what has
started and ended. A node whose predecessors are all over and not all done is skipped.
-/

namespace Casework

inductive NodeState where
  | pending
  | running
  | done
  | failed
  | skipped
  deriving DecidableEq, Repr, Inhabited

namespace NodeState

def isTerminal : NodeState → Bool
  | done | failed | skipped => true
  | pending | running => false

def isFailure : NodeState → Bool
  | failed | skipped => true
  | pending | running | done => false

def name : NodeState → String
  | pending => "Pending"
  | running => "Running"
  | done => "Done"
  | failed => "Failed"
  | skipped => "Skipped"

end NodeState

inductive Step where
  | launch (node : Nat)
  | skip (node dependency : Nat)
  deriving DecidableEq, Repr

structure Scheduler where
  graph : Graph
  states : Array NodeState
  /-- The nodes that were started and have not ended, in increasing order. -/
  active : List Nat
  deriving Inhabited

namespace Scheduler

def new (g : Graph) : Scheduler := ⟨g, Array.replicate g.size .pending, []⟩

def state (s : Scheduler) (n : Nat) : NodeState := s.states.getD n .pending

def setState (s : Scheduler) (n : Nat) (st : NodeState) : Scheduler :=
  { s with states := s.states.set! n st }

def due? (s : Scheduler) (n : Nat) : Option Step :=
  if s.state n = .pending ∧ (s.graph.preds n).all (fun p => (s.state p).isTerminal) then
    match (s.graph.preds n).find? fun p => (s.state p).isFailure with
    | some p => some (.skip n p)
    | none => some (.launch n)
  else none

/-- A skip counts at once, so the nodes behind it in the order see it. -/
def settle (s : Scheduler) : Step → Scheduler
  | .launch _ => s
  | .skip n _ => s.setState n .skipped

def sweep (s : Scheduler) : List Nat → Scheduler × List Step
  | [] => (s, [])
  | n :: ns =>
    match s.due? n with
    | none => sweep s ns
    | some step =>
      let (t, steps) := sweep (s.settle step) ns
      (t, step :: steps)

def scheduleNext (s : Scheduler) : Scheduler × List Step := s.sweep s.graph.order

def markStarted (s : Scheduler) (n : Nat) : Scheduler :=
  { s.setState n .running with active := insertNode n s.active }

def markDone (s : Scheduler) (n : Nat) : Scheduler :=
  { s.setState n .done with active := s.active.erase n }

def markFailed (s : Scheduler) (n : Nat) : Scheduler :=
  { s.setState n .failed with active := s.active.erase n }

def runningCount (s : Scheduler) : Nat := s.active.length

def allDone (s : Scheduler) : Bool := s.active.isEmpty && s.states.all NodeState.isTerminal

end Scheduler

end Casework
