import Casework.Graph
import Casework.Host.FileTree
import Casework.Task

/-!
# Workflows

Named tasks with a cap on how many run at once. The graph of the tasks is kept once it has been
built, and dropped when a task changes.
-/

namespace Casework

structure Workflow where
  tasks : NameMap Task := {}
  maxParallel : Option Nat := none
  cached : Option Graph := none
  deriving Inhabited

namespace Workflow

def ofTasks (tasks : NameMap Task) : Workflow := { tasks }

def insertTask (w : Workflow) (name : String) (t : Task) : Workflow :=
  { w with tasks := w.tasks.insert name t, cached := none }

def task? (w : Workflow) (name : String) : Option Task := w.tasks.find? name

/-- The kept graph, or a new one, which is then kept. -/
def setupGraph (w : Workflow) : Workflow × Except WorkflowError Graph :=
  match w.cached with
  | some g => (w, .ok g)
  | none =>
    match Graph.build w.tasks with
    | .ok g => ({ w with cached := some g }, .ok g)
    | .error e => (w, .error e)

end Workflow

end Casework

namespace Casework.Workflow

/-! ## Workflows in a document

A workflow is a mapping with the tasks by name and the cap on parallel tasks. Other keys are passed
over.
-/

open Yaml

def tasksOf (d : Document) (depth : Nat) (n : Node) : Decode (NameMap Task) := do
  let ts ← (← d.entries depth n).mapM fun e => do
    let es ← d.entries (depth - 1) e.2
    return (e.1, ← Task.ofEntries d (depth - 2) es)
  return .ofList ts

def ofDocument? (d : Document) : Option Workflow :=
  d.decode? do
    let es ← d.rootEntries
    let tasks ← Document.field es "tasks" (tasksOf d (Document.depthLimit - 1)) {}
    let maxParallel ← Document.field es "max_parallel" d.optionalNatural none
    return { tasks, maxParallel }

def parse? (text : String) : Option Workflow := do ofDocument? (← Document.parse? text)

end Casework.Workflow

namespace Casework

/-! ## Workflow files -/

inductive WorkflowFileError where
  | reading (path : String)
  | parsing (path : String)
  deriving DecidableEq, Repr

def WorkflowFileError.message : WorkflowFileError → String
  | reading p => "reading workflow " ++ p
  | parsing p => "parsing workflow " ++ p

def Workflow.load (t : FileTree) (path : String) : Except WorkflowFileError Workflow :=
  match t.readText path with
  | .error _ => .error (.reading path)
  | .ok s => (Workflow.parse? s).elim (.error (.parsing path)) .ok

end Casework
