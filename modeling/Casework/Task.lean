import Casework.Argument
import Casework.NameMap
import Casework.Text.Blank
import Casework.Yaml.Decode

/-!
# Tasks

The unit of work of a workflow, and what may go wrong with it. The type is kept as it was written, so
a workflow with an unknown type loads, and the task fails when it runs.
-/

namespace Casework

/-! ## Errors

A task error is kept with its task and never ends a run. A workflow error is found before anything
runs, or sums up a run in which some task did not succeed.
-/

inductive TaskError where
  | unknownType (type : String)
  | pluginNotFound (plugin : String)
  | pluginFailed (plugin cause stderr : String)
  | scriptFailed (script cause stderr : String)
  | containerFailed (image cause stderr : String)
  | buildFailed (recipe cause stderr : String)
  | dependencyFailed (dependency : String)
  | panicked (reason : String)
  deriving DecidableEq, Repr

namespace TaskError

/-- The diagnostic output as a message shows it, trimmed, and not at all if it is blank. -/
def diagnostics (stderr : String) : String :=
  let t := Text.trimmed stderr
  if t.isEmpty then "" else " (stderr: " ++ t ++ ")"

def message : TaskError → String
  | unknownType t => "unknown task type '" ++ t ++ "'"
  | pluginNotFound p => "plugin '" ++ p ++ "' not found"
  | pluginFailed p cause err => "plugin '" ++ p ++ "' failed: " ++ cause ++ diagnostics err
  | scriptFailed s cause err => "script '" ++ s ++ "' failed: " ++ cause ++ diagnostics err
  | containerFailed i cause err => "container '" ++ i ++ "' failed: " ++ cause ++ diagnostics err
  | buildFailed r cause err => "image build '" ++ r ++ "' failed: " ++ cause ++ diagnostics err
  | dependencyFailed d => "dependency '" ++ d ++ "' failed"
  | panicked reason => "task worker panicked: " ++ reason

def captured : TaskError → String
  | pluginFailed _ _ err | scriptFailed _ _ err | containerFailed _ _ err | buildFailed _ _ err => err
  | _ => ""

def stderr? (e : TaskError) : Option String := if e.captured.isEmpty then none else some e.captured

def isDependencyFailure : TaskError → Bool
  | dependencyFailed _ => true
  | _ => false

end TaskError

inductive WorkflowError where
  | unknownDependency (task dependency : String)
  | cyclicDependency (task : String)
  | tasksFailed (failed total : Nat) (details : String)
  deriving DecidableEq, Repr

def WorkflowError.message : WorkflowError → String
  | unknownDependency t d => "unknown dependency: task '" ++ t ++ "' requires '" ++ d ++ "'"
  | cyclicDependency t => "cyclic dependency detected at task '" ++ t ++ "'"
  | tasksFailed f n details => toString f ++ " of " ++ toString n ++ " tasks failed: " ++ details

/-! ## Tasks -/

inductive TaskKind where
  | plugin
  | script
  | docker
  | dockerfile
  deriving DecidableEq, Repr

namespace TaskKind

def name : TaskKind → String
  | plugin => "plugin"
  | script => "script"
  | docker => "docker"
  | dockerfile => "dockerfile"

def ofName? : String → Option TaskKind
  | "plugin" => some plugin
  | "script" => some script
  | "docker" => some docker
  | "dockerfile" => some dockerfile
  | _ => none

end TaskKind

structure Task where
  type : String := ""
  command? : Option String := none
  image? : Option String := none
  dockerfile? : Option String := none
  requires : List String := []
  arguments : NameMap Value := {}
  deriving Inhabited

namespace Task

def plugin (command : String) : Task := { type := "plugin", command? := some command }

def script (command : String) : Task := { type := "script", command? := some command }

def docker (image command : String) : Task :=
  { type := "docker", image? := some image, command? := some command }

def dockerfile (recipe : String) : Task := { type := "dockerfile", dockerfile? := some recipe }

def requiring (t : Task) (names : List String) : Task := { t with requires := t.requires ++ names }

def withArgument (t : Task) (key : String) (v : Value) : Task :=
  { t with arguments := t.arguments.insert key v }

def kind (t : Task) : Except TaskError TaskKind :=
  match TaskKind.ofName? t.type with
  | some k => .ok k
  | none => .error (.unknownType t.type)

def command (t : Task) : String := t.command?.getD ""

def image (t : Task) : String := t.image?.getD ""

def recipe (t : Task) : String := t.dockerfile?.getD ""

def forwardedArgs (t : Task) : List String := t.arguments.entries.flatMap fun e => e.2.flags e.1

/-! ## As JSON -/

def textOrNull : Option String → Json
  | some s => .str s
  | none => .null

/-- The fields of a task, then its arguments under their own keys, even where a key is repeated. -/
def toJson? (t : Task) : Option Json := do
  let args ← t.arguments.entries.mapM fun e => e.2.toJson?.map fun j => (e.1, j)
  return .obj ([("type", .str t.type), ("command", textOrNull t.command?),
    ("image", textOrNull t.image?), ("dockerfile", textOrNull t.dockerfile?),
    ("requires", .arr (t.requires.map .str))] ++ args)

end Task

end Casework

namespace Casework.Task

/-! ## Tasks in a document

A task is a mapping of the known fields. Every other key is an argument, and the last value of a
repeated argument stays.
-/

open Yaml

def knownKeys : List String := ["type", "command", "image", "dockerfile", "requires"]

def ofEntries (d : Document) (depth : Nat) (es : List (String × Node)) : Decode Task := do
  let type ← Document.field es "type" d.text ""
  let command? ← Document.field es "command" d.optionalText none
  let image? ← Document.field es "image" d.optionalText none
  let dockerfile? ← Document.field es "dockerfile" d.optionalText none
  let requires ← Document.field es "requires" (d.texts depth) []
  let args ← (es.filter fun e => !knownKeys.contains e.1).mapM fun e => do
    return (e.1, ← d.value depth e.2)
  return { type, command?, image?, dockerfile?, requires, arguments := .ofList args }

def ofDocument? (d : Document) : Option Task :=
  d.decode? do ofEntries d (Document.depthLimit - 1) (← d.rootEntries)

def parse? (text : String) : Option Task := do ofDocument? (← Document.parse? text)

end Casework.Task
