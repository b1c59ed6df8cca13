import Casework.Backend.CommandLine
import Casework.Config
import Casework.Host.Process
import Casework.Plugin
import Casework.Task

/-!
# Carrying out tasks

A task that is carried out asks the host one thing after another: what a file is, what comes of a
process, what comes of a plugin. Its work says what is asked next for every answer. The type of a task
says how it is carried out: by a plugin, by a script, by a container, or by a container whose image is
built first. Every error names what failed.
-/

namespace Casework

/-! ## The work of a task -/

inductive FileCheck where
  | regular (path : String)
  | executable (path : String)
  deriving DecidableEq, Repr

def FileCheck.holds (t : FileTree) : FileCheck → Bool
  | regular p => t.isFile p
  | executable p => t.isExecutable p

inductive Work where
  | finish (result : Except TaskError String)
  | check (c : FileCheck) (next : Bool → Work)
  | process (i : Invocation) (next : Capture → Work)
  | call (p : Plugin) (next : PluginEnd → Work)
  deriving Inhabited

namespace Work

def perform (h : Host) (store : String) : Work → Host × Except TaskError String
  | finish r => (h, r)
  | check c next => perform h store (next (c.holds h.tree))
  | process i next =>
    let (h, r) := h.run i
    perform h store (next r)
  | call p next =>
    let (h, e) := p.runAlone h store
    perform h store (next e)

end Work

structure Context where
  store : String
  pluginDir : String
  scriptsDir : String
  plugins : Registry := {}
  options : Option ContainerOptions := none
  cwd : String := "/"
  env : Environment := {}

end Casework

namespace Casework.Context

variable (c : Context)

/-! ## Plugins -/

/-- Stands for the number of the worker that panicked, which says nothing about the task. -/
def workerMark : String := "<id>"

def panicText (text : String) : String :=
  "task " ++ workerMark ++ " panicked with message " ++ Text.quoted text

def pluginResult (command : String) : PluginEnd → Except TaskError String
  | .ok => .ok ""
  | .failed chain => .error (.pluginFailed command (": ".intercalate chain) "")
  | .panicked text => .error (.panicked (panicText text))

def pluginWork (t : Task) : Work :=
  match c.plugins.find? t.command with
  | some p => .call p fun e => .finish (pluginResult t.command e)
  | none =>
    match PluginDirectory.candidate? c.pluginDir t.command with
    | none => .finish (.error (.pluginNotFound t.command))
    | some path =>
      .check (.executable path) fun found =>
        if found then
          .process ⟨t.command, path, t.forwardedArgs ++ [c.store]⟩ fun r =>
            .finish (r.mapError fun f => .pluginFailed t.command f.cause f.stderr)
        else .finish (.error (.pluginNotFound t.command))

/-! ## Scripts -/

def scriptWork (t : Task) : Work :=
  let path := Script.scriptPath c.scriptsDir t.command
  let name := Script.scriptName t.command
  .check (.regular path) fun found =>
    if found && t.command ≠ "" then
      .process ⟨name, "sh", ["-c", Script.shellLine path t c.store]⟩ fun r =>
        .finish (r.mapError fun f => .scriptFailed name f.cause f.stderr)
    else .finish (.error (.scriptFailed name ("script not found at " ++ path) ""))

/-! ## Containers -/

def containerOptions : ContainerOptions := c.options.getD {}

def engineInvocation (label : String) (args : List String) : Invocation :=
  let o := c.containerOptions
  ⟨label, o.engine, (match o.host with | some h => ["-H", h] | none => []) ++ args⟩

def imageWork (image : String) (t : Task) : Work :=
  .process (c.engineInvocation image (Container.runArgs c.cwd image t c.store c.containerOptions)) fun r =>
    .finish (r.mapError fun f => .containerFailed image f.cause f.stderr)

def dockerWork (t : Task) : Work :=
  if t.image = "" then .finish (.error (.containerFailed "" "task has no image" ""))
  else c.imageWork t.image t

def recipesDir : String := c.containerOptions.dockerfilesDir.getD (c.env.defaultDir "dockerfiles")

def buildWork (recipe : String) (next : String → Work) : Work :=
  if !Container.isRecipeName recipe then
    .finish (.error (.buildFailed recipe ("invalid recipe name '" ++ recipe ++ "'") ""))
  else
    let directory := Path.join c.recipesDir recipe
    .check (.regular (Path.join directory "Dockerfile")) fun found =>
      if found then
        let tag := Container.imageTag recipe
        .process (c.engineInvocation tag (Container.buildArgs tag directory)) fun r =>
          match r with
          | .ok _ => next tag
          | .error f => .finish (.error (.buildFailed recipe f.cause f.stderr))
      else .finish (.error (.buildFailed recipe ("no Dockerfile in " ++ directory) ""))

def dockerfileWork (t : Task) : Work := c.buildWork t.recipe fun tag => c.imageWork tag t

/-! ## Dispatch -/

def workOf (t : Task) : TaskKind → Work
  | .plugin => c.pluginWork t
  | .script => c.scriptWork t
  | .docker => c.dockerWork t
  | .dockerfile => c.dockerfileWork t

def dispatch (t : Task) : Work :=
  match t.kind with
  | .ok k => c.workOf t k
  | .error e => .finish (.error e)

/-! ## Where the current directory is asked for -/

def seenFrom (cwd : Except OsError String) : Context :=
  match cwd with
  | .ok dir => { c with cwd := dir }
  | .error _ => c

def unplaced? (cwd : Except OsError String) : Option OsError :=
  match cwd with
  | .ok _ => none
  | .error e => if Path.isAbsolute c.store then none else some e

def imageWorkFrom (cwd : Except OsError String) (image : String) (t : Task) : Work :=
  match c.unplaced? cwd with
  | some e => .finish (.error (.containerFailed image ("cannot resolve store path: " ++ e.message) ""))
  | none => (c.seenFrom cwd).imageWork image t

/-- Carries out a task where asking for the current directory may fail, which only containers do. -/
def dispatchFrom (cwd : Except OsError String) (t : Task) : Work :=
  match t.kind with
  | .ok .docker => if t.image = "" then c.dockerWork t else c.imageWorkFrom cwd t.image t
  | .ok .dockerfile => c.buildWork t.recipe fun tag => c.imageWorkFrom cwd tag t
  | _ => c.dispatch t

end Casework.Context
