import Casework.CommandLine.Program
import Casework.Host.System

/-!
# The command line

Reads the files that a request needs, lets the program work on them as values, and writes what has
changed.
-/

namespace Casework.CommandLine

/-! ## Files that a request needs

What has to be known of a file system before a request can be served: the files that it names itself,
then those that its tasks and stores name.
-/

def Command.workflow? : Command → Option String
  | .run o => some o.workflow
  | .graph w _ => some w
  | .plugins _ => none

def Request.files (r : Request) (e : Environment) : List String :=
  r.config.getD e.configPath :: r.command.workflow?.toList

def taskFiles (c : Config) (e : Environment) (t : Task) : List String :=
  match t.kind with
  | .ok .plugin => (PluginDirectory.candidate? (c.resolvedPluginDir e) t.command).toList
  | .ok .script => [Script.scriptPath (c.resolvedScriptsDir e) t.command]
  | .ok .dockerfile =>
    let recipes := c.container.dockerfilesDir.getD (e.defaultDir "dockerfiles")
    [Path.join (Path.join recipes t.recipe) "Dockerfile"]
  | _ => []

def storeFiles (stores : List String) : List String := stores.map fun s => Store.itemsPath ⟨s⟩

def Request.furtherFiles (r : Request) (h : Host) : List String :=
  match r.command, Config.load h.tree (r.config.getD h.env.configPath) with
  | .run o, .ok c =>
    match Workflow.load h.tree o.workflow with
    | .ok w =>
      let c := o.override c
      c.container.engine :: w.tasks.entries.flatMap (fun e => taskFiles c h.env e.2) ++ storeFiles o.stores
    | .error _ => []
  | _, _ => []

/-! ## Files and values -/

def readFile (h : Host) (path : String) : IO Host := do
  try
    let b ← IO.FS.readBinFile path
    return { h with tree := h.tree.layOut ⟨path, .file b.toList 0o755⟩ }
  catch _ => return h

def writeChanged (before after : FileTree) : IO Unit := do
  for (a, n) in after.nodes do
    match n with
    | .file b _ =>
      if before.node? a != some n then
        let path := "/" ++ "/".intercalate a
        IO.FS.createDirAll ("/" ++ "/".intercalate a.dropLast)
        IO.FS.writeBinFile path ⟨b.toArray⟩
    | _ => pure ()

def environment : IO Environment := do
  let mut e : Environment := {}
  for name in ["HOME", "PATH", "XDG_CONFIG_HOME"] do
    match ← IO.getEnv name with
    | some v => e := e.insert name v
    | none => pure ()
  return e

def hostFor (args : List String) : IO Host := do
  let h : Host := { tree := FileTree.bare (toString (← IO.currentDir)), env := ← environment }
  match parse args with
  | .error _ => return h
  | .ok r =>
    let h ← (r.files h.env).foldlM readFile h
    (r.furtherFiles h).foldlM readFile h

end Casework.CommandLine

open Casework CommandLine in
def main (args : List String) : IO UInt32 := do
  let h ← hostFor args
  let e := program (Moment.after ⟨0, 0⟩ (← IO.monoMsNow)) h args
  writeChanged h.tree e.host.tree
  (← IO.getStdout).putStr e.out
  for l in e.host.processLog do
    IO.eprintln (Diagnostics.logText l.1 l.2)
  match e.error with
  | some text => IO.eprintln ("Error: " ++ text)
  | none => pure ()
  return e.code.toUInt32
