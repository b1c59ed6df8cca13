import Casework.Host.FileTree
import Casework.Host.Path
import Casework.NameMap
import Casework.Yaml.Decode

/-!
# Settings

Where plugins and scripts are, the cap on parallel tasks, and how containers are run. A missing file
means the defaults, and so does every missing field.
-/

namespace Casework

/-! ## Directories of the user

Where settings and the default directories of plugins, scripts and recipes are.
-/

abbrev Environment := NameMap String

namespace Environment

variable (e : Environment)

def accountHome : String := "/root"

def home : String :=
  match e.find? "HOME" with
  | some h => if h.isEmpty then accountHome else h
  | none => accountHome

/-- A relative setting does not count. -/
def configHome : String :=
  match (e.find? "XDG_CONFIG_HOME").filter Path.isAbsolute with
  | some d => d
  | none => Path.join e.home ".config"

def appName : String := "evidenceflow"

def appDir : String := Path.join e.configHome appName

def defaultDir (name : String) : String := Path.join e.appDir name

def configPath : String := Path.join e.appDir "config.yml"

end Environment

/-! ## The settings file -/

structure ContainerOptions where
  engine : String := "docker"
  host : Option String := none
  dockerfilesDir : Option String := none
  mountPoint : String := "/store"
  runArgs : List String := []
  deriving DecidableEq, Repr, Inhabited

structure Config where
  pluginDir : Option String := none
  scriptsDir : Option String := none
  maxParallel : Option Nat := none
  container : ContainerOptions := {}
  deriving DecidableEq, Repr, Inhabited

inductive ConfigError where
  | reading (path : String)
  | parsing (path : String)
  deriving DecidableEq, Repr

def ConfigError.message : ConfigError → String
  | reading p => "reading config " ++ p
  | parsing p => "parsing config " ++ p

namespace Config

open Yaml

def containerOf (d : Document) (depth : Nat) (n : Node) : Decode ContainerOptions := do
  let es ← d.entries depth n
  let engine ← Document.field es "engine" d.text "docker"
  let host ← Document.field es "host" d.optionalText none
  let dockerfilesDir ← Document.field es "dockerfiles_dir" d.optionalText none
  let mountPoint ← Document.field es "mount_point" d.text "/store"
  let runArgs ← Document.field es "run_args" (d.texts (depth - 1)) []
  return { engine, host, dockerfilesDir, mountPoint, runArgs }

def ofDocument? (d : Document) : Option Config :=
  d.decode? do
    let es ← d.rootEntries
    let pluginDir ← Document.field es "plugin_dir" d.optionalText none
    let scriptsDir ← Document.field es "scripts_dir" d.optionalText none
    let maxParallel ← Document.field es "max_parallel" d.optionalNatural none
    let container ← Document.field es "container" (containerOf d (Document.depthLimit - 1)) {}
    return { pluginDir, scriptsDir, maxParallel, container }

def parse? (text : String) : Option Config := do ofDocument? (← Document.parse? text)

def load (t : FileTree) (path : String) : Except ConfigError Config :=
  if t.exists_ path then
    match t.readText path with
    | .error _ => .error (.reading path)
    | .ok s => (parse? s).elim (.error (.parsing path)) .ok
  else .ok {}

def resolvedPluginDir (c : Config) (e : Environment) : String := c.pluginDir.getD (e.defaultDir "plugins")

def resolvedScriptsDir (c : Config) (e : Environment) : String := c.scriptsDir.getD (e.defaultDir "scripts")

end Config

end Casework
