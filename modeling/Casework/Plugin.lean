import Casework.Host.FileTree
import Casework.Host.System
import Casework.NameMap
import Casework.Store.Basic
import Casework.Text.Quoted

/-!
# Plugins

A plugin inside the program is a sequence of steps that is handed the location of a store. It ends
well, with an error and what caused it, or by a panic. The executable regular files of a directory are
plugins too, under the names of the files.
-/

namespace Casework.Store

/-! ## Counting the records of a store

The plugin that comes with the program: it reports how many records of each type a store holds.
-/

def countOne (counts : NameMap Nat) (record : Json) : NameMap Nat :=
  let type := (typeOf? record).getD "unknown"
  counts.insert type ((counts.find? type).getD 0 + 1)

def countByType (records : List Json) : NameMap Nat := records.foldl countOne {}

def reportLines (location : String) (counts : NameMap Nat) : List String :=
  if counts.entries.isEmpty then ["example: store " ++ location ++ " is empty"]
  else counts.entries.map fun e => "example: " ++ toString e.2 ++ " " ++ e.1 ++ " items"

def census (t : FileTree) (location : String) : FileTree × Except (StoreError × List String) (List String) :=
  match openAt t location with
  | (t, .error e) => (t, .error (e, ("opening store " ++ location) :: e.chain))
  | (t, .ok s) =>
    match s.all t with
    | .error e => (t, .error (e, e.chain))
    | .ok records => (t, .ok (reportLines location (countByType records)))

end Casework.Store

namespace Casework

/-! ## Plugins inside the program -/

inductive PluginStep where
  | note (text : String)
  | pause (milliseconds : Nat)
  /-- Joins a group, and waits until it has so many members. -/
  | meet (group : String) (members timeout : Nat)
  | panic (text : String)
  | insert (record : Json)
  | fail (chain : List String)
  | census
  deriving Inhabited

abbrev Plugin := List PluginStep

inductive PluginEnd where
  | ok
  | failed (chain : List String)
  | panicked (text : String)
  deriving DecidableEq, Repr

inductive StepEnd where
  | next
  | sleeps (milliseconds : Nat)
  | gathers (group : String) (members timeout : Nat)
  | ended (e : PluginEnd)

namespace PluginStep

def insertRecord (h : Host) (store : String) (record : Json) : Host × StepEnd :=
  match Store.openAt h.tree store with
  | (t, .error e) => ({ h with tree := t }, .ended (.failed e.chain))
  | (t, .ok s) =>
    let (id, h) := { h with tree := t }.freshIdentifier
    match s.insert t id record with
    | .error e => (h, .ended (.failed e.chain))
    | .ok (t, _) => ({ h with tree := t }, .next)

def takeCensus (h : Host) (store : String) : Host × StepEnd :=
  match Store.census h.tree store with
  | (t, .error (_, chain)) => ({ h with tree := t }, .ended (.failed chain))
  | (t, .ok lines) => ({ h with tree := t }.report lines, .next)

def perform (h : Host) (store : String) : PluginStep → Host × StepEnd
  | .note text => (h.note text store, .next)
  | .pause ms => (h, .sleeps ms)
  | .meet group members timeout => (h, .gathers group members timeout)
  | .panic text => (h, .ended (.panicked text))
  | .insert record => insertRecord h store record
  | .fail chain => (h, .ended (.failed chain))
  | .census => takeCensus h store

end PluginStep

namespace Plugin

def runAlone (h : Host) (store : String) : Plugin → Host × PluginEnd
  | [] => (h, .ok)
  | s :: p =>
    match s.perform h store with
    | (h, .ended e) => (h, e)
    | (h, _) => runAlone h store p

end Plugin

/-! ## Registries -/

abbrev Registry := NameMap Plugin

namespace Registry

def register (r : Registry) (name : String) (p : Plugin) : Registry := r.insert name p

def exampleName : String := "example"

def builtin : Registry := .ofList [(exampleName, [.census])]

def describe (r : Registry) : String :=
  "PluginRegistry \x7b plugins: [" ++ ", ".intercalate (r.keys.map Text.quoted) ++ "] \x7d"

end Registry

end Casework

namespace Casework.PluginDirectory

/-! ## Plugins in a directory -/

def candidate? (dir command : String) : Option String :=
  if command ≠ "" ∧ (Path.components command).length = 1 then some (Path.join dir command) else none

def locate (t : FileTree) (dir command : String) : Option String := (candidate? dir command).filter t.isExecutable

def discover (t : FileTree) (dir : String) : List String :=
  match t.list dir with
  | .ok names => names.filter fun n => t.isExecutable (Path.join dir n)
  | .error _ => []

end Casework.PluginDirectory
