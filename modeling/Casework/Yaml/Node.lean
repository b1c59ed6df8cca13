import Casework.Yaml.Event
import Casework.Yaml.Scan

/-!
# Nodes of a YAML document

A document is a tree whose aliases name anchored nodes by number. An anchor takes as its number how
many different names are known when it is met, so an anchor name that is used again shares the number
of the next new name, and the node that begins last is the one an alias of that number means.
-/

namespace Casework.Yaml

inductive Node where
  | alias (id : Nat)
  | scalar (tag : Option String) (text : String) (style : ScalarStyle)
  | seq (tag : Option String) (items : List Node)
  | map (tag : Option String) (entries : List (Node × Node))
  deriving Inhabited, Repr

structure Document where
  root : Option Node
  anchors : List (Nat × Node)
  eventCount : Nat
  deriving Inhabited

namespace Document

/-! ## Trees -/

structure Open where
  anchor : Option Nat
  start : Nat
  tag : Option String
  mapping : Bool
  done : List Node

def pairUp : List Node → List (Node × Node)
  | k :: v :: ns => (k, v) :: pairUp ns
  | _ => []

def Open.node (o : Open) : Node :=
  if o.mapping then .map o.tag (pairUp o.done.reverse) else .seq o.tag o.done.reverse

abbrev Table := List (Nat × Nat × Node)

structure Build where
  position : Nat := 0
  names : List (String × Nat) := []
  open_ : List Open := []
  table : Table := []
  root : Option Node := none

def Build.add (b : Build) (n : Node) : Build :=
  match b.open_ with
  | [] => { b with root := some n }
  | o :: os => { b with open_ := { o with done := n :: o.done } :: os }

/-- The number of an anchor, which from here on is what its name means. -/
def Build.name (b : Build) (p : Props) : Option Nat × Build :=
  match p.anchor with
  | none => (none, b)
  | some a =>
    let id := b.names.length
    let rest := b.names.filter (·.1 ≠ a)
    (some id, { b with names := (a, id) :: rest })

def Build.enter (b : Build) (id : Option Nat) (start : Nat) (n : Node) : Build :=
  match id with
  | none => b
  | some id => { b with table := (id, start, n) :: b.table }

def Build.begin (b : Build) (p : Props) (mapping : Bool) : Build :=
  let (id, b) := b.name p
  { b with open_ := ⟨id, b.position, p.tag, mapping, []⟩ :: b.open_ }

def Build.finish (b : Build) : Build :=
  match b.open_ with
  | [] => b
  | o :: os => (({ b with open_ := os }).enter o.anchor o.start o.node).add o.node

def Build.step (b : Build) : Event → Option Build
  | .alias name => (b.names.lookup name).map fun id => b.add (.alias id)
  | .scalar p text style =>
    let (id, b) := b.name p
    let n := Node.scalar p.tag text style
    some ((b.enter id b.position n).add n)
  | .sequenceStart p => some (b.begin p false)
  | .mappingStart p => some (b.begin p true)
  | .sequenceEnd | .mappingEnd => some b.finish

def Build.run : Build → List Event → Option Build
  | b, [] => some b
  | b, e :: es => do
    let b ← b.step e
    run { b with position := b.position + 1 } es

/-- Of the nodes of one number the one that begins last. -/
def latest (t : Table) (id : Nat) : Option Node :=
  let candidates := t.filter (·.1 = id)
  let last := candidates.foldl (fun m e => max m e.2.1) 0
  (candidates.find? fun e => e.2.1 = last).map (·.2.2)

def ofEvents? (es : List Event) : Option Document := do
  let b ← Build.run {} es
  let anchors := (List.range (b.table.length + 1)).filterMap fun id =>
    (latest b.table id).map fun n => (id, n)
  return ⟨b.root, anchors, max es.length 1⟩

def parse? (text : String) : Option Document := do ofEvents? (← events? (← tokens? text))

end Document

end Casework.Yaml
