import Casework.Host.FileTree
import Casework.Text.Utf8

/-!
# Channels

What processes read from and write to. A channel is opened once and may be shared by many
descriptors, in one process and in its children, so the place in a file moves on for all of them.
-/

namespace Casework

open Text

inductive Channel where
  /-- An open file or directory. What is written goes to `offset`, or to the end if it `appends`. -/
  | file (a : Address) (offset : Nat) (appends reads writes : Bool)
  | input (rest : Bytes) (piped : Bool)
  /-- What has been written, the last first. With `room` it is a pipe that takes so many bytes more. -/
  | output (written : List Bytes) (room : Option Nat)
  | device (d : Device)
  deriving Inhabited

abbrev Descriptors := List (Nat × Nat)

structure Machine where
  tree : FileTree
  channels : Array Channel := #[]
  lastProcess : Nat := 100
  unheard : List Nat := []
  sent : List (Nat × Nat) := []
  patience : Nat := 0
  deriving Inhabited

namespace Machine

variable (m : Machine)

def add (c : Channel) : Nat × Machine := (m.channels.size, { m with channels := m.channels.push c })

def channel? (id : Nat) : Option Channel := m.channels[id]?

def setChannel (id : Nat) (c : Channel) : Machine := { m with channels := m.channels.setIfInBounds id c }

def withTree (t : FileTree) : Machine := { m with tree := t }

def withDirectory (cwd : String) : Machine := { m with tree := { m.tree with cwd } }

/-! ## Reading -/

def contentAt (a : Address) : Except OsError Bytes :=
  match m.tree.node? a with
  | some (.file b _) => .ok b
  | some .dir => .error .isDirectory
  | _ => .ok []

def unread (id : Nat) : Except OsError Bytes :=
  match m.channel? id with
  | some (.file a offset _ true _) => (m.contentAt a).map (·.drop offset)
  | some (.input rest _) => .ok rest
  | some (.device _) => .ok []
  | _ => .error .badDescriptor

def advance (id n : Nat) : Machine :=
  match m.channel? id with
  | some (.file a offset appends reads writes) => m.setChannel id (.file a (offset + n) appends reads writes)
  | some (.input rest piped) => m.setChannel id (.input (rest.drop n) piped)
  | _ => m

def readAll (id : Nat) : Except OsError (Bytes × Machine) := do
  let b ← m.unread id
  return (b, m.advance id b.length)

/-! ## Writing -/

/-- A content with `b` written over what stands at `offset`; a gap is filled with zeros. -/
def overwrite (b : Bytes) (offset : Nat) (content : Bytes) : Bytes :=
  content.take offset ++ List.replicate (offset - content.length) 0 ++ b ++ content.drop (offset + b.length)

def fileSize (a : Address) : Nat :=
  match m.tree.node? a with
  | some (.file b _) => b.length
  | _ => 0

def write (id : Nat) (b : Bytes) : Except OsError Machine :=
  if b.isEmpty then .ok m
  else
    match m.channel? id with
    | some (.file a offset appends reads true) =>
      let at_ := if appends then m.fileSize a else offset
      let m := { m with
        tree := m.tree.modify a (if at_ = m.fileSize a then (· ++ b) else overwrite b at_) }
      .ok (m.setChannel id (.file a (at_ + b.length) appends reads true))
    | some (.output _ (some 0)) => .error .brokenPipe
    | some (.output written room) => .ok (m.setChannel id (.output (b :: written) (room.map (· - b.length))))
    | some (.device .full) => .error .noSpace
    | some (.device _) => .ok m
    | _ => .error .badDescriptor

def collected (id : Nat) : Bytes :=
  match m.channel? id with
  | some (.output written _) => written.reverse.flatten
  | _ => []

/-! ## Opening -/

structure Opening where
  reads : Bool := false
  writes : Bool := false
  creates : Bool := false
  truncates : Bool := false
  appends : Bool := false
  fresh : Bool := false
  deriving DecidableEq

def Opening.read : Opening := { reads := true }
def Opening.overwrite : Opening := { writes := true, creates := true, truncates := true }
def Opening.append : Opening := { writes := true, creates := true, appends := true }
def Opening.update : Opening := { reads := true, writes := true, creates := true }

def openFile (o : Opening) (path : String) : Except OsError (Nat × Machine) := do
  let a ← if o.creates then m.tree.fileAddress path else (m.tree.lookup path).map (·.1)
  match m.tree.node? a with
  | some .dir => if o.writes then .error .isDirectory else .ok (m.add (.file a 0 false true false))
  | some (.device d) =>
    if o.fresh then .error .exists_
    else
      match d with
      | .terminal => .error .noDevice
      | d => .ok (m.add (.device d))
  | some _ =>
    if o.fresh then .error .exists_
    else
      let t := if o.truncates then m.tree.modify a fun _ => [] else m.tree
      .ok ((m.withTree t).add (.file a 0 o.appends o.reads o.writes))
  | none =>
    if o.creates then .ok ((m.withTree (m.tree.modify a id)).add (.file a 0 o.appends o.reads o.writes))
    else .error .notFound

def reopen (o : Opening) (fds : Descriptors) (n : Nat) : Except OsError (Nat × Machine) :=
  match (fds.lookup n).bind fun id => (m.channel? id).map (id, ·) with
  | some (_, .file a ..) =>
    if o.fresh then .error .exists_
    else
      let t := if o.truncates then m.tree.modify a fun _ => [] else m.tree
      .ok ((m.withTree t).add (.file a 0 o.appends o.reads o.writes))
  | some (id, _) => .ok (id, m)
  | none => .error .notFound

def openPath (o : Opening) (fds : Descriptors) (path : String) : Except OsError (Nat × Machine) :=
  match m.tree.lookup path with
  | .ok (_, .device (.descriptor n)) => m.reopen o fds n
  | _ => m.openFile o path

end Machine

end Casework
