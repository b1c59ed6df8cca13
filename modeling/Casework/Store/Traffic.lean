import Casework.Host.Channel
import Casework.Store.Basic

/-!
# Calls at the same time

Any number of calls may be under way together, on any handles on a store. Each look, each making of a
file and each write is one step of the file system; between any two of them any other call may move.
-/

namespace Casework

/-! ## Insertions

A call first looks at its record and opens the file, and later writes its line, at once.
-/

namespace Store

structure Call where
  store : Store
  unique : String
  record : Option Json

def Call.prepared (c : Call) : Except StoreError (String × Json) := prepare c.unique c.record

end Store

open Store (Call)

structure Traffic where
  tree : FileTree
  opened : List (Call × Address × Json)
  /-- Calls that are over, the last one last, each with the record it has written. -/
  ended : List (Call × Except StoreError Json)

namespace Traffic

def init (t : FileTree) : Traffic := ⟨t, [], []⟩

inductive Move where
  | start (c : Call)
  | write (k : Nat)

def finish (x : Traffic) (c : Call) (outcome : Except StoreError Json) : Traffic :=
  { x with ended := x.ended ++ [(c, outcome)] }

def start (x : Traffic) (c : Call) : Traffic :=
  match c.prepared with
  | .error e => x.finish c (.error e)
  | .ok (_, record) =>
    match x.tree.openAppend c.store.itemsPath with
    | .error e => x.finish c (.error (.io e))
    | .ok (t, a) => { x with tree := t, opened := x.opened ++ [(c, a, record)] }

def step? (x : Traffic) : Move → Option Traffic
  | .start c => some (x.start c)
  | .write k =>
    match x.opened[k]? with
    | none => none
    | some (c, a, record) =>
      let tree := x.tree.modify a (· ++ Store.lineOf record)
      some (finish { x with tree, opened := x.opened.eraseIdx k } c (.ok record))

def follow? : Traffic → List Move → Option Traffic
  | x, [] => some x
  | x, m :: ms => (x.step? m).bind fun y => follow? y ms

def written (x : Traffic) : List Json := x.ended.filterMap fun e => e.2.toOption

end Traffic

/-! ## Exports

A call looks at one name after the other until one is free, then makes the file, and what is exported
is written to it.
-/

namespace Store

structure Export where
  store : Store
  path : String
  deriving DecidableEq, Repr

namespace Export

variable (c : Export)

def relative (n : Nat) : String := candidate (exportName c.path) n

def place (n : Nat) : String := Path.join c.store.root (c.relative n)

end Export

inductive Stage where
  | probing (n : Nat)
  | found (n : Nat)
  /-- The call is over; its file is at `a`, and `written` has gone there through its handle. -/
  | stored (relative : String) (a : Address) (written : Text.Bytes)
  | failed (e : StoreError)
  deriving DecidableEq, Repr

inductive Action where
  | advance
  | write (b : Text.Bytes)
  deriving DecidableEq, Repr

namespace Export

variable (c : Export) (t : FileTree)

def probe (n : Nat) : Stage := if t.exists_ (c.place n) then .probing (n + 1) else .found n

def make (n : Nat) : FileTree × Stage :=
  match t.create (c.place n) with
  | .ok (t, a) => (t, .stored (c.relative n) a [])
  | .error e => (t, .failed (.io e))

def act? : Stage → Action → Option (FileTree × Stage)
  | .probing n, .advance => some (t, c.probe t n)
  | .found n, .advance => some (c.make t n)
  | .stored relative a written, .write b =>
    some (t.modify a (Machine.overwrite b written.length), .stored relative a (written ++ b))
  | _, _ => none

end Export

end Store

open Store (Export Stage Action)

structure Exports where
  tree : FileTree
  calls : List (Export × Stage)

namespace Exports

def start (t : FileTree) (calls : List Export) : Exports := ⟨t, calls.map (·, .probing 0)⟩

def step? (x : Exports) (move : Nat × Action) : Option Exports :=
  match x.calls[move.1]? with
  | none => none
  | some (c, stage) =>
    match c.act? x.tree stage move.2 with
    | none => none
    | some (t, stage) => some ⟨t, x.calls.set move.1 (c, stage)⟩

def follow? : Exports → List (Nat × Action) → Option Exports
  | x, [] => some x
  | x, m :: ms => (x.step? m).bind fun y => follow? y ms

end Exports

end Casework
