import Casework.Decimal.Binary64
import Casework.NameMap
import Casework.Shell.Tree

/-!
# Reading a script

The text that is still to be read, with the values of aliases in front of it, and what the grammar
has to remember from token to token.
-/

namespace Casework.Shell

structure GrammarError where
  line : Nat
  reason : String
  deriving DecidableEq, Repr

inductive Token where
  | eof
  | newline
  | op (s : String)
  | keyword (s : String)
  | word (w : Word) (quoted : Bool)
  | redirect (fd : Nat) (d : Direction)
  | document (fd : Nat) (tabs : Bool)
  deriving Inhabited

def Token.name : Token → String
  | eof => "end of file"
  | newline => "newline"
  | op s => "\"" ++ s ++ "\""
  | keyword s => "\"" ++ s ++ "\""
  | word .. => "word"
  | redirect .. | document .. => "redirection"

structure Expect where
  keyword : Bool := false
  aliases : Bool := false
  newline : Bool := false
  mark : Bool := false
  deriving DecidableEq

structure Pushed where
  text : List Char
  name : String
  blank : Bool

structure Announced where
  number : Nat
  last : List Char
  tabs : Bool
  quoted : Bool

structure Reader where
  text : List Char
  line : Nat := 1
  pushed : List Pushed := []
  inUse : List String := []
  ended : List String := []
  aliases : NameMap String := {}
  expect : Expect := {}
  last : Token := .eof
  again : Bool := false
  lastWord : Word := []
  announced : List Announced := []
  documents : Array Word := #[]

abbrev Parse := EStateM GrammarError Reader

namespace Reader

def settle (r : Reader) : List Pushed → Reader
  | ⟨[], name, blank⟩ :: ps =>
    settle { r with ended := name :: r.ended, expect := { r.expect with aliases := r.expect.aliases || blank } } ps
  | ps => { r with pushed := ps }

def next (r : Reader) : Option Char × Reader :=
  let r := if r.ended.isEmpty then r
    else { r with inUse := r.inUse.filter (!r.ended.contains ·), ended := [] }
  let r := if r.pushed.isEmpty then r else r.settle r.pushed
  match r.pushed, r.text with
  | p :: ps, _ =>
    match p.text with
    | c :: cs => (some c, { r with pushed := { p with text := cs } :: ps })
    | [] => (none, r)
  | [], c :: cs => (some c, { r with text := cs })
  | [], [] => (none, r)

def unread (r : Reader) (c : Char) : Reader :=
  match r.pushed with
  | p :: ps => { r with pushed := { p with text := c :: p.text } :: ps }
  | [] => { r with text := c :: r.text }

def nextJoinedFrom : Nat → Reader → Option Char × Reader
  | 0, r => (none, r)
  | fuel + 1, r =>
    match r.next with
    | (some '\\', r) =>
      match r.next with
      | (some '\n', r) => nextJoinedFrom fuel { r with line := r.line + 1 }
      | (some c, r) => (some '\\', r.unread c)
      | (none, r) => (some '\\', r)
    | x => x

/-- Bounds the number of characters that are read at once. -/
def reach : Nat := pow2 60

def nextJoined (r : Reader) : Option Char × Reader := r.nextJoinedFrom reach

/-! ## Names -/

def takeFrom (p : Char → Bool) : Nat → List Char → Option Char → Reader → List Char × Option Char × Reader
  | 0, acc, c, r => (acc.reverse, c, r)
  | fuel + 1, acc, c, r =>
    match c with
    | some d =>
      if p d then
        let (c, r) := r.nextJoined
        takeFrom p fuel (d :: acc) c r
      else (acc.reverse, c, r)
    | none => (acc.reverse, c, r)

def take (p : Char → Bool) (c : Option Char) (r : Reader) : List Char × Option Char × Reader :=
  takeFrom p reach [] c r

/-! ## Documents -/

def dropTabs : Nat → Option Char → Reader → Option Char × Reader
  | 0, c, r => (c, r)
  | fuel + 1, c, r =>
    if c = some '\t' then
      let (c, r) := r.next
      dropTabs fuel c r
    else (c, r)

def behindLast? : List Char → Option Char → Reader → Option Reader
  | [], none, r => some r
  | [], some c, r => if c = '\n' then some { r with line := r.line + 1 } else none
  | d :: ds, c, r =>
    if c = some d then
      let (c, r) := r.next
      behindLast? ds c r
    else none

/-- The reader at the beginning of a line, of which `c` is taken, that is not `last`. A line that begins like
`last` loses the byte behind that beginning if it is no ASCII. -/
def besideLast (last : List Char) (c : Option Char) (r : Reader) : Reader :=
  let common := ((last.zip (c.toList ++ r.text)).takeWhile fun (a, b) => a = b).length
  if common = 0 || !r.pushed.isEmpty then r
  else
    match r.text.drop (common - 1) with
    | d :: rest => if 128 ≤ d.toNat then { r with text := r.text.take (common - 1) ++ rest } else r
    | [] => r

end Reader

/-! ## Parsers -/

def fail {α : Type} (reason : String) : Parse α := fun r => .error ⟨r.line, reason⟩ r

def nextChar : Parse (Option Char) := fun r => let (c, r) := r.next; .ok c r

def nextJoined : Parse (Option Char) := fun r => let (c, r) := r.nextJoined; .ok c r

def putBack (c : Option Char) : Parse Unit :=
  match c with
  | some c => modify (·.unread c)
  | none => pure ()

def newLine : Parse Unit := modify fun r => { r with line := r.line + 1 }

def pushBack : Parse Unit := modify fun r => { r with again := true }

def expectNext (e : Expect) : Parse Unit := modify fun r => { r with expect := e }

def anyCommand : Expect := { keyword := true, aliases := true }

def lineStart : Expect := { keyword := true, aliases := true, newline := true }

def unexpected {α : Type} : Parse α := do fail ((← get).last.name ++ " unexpected")

def expected {α : Type} (what : Token) : Parse α := do
  fail ((← get).last.name ++ " unexpected (expecting " ++ what.name ++ ")")

end Casework.Shell
