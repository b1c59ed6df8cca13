import Casework.Shell.Reader

/-!
# Words part way through

A word is read character by character. What a character means depends on the quotes and braces around
it, which form levels, the innermost first.
-/

namespace Casework.Shell

inductive Style where
  | base
  | double
  | single
  | arith
  deriving DecidableEq, Repr

inductive Kind where
  | newline
  | plain
  | backslash
  | singleQuote
  | doubleQuote
  | endQuote
  | dollar
  | closeBrace
  | openParen
  | closeParen
  | backquote
  | separator
  deriving DecidableEq, Repr

def Style.kind (s : Style) (c : Char) : Kind :=
  if c = '\n' then .newline
  else
    match s with
    | .single => if c = '\'' then .endQuote else .plain
    | s =>
      if c = '\\' then .backslash
      else if c = '$' then .dollar
      else if c = '\x60' then .backquote
      else if c = '\x7d' then .closeBrace
      else
        match s with
        | .base =>
          if c = '\'' then .singleQuote
          else if c = '"' then .doubleQuote
          else if "<>();&| \t".toList.contains c then .separator
          else .plain
        | .double => if c = '"' then .endQuote else .plain
        | _ => if c = '(' then .openParen else if c = ')' then .closeParen else .plain

structure Level where
  style : Style
  double : Bool := false
  inner : Bool := false
  braced : Bool := false
  braces : Nat := 0
  doubleBraces : Nat := 0
  parens : Nat := 0

inductive Opening where
  | param (name : String) (use : Use) (colon : Bool)
  | arith

inductive Setting where
  | line
  | document (last : List Char) (tabs : Bool)
  | text
  deriving DecidableEq

structure Draft where
  setting : Setting := .line
  isMark : Bool := false
  level : Level
  outer : List Level := []
  /-- The pieces so far, the last first, with those in front of each expansion that is open. -/
  pieces : List Piece := []
  opened : List (Opening × List Piece) := []
  quoted : Bool := false

namespace Draft

variable (d : Draft)

def add (p : Piece) : Draft := { d with pieces := p :: d.pieces }

def addChar (c : Char) : Draft :=
  d.add (.char c (d.level.style = .single || d.level.style = .double))

def addEscaped (c : Char) : Draft := { d.add (.char c true) with quoted := true }

def inLine : Bool := d.setting = .line

def addMark : Draft := if d.inLine then d.add .mark else d

/-- A backslash in front of `c` stays where it takes nothing away. -/
def keepsBackslash (c : Char) : Bool :=
  d.level.double && c ≠ '\\' && c ≠ '\x60' && c ≠ '$' &&
    (c ≠ '"' || (!d.inLine && d.level.braces = 0)) && (c ≠ '\x7d' || d.level.braces = 0)

def backslashed (c : Char) : Draft :=
  (if d.keepsBackslash c then d.add (.char '\\' true) else d).addEscaped c

def openSingle : Draft := { d with level := { d.level with style := .single } }.addMark

def toggleInner : Draft :=
  if d.level.braces = 0 then d else { d with level := { d.level with inner := !d.level.inner } }

def openDouble : Draft := { d with level := { d.level with style := .double, double := true } }.toggleInner.addMark

def closeQuote (c : Char) : Draft :=
  if !d.inLine && d.level.braces = 0 then d.addChar c
  else
    let d := if d.level.doubleBraces = 0 then
        { d with level := { d.level with style := .base, double := false } }
      else d
    let d := { d with quoted := true }
    (if c = '"' then d.toggleInner else d).addMark

def push (l : Level) : Draft := { d with level := l, outer := d.level :: d.outer }

def pop : Draft :=
  match d.outer with
  | [] => d
  | l :: ls => { d with level := l, outer := ls }

def openPiece (o : Opening) : Draft := { d with opened := (o, d.pieces) :: d.opened, pieces := [] }

def closePiece : Draft :=
  match d.opened with
  | [] => d
  | (o, before) :: opened =>
    let word := d.pieces.reverse
    let p : Piece := match o with
      | .param name use colon => .param name use colon word
      | .arith => .arith word
    { d with opened, pieces := p :: before }

def closeBrace : Draft :=
  if !d.level.inner && 0 < d.level.braces then
    let braces := d.level.braces - 1
    let d := { d with level := { d.level with braces } }
    let d := if braces = 0 && d.level.braced then d.pop
      else { d with level := { d.level with doubleBraces := d.level.doubleBraces - 1 } }
    d.closePiece
  else d.addChar '\x7d'

def openParam (name : String) (use : Use) (colon : Bool) : Draft :=
  let style : Style :=
    match use, d.level.style with
    | .trim .., _ => .base
    | _, .arith => .double
    | _, s => s
  let d := if style ≠ d.level.style || d.level.inner then
      d.push { style, braced := true, double := style ≠ .base }
    else d
  { d with level := { d.level with
      braces := d.level.braces + 1
      doubleBraces := if d.level.double then d.level.doubleBraces + 1 else d.level.doubleBraces } }.openPiece
    (.param name use colon)

def openArith : Draft := (d.push { style := .arith, double := true }).openPiece .arith

def word : Word := d.pieces.reverse

def descriptor? : Option (Option Nat) :=
  match d.quoted, d.pieces with
  | false, [] => some none
  | false, [.char c false] => if c.isDigit then some (some (c.toNat - 48)) else none
  | _, _ => none

end Draft

end Casework.Shell
