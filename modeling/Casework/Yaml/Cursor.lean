/-!
# Reading a YAML text

What the text is cut into, and the place where it is read: the characters still to come, with the
number of characters, lines and columns behind them. Lines end at CR, LF, both together, NEL, LS or PS.
-/

namespace Casework.Yaml

/-! ## Tokens

Indicators, directives, properties of nodes, and scalars. Indentation appears as tokens of its own,
which open and close block collections.
-/

inductive ScalarStyle where
  | plain
  | singleQuoted
  | doubleQuoted
  | literal
  | folded
  deriving DecidableEq, Repr, Inhabited

inductive Token where
  | versionDirective (major minor : Nat)
  | tagDirective (handle leading : String)
  | documentStart
  | documentEnd
  | blockSequenceStart
  | blockMappingStart
  | blockEnd
  | flowSequenceStart
  | flowSequenceEnd
  | flowMappingStart
  | flowMappingEnd
  | blockEntry
  | flowEntry
  | key
  | value
  | alias (name : String)
  | anchor (name : String)
  | tag (handle suffix : String)
  | scalar (text : String) (style : ScalarStyle)
  deriving DecidableEq, Repr, Inhabited

/-! ## Places -/

def isBreak (c : Char) : Bool :=
  c = '\r' || c = '\n' || c = '\u0085' || c = '\u2028' || c = '\u2029'

def isBlank (c : Char) : Bool := c = ' ' || c = '\t'

def isWordChar (c : Char) : Bool := c.isAlphanum || c = '_' || c = '-'

def isAllowed (c : Char) : Bool :=
  c = '\t' || c = '\n' || c = '\r' || (' ' ≤ c && c ≤ '~') || c = '\u0085' ||
    ('\u00a0' ≤ c && c ≤ '\ufffd') || 0x10000 ≤ c.toNat

structure Cursor where
  rest : List Char
  index : Nat
  line : Nat
  column : Nat

namespace Cursor

def ofText (s : List Char) : Cursor := ⟨s, 0, 0, 0⟩

variable (c : Cursor)

def peek : Option Char := c.rest.head?

def peekAt (k : Nat) : Option Char := c.rest[k]?

def atEnd : Bool := c.rest.isEmpty

def sees (x : Char) : Bool := c.peek == some x

def seesBreak : Bool := c.peek.any isBreak

def seesBlank : Bool := c.peek.any isBlank

def blankOrEndAt (k : Nat) : Bool := (c.peekAt k).all fun x => isBlank x || isBreak x

def skip : Cursor := ⟨c.rest.drop 1, c.index + 1, c.line, c.column + 1⟩

def skipMany (n : Nat) : Cursor := ⟨c.rest.drop n, c.index + n, c.line, c.column + n⟩

def span (p : Char → Bool) : List Char × Cursor :=
  let run := c.rest.takeWhile p
  (run, c.skipMany run.length)

def skipBlanks : Cursor := (c.span isBlank).2

def skipToBreak : Cursor := (c.span (!isBreak ·)).2

def readBreak : List Char × Cursor :=
  match c.rest with
  | '\r' :: '\n' :: r => (['\n'], ⟨r, c.index + 2, c.line + 1, 0⟩)
  | x :: r =>
    if isBreak x then
      ([if x = '\u2028' || x = '\u2029' then x else '\n'], ⟨r, c.index + 1, c.line + 1, 0⟩)
    else ([], c)
  | [] => ([], c)

def skipBreak : Cursor := c.readBreak.2

def seesMarker (x : Char) : Bool :=
  c.column == 0 && c.rest.take 3 == [x, x, x] && c.blankOrEndAt 3

def seesDocumentMarker : Bool := c.seesMarker '-' || c.seesMarker '.'

end Cursor

end Casework.Yaml
