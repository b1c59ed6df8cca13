import Casework.Yaml.Cursor

/-!
# Scalars of a YAML text

The content of quoted, plain and block scalars. A single line break between lines of text counts as
a space, and further ones are kept.
-/

namespace Casework.Yaml

/-- White space held back until it is known what follows it. -/
structure Held where
  blanks : List Char := []
  first : List Char := []
  more : List Char := []
  broken : Bool := false

def Held.fold (h : Held) : List Char :=
  if h.broken then
    if h.first = ['\n'] then if h.more.isEmpty then [' '] else h.more else h.first ++ h.more
  else h.blanks

def Held.collect (bad : Held → Cursor → Bool) : Nat → Held → Cursor → Option (Held × Cursor)
  | 0, _, _ => none
  | fuel + 1, h, c =>
    match c.peek with
    | none => some (h, c)
    | some x =>
      if isBlank x then
        if bad h c then none
        else if h.broken then collect bad fuel h c.skip
        else collect bad fuel { h with blanks := h.blanks ++ [x] } c.skip
      else if isBreak x then
        let (b, c) := c.readBreak
        if h.broken then collect bad fuel { h with more := h.more ++ b } c
        else collect bad fuel { h with blanks := [], first := b, broken := true } c
      else some (h, c)

/-! ## Quoted scalars -/

def simpleEscape? (x : Char) : Option Char :=
  match x with
  | '0' => some '\x00'
  | 'a' => some '\x07'
  | 'b' => some '\x08'
  | 't' | '\t' => some '\t'
  | 'n' => some '\n'
  | 'v' => some '\x0b'
  | 'f' => some '\x0c'
  | 'r' => some '\r'
  | 'e' => some '\x1b'
  | ' ' => some ' '
  | '"' => some '"'
  | '/' => some '/'
  | '\\' => some '\\'
  | 'N' => some '\u0085'
  | '_' => some '\u00a0'
  | 'L' => some '\u2028'
  | 'P' => some '\u2029'
  | _ => none

def escapeLength? (x : Char) : Option Nat :=
  match x with
  | 'x' => some 2
  | 'u' => some 4
  | 'U' => some 8
  | _ => none

def hexValue? (c : Char) : Option Nat :=
  if c.isDigit then some (c.toNat - 48)
  else if 'a' ≤ c && c ≤ 'f' then some (c.toNat - 87)
  else if 'A' ≤ c && c ≤ 'F' then some (c.toNat - 55)
  else none

def hexNumber? (cs : List Char) : Option Nat :=
  cs.foldlM (fun n c => (hexValue? c).map (n * 16 + ·)) 0

def isScalarValue (n : Nat) : Bool := n < 0xD800 || (0xE000 ≤ n && n < 0x110000)

def readEscape (c : Cursor) : Option (Char × Cursor) := do
  let x ← c.peekAt 1
  match simpleEscape? x with
  | some y => some (y, c.skipMany 2)
  | none =>
    let n ← escapeLength? x
    let digits := (c.rest.drop 2).take n
    let v ← hexNumber? digits
    if digits.length = n && isScalarValue v then some (Char.ofNat v, c.skipMany (2 + n)) else none

/-- A run of text without white space. An escaped line break ends it and counts as a break that
leaves nothing behind. -/
def quotedRun (single : Bool) : Nat → List Char → Cursor → Option (List Char × Bool × Cursor)
  | 0, _, _ => none
  | fuel + 1, acc, c =>
    match c.peek with
    | none => some (acc, false, c)
    | some x =>
      if isBlank x || isBreak x then some (acc, false, c)
      else if single then
        if x = '\'' then
          if c.peekAt 1 == some '\'' then quotedRun single fuel ('\'' :: acc) (c.skipMany 2)
          else some (acc, false, c)
        else quotedRun single fuel (x :: acc) c.skip
      else if x = '"' then some (acc, false, c)
      else if x = '\\' then
        if (c.peekAt 1).any isBreak then some (acc, true, c.skip.skipBreak)
        else
          match readEscape c with
          | some (y, c) => quotedRun single fuel (y :: acc) c
          | none => none
      else quotedRun single fuel (x :: acc) c.skip

def quotedFrom (single : Bool) : Nat → List Char → Cursor → Option (List Char × Cursor)
  | 0, _, _ => none
  | fuel + 1, acc, c =>
    if c.seesDocumentMarker || c.atEnd then none
    else do
      let (acc, broken, c) ← quotedRun single (c.rest.length + 1) acc c
      if c.sees (if single then '\'' else '"') then some (acc, c.skip)
      else
        let (h, c) ← Held.collect (fun _ _ => false) (c.rest.length + 1) { broken } c
        quotedFrom single fuel (h.fold.reverse ++ acc) c

def readQuoted (single : Bool) (c : Cursor) : Option (String × Cursor) :=
  (quotedFrom single (c.rest.length + 1) [] c.skip).map fun (acc, c) => (.ofList acc.reverse, c)

/-! ## Plain scalars -/

def isFlowIndicator (x : Char) : Bool := x = ',' || x = '[' || x = ']' || x = '\x7b' || x = '\x7d'

def badColon (flow : Bool) (c : Cursor) : Bool :=
  flow && c.sees ':' && (c.peekAt 1).any fun y => isFlowIndicator y || y = '?'

def endsPlain (flow : Bool) (c : Cursor) : Bool :=
  (c.sees ':' && c.blankOrEndAt 1) || (flow && c.peek.any isFlowIndicator)

def plainRun (flow : Bool) : Nat → List Char → Cursor → Option (List Char × Cursor)
  | 0, _, _ => none
  | fuel + 1, acc, c =>
    match c.peek with
    | none => some (acc, c)
    | some x =>
      if isBlank x || isBreak x then some (acc, c)
      else if badColon flow c then none
      else if endsPlain flow c then some (acc, c)
      else plainRun flow fuel (x :: acc) c.skip

def plainFrom (flow : Bool) (indent : Int) :
    Nat → List Char → Held → Cursor → Option (List Char × Bool × Cursor)
  | 0, _, _, _ => none
  | fuel + 1, acc, h, c =>
    if c.seesDocumentMarker || c.sees '#' then some (acc, h.broken, c)
    else do
      let (run, d) ← plainRun flow (c.rest.length + 1) [] c
      let (acc, h) := if run.isEmpty then (acc, h) else (run ++ h.fold.reverse ++ acc, {})
      if !(d.seesBlank || d.seesBreak) then some (acc, h.broken, d)
      else
        let (h, d) ← Held.collect
          (fun h c => h.broken && c.column < indent && c.sees '\t') (d.rest.length + 1) h d
        if !flow && d.column < indent then some (acc, h.broken, d)
        else plainFrom flow indent fuel acc h d

def readPlain (flow : Bool) (indent : Int) (c : Cursor) : Option (String × Bool × Cursor) :=
  (plainFrom flow indent (c.rest.length + 1) [] {} c).map fun (acc, broken, c) =>
    (.ofList acc.reverse, broken, c)

/-! ## Block scalars -/

inductive Chomping where
  | strip
  | clip
  | keep
  deriving DecidableEq

def chomping? (c : Cursor) : Option Chomping :=
  if c.sees '+' then some .keep else if c.sees '-' then some .strip else none

def increment? (c : Cursor) : Option Nat := (c.peek.filter Char.isDigit).map fun x => x.toNat - 48

structure BlockHeader where
  chomping : Chomping
  increment : Nat

def readBlockHeader (c : Cursor) : Option (BlockHeader × Cursor) := do
  let (chomp, incr, c) : Option Chomping × Option Nat × Cursor :=
    match chomping? c, increment? c with
    | some k, _ =>
      let c := c.skip
      match increment? c with
      | some n => (some k, some n, c.skip)
      | none => (some k, none, c)
    | none, some n =>
      let c := c.skip
      match chomping? c with
      | some k => (some k, some n, c.skip)
      | none => (none, some n, c)
    | none, none => (none, none, c)
  if incr = some 0 then none
  else
    let c := c.skipBlanks
    let c := if c.sees '#' then c.skipToBreak else c
    if c.atEnd || c.seesBreak then some (⟨chomp.getD .clip, incr.getD 0⟩, c.skipBreak) else none

/-- Indentation and empty lines. Without a known indentation (`indent = 0`) the deepest column
counts. -/
def blockBreaks (indent : Nat) : Nat → Nat → List Char → Cursor → Option (Nat × List Char × Cursor)
  | 0, _, _, _ => none
  | fuel + 1, deepest, acc, c =>
    let run := c.rest.takeWhile (· = ' ')
    let c := c.skipMany (if indent = 0 then run.length else min run.length (indent - c.column))
    let deepest := max deepest c.column
    if (indent = 0 || c.column < indent) && c.sees '\t' then none
    else if c.seesBreak then
      let (b, c) := c.readBreak
      blockBreaks indent fuel deepest (acc ++ b) c
    else some (deepest, acc, c)

structure BlockText where
  text : List Char := []
  leading : List Char := []
  trailing : List Char := []
  leadingBlank : Bool := false

def blockLines (literal : Bool) (indent : Nat) : Nat → BlockText → Cursor → Option (BlockText × Cursor)
  | 0, _, _ => none
  | fuel + 1, t, c =>
    if c.column == indent && !c.atEnd then do
      let blank := c.seesBlank
      let folded := !literal && t.leading = ['\n'] && !t.leadingBlank && !blank
      let lead := if folded then if t.trailing.isEmpty then [' '] else [] else t.leading
      let (line, c) := c.span (!isBreak ·)
      let (b, c) := c.readBreak
      let (_, more, c) ← blockBreaks indent (c.rest.length + 1) 0 [] c
      blockLines literal indent fuel ⟨t.text ++ lead ++ t.trailing ++ line, b, more, blank⟩ c
    else some (t, c)

def readBlock (literal : Bool) (parent : Int) (c : Cursor) : Option (String × Cursor) := do
  let (header, c) ← readBlockHeader c.skip
  let known := if header.increment = 0 then 0 else (max parent 0).toNat + header.increment
  let (deepest, trailing, c) ← blockBreaks known (c.rest.length + 1) 0 [] c
  let indent := if known = 0 then max deepest (max (parent + 1) 1).toNat else known
  let (t, c) ← blockLines literal indent (c.rest.length + 1) { trailing } c
  let tail := match header.chomping with
    | .strip => []
    | .clip => t.leading
    | .keep => t.leading ++ t.trailing
  some (.ofList (t.text ++ tail), c)

end Casework.Yaml
