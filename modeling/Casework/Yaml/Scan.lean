import Casework.Yaml.Property

/-!
# From text to tokens

The reader keeps the open indentations, and for every open flow collection the token that would
become a key if a colon followed it on the same line. Such a key is marked afterwards, before that
token.
-/

namespace Casework.Yaml

structure KeyCandidate where
  position : Nat
  index : Nat
  line : Nat
  column : Nat
  required : Bool

structure Scan where
  cursor : Cursor
  tokens : Array Token := #[]
  indent : Int := -1
  outer : List Int := []
  candidates : List (Option KeyCandidate) := [none]
  keyAllowed : Bool := true

namespace Scan

variable (s : Scan)

def inFlow : Bool := 1 < s.candidates.length

def emit (t : Token) : Scan := { s with tokens := s.tokens.push t }

def emitAt (n : Nat) (t : Token) : Scan := { s with tokens := s.tokens.insertIdx! n t }

def moved (c : Cursor) : Scan := { s with cursor := c }

def emitSkip (t : Token) : Scan := (s.emit t).moved s.cursor.skip

/-! ## Indentation -/

def close (column : Int) : List Int → Scan → Scan
  | outer, s =>
    if s.indent ≤ column then s
    else
      match outer with
      | [] => s
      | i :: outer => close column outer { (s.emit .blockEnd) with indent := i, outer }

def unroll (column : Int) : Scan := if s.inFlow then s else close column s.outer s

def roll (column : Nat) (position : Nat) (t : Token) : Scan :=
  if s.inFlow || (column : Int) ≤ s.indent then s
  else { (s.emitAt position t) with indent := column, outer := s.indent :: s.outer }

/-! ## Keys -/

/-- A candidate does not outlive its line, nor 1024 characters. -/
def expire (s : Scan) : Option Scan := do
  let candidates ← s.candidates.mapM fun k? =>
    match k? with
    | none => some none
    | some k =>
      if k.line < s.cursor.line || k.index + 1024 < s.cursor.index then
        if k.required then none else some none
      else some (some k)
  return { s with candidates }

def dropCandidate (s : Scan) : Option Scan :=
  match s.candidates with
  | some k :: ks => if k.required then none else some { s with candidates := none :: ks }
  | _ => some s

def saveCandidate (s : Scan) : Option Scan :=
  if s.keyAllowed then do
    let c := s.cursor
    let required := !s.inFlow && s.indent = c.column
    let t ← s.dropCandidate
    let k : KeyCandidate := ⟨s.tokens.size, c.index, c.line, c.column, required⟩
    return { t with candidates := k :: t.candidates.drop 1 }
  else some s

def allowKey (b : Bool) : Scan := { s with keyAllowed := b }

/-! ## Between tokens -/

def skipSpaceFrom : Nat → Scan → Scan
  | 0, s => s
  | fuel + 1, s =>
    let c := if s.cursor.column == 0 && s.cursor.sees '\ufeff' then s.cursor.skip else s.cursor
    let tabs := s.inFlow || !s.keyAllowed
    let c := (c.span fun x => x = ' ' || (tabs && x = '\t')).2
    let c := if c.sees '#' then c.skipToBreak else c
    if c.seesBreak then
      skipSpaceFrom fuel { s with cursor := c.skipBreak, keyAllowed := s.keyAllowed || !s.inFlow }
    else s.moved c

def skipSpace : Scan := skipSpaceFrom (s.cursor.rest.length + 1) s

/-! ## Tokens -/

def fetchDirective (s : Scan) : Option Scan := do
  let s ← (s.unroll (-1)).dropCandidate
  let (t, c) ← readDirective s.cursor
  return ((s.emit t).moved c).allowKey false

def fetchMarker (s : Scan) (t : Token) : Option Scan := do
  let s ← (s.unroll (-1)).dropCandidate
  return ((s.emit t).moved (s.cursor.skipMany 3)).allowKey false

def fetchFlowStart (s : Scan) (t : Token) : Option Scan := do
  let s ← s.saveCandidate
  return { (s.emitSkip t).allowKey true with candidates := none :: s.candidates }

def fetchFlowEnd (s : Scan) (t : Token) : Option Scan := do
  let s ← s.dropCandidate
  let candidates := if s.inFlow then s.candidates.drop 1 else s.candidates
  return { (s.emitSkip t).allowKey false with candidates }

def fetchFlowEntry (s : Scan) : Option Scan := do
  let s ← s.dropCandidate
  return (s.emitSkip .flowEntry).allowKey true

def beginBlock (s : Scan) (t : Token) : Option Scan :=
  if s.inFlow then some s
  else if s.keyAllowed then some (s.roll s.cursor.column s.tokens.size t)
  else none

def fetchBlockEntry (s : Scan) : Option Scan := do
  let s ← (← s.beginBlock .blockSequenceStart).dropCandidate
  return (s.emitSkip .blockEntry).allowKey true

def fetchKey (s : Scan) : Option Scan := do
  let s ← (← s.beginBlock .blockMappingStart).dropCandidate
  return (s.emitSkip .key).allowKey !s.inFlow

def fetchValue (s : Scan) : Option Scan :=
  match s.candidates with
  | some k :: ks =>
    let s := { (s.emitAt k.position .key) with candidates := none :: ks }
    some (((s.roll k.column k.position .blockMappingStart).emitSkip .value).allowKey false)
  | _ => do
    let s ← s.beginBlock .blockMappingStart
    return (s.emitSkip .value).allowKey !s.inFlow

def fetchContent (s : Scan) (read : Cursor → Option (Token × Cursor)) : Option Scan := do
  let s ← s.saveCandidate
  let (t, c) ← read s.cursor
  return ((s.emit t).moved c).allowKey false

def fetchName (s : Scan) (f : String → Token) : Option Scan :=
  s.fetchContent fun c => (readName c).map fun (n, c) => (f n, c)

def fetchQuoted (s : Scan) (single : Bool) : Option Scan :=
  s.fetchContent fun c => (readQuoted single c).map fun (t, c) =>
    (.scalar t (if single then .singleQuoted else .doubleQuoted), c)

def fetchBlockScalar (s : Scan) (literal : Bool) : Option Scan := do
  let s ← s.dropCandidate
  let (t, c) ← readBlock literal s.indent s.cursor
  return ((s.emit (.scalar t (if literal then .literal else .folded))).moved c).allowKey true

def fetchPlain (s : Scan) : Option Scan := do
  let s ← s.saveCandidate
  let (t, broken, c) ← readPlain s.inFlow (s.indent + 1) s.cursor
  return ((s.emit (.scalar t .plain)).moved c).allowKey broken

def startsPlain (s : Scan) (x : Char) : Bool :=
  let c := s.cursor
  !(isBlank x || "-?:,[]#&*!|>'\"%@".toList.contains x || x = '\x7b' || x = '\x7d' || x = '\x60') ||
    (x = '-' && !(c.peekAt 1).any isBlank) ||
    (!s.inFlow && (x = '?' || x = ':') && !c.blankOrEndAt 1)

def fetch (s : Scan) (x : Char) : Option Scan :=
  let c := s.cursor
  if c.column == 0 && x = '%' then s.fetchDirective
  else if c.seesMarker '-' then s.fetchMarker .documentStart
  else if c.seesMarker '.' then s.fetchMarker .documentEnd
  else
    match x with
    | '[' => s.fetchFlowStart .flowSequenceStart
    | '\x7b' => s.fetchFlowStart .flowMappingStart
    | ']' => s.fetchFlowEnd .flowSequenceEnd
    | '\x7d' => s.fetchFlowEnd .flowMappingEnd
    | ',' => s.fetchFlowEntry
    | '*' => s.fetchName .alias
    | '&' => s.fetchName .anchor
    | '!' => s.fetchContent (readTag s.inFlow)
    | '\'' => s.fetchQuoted true
    | '"' => s.fetchQuoted false
    | x =>
      if x = '-' && c.blankOrEndAt 1 then s.fetchBlockEntry
      else if x = '?' && (s.inFlow || c.blankOrEndAt 1) then s.fetchKey
      else if x = ':' && (s.inFlow || c.blankOrEndAt 1) then s.fetchValue
      else if x = '|' && !s.inFlow then s.fetchBlockScalar true
      else if x = '>' && !s.inFlow then s.fetchBlockScalar false
      else if s.startsPlain x then s.fetchPlain
      else none

def finish (s : Scan) : Option (Array Token) := do
  let s ← (s.unroll (-1)).dropCandidate
  return s.tokens

/-- Every token takes a character, so the length of the text bounds their number. -/
def run : Nat → Scan → Option (Array Token)
  | 0, _ => none
  | fuel + 1, s => do
    let s ← s.skipSpace.expire
    let s := s.unroll s.cursor.column
    match s.cursor.peek with
    | none => s.finish
    | some x => run fuel (← s.fetch x)

end Scan

def tokens? (text : String) : Option (List Token) :=
  let s := text.toList
  if s.all isAllowed then ((⟨.ofText s, #[], -1, [], [none], true⟩ : Scan).run (s.length + 1)).map (·.toList)
  else none

end Casework.Yaml
