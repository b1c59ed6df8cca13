import Casework.Yaml.Cursor
import Casework.Yaml.Scalar

/-!
# Directives, anchors and tags

The tokens that are not content. A tag is written with a handle, which a directive may have defined,
or in full between angle brackets. Its bytes may be escaped, so a tag is a text of octets.
-/

namespace Casework.Yaml

/-! ## Anchors -/

def endsName (c : Cursor) : Bool :=
  c.blankOrEndAt 0 || c.peek.any fun x => "?:,]%@".toList.contains x || x = '\x7d' || x = '\x60'

def readName (c : Cursor) : Option (String × Cursor) :=
  let (name, c) := c.skip.span isWordChar
  if name.isEmpty || !endsName c then none else some (.ofList name, c)

/-! ## Tags -/

def readHandle (c : Cursor) : Option (List Char × Cursor) :=
  if c.sees '!' then
    let (name, d) := c.skip.span isWordChar
    if d.sees '!' then some ('!' :: name ++ ['!'], d.skip) else some ('!' :: name, d)
  else none

def isUriChar (verbatim : Bool) (x : Char) : Bool :=
  isWordChar x || ";/?:@&=+$.%!~*'()".toList.contains x ||
    (verbatim && (x = ',' || x = '[' || x = ']'))

def bytesBehind? (b : Nat) : Option Nat :=
  if b < 0x80 then some 0
  else if b / 32 = 6 then some 1
  else if b / 16 = 14 then some 2
  else if b / 8 = 30 then some 3
  else none

def escapedByte? (c : Cursor) : Option (Nat × Cursor) :=
  match c.rest with
  | '%' :: a :: b :: _ =>
    match hexValue? a, hexValue? b with
    | some x, some y => some (x * 16 + y, c.skipMany 3)
    | _, _ => none
  | _ => none

def escapedTail : Nat → Cursor → Option (List Char × Cursor)
  | 0, c => some ([], c)
  | n + 1, c => do
    let (b, c) ← escapedByte? c
    if b / 64 = 2 then
      let (bs, c) ← escapedTail n c
      return (Char.ofNat b :: bs, c)
    else none

/-- As many escaped bytes as the first one asks for. They need not make a character. -/
def readUriEscape (c : Cursor) : Option (List Char × Cursor) := do
  let (b, c) ← escapedByte? c
  let (bs, c) ← escapedTail (← bytesBehind? b) c
  return (Char.ofNat b :: bs, c)

def uriFrom (verbatim : Bool) : Nat → List Char → Cursor → Option (List Char × Cursor)
  | 0, _, _ => none
  | fuel + 1, acc, c =>
    match c.peek with
    | none => some (acc.reverse, c)
    | some x =>
      if !isUriChar verbatim x then some (acc.reverse, c)
      else if x = '%' then
        match readUriEscape c with
        | some (ys, c) => uriFrom verbatim fuel (ys.reverse ++ acc) c
        | none => none
      else uriFrom verbatim fuel (x :: acc) c.skip

def readUri (verbatim : Bool) (c : Cursor) : Option (List Char × Cursor) :=
  uriFrom verbatim (c.rest.length + 1) [] c

def uriText (cs : List Char) : String := .ofList (cs.takeWhile (· ≠ '\x00'))

def isFullHandle (h : List Char) : Bool := 1 < h.length && h.getLast? == some '!'

def readTagParts (c : Cursor) : Option (String × String × Cursor) :=
  if c.peekAt 1 == some '<' then do
    let (uri, c) ← readUri true (c.skipMany 2)
    if uri.isEmpty || !c.sees '>' then none else some ("", uriText uri, c.skip)
  else do
    let (handle, c) ← readHandle c
    let (uri, c) ← readUri false c
    if isFullHandle handle then if uri.isEmpty then none else some (.ofList handle, uriText uri, c)
    else
      match uriText (handle.drop 1 ++ uri) with
      | "" => some ("", "!", c)
      | suffix => some ("!", suffix, c)

def readTag (flow : Bool) (c : Cursor) : Option (Token × Cursor) := do
  let (handle, suffix, c) ← readTagParts c
  if c.blankOrEndAt 0 || (flow && c.sees ',') then
    some (.tag handle suffix, c)
  else none

/-! ## Directives -/

def readVersionNumber (c : Cursor) : Option (Nat × Cursor) :=
  let (digits, c) := c.span Char.isDigit
  if digits.isEmpty || 9 < digits.length then none
  else some (digits.foldl (fun n d => n * 10 + (d.toNat - 48)) 0, c)

def readVersion (c : Cursor) : Option (Token × Cursor) := do
  let (major, c) ← readVersionNumber c.skipBlanks
  if !c.sees '.' then none
  else
    let (minor, c) ← readVersionNumber c.skip
    return (.versionDirective major minor, c)

def readTagDirective (c : Cursor) : Option (Token × Cursor) := do
  let (handle, c) ← readHandle c.skipBlanks
  if (handle ≠ ['!'] && !isFullHandle handle) || !c.seesBlank then none
  else
    let (uri, c) ← readUri true c.skipBlanks
    if uri.isEmpty || !c.blankOrEndAt 0 then none
    else some (.tagDirective (.ofList handle) (uriText uri), c)

def readDirective (c : Cursor) : Option (Token × Cursor) := do
  let (name, c) := c.skip.span isWordChar
  if !c.blankOrEndAt 0 then none
  else
    let (t, c) ← match String.ofList name with
      | "YAML" => readVersion c
      | "TAG" => readTagDirective c
      | _ => none
    let c := c.skipBlanks
    let c := if c.sees '#' then c.skipToBreak else c
    if c.atEnd || c.seesBreak then some (t, c.skipBreak) else none

end Casework.Yaml
