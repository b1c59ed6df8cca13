import Casework.Argument
import Casework.Decimal.Binary64
import Casework.Text.Utf8

/-!
# What plain scalars mean

The words for null and the booleans, integers in four bases, and floats. Everything else is text,
and so is a decimal number with leading zeros.
-/

namespace Casework.Yaml

def isNullWord (s : String) : Bool := s = "~" || s = "null" || s = "Null" || s = "NULL"

def boolWord? (s : String) : Option Bool :=
  if s = "true" || s = "True" || s = "TRUE" then some true
  else if s = "false" || s = "False" || s = "FALSE" then some false
  else none

/-! ## Integers -/

def isSign (c : Char) : Bool := c = '+' || c = '-'

def dropSign : List Char → List Char
  | c :: cs => if isSign c then cs else c :: cs
  | [] => []

def hasLeadingZero (cs : List Char) : Bool :=
  match dropSign cs with
  | '0' :: d :: ds => (d :: ds).all Char.isDigit
  | _ => false

def digitIn? (base : Nat) (c : Char) : Option Nat :=
  let v := if c.isDigit then some (c.toNat - 48)
    else if 'a' ≤ c && c ≤ 'z' then some (c.toNat - 87)
    else if 'A' ≤ c && c ≤ 'Z' then some (c.toNat - 55)
    else none
  v.filter (· < base)

def digits? (base : Nat) (cs : List Char) : Option Nat :=
  if cs.isEmpty then none else cs.foldlM (fun n c => (digitIn? base c).map (n * base + ·)) 0

def baseOf? : List Char → Option (Nat × List Char)
  | '0' :: 'x' :: cs => some (16, cs)
  | '0' :: 'o' :: cs => some (8, cs)
  | '0' :: 'b' :: cs => some (2, cs)
  | _ => none

def naturalText? (cs : List Char) : Option Nat :=
  match baseOf? cs with
  | some (base, ds) => digits? base ds
  | none => if hasLeadingZero cs then none else digits? 10 cs

def natural? (s : String) : Option Nat :=
  match s.toList with
  | '+' :: cs => naturalText? cs
  | cs => naturalText? cs

def integer? (s : String) : Option Int :=
  match s.toList with
  | '-' :: cs => (naturalText? cs).map fun n => -(n : Int)
  | _ => (natural? s).map Int.ofNat

def fits64 (i : Int) : Bool := -(pow2 63) ≤ i && i < pow2 64

def fits128 (i : Int) : Bool := -(pow2 127) ≤ i && i < pow2 128

/-! ## Floats -/

def float? (s : String) : Option Binary64 :=
  if s = ".nan" || s = ".NaN" || s = ".NAN" then some .nan
  else
    let word (cs : List Char) : Bool :=
      cs = ".inf".toList || cs = ".Inf".toList || cs = ".INF".toList
    match s.toList with
    | '-' :: cs => if word cs then some (.infinity true) else finite ('-' :: cs)
    | '+' :: cs =>
      if word cs then some (.infinity false) else if (cs.head?.any isSign) then none else finite cs
    | cs => if word cs then some (.infinity false) else finite cs
where
  finite (cs : List Char) : Option Binary64 := (Binary64.read? cs).filter (·.isFinite)

/-! ## Values -/

/-- What an untagged plain scalar means; nothing if it is an integer that no value can hold. -/
def plainValue? (s : String) : Option Value :=
  if s.isEmpty || isNullWord s then some .null
  else
    match boolWord? s, integer? s with
    | some b, _ => some (.bool b)
    | none, some i =>
      if fits64 i then some (.int i)
      else if fits128 i then none
      else some (floatOrText s)
    | none, none => some (floatOrText s)
where
  floatOrText (s : String) : Value :=
    if hasLeadingZero s.toList then .str s
    else match float? s with
      | some x => .float x
      | none => .str s

def coreTag (name : String) : String := "tag:yaml.org,2002:" ++ name

def isLocalTag (tag : String) : Bool := tag.startsWith "!" && (Text.decode? (Text.ofOctets tag)).isSome

/-- What a scalar means: its tag decides if it is one of the core schema, any other full tag makes it
text, and a local tag is refused. A local tag that is no text does not count. -/
def scalarValue? (tag : Option String) (s : String) (plain : Bool) : Option Value :=
  match tag with
  | none => if plain then plainValue? s else some (.str s)
  | some t =>
    if isLocalTag t then none
    else if t.startsWith "!" then if plain then plainValue? s else some (.str s)
    else if t = coreTag "bool" then (boolWord? s).map .bool
    else if t = coreTag "int" then ((integer? s).filter fits64).map .int
    else if t = coreTag "float" then (float? s).map .float
    else if t = coreTag "null" then if isNullWord s then some .null else none
    else some (.str s)

end Casework.Yaml
