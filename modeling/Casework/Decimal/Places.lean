import Casework.Decimal.Shortest

/-!
# Numbers with so many places

The digits of a number of 64 bits rounded to a given number of places, ties to even: behind the point,
behind the first digit, or behind the point in base sixteen. Values are taken as exact.
-/

namespace Casework.Binary64

def ratio (x : Binary64) : Nat × Nat := scaled x.significand 1 (-x.exponent)

def units (x : Binary64) (places : Nat) : Nat :=
  let (n, d) := x.ratio
  roundHalfEven (n * pow10 places) d

def leading (x : Binary64) (places : Nat) : Nat × Int :=
  if x.isZero then (0, 0)
  else
    let (n, d) := x.ratio
    let e := leadingExponent n d
    let shift : Int := places - e
    let c := if 0 ≤ shift then roundHalfEven (n * pow10 shift.toNat) d else roundHalfEven n (d * pow10 (-shift).toNat)
    if c = pow10 (places + 1) then (pow10 places, e + 1) else (c, e)

def binaryLeading (x : Binary64) : Nat × Int := if x.isZero then (0, 0) else (x.significand, x.exponent + 52)

def fullHexPlaces : Nat := 13

def hexUnits (x : Binary64) (places : Nat) : Nat :=
  let c := x.binaryLeading.1
  if fullHexPlaces ≤ places then c * pow2 (4 * (places - fullHexPlaces))
  else roundHalfEven c (pow2 (4 * (fullHexPlaces - places)))

/-! ## Reading -/

/-- A numeral at the beginning of a text in base `base`, with at most one point: its digits as a number, how
many of them stand behind the point, and the rest. -/
def mantissa? (base : Nat) (digit? : Char → Option Nat) (cs : List Char) : Option (Nat × Nat × List Char) :=
  let isDigit (c : Char) : Bool := (digit? c).isSome
  let value (ds : List Char) : Nat := ds.foldl (fun n c => n * base + (digit? c).getD 0) 0
  let whole := cs.takeWhile isDigit
  let (frac, rest) := match cs.dropWhile isDigit with
    | '.' :: rest => (rest.takeWhile isDigit, rest.dropWhile isDigit)
    | rest => ([], rest)
  if whole.isEmpty && frac.isEmpty then none else some (value (whole ++ frac), frac.length, rest)

def exponentAt (mark : Char) (cs : List Char) : Int × List Char :=
  match cs with
  | c :: rest =>
    if c = mark || c = mark.toUpper then
      let (neg, ds) := signed rest
      let digits := ds.takeWhile Char.isDigit
      if digits.isEmpty then (0, cs)
      else (if neg then -(natOf digits : Int) else natOf digits, ds.dropWhile Char.isDigit)
    else (0, cs)
  | [] => (0, [])
where
  signed : List Char → Bool × List Char
    | '-' :: cs => (true, cs)
    | '+' :: cs => (false, cs)
    | cs => (false, cs)
  natOf (cs : List Char) : Nat := cs.foldl (fun n c => n * 10 + (c.toNat - 48)) 0

def decimalDigit? (c : Char) : Option Nat := if c.isDigit then some (c.toNat - 48) else none

def hexDigit? (c : Char) : Option Nat :=
  let c := c.toLower
  if c.isDigit then some (c.toNat - 48) else if 'a' ≤ c && c ≤ 'f' then some (c.toNat - 87) else none

def ranged (neg exact : Bool) (m magnitude : Nat) : Binary64 × Bool :=
  (ofMagnitude neg magnitude, m ≠ 0 && (magnitude = infinityBits || (magnitude < pow2 52 && !exact)))

def ofBinary (neg : Bool) (m : Nat) (e : Int) : Binary64 × Bool :=
  let top : Int := m.log2 + e
  if m = 0 then ranged neg true m 0
  else if top > 2000 then ranged neg false m infinityBits
  else if top < -2000 then ranged neg false m 0
  else
    let (n, d) := scaled m 1 (-e)
    ranged neg (n * pow2 1074 % d = 0) m (nearest n d)

def ofDecimalRanged (neg : Bool) (m : Nat) (e : Int) : Binary64 × Bool :=
  let exact := if 0 ≤ e then true
    else if e < -1500 then m = 0
    else m * pow2 1074 % pow10 (-e).toNat = 0
  ranged neg exact m (ofDecimal false m e).magnitude

/-- The longest number at the beginning of a text: a numeral in base ten or, behind its mark, in base
sixteen, or one of the odd values by its name. With it go whether it is out of range, and the rest. -/
def readLongest? (cs : List Char) : Option (Binary64 × Bool × List Char) :=
  let (neg, cs) := exponentAt.signed cs
  let lower := cs.map Char.toLower
  let named (name : String) : Bool := name.toList.isPrefixOf lower
  if named "infinity" then some (infinity neg, false, cs.drop 8)
  else if named "inf" then some (infinity neg, false, cs.drop 3)
  else if named "nan" then
    let rest := cs.drop 3
    let isWord (c : Char) : Bool := c.isAlphanum || c = '_'
    let tail := match rest with
      | '(' :: w => match w.dropWhile isWord with
        | ')' :: t => t
        | _ => rest
      | _ => rest
    some (if neg then nan.neg else nan, false, tail)
  else
    let hex? := match cs with
      | '0' :: x :: rest => if x = 'x' || x = 'X' then mantissa? 16 hexDigit? rest else none
      | _ => none
    match hex? with
    | some (m, places, rest) =>
      let (e, rest) := exponentAt 'p' rest
      let (x, out) := ofBinary neg m (e - 4 * places)
      some (x, out, rest)
    | none =>
      (mantissa? 10 decimalDigit? cs).map fun (m, places, rest) =>
        let (e, rest) := exponentAt 'e' rest
        let (x, out) := ofDecimalRanged neg m (e - places)
        (x, out, rest)

end Casework.Binary64
