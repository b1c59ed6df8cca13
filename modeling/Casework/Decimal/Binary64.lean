/-!
# Binary floating point of 64 bits

A value is its bits. A finite one is `± m * 2 ^ q` for natural `m < 2 ^ 53` and `-1074 ≤ q`;
`nearest` is the rounding of a quotient to that form, ties to even, and every operation is stated
by it.
-/

namespace Casework

/-! ## Powers -/

def pow2 (n : Nat) : Nat := Nat.pow 2 n

def pow10 (n : Nat) : Nat := Nat.pow 10 n

theorem pow2_pos (n : Nat) : 0 < pow2 n := Nat.pow_pos (by decide)

/-! ## Values -/

structure Binary64 where
  bits : UInt64
  deriving DecidableEq, Repr, Inhabited

namespace Binary64

def isNegative (x : Binary64) : Bool := x.bits ≥ 0x8000000000000000

def magnitude (x : Binary64) : Nat := x.bits.toNat % pow2 63

def infinityBits : Nat := 0x7FF0000000000000

def isFinite (x : Binary64) : Bool := x.magnitude < infinityBits

def isNaN (x : Binary64) : Bool := infinityBits < x.magnitude

def isZero (x : Binary64) : Bool := x.magnitude = 0

def ofMagnitude (neg : Bool) (b : Nat) : Binary64 := ⟨.ofNat (if neg then b + pow2 63 else b)⟩

def infinity (neg : Bool) : Binary64 := ofMagnitude neg infinityBits

def nan : Binary64 := ⟨0x7FF8000000000000⟩

def neg (x : Binary64) : Binary64 := ofMagnitude (!x.isNegative) x.magnitude

def significand (x : Binary64) : Nat :=
  if x.magnitude < pow2 52 then x.magnitude else x.magnitude % pow2 52 + pow2 52

def exponent (x : Binary64) : Int :=
  if x.magnitude < pow2 52 then -1074 else (x.magnitude / pow2 52 : Nat) - 1075

/-- The same number, where zeros are one number and all NaNs are taken as one. -/
def same (x y : Binary64) : Bool :=
  (x.isNaN && y.isNaN) || (x.isZero && y.isZero) || (x == y && !x.isNaN)

/-! ## Rounding -/

def roundHalfEven (num den : Nat) : Nat :=
  let q := num / den
  let r := num % den
  if 2 * r < den then q else if den < 2 * r then q + 1 else q + q % 2

def scaled (num den : Nat) (q : Int) : Nat × Nat :=
  if 0 ≤ q then (num, den * pow2 q.toNat) else (num * pow2 (-q).toNat, den)

def scaleOf (num den : Nat) : Int :=
  let q : Int := num.log2 - den.log2 - 52
  let (n, d) := scaled num den q
  max (if n < d * pow2 52 then q - 1 else q) (-1074)

def nearest (num den : Nat) : Nat :=
  if num = 0 then 0
  else
    let q := scaleOf num den
    let (n, d) := scaled num den q
    min infinityBits ((q + 1074).toNat * pow2 52 + roundHalfEven n d)

def ofNat (n : Nat) : Binary64 := ofMagnitude false (nearest n 1)

/-- `± m * 10 ^ e`, rounded once. The cut-offs are far outside the range of the format. -/
def ofDecimal (neg : Bool) (m : Nat) (e : Int) : Binary64 :=
  let digits : Int := (Nat.toDigits 10 m).length
  ofMagnitude neg <|
    if m = 0 then 0
    else if digits + e > 400 then infinityBits
    else if digits + e < -400 then 0
    else if 0 ≤ e then nearest (m * pow10 e.toNat) 1 else nearest m (pow10 (-e).toNat)

def mul (x y : Binary64) : Binary64 :=
  let (n, d) := scaled (x.significand * y.significand) 1 (-(x.exponent + y.exponent))
  ofMagnitude (x.isNegative != y.isNegative) (nearest n d)

def div (x y : Binary64) : Binary64 :=
  let (n, d) := scaled x.significand y.significand (y.exponent - x.exponent)
  ofMagnitude (x.isNegative != y.isNegative) (nearest n d)

end Binary64

end Casework

namespace Casework.Binary64

/-! ## Reading decimal numerals

An optional sign, digits with at most one point among or around them, and an optional exponent. The
value is rounded once.
-/

def natOf (cs : List Char) : Nat := cs.foldl (fun n c => n * 10 + (c.toNat - 48)) 0

def signed : List Char → Bool × List Char
  | '-' :: cs => (true, cs)
  | '+' :: cs => (false, cs)
  | cs => (false, cs)

def exponent? : List Char → Option Int
  | [] => some 0
  | c :: cs =>
    if c = 'e' || c = 'E' then
      let (neg, ds) := signed cs
      if ds.isEmpty || !ds.all Char.isDigit then none
      else some (if neg then -(natOf ds : Int) else natOf ds)
    else none

def read? (cs : List Char) : Option Binary64 :=
  let (neg, cs) := signed cs
  let whole := cs.takeWhile Char.isDigit
  let rest := cs.dropWhile Char.isDigit
  let (frac, tail) := match rest with
    | '.' :: rest => (rest.takeWhile Char.isDigit, rest.dropWhile Char.isDigit)
    | rest => ([], rest)
  if whole.isEmpty && frac.isEmpty then none
  else (exponent? tail).map fun e => ofDecimal neg (natOf (whole ++ frac)) (e - frac.length)

end Casework.Binary64
