import Casework.Json.Basic

/-!
# Numbers in JSON text

A numeral is an optional sign, digits, an optional fraction and an optional exponent. Integers that
fit 64 bits, signed or not, stay integers. Every other numeral is a float: as many of its first
digits as fit 64 bits, scaled by a power of ten with one rounding for each step.
-/

namespace Casework.Json

def word64 : Nat := pow2 64 - 1

def digit? (c : Char) : Option Nat := if c.isDigit then some (c.toNat - 48) else none

/-- The digits read so far. `held` fits 64 bits, and `shift` is the power of ten it still needs;
once a digit did not fit, `full` digits only move the point. -/
structure Digits where
  held : Nat
  shift : Int
  full : Bool

def Digits.pushInteger (d : Digits) (k : Nat) : Digits :=
  if d.full || word64 < d.held * 10 + k then { d with shift := d.shift + 1, full := true }
  else { d with held := d.held * 10 + k }

def Digits.pushFraction (d : Digits) (k : Nat) : Digits :=
  if d.full || word64 < d.held * 10 + k then { d with full := true }
  else { d with held := d.held * 10 + k, shift := d.shift - 1 }

def powerOfTen (k : Nat) : Binary64 := .ofDecimal false 1 k

def scale (x : Binary64) (e : Int) : Option Binary64 :=
  if e < -308 then
    if x.isZero then some x else scale (x.div (powerOfTen 308)) (e + 308)
  else if e < 0 then some (x.div (powerOfTen (-e).toNat))
  else if e ≤ 308 then
    let y := x.mul (powerOfTen e.toNat)
    if y.isFinite then some y else none
  else if x.isZero then some x else none
termination_by (-e).toNat
decreasing_by omega

def floatOf (neg : Bool) (d : Digits) (e : Int) : Option Json :=
  (scale (.ofNat d.held) (d.shift + e)).map fun x => .float (if neg then x.neg else x)

def exponentOf (cs : List Char) : Nat := cs.foldl (fun n c => n * 10 + (c.toNat - 48)) 0

def limit32 : Nat := pow2 31 - 1

def clamp32 (e : Int) : Int := min (pow2 31 - 1) (max (-(pow2 31)) e)

def withExponent (neg : Bool) (d : Digits) (cs : List Char) : Option Json :=
  let (down, cs) := match cs with
    | '-' :: cs => (true, cs)
    | '+' :: cs => (false, cs)
    | cs => (false, cs)
  if cs.isEmpty || !cs.all Char.isDigit then none
  else
    let e := exponentOf cs
    if limit32 < e then
      if d.held ≠ 0 && !down then none else some (.float (.ofMagnitude neg 0))
    else
      floatOf neg { d with shift := clamp32 (d.shift + if down then -(e : Int) else e) } 0

def isExponentMark (c : Char) : Bool := c = 'e' || c = 'E'

def unsigned? (neg : Bool) (cs : List Char) : Option Json :=
  let whole := cs.takeWhile Char.isDigit
  let rest := cs.dropWhile Char.isDigit
  if whole.isEmpty || (whole.head? = some '0' && whole.length ≠ 1) then none
  else
    let d := (whole.filterMap digit?).foldl Digits.pushInteger ⟨0, 0, false⟩
    match rest with
    | [] =>
      if d.full then floatOf neg d 0
      else if !neg then some (.int d.held)
      else if d.held = 0 || pow2 63 < d.held then
        some (.float (Binary64.ofNat d.held).neg)
      else some (.int (-d.held))
    | '.' :: rest =>
      let frac := rest.takeWhile Char.isDigit
      let tail := rest.dropWhile Char.isDigit
      let d := (frac.filterMap digit?).foldl Digits.pushFraction { d with full := false }
      if frac.isEmpty then none
      else match tail with
        | [] => floatOf neg d 0
        | c :: tail => if isExponentMark c then withExponent neg d tail else none
    | c :: rest => if isExponentMark c then withExponent neg d rest else none

def number? : List Char → Option Json
  | '-' :: cs => unsigned? true cs
  | cs => unsigned? false cs

end Casework.Json
