import Casework.Decimal.Binary64

/-!
# Shortest decimal text of a number

`Binary64.shortest` finds the fewest digits that read back as the same value, and of those the
nearest. `Layout` holds what is left to a format: where positional notation ends and how exponents
and the three odd values are spelt.
-/

namespace Casework

namespace Binary64

/-- A value with the two ends of the set of reals that round to it, over one denominator. -/
structure Interval where
  low : Nat
  value : Nat
  high : Nat
  den : Nat
  closed : Bool

def interval (x : Binary64) : Interval :=
  let m := x.significand
  let q := x.exponent
  let up := if 0 ≤ q then pow2 q.toNat else 1
  let den := if 0 ≤ q then 4 else 4 * pow2 (-q).toNat
  let below := if m = pow2 52 ∧ -1074 < q then 1 else 2
  ⟨(4 * m - below) * up, 4 * m * up, (4 * m + 2) * up, den, m % 2 = 0⟩

def digitCount (n : Nat) : Nat := (Nat.toDigits 10 n).length

def leadingExponent (num den : Nat) : Int :=
  let e : Int := digitCount num - digitCount den
  let atLeast := if 0 ≤ e then den * pow10 e.toNat ≤ num else den ≤ num * pow10 (-e).toNat
  if atLeast then e else e - 1

def Interval.holds (i : Interval) (c : Nat) (e : Int) : Bool :=
  let lift := if 0 ≤ e then c * pow10 e.toNat * i.den else c * i.den
  let unit := if 0 ≤ e then 1 else pow10 (-e).toNat
  if i.closed then i.low * unit ≤ lift && lift ≤ i.high * unit
  else i.low * unit < lift && lift < i.high * unit

def Interval.onGrid (i : Interval) (e : Int) : Option Nat :=
  let num := if 0 ≤ e then i.value else i.value * pow10 (-e).toNat
  let den := if 0 ≤ e then i.den * pow10 e.toNat else i.den
  let c := num / den
  let near := if 2 * (num % den) < den ∨ (2 * (num % den) = den ∧ c % 2 = 0) then c else c + 1
  let far := if near = c then c + 1 else c
  if i.holds near e then some near else if i.holds far e then some far else none

def shortestFrom (i : Interval) (lead : Int) : Nat → Nat → Nat × Int
  | _, 0 => (0, 0)
  | k, fuel + 1 =>
    let e := lead - k
    match i.onGrid e with
    | some c => if c % 10 = 0 then (c / 10, e + 1) else (c, e)
    | none => shortestFrom i lead (k + 1) fuel

/-- Digits `c` and exponent `e` with `c * 10 ^ e` the shortest decimal that reads back as the
magnitude of `x`, which is finite and not zero; seventeen digits always do. -/
def shortest (x : Binary64) : Nat × Int :=
  let i := x.interval
  shortestFrom i (leadingExponent i.value i.den) 0 18

end Binary64

structure Layout where
  least : Int
  bound : Int
  plus : String
  nan : String
  infinity : String

namespace Layout

def positional (digits : List Char) (e : Int) : String :=
  if 0 ≤ e then .ofList (digits ++ List.replicate e.toNat '0') ++ ".0"
  else
    let frac := (-e).toNat
    if frac < digits.length then
      .ofList (digits.take (digits.length - frac)) ++ "." ++ .ofList (digits.drop (digits.length - frac))
    else "0." ++ .ofList (List.replicate (frac - digits.length) '0' ++ digits)

def scientific (l : Layout) (digits : List Char) (e : Int) : String :=
  let lead := e + digits.length - 1
  let mantissa : String := match digits with
    | [] => ""
    | [d] => .ofList [d]
    | d :: ds => .ofList (d :: '.' :: ds)
  mantissa ++ "e" ++ (if 0 ≤ lead then l.plus else "") ++ toString lead

def magnitude (l : Layout) (x : Binary64) : String :=
  if x.isZero then "0.0"
  else
    let (c, e) := x.shortest
    let digits := Nat.toDigits 10 c
    let lead := e + digits.length - 1
    if l.least ≤ lead ∧ lead < l.bound then positional digits e else l.scientific digits e

def text (l : Layout) (x : Binary64) : String :=
  if x.isNaN then l.nan
  else (if x.isNegative then "-" else "") ++ if x.isFinite then l.magnitude x else l.infinity

end Layout

end Casework
