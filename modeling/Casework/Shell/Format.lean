import Casework.Decimal.Places
import Casework.Shell.Arithmetic

/-!
# Formatted output of the shell

Escapes in the arguments of `echo` and in formats of `printf`, and the conversions of the latter. All
texts are octets.
-/

namespace Casework.Shell

/-! ## Escapes -/

def octalDigits (cs : List Char) : Nat × Nat :=
  let ds := (cs.take 3).takeWhile Arith.isOctalDigit
  (Arith.numberIn 8 ds, ds.length)

def namedEscape? (c : Char) : Option Char :=
  [('a', '\x07'), ('b', '\x08'), ('e', '\x1b'), ('f', '\x0c'), ('n', '\n'), ('r', '\r'), ('t', '\t'),
    ('v', '\x0b'), ('\\', '\\')].lookup c

/-- What a backslash and what follows stand for, and how many characters follow it. In an argument a zero
may stand in front of the octal digits. -/
def escape (argument : Bool) (cs : List Char) : Char × Nat :=
  match cs.head?.bind namedEscape? with
  | some c => (c, 1)
  | none =>
    let lead := if argument && cs.head? = some '0' && (cs.drop 1).head?.any Arith.isOctalDigit then 1 else 0
    let (v, n) := octalDigits (cs.drop lead)
    if n = 0 then ('\\', 0) else (Char.ofNat (v % 256), n + lead)

def unescapeFrom : Nat → List Char → List Char × Bool
  | _, [] => ([], false)
  | skip + 1, _ :: cs => unescapeFrom skip cs
  | 0, c :: cs =>
    if c = '\\' then
      if cs.head? = some 'c' then ([], true)
      else
        let (d, n) := escape true cs
        let (r, stop) := unescapeFrom n cs
        (d :: r, stop)
    else
      let (r, stop) := unescapeFrom 0 cs
      (c :: r, stop)

def unescape (s : String) : List Char × Bool :=
  if s.toList.contains '\\' then unescapeFrom 0 s.toList else (s.toList, false)

def echoText (args : List String) : String :=
  let (args, ending) := match args with
    | "-n" :: args => (args, "")
    | args => (args, "\n")
  let (cs, stop) := unescape (" ".intercalate args)
  if stop then .ofList cs else .ofList cs ++ ending

/-! ## Conversions -/

structure Spec where
  left : Bool := false
  plus : Bool := false
  space : Bool := false
  zero : Bool := false
  alternative : Bool := false
  width : Nat := 0
  precision : Option Nat := none
  widthGiven : Bool := false
  precisionGiven : Bool := false
  garbled : Bool := false

def Spec.flag (s : Spec) (c : Char) : Option Spec :=
  match c with
  | '-' => some { s with left := true }
  | '+' => some { s with plus := true }
  | ' ' => some { s with space := true }
  | '0' => some { s with zero := true }
  | '#' => some { s with alternative := true }
  | _ => none

def flagsFrom (s : Spec) : List Char → Spec × Nat
  | [] => (s, 0)
  | c :: cs =>
    match s.flag c with
    | some s => let (s, n) := flagsFrom s cs; (s, n + 1)
    | none => (s, 0)

structure Size where
  value : Nat := 0
  given : Bool := false
  garbled : Bool := false
  length : Nat

def sizeOf (cs : List Char) : Size :=
  if cs.head? = some '*' then { given := true, length := 1 }
  else
    let ds := cs.takeWhile fun c => c.isDigit || c = '*'
    { value := Arith.numberIn 10 (ds.filter Char.isDigit), garbled := ds.contains '*', length := ds.length }

def spec? (cs : List Char) : Option (Spec × Char × Nat) :=
  let (s, n) := flagsFrom {} cs
  let w := sizeOf (cs.drop n)
  let s := { s with width := w.value, widthGiven := w.given, garbled := w.garbled }
  let rest := cs.drop (n + w.length)
  let (s, k) : Spec × Nat :=
    if rest.head? = some '.' then
      let p := sizeOf (rest.drop 1)
      ({ s with precision := some p.value, precisionGiven := p.given, garbled := s.garbled || p.garbled },
        p.length + 1)
    else (s, 0)
  (rest.drop k).head?.map fun c => (s, c, n + w.length + k + 1)

def pad (s : Spec) (body : String) : String :=
  let fill : String := .ofList (List.replicate (s.width - body.length) ' ')
  if s.left then body ++ fill else fill ++ body

def padSigned (s : Spec) (zeros : Bool) (sign digits : String) : String :=
  let fill : String :=
    if zeros && s.zero && !s.left then .ofList (List.replicate (s.width - digits.length - sign.length) '0') else ""
  pad s (sign ++ fill ++ digits)

def signText (s : Spec) (negative : Bool) : String :=
  if negative then "-" else if s.plus then "+" else if s.space then " " else ""

/-! ### Integers -/

def digitsIn (base : Nat) (upper : Bool) (n : Nat) : String :=
  let ds := Nat.toDigits base n
  .ofList (if upper then ds.map Char.toUpper else ds)

def integerText (s : Spec) (sign lead : String) (base : Nat) (upper : Bool) (n : Nat) : String :=
  let ds := if n = 0 && s.precision = some 0 then "" else digitsIn base upper n
  let ds := match s.precision with
    | some p => .ofList (List.replicate (p - ds.length) '0') ++ ds
    | none => ds
  let ds := if base = 8 && s.alternative && ds.toList.head? ≠ some '0' then "0" ++ ds else ds
  padSigned s s.precision.isNone (sign ++ (if s.alternative && n ≠ 0 then lead else "")) ds

/-! ### Numbers with places -/

def pointed (s : Spec) (digits : String) (places : Nat) : String :=
  let ds := digits.toList
  let ds := List.replicate (places + 1 - ds.length) '0' ++ ds
  let whole : String := .ofList (ds.take (ds.length - places))
  if places = 0 then whole ++ (if s.alternative then "." else "")
  else whole ++ "." ++ .ofList (ds.drop (ds.length - places))

def fixedText (s : Spec) (places : Nat) (x : Binary64) : String :=
  pointed s (digitsIn 10 false (x.units places)) places

def exponentText (mark : String) (width : Nat) (e : Int) : String :=
  let ds := digitsIn 10 false e.natAbs
  mark ++ (if e < 0 then "-" else "+") ++ .ofList (List.replicate (width - ds.length) '0') ++ ds

def scientificText (s : Spec) (places : Nat) (x : Binary64) : String :=
  let (c, e) := x.leading places
  pointed s (digitsIn 10 false c) places ++ exponentText "e" 2 e

def trimPlaces (text : String) : String :=
  let cs := text.toList
  let (number, exponent) := (cs.takeWhile (· ≠ 'e'), cs.dropWhile (· ≠ 'e'))
  if number.contains '.' then
    let kept := (number.reverse.dropWhile (· = '0')).reverse
    .ofList ((if kept.getLast? = some '.' then kept.dropLast else kept) ++ exponent)
  else text

def generalText (s : Spec) (digits : Nat) (x : Binary64) : String :=
  let p := max digits 1
  let (_, e) := x.leading (p - 1)
  let text := if -4 ≤ e && e < p then fixedText s (p - 1 - e).toNat x else scientificText s (p - 1) x
  if s.alternative then text else trimPlaces text

def hexText (s : Spec) (places : Option Nat) (x : Binary64) : String :=
  let p := places.getD Binary64.fullHexPlaces
  let text := pointed s (digitsIn 16 false (x.hexUnits p)) p
  let text := if places.isNone && !s.alternative then trimHex text else text
  text ++ exponentText "p" 1 (if x.isZero then 0 else if x.magnitude < pow2 52 then -1022 else x.binaryLeading.2)
where
  trimHex (text : String) : String :=
    let kept := (text.toList.reverse.dropWhile (· = '0')).reverse
    .ofList (if kept.getLast? = some '.' then kept.dropLast else kept)

def numberText (s : Spec) (letter : Char) (x : Binary64) : String :=
  let upper (t : String) : String := if letter.isUpper then .ofList (t.toList.map Char.toUpper) else t
  let sign := signText s x.isNegative
  if !x.isFinite then padSigned s false sign (upper (if x.isNaN then "nan" else "inf"))
  else
    match letter.toLower with
    | 'f' => padSigned s true sign (fixedText s (s.precision.getD 6) x)
    | 'e' => padSigned s true sign (upper (scientificText s (s.precision.getD 6) x))
    | 'g' => padSigned s true sign (upper (generalText s (s.precision.getD 6) x))
    | _ => padSigned s true (sign ++ upper "0x") (upper (hexText s s.precision x))

/-! ## Arguments -/

inductive FormatFault where
  | notNumeric (text : String)
  | trailing (text : String)
  | outOfRange (text : String)
  | badDirective (text : String)
  | noLetter
  deriving DecidableEq, Repr

def FormatFault.message : FormatFault → String
  | notNumeric t => t ++ ": expected numeric value"
  | trailing t => t ++ ": not completely converted"
  | outOfRange t => t ++ ": Numerical result out of range"
  | badDirective t => "%" ++ t ++ ": invalid directive"
  | noLetter => "missing format character"

def FormatFault.isFatal : FormatFault → Bool
  | badDirective _ | noLetter => true
  | _ => false

def quotedNumber? (a : String) : Option Nat :=
  match a.toList with
  | q :: cs => if q = '\'' || q = '"' then some ((cs.head?.map Char.toNat).getD 0) else none
  | [] => none

def leftOver (a : String) (all out : Bool) (rest : List Char) : List FormatFault :=
  if !rest.isEmpty then [if all then .notNumeric a else .trailing a] else if out then [.outOfRange a] else []

def integerArg (signed : Bool) (a : String) : Int × List FormatFault :=
  match quotedNumber? a with
  | some n => (n, [])
  | none =>
    match Arith.leading? Arith.number a.toList with
    | none => (0, leftOver a true false a.toList)
    | some (i, rest) =>
      let top : Int := if signed then Arith.clamp i else pow2 64 - 1
      let out := if signed then top ≠ i else (pow2 64 : Int) ≤ i.natAbs
      (if out then top else i, leftOver a false out rest)

def numberArg (a : String) : Binary64 × List FormatFault :=
  match quotedNumber? a with
  | some n => (.ofNat n, [])
  | none =>
    match Binary64.readLongest? (a.toList.dropWhile Arith.isBlank) with
    | none => (.ofNat 0, leftOver a true false a.toList)
    | some (x, out, rest) => (x, leftOver a false out rest)

/-! ## Formats -/

structure Printed where
  text : List String := []
  rest : List String
  used : Bool := false
  stop : Bool := false
  faults : List FormatFault := []

namespace Printed

variable (p : Printed)

def fail (f : FormatFault) : Printed := { p with stop := true, faults := p.faults ++ [f] }

def add (t : String) : Printed := { p with text := t :: p.text }

def convert (s : Spec) (letter : Char) (written a : String) : Option (String × Bool × List FormatFault) :=
  let whole (f : Nat → Bool → String) (signed : Bool) : Option (String × Bool × List FormatFault) :=
    let (i, faults) := integerArg signed a
    some (if s.garbled then "%" ++ .ofList written.toList.dropLast ++ "l" ++ .singleton letter
      else f (if signed then i.natAbs else (i.emod (pow2 64)).toNat) (i < 0), false, faults)
  let plain (t : String) : String := if s.garbled then "%" ++ written else pad s t
  match letter with
  | 's' => some (plain (s.precision.elim a fun p => .ofList (a.toList.take p)), false, [])
  | 'b' =>
    let (cs, stop) := unescape a
    some (plain (.ofList (s.precision.elim cs cs.take)), stop, [])
  | 'c' => some (plain (a.toList.head?.elim "\x00" .singleton), false, [])
  | 'd' | 'i' => whole (fun n neg => integerText s (signText s neg) "" 10 false n) true
  | 'u' => whole (fun n _ => integerText s "" "" 10 false n) false
  | 'o' => whole (fun n _ => integerText s "" "" 8 false n) false
  | 'x' => whole (fun n _ => integerText s "" "0x" 16 false n) false
  | 'X' => whole (fun n _ => integerText s "" "0X" 16 true n) false
  | l =>
    if "aAeEfFgG".toList.contains l then
      let (x, faults) := numberArg a
      some (if s.garbled then "%" ++ written else numberText s l x, false, faults)
    else none

def takeNumber : Int × Printed :=
  let (n, faults) := integerArg true (p.rest.headD "")
  (n.bmod (pow2 32), { p with
    rest := p.rest.drop 1, used := p.used || !p.rest.isEmpty, faults := p.faults ++ faults })

def sized (s : Spec) : Spec × Printed :=
  let (s, p) :=
    if s.widthGiven then
      let (n, p) := p.takeNumber
      ({ s with width := n.natAbs, left := s.left || n < 0 }, p)
    else (s, p)
  if s.precisionGiven then
    let (n, p) := p.takeNumber
    ({ s with precision := if n < 0 then none else some n.toNat }, p)
  else (s, p)

end Printed

def formatFrom : Nat → List Char → Printed → Printed
  | _, [], p => p
  | skip + 1, _ :: cs, p => formatFrom skip cs p
  | 0, c :: cs, p =>
    if p.stop then p
    else if c = '\\' then
      let (d, n) := escape false cs
      formatFrom n cs (p.add (.singleton d))
    else if c = '%' then
      if cs.head? = some '%' then formatFrom 1 cs (p.add "%")
      else
        match spec? cs with
        | none => p.fail .noLetter
        | some (s, letter, n) =>
          let (s, p) := p.sized s
          let written : String := .ofList (cs.take n)
          match Printed.convert s letter written (p.rest.headD "") with
          | none => p.fail (.badDirective written)
          | some (t, stop, faults) =>
            formatFrom n cs { p.add t with
              rest := p.rest.drop 1
              used := p.used || !p.rest.isEmpty
              stop
              faults := p.faults ++ faults }
    else formatFrom 0 cs (p.add (.singleton c))

/-- The format over and over, as long as it takes up arguments; each pass takes one at least. -/
def formatAll : Nat → List Char → Printed → Printed
  | 0, _, p => p
  | fuel + 1, format, p =>
    let q := formatFrom 0 format { p with used := false }
    if q.stop || q.rest.isEmpty || !q.used then q else formatAll fuel format q

def formatted (format : String) (args : List String) : String × List FormatFault :=
  let p := formatAll (args.length + 1) format.toList { rest := args }
  ("".intercalate p.text.reverse, p.faults)

end Casework.Shell
