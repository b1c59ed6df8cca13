import Casework.Decimal.Binary64
import Casework.Host.Utility.Basic

/-!
# Cutting lines

Chosen bytes or fields of every line. What is chosen is a list of ranges, which are put in order and
joined where they meet.
-/

namespace Casework.Utility.Cut

open Text

structure Span where
  first : Nat
  last : Option Nat
  deriving DecidableEq, Repr

inductive ListFault where
  | badPosition (text : String)
  | badRange
  | fromOne
  | decreasing
  | noEndpoint
  | tooLarge (text : String)
  deriving DecidableEq, Repr

def ListFault.message (fields : Bool) : ListFault → String
  | badPosition t =>
    (if fields then "invalid field value " else "invalid byte/character position ") ++ marked t
  | badRange => if fields then "invalid field range" else "invalid byte or character range"
  | fromOne => (if fields then "fields" else "byte/character positions") ++ " are numbered from 1"
  | decreasing => "invalid decreasing range"
  | noEndpoint => "invalid range with no endpoint: -"
  | tooLarge t => (if fields then "field number " else "byte/character offset ") ++ marked t ++ " is too large"

/-! ## Lists of ranges -/

structure Pending where
  first : Option Nat := none
  dash : Bool := false
  last : Option Nat := none

def Pending.close (p : Pending) : Except ListFault Span :=
  match p.dash, p.first, p.last with
  | false, n, _ => if n.getD 0 = 0 then .error .fromOne else .ok ⟨n.getD 0, n⟩
  | true, none, none => .error .noEndpoint
  | true, n, none => .ok ⟨n.getD 1, none⟩
  | true, n, some m => if m < n.getD 1 then .error .decreasing else .ok ⟨n.getD 1, some m⟩

def digitsValue (ds : List Char) : Nat := ds.foldl (fun n d => n * 10 + (d.toNat - 48)) 0

def readSpans : Nat → Pending → List Char → Except ListFault (List Span)
  | _, p, [] => do return [← p.close]
  | skip + 1, p, _ :: cs => readSpans skip p cs
  | 0, p, c :: cs =>
    if c = '-' then
      if p.dash then .error .badRange
      else if p.first = some 0 then .error .fromOne
      else readSpans 0 { p with dash := true } cs
    else if c = ',' || c = ' ' || c = '\t' then do
      let s ← p.close
      return s :: (← readSpans 0 {} cs)
    else if c.isDigit then
      let ds := (c :: cs).takeWhile Char.isDigit
      let n := digitsValue ds
      if pow2 64 - 1 ≤ n then .error (.tooLarge (.ofList ds))
      else readSpans (ds.length - 1) (if p.dash then { p with last := some n } else { p with first := some n }) cs
    else .error (.badPosition (.ofList (c :: cs)))

def endsBefore (a : Option Nat) (n : Nat) : Bool := a.any (· < n)

def later (a b : Option Nat) : Option Nat := a.bind fun n => b.map (max n)

def join : List Span → List Span
  | [] => []
  | s :: ss =>
    match join ss with
    | [] => [s]
    | t :: ts => if endsBefore s.last t.first then s :: t :: ts else ⟨s.first, later s.last t.last⟩ :: ts

def gaps (n : Nat) : List Span → List Span
  | [] => [⟨n, none⟩]
  | s :: ss =>
    let here : List Span := if n < s.first then [⟨n, some (s.first - 1)⟩] else []
    match s.last with
    | none => here
    | some m => here ++ gaps (m + 1) ss

def spans (complement : Bool) (text : String) : Except ListFault (List Span) := do
  let ss := join ((← readSpans 0 {} text.toList).mergeSort fun a b => a.first ≤ b.first)
  return if complement then gaps 1 ss else ss

def Span.holds (n : Nat) (s : Span) : Bool := s.first ≤ n && !endsBefore s.last n

def holds (ss : List Span) (n : Nat) : Bool := ss.any (·.holds n)

/-! ## Options -/

structure Choice where
  bytes : Bool := false
  list : Option String := none
  delimiter : Option UInt8 := none
  between : Option Bytes := none
  onlyDelimited : Bool := false
  complement : Bool := false
  lineEnd : UInt8 := 10

def table : OptionTable where
  letters := [('b', .value), ('c', .value), ('d', .value), ('f', .value), ('n', .nothing), ('s', .nothing),
    ('z', .nothing)]
  words := [("bytes", 'b', .value), ("characters", 'c', .value), ("fields", 'f', .value),
    ("delimiter", 'd', .value), ("only-delimited", 's', .nothing), ("output-delimiter", 'O', .value),
    ("complement", 'C', .nothing), ("zero-terminated", 'z', .nothing), ("help", 'h', .nothing),
    ("version", 'V', .nothing)]

def Choice.set (c : Choice) (o : Char × String) : Except String Choice :=
  match o.1 with
  | 'b' | 'c' | 'f' =>
    if c.list.isSome then .error "only one list may be specified"
    else .ok { c with list := some o.2, bytes := o.1 ≠ 'f' }
  | 'd' =>
    match ofOctets o.2 with
    | [] => .ok { c with delimiter := some 0 }
    | [b] => .ok { c with delimiter := some b }
    | _ => .error "the delimiter must be a single character"
  | 'O' => .ok { c with between := some (if o.2.isEmpty then [0] else ofOctets o.2) }
  | 's' => .ok { c with onlyDelimited := true }
  | 'C' => .ok { c with complement := true }
  | 'z' => .ok { c with lineEnd := 0 }
  | _ => .ok c

def Choice.spans (c : Choice) : Except String (List Span) :=
  match c.list with
  | none => .error "you must specify a list of bytes, characters, or fields"
  | some l =>
    if c.bytes && c.delimiter.isSome then
      .error "an input delimiter may be specified only when operating on fields"
    else if c.bytes && c.onlyDelimited then
      .error "suppressing non-delimited lines makes sense\n\tonly when operating on fields"
    else (Cut.spans c.complement l).mapError (ListFault.message !c.bytes)

/-! ## Lines -/

def splitAt (sep : UInt8) : Bytes → List Bytes
  | [] => [[]]
  | b :: bs =>
    if b = sep then [] :: splitAt sep bs
    else
      match splitAt sep bs with
      | [] => [[b]]
      | s :: ss => (b :: s) :: ss

def linesOf (lineEnd : UInt8) (b : Bytes) : List Bytes :=
  let ls := splitAt lineEnd b
  if ls.getLast? = some [] then ls.dropLast else ls

/-- Bytes at chosen positions from `n` on. With `between`, it stands in front of every range but the first
of those that have shown a byte. -/
def chosenBytes (ss : List Span) (between : Option Bytes) (started : Bool) : Nat → Bytes → Bytes
  | _, [] => []
  | n, b :: bs =>
    if holds ss n then
      (match between with
        | some t => if started && ss.any (·.first = n) then t else []
        | none => []) ++ b :: chosenBytes ss between true (n + 1) bs
    else chosenBytes ss between started (n + 1) bs

def cutLine (c : Choice) (ss : List Span) (l : Bytes) : Option Bytes :=
  if c.bytes then some (chosenBytes ss c.between false 1 l)
  else
    let delimiter := c.delimiter.getD 9
    let fs := splitAt delimiter l
    if fs.length ≤ 1 then if c.onlyDelimited then none else some l
    else
      let kept := (fs.zipIdx 1).filterMap fun (f, n) => if holds ss n then some f else none
      some ((c.between.getD [delimiter]).intercalate kept)

def cutText (c : Choice) (ss : List Span) (b : Bytes) : Bytes :=
  if !c.bytes && c.delimiter.getD 9 = c.lineEnd then
    if b.isEmpty then []
    else
      let b := if b.getLast? = some c.lineEnd then b.dropLast else b
      ((cutLine c ss b).map (· ++ [c.lineEnd])).getD []
  else ((linesOf c.lineEnd b).filterMap (cutLine c ss)).flatMap (· ++ [c.lineEnd])

/-! ## The program -/

def gather (c : Choice) (ss : List Span) : Work → List String → Bytes × Work
  | w, [] => ([], w)
  | w, o :: os =>
    match w.contentOf o with
    | .error e => gather c ss (w.warn ((if o = "-" then "-" else bare o) ++ ": " ++ e.reason.1)) os
    | .ok (b, w) =>
      let (r, w) := gather c ss w os
      (cutText c ss b ++ r, w)

def choose (args : List String) : Except Stop (Choice × List Span × List String) := do
  let (c, operands) ← table.follow Choice.set {} args
  return (c, ← c.spans.mapError .misuse, operands)

def run (w : Work) (args : List String) : Work.End :=
  match choose args with
  | .error e => w.stop "OPTION... [FILE]..." e
  | .ok (c, ss, operands) =>
    let operands := if operands.isEmpty then ["-"] else operands
    let (b, w) := gather c ss w operands
    match w.finish b with
    | .code w =>
      .code (if operands.contains "-" && (w.channel? 0).isNone then w.warn "-: Bad file descriptor" else w)
    | e => e

end Casework.Utility.Cut
