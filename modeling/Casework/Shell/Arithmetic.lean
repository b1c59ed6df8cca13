import Casework.Decimal.Binary64

/-!
# Arithmetic of the shell

Integers of 64 bits with the operators of the language C, variables, and assignments. An expression is
worked out while it is read, so assignments in front of an error are made. Where a value is not
needed, nothing is looked up or assigned.
-/

namespace Casework.Shell.Arith

/-! ## Numerals -/

def isBlank (c : Char) : Bool := c = ' ' || ('\t' ≤ c && c ≤ '\r')

def digitValue (c : Char) : Nat :=
  if c.isDigit then c.toNat - 48 else if 'a' ≤ c then c.toNat - 87 else c.toNat - 55

def isHexDigit (c : Char) : Bool := c.isDigit || ('a' ≤ c && c ≤ 'f') || ('A' ≤ c && c ≤ 'F')

def isOctalDigit (c : Char) : Bool := '0' ≤ c && c ≤ '7'

def isBinaryDigit (c : Char) : Bool := c = '0' || c = '1'

def numberIn (base : Nat) (cs : List Char) : Nat := cs.foldl (fun n c => n * base + digitValue c) 0

def takeNumber (base : Nat) (p : Char → Bool) (cs : List Char) : Nat × List Char :=
  (numberIn base (cs.takeWhile p), cs.dropWhile p)

def number (cs : List Char) : Nat × List Char :=
  match cs with
  | '0' :: x :: d :: rest =>
    if (x = 'x' || x = 'X') && isHexDigit d then takeNumber 16 isHexDigit (d :: rest)
    else if (x = 'b' || x = 'B') && isBinaryDigit d then takeNumber 2 isBinaryDigit (d :: rest)
    else takeNumber 8 isOctalDigit cs
  | '0' :: _ => takeNumber 8 isOctalDigit cs
  | cs => takeNumber 10 Char.isDigit cs

def clamp (i : Int) : Int := max (-(pow2 63 : Int)) (min i (pow2 63 - 1 : Int))

def leading? (numeral : List Char → Nat × List Char) (text : List Char) : Option (Int × List Char) :=
  let behind (sign : Int) (cs : List Char) : Option (Int × List Char) :=
    if cs.head?.any Char.isDigit then
      let (n, rest) := numeral cs
      some (sign * n, rest)
    else none
  match text.dropWhile isBlank with
  | '-' :: cs => behind (-1) cs
  | '+' :: cs => behind 1 cs
  | cs => behind 1 cs

def integer? (numeral : List Char → Nat × List Char) (text : List Char) : Option Int :=
  match leading? numeral text with
  | some (i, rest) => if rest.all isBlank && clamp i = i then some i else none
  | none => none

def value? (text : List Char) : Option Int := if text.all isBlank then some 0 else integer? number text

def decimal (cs : List Char) : Nat × List Char := takeNumber 10 Char.isDigit cs

def count? (text : String) : Option Nat :=
  (integer? decimal text.toList).bind fun i => if 0 ≤ i && i < pow2 31 then some i.toNat else none

/-! ## Tokens -/

inductive Token where
  | num (i : Int)
  | var (name : String)
  | op (s : String)
  | bad
  deriving DecidableEq, Repr

def operators : List String :=
  ["<<=", ">>=", "<<", ">>", "<=", ">=", "==", "!=", "&&", "||", "+=", "-=", "*=", "/=", "%=", "&=", "^=",
    "|=", "=", "<", ">", "+", "-", "*", "/", "%", "&", "|", "^", "!", "~", "?", ":", "(", ")"]

def isWordChar (c : Char) : Bool := c.isAlphanum || c = '_'

def tokensFrom : Nat → List Char → List Token
  | _, [] => []
  | skip + 1, _ :: cs => tokensFrom skip cs
  | 0, c :: cs =>
    if c = ' ' || c = '\t' || c = '\n' then tokensFrom 0 cs
    else if c.isDigit then
      let (n, rest) := number (c :: cs)
      .num (clamp n) :: tokensFrom (cs.length - rest.length) cs
    else if isWordChar c then
      let name := (c :: cs).takeWhile isWordChar
      .var (.ofList name) :: tokensFrom (name.length - 1) cs
    else
      match operators.find? fun o => o.toList.isPrefixOf (c :: cs) with
      | some o => .op o :: tokensFrom (o.length - 1) cs
      | none => [.bad]

/-! ## Operators -/

def wrap (i : Int) : Int := i.bmod (pow2 64)

def truth (b : Bool) : Int := if b then 1 else 0

def bits (i : Int) : Nat := (i.emod (pow2 64)).toNat

inductive Fault where
  | expecting (what : String)
  | divisionByZero
  | overflow
  | illegalNumber (value : String)
  | readOnly (name : String)
  deriving DecidableEq, Repr

def quotient (f : Int → Int → Int) (a b : Int) : Except Fault Int :=
  if b = 0 then .error .divisionByZero
  else if b = -1 ∧ a = -(pow2 63 : Int) then .error .overflow
  else .ok (f a b)

def apply (op : String) (a b : Int) : Except Fault Int :=
  match op with
  | "+" => .ok (wrap (a + b))
  | "-" => .ok (wrap (a - b))
  | "*" => .ok (wrap (a * b))
  | "/" => quotient Int.tdiv a b
  | "%" => quotient Int.tmod a b
  | "==" => .ok (truth (a = b))
  | "!=" => .ok (truth (a ≠ b))
  | "<" => .ok (truth (a < b))
  | "<=" => .ok (truth (a ≤ b))
  | ">" => .ok (truth (b < a))
  | ">=" => .ok (truth (b ≤ a))
  | "&" => .ok (wrap (bits a &&& bits b : Nat))
  | "|" => .ok (wrap (bits a ||| bits b : Nat))
  | "^" => .ok (wrap (bits a ^^^ bits b : Nat))
  | "<<" => .ok (wrap (bits a * pow2 (bits b % 64) : Nat))
  | ">>" => .ok (a.fdiv (pow2 (bits b % 64)))
  | _ => .ok 0

def rankOf? : Token → Option (String × Nat)
  | .op s =>
    ([("*", 0), ("/", 0), ("%", 0), ("+", 1), ("-", 1), ("<<", 2), (">>", 2), ("<", 3), ("<=", 3), (">", 3),
      (">=", 3), ("==", 4), ("!=", 4), ("&", 5), ("^", 6), ("|", 7)].lookup s).map (s, ·)
  | _ => none

def looseRank : Nat := 8

def assignOps : List (String × String) :=
  [("=", ""), ("+=", "+"), ("-=", "-"), ("*=", "*"), ("/=", "/"), ("%=", "%"), ("<<=", "<<"),
    (">>=", ">>"), ("&=", "&"), ("^=", "^"), ("|=", "|")]

/-! ## Evaluation -/

structure Scope where
  value : String → Except Fault Int
  isReadOnly : String → Bool

/-- The assignments made so far, the last first. -/
abbrev Eval := EStateM Fault (List (String × Int))

def lift {α : Type} (r : Except Fault α) : Eval α := fun s =>
  match r with
  | .ok a => .ok a s
  | .error e => .error e s

section
variable (v : Scope)

def look (name : String) : Eval Int := do
  match (← get).lookup name with
  | some i => return i
  | none => lift (v.value name)

def store (name : String) (i : Int) : Eval Int := do
  if v.isReadOnly name then throw (.readOnly name)
  modify ((name, i) :: ·)
  return i

abbrev Reads := List Token → Eval (Int × List Token)

mutual

/-- An assignment, or what else an expression may be. With `idle` its value is not needed. -/
def assignment : Nat → Bool → Reads
  | 0, _, _ => throw (.expecting "primary")
  | fuel + 1, idle, ts => do
    match ts with
    | .var n :: .op o :: rest =>
      match assignOps.lookup o with
      | none => conditional fuel idle ts
      | some op =>
        let (x, rest) ← assignment fuel idle rest
        if idle then return (x, rest)
        else if op = "" then return (← store v n x, rest)
        else return (← store v n (← lift (apply op (← look v n) x)), rest)
    | ts => conditional fuel idle ts

def conditional : Nat → Bool → Reads
  | 0, _, _ => throw (.expecting "primary")
  | fuel + 1, idle, ts => do
    let (a, ts) ← disjunction fuel idle ts
    match ts with
    | .op "?" :: ts =>
      let (b, ts) ← assignment fuel (idle || a = 0) ts
      match ts with
      | .op ":" :: ts =>
        let (c, ts) ← conditional fuel (idle || a ≠ 0) ts
        return (if a ≠ 0 then b else c, ts)
      | _ => throw (.expecting "':'")
    | ts => return (a, ts)

def disjunction : Nat → Bool → Reads
  | 0, _, _ => throw (.expecting "primary")
  | fuel + 1, idle, ts => do
    let (a, ts) ← conjunction fuel idle ts
    match ts with
    | .op "||" :: ts =>
      let (b, ts) ← disjunction fuel (idle || a ≠ 0) ts
      return (truth (a ≠ 0 || b ≠ 0), ts)
    | ts => return (a, ts)

def conjunction : Nat → Bool → Reads
  | 0, _, _ => throw (.expecting "primary")
  | fuel + 1, idle, ts => do
    let (a, ts) ← primary fuel idle ts
    let (a, ts) ← operation fuel idle looseRank a ts
    match ts with
    | .op "&&" :: ts =>
      let (b, ts) ← conjunction fuel (idle || a = 0) ts
      return (truth (a ≠ 0 && b ≠ 0), ts)
    | ts => return (a, ts)

def operation : Nat → Bool → Nat → Int → Reads
  | 0, _, _, _, _ => throw (.expecting "primary")
  | fuel + 1, idle, rank, a, ts => do
    match ts with
    | [] => return (a, ts)
    | t :: rest =>
      match rankOf? t with
      | none => return (a, ts)
      | some (op, r) =>
        if rank ≤ r then return (a, ts)
        else
          let (b, rest) ← primary fuel idle rest
          let (b, rest) ← operation fuel idle r b rest
          let a ← if idle then pure b else lift (apply op a b)
          operation fuel idle rank a rest

def primary : Nat → Bool → Reads
  | 0, _, _ => throw (.expecting "primary")
  | fuel + 1, idle, ts => do
    match ts with
    | .op "(" :: ts =>
      let (x, ts) ← assignment fuel idle ts
      match ts with
      | .op ")" :: ts => return (x, ts)
      | _ => throw (.expecting "')'")
    | .num i :: ts => return (i, ts)
    | .var n :: ts => return (← if idle then pure 0 else look v n, ts)
    | .op "+" :: ts => primary fuel idle ts
    | .op "-" :: ts =>
      let (x, ts) ← primary fuel idle ts
      return (wrap (-x), ts)
    | .op "!" :: ts =>
      let (x, ts) ← primary fuel idle ts
      return (truth (x = 0), ts)
    | .op "~" :: ts =>
      let (x, ts) ← primary fuel idle ts
      return (wrap (-x - 1), ts)
    | _ => throw (.expecting "primary")

end

def run (text : List Char) : Except Fault Int × List (String × Int) :=
  let ts := tokensFrom 0 text
  match (assignment v (10 * ts.length + 10) false ts) [] with
  | .ok (x, []) sets => (.ok x, sets.reverse)
  | .ok _ sets => (.error (.expecting "EOF"), sets.reverse)
  | .error e sets => (.error e, sets.reverse)

end

end Casework.Shell.Arith
