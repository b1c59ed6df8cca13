import Casework.Json.Number

/-!
# Reading JSON text

The text is cut into tokens by a machine that reads one character at a time, and the tokens are read
by a machine whose stack holds the open arrays and objects. Fields are sorted by key, and the last
value of a repeated key stays.
-/

namespace Casework.Json

/-! ## Tokens

A numeral or a word is the longest run of characters that may stand in one, and is judged when the run
ends.
-/

inductive Token where
  | openArr | closeArr | openObj | closeObj | comma | colon
  | scalar (j : Json)
  deriving Inhabited, BEq

/-- Where the reader stands. A string in the making is held backwards; `unit` counts the hex digits
read of an escape, with the first half of a surrogate pair if there was one. -/
inductive Mode where
  | between
  | string (acc : List Char)
  | escape (acc : List Char)
  | unit (acc : List Char) (high : Option Nat) (count value : Nat)
  | pair (acc : List Char) (high : Nat)
  | pairEscape (acc : List Char) (high : Nat)
  | number (acc : List Char)
  | word (acc : List Char)

def isNumberChar (c : Char) : Bool :=
  c.isDigit || c = '-' || c = '+' || c = '.' || c = 'e' || c = 'E'

def word? : List Char → Option Json
  | ['n', 'u', 'l', 'l'] => some .null
  | ['t', 'r', 'u', 'e'] => some (.bool true)
  | ['f', 'a', 'l', 's', 'e'] => some (.bool false)
  | _ => none

def fresh (c : Char) : Option (List Token × Mode) :=
  match c with
  | ' ' | '\t' | '\n' | '\r' => some ([], .between)
  | '[' => some ([.openArr], .between)
  | ']' => some ([.closeArr], .between)
  | '\x7b' => some ([.openObj], .between)
  | '\x7d' => some ([.closeObj], .between)
  | ',' => some ([.comma], .between)
  | ':' => some ([.colon], .between)
  | '"' => some ([], .string [])
  | c =>
    if c = '-' || c.isDigit then some ([], .number [c])
    else if c.isLower then some ([], .word [c])
    else none

def hexValue? (c : Char) : Option Nat :=
  if c.isDigit then some (c.toNat - 48)
  else if 'a' ≤ c && c ≤ 'f' then some (c.toNat - 87)
  else if 'A' ≤ c && c ≤ 'F' then some (c.toNat - 55)
  else none

/-- A complete escape of four hex digits. Only a first half may and must be followed by a second. -/
def unitEnd (acc : List Char) (high : Option Nat) (u : Nat) : Option Mode :=
  let isHigh := 0xD800 ≤ u && u < 0xDC00
  let isLow := 0xDC00 ≤ u && u < 0xE000
  match high with
  | some h =>
    if isLow then some (.string (Char.ofNat (0x10000 + (h - 0xD800) * 0x400 + (u - 0xDC00)) :: acc))
    else none
  | none => if isHigh then some (.pair acc u)
    else if isLow then none
    else some (.string (Char.ofNat u :: acc))

def unescape? (c : Char) : Option Char :=
  match c with
  | '"' => some '"'
  | '\\' => some '\\'
  | '/' => some '/'
  | 'b' => some '\x08'
  | 'f' => some '\x0c'
  | 'n' => some '\n'
  | 'r' => some '\r'
  | 't' => some '\t'
  | _ => none

def Mode.step (c : Char) : Mode → Option (List Token × Mode)
  | .between => fresh c
  | .string acc =>
    if c = '"' then some ([.scalar (.str (.ofList acc.reverse))], .between)
    else if c = '\\' then some ([], .escape acc)
    else if c.toNat < 0x20 then none
    else some ([], .string (c :: acc))
  | .escape acc =>
    if c = 'u' then some ([], .unit acc none 0 0)
    else (unescape? c).map fun d => ([], .string (d :: acc))
  | .unit acc high count value => do
    let v := value * 16 + (← hexValue? c)
    if count < 3 then some ([], .unit acc high (count + 1) v)
    else (unitEnd acc high v).map fun m => ([], m)
  | .pair acc high => if c = '\\' then some ([], .pairEscape acc high) else none
  | .pairEscape acc high => if c = 'u' then some ([], .unit acc (some high) 0 0) else none
  | .number acc =>
    if isNumberChar c then some ([], .number (c :: acc))
    else do
      let j ← number? acc.reverse
      let (ts, m) ← fresh c
      some (.scalar j :: ts, m)
  | .word acc =>
    if c.isLower then some ([], .word (c :: acc))
    else do
      let j ← word? acc.reverse
      let (ts, m) ← fresh c
      some (.scalar j :: ts, m)

def Mode.finish : Mode → Option (List Token)
  | .between => some []
  | .number acc => (number? acc.reverse).map fun j => [.scalar j]
  | .word acc => (word? acc.reverse).map fun j => [.scalar j]
  | _ => none

def tokensFrom (m : Mode) : List Char → Option (List Token)
  | [] => m.finish
  | c :: cs => do
    let (ts, m) ← m.step c
    return ts ++ (← tokensFrom m cs)

def tokens? (s : List Char) : Option (List Token) := tokensFrom .between s

/-! ## Values

At most `depthLimit` arrays and objects may be open at once.
-/

def depthLimit : Nat := 127

/-- An open array with its elements backwards, or an open object with the key in hand. -/
inductive Frame where
  | arr (done : List Json)
  | obj (done : List (String × Json)) (key : String)

inductive Expect where
  | value (first : Bool)
  | key (done : List (String × Json)) (first : Bool)
  | colon (done : List (String × Json)) (key : String)
  | after (j : Json)

def openValue (stack : List Frame) : Token → Option (Expect × List Frame)
  | .scalar j => some (.after j, stack)
  | .openArr => if stack.length < depthLimit then some (.value true, .arr [] :: stack) else none
  | .openObj => if stack.length < depthLimit then some (.key [] true, stack) else none
  | _ => none

def Expect.step (t : Token) : Expect → List Frame → Option (Expect × List Frame)
  | .value true, .arr done :: stack =>
    if t == .closeArr then some (.after (.arr done.reverse), stack)
    else openValue (.arr done :: stack) t
  | .value _, stack => openValue stack t
  | .key done first, stack =>
    match t with
    | .scalar (.str k) => some (.colon done k, stack)
    | .closeObj => if first then some (.after (.obj done), stack) else none
    | _ => none
  | .colon done k, stack => if t == .colon then some (.value false, .obj done k :: stack) else none
  | .after j, .arr done :: stack =>
    match t with
    | .comma => some (.value false, .arr (j :: done) :: stack)
    | .closeArr => some (.after (.arr (j :: done).reverse), stack)
    | _ => none
  | .after j, .obj done k :: stack =>
    match t with
    | .comma => some (.key (putField k j done) false, stack)
    | .closeObj => some (.after (.obj (putField k j done)), stack)
    | _ => none
  | .after _, [] => none

def ofTokensFrom (e : Expect) (stack : List Frame) : List Token → Option Json
  | [] => match e, stack with
    | .after j, [] => some j
    | _, _ => none
  | t :: ts => do
    let (e, stack) ← e.step t stack
    ofTokensFrom e stack ts

def ofTokens? (ts : List Token) : Option Json := ofTokensFrom (.value false) [] ts

def read? (s : List Char) : Option Json := do ofTokens? (← tokens? s)

def parse? (s : String) : Option Json := read? s.toList

end Casework.Json
