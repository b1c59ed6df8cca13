import Casework.Decimal.Shortest

/-!
# JSON values and their text

The compact text has no white space; the pretty text puts every element on a line of its own,
indented by two spaces a level. A number that is not finite is written as `null`.
-/

namespace Casework

inductive Json where
  | null
  | bool (b : Bool)
  | int (i : Int)
  | float (x : Binary64)
  | str (s : String)
  | arr (elements : List Json)
  | obj (fields : List (String × Json))
  deriving Inhabited, Repr, BEq

namespace Json

def numberLayout : Layout := ⟨-5, 16, "+", "null", "null"⟩

def escapeChar (c : Char) : List Char :=
  match c with
  | '"' => ['\\', '"']
  | '\\' => ['\\', '\\']
  | '\x08' => ['\\', 'b']
  | '\x0c' => ['\\', 'f']
  | '\n' => ['\\', 'n']
  | '\r' => ['\\', 'r']
  | '\t' => ['\\', 't']
  | c =>
    if c.toNat < 0x20 then
      ['\\', 'u', '0', '0', Nat.digitChar (c.toNat / 16), Nat.digitChar (c.toNat % 16)]
    else [c]

def quote (s : String) : List Char := '"' :: s.toList.flatMap escapeChar ++ ['"']

def floatText (x : Binary64) : List Char :=
  if x.isFinite then (numberLayout.text x).toList else "null".toList

def scalarText : Json → List Char
  | .bool true => "true".toList
  | .bool false => "false".toList
  | .int i => (toString i).toList
  | .float x => floatText x
  | .str s => quote s
  | _ => "null".toList

mutual

def compactChars : Json → List Char
  | .arr es => '[' :: compactElements es ++ [']']
  | .obj fs => '\x7b' :: compactFields fs ++ ['\x7d']
  | j => scalarText j

def compactElements : List Json → List Char
  | [] => []
  | [e] => compactChars e
  | e :: es => compactChars e ++ ',' :: compactElements es

def compactFields : List (String × Json) → List Char
  | [] => []
  | [(k, v)] => quote k ++ ':' :: compactChars v
  | (k, v) :: fs => quote k ++ ':' :: compactChars v ++ ',' :: compactFields fs

end

def compact (j : Json) : String := .ofList (compactChars j)

/-! ## Pretty text -/

def newline (level : Nat) : List Char := '\n' :: List.replicate (2 * level) ' '

mutual

def prettyChars (level : Nat) : Json → List Char
  | .arr [] => ['[', ']']
  | .arr es => '[' :: prettyElements (level + 1) es ++ newline level ++ [']']
  | .obj [] => ['\x7b', '\x7d']
  | .obj fs => '\x7b' :: prettyFields (level + 1) fs ++ newline level ++ ['\x7d']
  | j => scalarText j

def prettyElements (level : Nat) : List Json → List Char
  | [] => []
  | [e] => newline level ++ prettyChars level e
  | e :: es => newline level ++ prettyChars level e ++ ',' :: prettyElements level es

def prettyFields (level : Nat) : List (String × Json) → List Char
  | [] => []
  | [(k, v)] => newline level ++ quote k ++ ':' :: ' ' :: prettyChars level v
  | (k, v) :: fs =>
    newline level ++ quote k ++ ':' :: ' ' :: prettyChars level v ++ ',' :: prettyFields level fs

end

def pretty (j : Json) : String := .ofList (prettyChars 0 j)

/-! ## Fields -/

/-- Fields in increasing order of their keys; of several for one key the last stays. -/
def putField (k : String) (v : Json) : List (String × Json) → List (String × Json)
  | [] => [(k, v)]
  | (k', v') :: l => if k < k' then (k, v) :: (k', v') :: l
    else if k = k' then (k, v) :: l
    else (k', v') :: putField k v l

def field? (j : Json) (k : String) : Option Json :=
  match j with
  | .obj fs => fs.lookup k
  | _ => none

end Json

end Casework
