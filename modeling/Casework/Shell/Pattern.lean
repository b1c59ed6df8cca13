import Casework.Host.FileTree
import Casework.Text.Utf8

/-!
# Patterns

A pattern is a text in which unquoted stars, question marks and brackets stand for other texts. It is
written with a backslash in front of what is quoted, so a backslash that comes from a value quotes
what is behind it too.
-/

namespace Casework.Shell

abbrev Marked := Char × Bool

def patternText (ms : List Marked) : List Char := ms.flatMap fun m => if m.2 then ['\\', m.1] else [m.1]

/-! ## Brackets -/

def classes : List (String × (Char → Bool)) :=
  [("alnum", Char.isAlphanum), ("cntrl", fun c => c < ' ' || c = '\x7f'), ("lower", Char.isLower),
    ("space", fun c => c = ' ' || ('\t' ≤ c && c ≤ '\r')), ("alpha", Char.isAlpha), ("digit", Char.isDigit),
    ("print", fun c => ' ' ≤ c && c ≤ '~'), ("upper", Char.isUpper), ("blank", fun c => c = ' ' || c = '\t'),
    ("graph", fun c => '!' ≤ c && c ≤ '~'), ("punct", fun c => '!' ≤ c && c ≤ '~' && !c.isAlphanum),
    ("xdigit", fun c => c.isDigit || ('a' ≤ c && c ≤ 'f') || ('A' ≤ c && c ≤ 'F'))]

def class? (cs : List Char) : Option ((Char → Bool) × Nat) :=
  classes.findSome? fun (name, f) =>
    let written := ":".toList ++ name.toList ++ ":]".toList
    if written.isPrefixOf cs then some (f, written.length) else none

def rank (c : Char) : Int := if c.toNat < 128 then c.toNat else (c.toNat : Int) - 256

/-- Whether a bracket holds `x`, with what follows its end; nothing if it has none. At first and behind
each member the end is looked for, except at the very beginning. -/
def bracketFrom (x : Char) : Nat → Bool → List Char → Option (Bool × List Char)
  | 0, _, _ => none
  | _, _, [] => none
  | fuel + 1, found, c :: cs =>
    match if c = '[' then class? cs else none with
    | some (f, n) => behind fuel (found || f x) (cs.drop n)
    | none =>
      match if c = '\\' then cs else c :: cs with
      | [] => none
      | a :: rest => range fuel found a rest
where
  behind (fuel : Nat) (found : Bool) (cs : List Char) : Option (Bool × List Char) :=
    match cs with
    | ']' :: rest => some (found, rest)
    | cs => bracketFrom x fuel found cs
  range (fuel : Nat) (found : Bool) (a : Char) : List Char → Option (Bool × List Char)
    | '-' :: b :: rest =>
      if b = ']' then behind fuel (found || x = a) ('-' :: b :: rest)
      else
        match if b = '\\' then rest else b :: rest with
        | [] => none
        | e :: rest => behind fuel (found || (rank a ≤ rank x && rank x ≤ rank e)) rest
    | rest => behind fuel (found || x = a) rest

def bracket? (x : Char) (cs : List Char) : Option (Bool × List Char) :=
  match cs with
  | '!' :: rest => (bracketFrom x (rest.length + 1) false rest).map fun (b, r) => (!b, r)
  | cs => bracketFrom x (cs.length + 1) false cs

/-! ## Fitting -/

def fits : Nat → List Char → List Char → Bool
  | 0, _, _ => false
  | _ + 1, [], s => s.isEmpty
  | fuel + 1, '*' :: ps, s => fits fuel ps s || (match s with | [] => false | _ :: s => fits fuel ('*' :: ps) s)
  | _ + 1, _, [] => false
  | fuel + 1, '?' :: ps, _ :: s => fits fuel ps s
  | fuel + 1, '[' :: ps, x :: s =>
    match bracket? x ps with
    | some (true, ps) => fits fuel ps s
    | some (false, _) => false
    | none => x = '[' && fits fuel ps s
  | fuel + 1, '\\' :: p :: ps, x :: s => x = p && fits fuel ps s
  | fuel + 1, p :: ps, x :: s => x = p && fits fuel ps s

def accepts (pattern s : List Char) : Bool := fits (pattern.length + s.length + 1) pattern s

/-- The shortest or longest end or beginning that the pattern accepts is taken off. No text that is accepted
goes on behind a zero. -/
def stripped (suffix longest : Bool) (pattern v : List Char) : List Char :=
  let lengths := List.range (v.length + 1)
  let taken := (if longest then lengths.reverse else lengths).find? fun n =>
    accepts pattern ((if suffix then v.drop (v.length - n) else v.take n).takeWhile (· ≠ '\x00'))
  match taken with
  | none => v
  | some n => if suffix then v.take (v.length - n) else v.drop n

/-! ## Pathnames

The paths that a pattern stands for. A pattern is taken apart at its slashes, and only a part with a
star, a question mark or a bracket is looked up in its directory.
-/

open Text

def patternParts : List Char → List Char → List (List Char)
  | part, [] => [part.reverse]
  | part, '\\' :: '/' :: cs => part.reverse :: patternParts [] cs
  | part, '\\' :: c :: cs => patternParts (c :: '\\' :: part) cs
  | part, '/' :: cs => part.reverse :: patternParts [] cs
  | part, c :: cs => patternParts (c :: part) cs

def hasBracketEnd : List Char → Bool
  | '\\' :: _ :: cs => behind cs
  | ['\\'] => false
  | _ :: cs => behind cs
  | [] => false
where
  behind : List Char → Bool
    | ']' :: _ => true
    | cs => hasBracketEnd cs

def isOpen : List Char → Bool
  | '*' :: _ | '?' :: _ => true
  | '[' :: '!' :: cs => hasBracketEnd cs || isOpen cs
  | '[' :: cs => hasBracketEnd cs || isOpen cs
  | '\\' :: _ :: cs => isOpen cs
  | _ :: cs => isOpen cs
  | [] => false

def literalName : List Char → List Char
  | '\\' :: c :: cs => c :: literalName cs
  | c :: cs => c :: literalName cs
  | [] => []

def showsHidden : List Char → Bool
  | '\\' :: '.' :: _ | '.' :: _ => true
  | _ => false

def namesIn (t : FileTree) (dir : String) (part : List Char) : List String :=
  match t.list (pathOf (if dir.isEmpty then "." else dir)) with
  | .ok names =>
    (("." :: ".." :: names).map ofPath).filter fun n =>
      (showsHidden part || n.toList.head? ≠ some '.') && accepts part n.toList
  | .error _ => []

/-- The paths behind `dir` that the parts stand for. `path` is what the parts since the last look-up have
added to it. -/
def pathsFrom (t : FileTree) (dir : String) : List (List Char) → List String
  | [] => []
  | part :: parts =>
    if isOpen part then
      let names := namesIn t dir part
      if parts.isEmpty then names.map (dir ++ ·) else names.flatMap fun n => pathsFrom t (dir ++ n ++ "/") parts
    else
      let dir := dir ++ .ofList (literalName part)
      if parts.isEmpty then
        match t.resolve false (pathOf dir) with
        | .ok a => if (t.node? a).isSome then [dir] else []
        | .error _ => []
      else pathsFrom t (dir ++ "/") parts

def pathnames (t : FileTree) (pattern : List Char) : List String :=
  let parts := patternParts [] pattern
  if parts.any isOpen then (pathsFrom t "" parts).mergeSort fun a b => !(b < a) else []

end Casework.Shell
