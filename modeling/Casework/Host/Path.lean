/-!
# Paths

A path is a text with slashes. Its components leave out empty segments and single dots, except a dot
that begins the path; two dots stay, because what they mean depends on links.
-/

namespace Casework.Path

inductive Component where
  | root
  | cur
  | parent
  | normal (name : String)
  deriving DecidableEq, Repr

def split : List Char → List (List Char)
  | [] => [[]]
  | c :: cs =>
    if c = '/' then [] :: split cs
    else
      match split cs with
      | [] => [[c]]
      | s :: ss => (c :: s) :: ss

def segments (p : String) : List String := (split p.toList).map .ofList

def isAbsolute (p : String) : Bool := p.toList.head? == some '/'

def isIdle (s : String) : Bool := s = "" || s = "."

def componentOf? (s : String) : Option Component :=
  if isIdle s then none else if s = ".." then some .parent else some (.normal s)

def lead (p : String) : Option Component × List String :=
  if isAbsolute p then (some .root, (segments p).drop 1)
  else if (segments p).head? = some "." then (some .cur, (segments p).drop 1)
  else (none, segments p)

def components (p : String) : List Component :=
  (lead p).1.toList ++ (lead p).2.filterMap componentOf?

def join (p q : String) : String :=
  if isAbsolute q || p = "" then q
  else if p.toList.getLast? = some '/' then p ++ q
  else p ++ "/" ++ q

def fileName? (p : String) : Option String :=
  match (components p).getLast? with
  | some (.normal n) => some n
  | _ => none

def trimmedBack (ss : List String) : List String := ss.reverse.dropWhile isIdle

def joined (back : List String) : String := "/".intercalate back.reverse

/-- The path without its last component, as it is written; the root and the empty path have none. -/
def parent? (p : String) : Option String :=
  match lead p, trimmedBack (lead p).2 with
  | (some .root, _), [] => none
  | (some .root, _), _ :: back => some ("/" ++ joined (back.dropWhile isIdle))
  | (some _, _), [] => some ""
  | (some _, _), _ :: back =>
    let back := back.dropWhile isIdle
    some (if back.isEmpty then "." else "./" ++ joined back)
  | (none, _), [] => none
  | (none, _), _ :: back => some (joined (back.dropWhile isIdle))

def absolute (cwd p : String) : String := if isAbsolute p then p else join cwd p

end Casework.Path
