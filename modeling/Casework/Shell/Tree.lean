/-!
# Commands of a shell script

What a script says once it has been read: words made of pieces, redirections, and commands. A piece
that is to be expanded holds its words and commands as they were read. Documents are kept apart and
go by numbers, because a command is read before the documents it announces.
-/

namespace Casework.Shell

inductive Use where
  | value
  | length
  | orElse
  | ifSet
  | orAssign
  | orFail
  | trim (suffix longest : Bool)
  | bad
  deriving DecidableEq, Repr, Inhabited

inductive Direction where
  | input
  | output
  | clobber
  | append
  | readWrite
  | duplicate
  deriving DecidableEq, Repr, Inhabited

mutual

inductive Piece where
  | char (c : Char) (escaped : Bool)
  | mark
  /-- With `colon` an empty value counts as missing. -/
  | param (name : String) (use : Use) (colon : Bool) (word : List Piece)
  | command (body : Command)
  | arith (text : List Piece)

inductive Redirect where
  | toward (fd : Nat) (direction : Direction) (target : List Piece)
  | document (fd number : Nat)

inductive Command where
  | skip
  | simple (line : Nat) (assigns : List (String × List Piece)) (words : List (List Piece))
    (redirects : List Redirect)
  | pipeline (commands : List Command)
  | not (body : Command)
  | seq (first second : Command)
  | andThen (first second : Command)
  | orElse (first second : Command)
  | background (body : Command)
  | subshell (line : Nat) (body : Command) (redirects : List Redirect)
  | redirected (line : Nat) (body : Command) (redirects : List Redirect)
  | branch (condition yes : Command) (no : Option Command)
  | loop (until_ : Bool) (condition body : Command)
  /-- Without items the loop goes over the parameters. -/
  | forEach (line : Nat) (name : String) (items : Option (List (List Piece))) (body : Command)
  | select (line : Nat) (subject : List Piece) (arms : List (List (List Piece) × Command))
  | function (name : String) (body : Command)

end

abbrev Word := List Piece

instance : Inhabited Piece := ⟨.mark⟩
instance : Inhabited Command := ⟨.skip⟩
instance : Inhabited Redirect := ⟨.document 0 0⟩

/-! ## Words as they are written -/

def Piece.plainChar? : Piece → Option Char
  | .char c false => some c
  | _ => none

def plainText? (w : Word) : Option String := (w.mapM Piece.plainChar?).map .ofList

def wordChars (w : Word) : List Char :=
  w.filterMap fun p => match p with
    | .char c _ => some c
    | _ => none

def isNameStart (c : Char) : Bool := c.isAlpha || c = '_'

def isNameChar (c : Char) : Bool := c.isAlphanum || c = '_'

def isName (s : String) : Bool := s.toList.head?.any isNameStart && s.toList.all isNameChar

def isSpecialParam (c : Char) : Bool := "@*#?-$!0123456789".toList.contains c

def nameThenEquals : Word → Option (List Char × Word)
  | .char '=' false :: w => some ([], w)
  | .char c false :: w =>
    if isNameChar c then (nameThenEquals w).map fun (n, v) => (c :: n, v) else none
  | _ => none

def assignment? (w : Word) : Option (String × Word) :=
  match nameThenEquals w with
  | some (c :: n, v) => if isNameStart c then some (.ofList (c :: n), v) else none
  | _ => none

end Casework.Shell
