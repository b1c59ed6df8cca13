import Casework.Shell.Pattern

/-!
# Fields

What a word expands to, and how it falls into fields. Of a text that an expansion has made, separators
end fields; parameters that are quoted together are kept apart by marks of their own. What stands in
the word itself is not looked at.
-/

namespace Casework.Shell

inductive Item where
  | char (c : Char) (quoted : Bool)
  | mark
  deriving DecidableEq, Repr

def parting : Item := .char '\x00' false

inductive Splits where
  | nowhere
  | atSeparators
  | atPartings
  deriving DecidableEq, Repr

structure Segment where
  splits : Splits
  items : List Item
  deriving DecidableEq, Repr

def Item.marked? : Item → Option Marked
  | char c quoted => some (c, quoted)
  | mark => none

def markedText (is : List Item) : List Marked := is.filterMap Item.marked?

def itemText (is : List Item) : String := .ofList ((markedText is).map (·.1))

def segmentText (ss : List Segment) : String := itemText (ss.flatMap (·.items))

def segmentPattern (ss : List Segment) : List Char := patternText (markedText (ss.flatMap (·.items)))

def charItems (quoted : Bool) (text : String) : List Item := text.toList.map (.char · quoted)

/-! ## Splitting -/

def isBlankSeparator (c : Char) : Bool := c = ' ' || c = '\t' || c = '\n'

structure Breakup where
  done : List (List Item) := []
  current : List Item := []
  /-- A blank has ended the last field, and what is behind it belongs to the same end. -/
  afterBlank : Bool := false
  left : Option Nat := none
  kept : Option Nat := none

def Breakup.push (b : Breakup) (i : Item) : Breakup := { b with current := i :: b.current }

/-- One item of a part that may be split at `separators`; blanks among them end fields together with
what surrounds them if `blanks`. -/
def Breakup.step (separators : List Char) (blanks : Bool) (b : Breakup) (i : Item) : Breakup :=
  let (isEnd, isBlank) := match i with
    | .char c _ =>
      let e := c = '\x00' || separators.contains c
      (e, e && (c = '\x00' || isBlankSeparator c))
    | .mark => (false, false)
  if b.left = some 0 then
    if isBlank then { b with kept := b.kept.orElse fun _ => some b.current.length }.push i
    else
      { b with kept := if isEnd && b.afterBlank then b.kept else none, afterBlank := false }.push i
  else if b.afterBlank then
    if isBlank then { b with current := [] }
    else if isEnd then { b with current := [], afterBlank := false }
    else { b with current := [i], afterBlank := false }
  else if isEnd then
    let afterBlank := blanks && isBlank
    if b.current.isEmpty && afterBlank then b
    else
      match b.left with
      | some 1 => { b with left := some 0, kept := some b.current.length, afterBlank }.push i
      | left =>
        { b with done := b.current.reverse :: b.done, current := [], afterBlank, left := left.map (· - 1) }
  else b.push i

def Breakup.run (separators : List Char) : Bool → Breakup → List Segment → Bool × Breakup
  | apart, b, [] => (apart, b)
  | apart, b, s :: ss =>
    match s.splits with
    | .nowhere => run separators apart (s.items.foldl Breakup.push b) ss
    | .atSeparators =>
      run separators false (s.items.foldl (Breakup.step separators !apart) { b with afterBlank := false }) ss
    | .atPartings =>
      run separators true (s.items.foldl (Breakup.step [] false) { b with afterBlank := false }) ss

def fieldsOf (separators : List Char) (most : Option Nat) (ss : List Segment) : List (List Item) :=
  let (apart, b) := Breakup.run separators false { left := most } ss
  let rest := b.current.reverse
  let rest := b.kept.elim rest rest.take
  (if rest.isEmpty && !apart then b.done else rest :: b.done).reverse

end Casework.Shell
