/-!
# Blank characters, trimming, words and lines

The Unicode property `White_Space`, and the cuts of a text that follow from it. Lines end at a line
feed, and one carriage return before it belongs to the line end.
-/

namespace Casework.Text

def isBlank (c : Char) : Bool :=
  ('\t' ≤ c && c ≤ '\r') || c = ' ' || c = '\u0085' || c = '\u00a0' || c = '\u1680' ||
    ('\u2000' ≤ c && c ≤ '\u200a') || c = '\u2028' || c = '\u2029' || c = '\u202f' || c = '\u205f' ||
    c = '\u3000'

def trimEnd (s : List Char) : List Char := (s.reverse.dropWhile isBlank).reverse

def trim (s : List Char) : List Char := trimEnd (s.dropWhile isBlank)

def trimmed (s : String) : String := .ofList (trim s.toList)

def allBlank (s : String) : Bool := s.toList.all isBlank

/-! ## Words -/

def wordsFrom : List Char → List Char → List (List Char)
  | acc, [] => if acc.isEmpty then [] else [acc.reverse]
  | acc, c :: s =>
    if isBlank c then
      if acc.isEmpty then wordsFrom [] s else acc.reverse :: wordsFrom [] s
    else wordsFrom (c :: acc) s

def words (s : String) : List String := (wordsFrom [] s.toList).map .ofList

/-! ## Lines -/

section
variable {α : Type} [DecidableEq α]

def dropReturn (cr : α) : List α → List α
  | [] => []
  | c :: s => if c = cr then s else c :: s

def linesFrom (lf cr : α) : List α → List α → List (List α)
  | acc, [] => if acc.isEmpty then [] else [acc.reverse]
  | acc, c :: s =>
    if c = lf then (dropReturn cr acc).reverse :: linesFrom lf cr [] s
    else linesFrom lf cr (c :: acc) s

/-- The lines of a sequence. A last line need not be ended by `lf`, and keeps its `cr`. -/
def linesOf (lf cr : α) (s : List α) : List (List α) := linesFrom lf cr [] s

def chomp (lf cr : α) (l : List α) : List α :=
  match l.reverse with
  | [] => []
  | c :: s => if c = lf then (dropReturn cr s).reverse else l

end

def lines (s : List Char) : List (List Char) := linesOf '\n' '\r' s

def byteLines (s : List UInt8) : List (List UInt8) := linesOf 10 13 s

end Casework.Text
