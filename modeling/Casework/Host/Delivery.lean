import Casework.Host.Process

/-!
# Diagnostics as they arrive

A pipe hands over what a process writes to it piece by piece, and a piece need not end where a line or a character
does. Lines are put together from the pieces one at a time, and each goes into the history before the next one is
read.
-/

namespace Casework.Diagnostics

/-- What a pipe hands over at once. It hands over nothing only at its end. -/
abbrev Piece := { b : Text.Bytes // b ≠ [] }

structure Inflow where
  buffer : Text.Bytes := []
  pieces : List Piece

inductive Heard where
  | line (text : String)
  | unreadable
  | ended
  deriving DecidableEq, Repr

namespace Inflow

def rest (i : Inflow) : Text.Bytes := i.buffer ++ i.pieces.flatMap (·.1)

/-- Reads up to the next line feed and with it, or to the end; `got` has been read before. -/
def takeLine (got buffer : Text.Bytes) (pieces : List Piece) : Text.Bytes × Inflow :=
  match buffer.dropWhile (· ≠ 10), pieces with
  | b :: buffer', pieces => (got ++ buffer.takeWhile (· ≠ 10) ++ [b], ⟨buffer', pieces⟩)
  | [], [] => (got ++ buffer, ⟨[], []⟩)
  | [], p :: ps => takeLine (got ++ buffer) p.1 ps

theorem takeLine_append (got buffer : Text.Bytes) (pieces : List Piece) :
    (takeLine got buffer pieces).1 ++ (takeLine got buffer pieces).2.rest = got ++ (buffer ++ pieces.flatMap (·.1)) := by
  fun_induction takeLine got buffer pieces with
  | case1 got buffer b buffer' pieces h =>
    have hbuffer : buffer.takeWhile (· ≠ 10) ++ b :: buffer' = buffer := h ▸ List.takeWhile_append_dropWhile
    generalize buffer.takeWhile (· ≠ 10) = front at hbuffer
    rw [← hbuffer, rest]
    simp
  | case2 got buffer h => simp [rest]
  | case3 got buffer h p ps ih =>
    rw [ih]
    simp

def next (i : Inflow) : Heard × Inflow :=
  let (b, i) := takeLine [] i.buffer i.pieces
  if b = [] then (.ended, i)
  else
    match Text.decode? b with
    | some s => (.line (.ofList (Text.chomp '\n' '\r' s.toList)), i)
    | none => (.unreadable, i)

theorem rest_of_next {i j : Inflow} {s : String} (h : i.next = (.line s, j)) : j.rest.length < i.rest.length := by
  have hlength := congrArg List.length (takeLine_append [] i.buffer i.pieces)
  unfold next at h
  dsimp only at h
  split at h
  · cases h
  · rename_i hb
    have hpos := List.length_pos_iff.mpr hb
    split at h
    · cases h
      rw [List.length_append, List.nil_append] at hlength
      change _ = i.rest.length at hlength
      omega
    · cases h

end Inflow

/-! ## Reading to the end -/

def makeRoom (history : List String) : List String :=
  if history.length = historyLimit then history.drop 1 else history

structure Listening where
  inflow : Inflow
  history : List String := []

namespace Listening

def start (pieces : List Piece) : Listening := { inflow := { pieces } }

def turn? (x : Listening) : Option Listening :=
  match x.inflow.next with
  | (.line s, i) => some ⟨i, makeRoom x.history ++ [s]⟩
  | _ => none

theorem rest_of_turn? {x y : Listening} (h : x.turn? = some y) : y.inflow.rest.length < x.inflow.rest.length := by
  unfold turn? at h
  split at h
  · rename_i s i hnext
    cases h
    exact Inflow.rest_of_next hnext
  · cases h

def after? : Nat → Listening → Option Listening
  | 0, x => some x
  | n + 1, x => x.turn?.bind (after? n)

def finish (x : Listening) : List String :=
  match _h : x.turn? with
  | some y => finish y
  | none => x.history
termination_by x.inflow.rest.length
decreasing_by exact rest_of_turn? ‹_›

end Listening

def captureFrom (out : Text.Bytes) (pieces : List Piece) (ending : Ending) : Capture :=
  if ending.isSuccess then .ok (Text.decodeLossy out)
  else .error ⟨ending.message, "\n".intercalate (Listening.start pieces).finish⟩

end Casework.Diagnostics
