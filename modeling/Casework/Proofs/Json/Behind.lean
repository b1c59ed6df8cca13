import Casework.Proofs.Json.RoundTrip

/-!
# An object behind other text

The reader takes a text to its end. Behind a text that is a value already, an object is one token too many; behind
the white space of JSON it is read as if it stood alone; behind any other blank nothing is.
-/

namespace Casework.Json

theorem step_blank {c : Char} (hblank : Text.isBlank c) (hspace : isSpace c = false) : Mode.between.step c = none := by
  have hnumber : (decide (c = '-') || c.isDigit) = false := by
    by_contra hnot
    have hchar : isNumberChar c := by
      rw [Bool.not_eq_false, Bool.or_eq_true] at hnot
      rcases hnot with hnot | hnot <;> simp [isNumberChar, hnot]
    rw [not_blank_of_numberChar hchar] at hblank
    cases hblank
  have hletter : c.isLower = false := by
    by_contra hnot
    rw [not_blank_of_lower (by simpa using hnot)] at hblank
    cases hblank
  rw [Mode.step]
  unfold fresh
  split
  iterate 4 cases hspace
  iterate 7 cases hblank
  rw [hnumber, hletter]
  rfl

theorem tokensFrom_blanks {s : List Char} (hblank : s.all Text.isBlank) (hspace : s.all isSpace = false)
    (rest : List Char) : tokensFrom .between (s ++ rest) = none := by
  induction s with
  | nil => cases hspace
  | cons c s ih =>
    rw [List.all_cons, Bool.and_eq_true] at hblank
    rw [List.all_cons] at hspace
    rw [List.cons_append]
    cases hc : isSpace c with
    | true =>
      rw [hc, Bool.true_and] at hspace
      rw [tokensFrom_silent (step_space hc), ih hblank.2 hspace]
    | false =>
      rw [tokensFrom_cons, step_blank hblank.1 hc]
      rfl

/-! ## Behind a value -/

theorem step_brace {m : Mode} {ts : List Token} (h : m.finish = some ts) :
    m.step '\x7b' = some (ts ++ [.openObj], .between) := by
  cases m with
  | between =>
    cases h
    rfl
  | number acc =>
    obtain ⟨j, hj, rfl⟩ := Option.map_eq_some_iff.1 h
    have hstop : isNumberChar '\x7b' = false := by decide
    simp only [Mode.step, hstop, hj]
    rfl
  | word acc =>
    obtain ⟨j, hj, rfl⟩ := Option.map_eq_some_iff.1 h
    have hstop : '\x7b'.isLower = false := by decide
    simp only [Mode.step, hstop, hj]
    rfl
  | _ => cases h

theorem tokensFrom_brace {m : Mode} {s : List Char} {ts : List Token} (h : tokensFrom m s = some ts)
    (rest : List Char) : tokensFrom m (s ++ '\x7b' :: rest) =
      (tokensFrom .between rest).map (ts ++ [.openObj] ++ ·) := by
  induction s generalizing m ts with
  | nil => exact tokensFrom_step (step_brace h) rest
  | cons c s ih =>
    rw [tokensFrom_cons] at h
    obtain ⟨⟨us, n⟩, hstep, h⟩ := Option.bind_eq_some_iff.1 h
    obtain ⟨vs, hvs, rfl⟩ := Option.map_eq_some_iff.1 h
    rw [List.cons_append, tokensFrom_step hstep, ih hvs, map_append]
    simp

theorem ofTokensFrom_more {e : Expect} {stack : List Frame} {ts : List Token} {j : Json}
    (h : ofTokensFrom e stack ts = some j) (t : Token) (us : List Token) :
    ofTokensFrom e stack (ts ++ t :: us) = none := by
  induction ts generalizing e stack with
  | nil =>
    cases e with
    | after v =>
      cases stack with
      | nil => exact ofTokensFrom_none rfl us
      | cons f stack => cases h
    | _ => cases h
  | cons u ts ih =>
    rw [ofTokensFrom] at h
    obtain ⟨⟨d, stack'⟩, hstep, h⟩ := Option.bind_eq_some_iff.1 h
    rw [List.cons_append, ofTokensFrom_cons hstep]
    exact ih h

theorem parse?_append_obj {s : String} {j : Json} (h : parse? s = some j) (fs : List (String × Json)) :
    parse? (s ++ (obj fs).compact) = none := by
  obtain ⟨ts, hts, hj⟩ := Option.bind_eq_some_iff.1 h
  rw [parse?, String.toList_append, toList_compact_obj, List.cons_append, read?, tokens?, tokensFrom_brace hts]
  cases tokensFrom .between (compactFields fs ++ ['\x7d']) with
  | none => rfl
  | some us =>
    change ofTokensFrom _ [] (ts ++ [.openObj] ++ us) = none
    rw [List.append_assoc]
    exact ofTokensFrom_more hj .openObj us

/-! ## Behind blanks -/

theorem parse?_blanks {s : String} (h : Text.allBlank s) (u : String) :
    parse? (s ++ u) = if s.toList.all isSpace then parse? u else none := by
  rw [parse?, String.toList_append, read?, tokens?]
  split
  · rename_i hspace
    rw [tokensFrom_spaces hspace]
    rfl
  · rename_i hspace
    rw [tokensFrom_blanks h (by simpa using hspace)]
    rfl

end Casework.Json
