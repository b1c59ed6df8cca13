import Casework.Json.Basic
import Casework.Proofs.Json.Numeral
import Casework.Proofs.Text.Lines
import Casework.Proofs.Text.Utf8

/-!
# Characters of compact text

Strings escape every control character, and nothing else in compact text is one. So the text of a value is
one line. It neither begins nor ends with a blank, because marks, numerals and words do not.
-/

namespace Casework.Json

def Unbroken (cs : List Char) : Prop := ∀ c ∈ cs, 0x20 ≤ c.toNat

theorem Unbroken.append {cs ds : List Char} (h : Unbroken cs) (h' : Unbroken ds) : Unbroken (cs ++ ds) := by
  intro c hc
  rcases List.mem_append.mp hc with hc | hc
  · exact h c hc
  · exact h' c hc

theorem Unbroken.cons {c : Char} {cs : List Char} (hc : 0x20 ≤ c.toNat) (h : Unbroken cs) : Unbroken (c :: cs) :=
  List.forall_mem_cons.mpr ⟨hc, h⟩

theorem unbroken_nil : Unbroken [] := fun _ h => absurd h List.not_mem_nil

theorem unbroken_singleton {c : Char} (hc : 0x20 ≤ c.toNat) : Unbroken [c] := unbroken_nil.cons hc

theorem unbroken_of_all {cs : List Char} (h : cs.all (0x20 ≤ ·.toNat) = true) : Unbroken cs :=
  fun c hc => of_decide_eq_true (List.all_eq_true.mp h c hc)

/-! ## Strings and numbers -/

theorem unbroken_escapeChar (c : Char) : Unbroken (escapeChar c) := by
  have hhex : ∀ d < 16, 0x20 ≤ (Nat.digitChar d).toNat := by decide
  have hpair : ∀ d : Char, 0x20 ≤ d.toNat → Unbroken ['\\', d] := fun d hd =>
    (unbroken_singleton hd).cons (by decide)
  unfold escapeChar
  split
  iterate 7 exact hpair _ (by decide)
  · split
    · rename_i hlt
      have hhigh := hhex (c.toNat / 16) (by omega)
      have hlow := hhex (c.toNat % 16) (by omega)
      have hlead : Unbroken ['\\', 'u', '0', '0'] := unbroken_of_all (by decide)
      exact hlead.append ((unbroken_singleton hlow).cons hhigh)
    · exact unbroken_singleton (by omega)

theorem unbroken_quote (s : String) : Unbroken (quote s) := by
  have hmark : Unbroken ['"'] := unbroken_singleton (by decide)
  refine (hmark.append ?_).append hmark
  intro c hc
  obtain ⟨d, -, hd⟩ := List.mem_flatMap.mp hc
  exact unbroken_escapeChar d c hd

theorem IsNumeral.unbroken {cs : List Char} (h : IsNumeral cs) : Unbroken cs := by
  intro c hc
  have hchar := List.all_eq_true.mp h.chars c hc
  simp only [isNumberChar, Bool.or_eq_true, decide_eq_true_eq] at hchar
  rcases hchar with ((((hd | rfl) | rfl) | rfl) | rfl) | rfl
  · simp only [Char.isDigit, Bool.and_eq_true, decide_eq_true_eq] at hd
    have h48 : 48 ≤ c.toNat := hd.1
    omega
  all_goals decide

theorem unbroken_scalarText (j : Json) : Unbroken (scalarText j) := by
  have hnull : Unbroken "null".toList := unbroken_of_all (by decide)
  cases j with
  | bool b => cases b <;> exact unbroken_of_all (by decide)
  | int i => exact (isNumeral_int i).unbroken
  | float x =>
    by_cases hx : x.isFinite
    · exact (isNumeral_float hx).unbroken
    · rw [scalarText, floatText, if_neg hx]
      exact hnull
  | str s => exact unbroken_quote s
  | _ => exact hnull

/-! ## Values -/

mutual

theorem unbroken_compactChars : ∀ j : Json, Unbroken (compactChars j)
  | .arr es =>
    ((unbroken_compactElements es).append (unbroken_singleton (by decide))).cons (by decide)
  | .obj fs =>
    ((unbroken_compactFields fs).append (unbroken_singleton (by decide))).cons (by decide)
  | .null => unbroken_scalarText .null
  | .bool b => unbroken_scalarText (.bool b)
  | .int i => unbroken_scalarText (.int i)
  | .float x => unbroken_scalarText (.float x)
  | .str s => unbroken_scalarText (.str s)

theorem unbroken_compactElements : ∀ es : List Json, Unbroken (compactElements es)
  | [] => unbroken_nil
  | [e] => unbroken_compactChars e
  | e :: e' :: es =>
    (unbroken_compactChars e).append ((unbroken_compactElements (e' :: es)).cons (by decide))

theorem unbroken_compactFields : ∀ fs : List (String × Json), Unbroken (compactFields fs)
  | [] => unbroken_nil
  | [(k, v)] => (unbroken_quote k).append ((unbroken_compactChars v).cons (by decide))
  | (k, v) :: f :: fs =>
    ((unbroken_quote k).append ((unbroken_compactChars v).cons (by decide))).append
      ((unbroken_compactFields (f :: fs)).cons (by decide))

end

theorem toList_compact (j : Json) : j.compact.toList = compactChars j := String.toList_ofList

theorem unbroken_compact (j : Json) : Unbroken j.compact.toList := by
  rw [toList_compact]
  exact unbroken_compactChars j

/-! ## Both ends -/

theorem not_blank_of_visible {c : Char} (hlow : 0x21 ≤ c.toNat) (hhigh : c.toNat < 0x7f) : Text.isBlank c = false := by
  have hvisible : ∀ n < 0x7f, 0x21 ≤ n → Text.isBlank (Char.ofNat n) = false := by decide
  have hc := hvisible c.toNat hhigh hlow
  rwa [Char.ofNat_toNat] at hc

theorem not_blank_of_numberChar {c : Char} (h : isNumberChar c) : Text.isBlank c = false := by
  simp only [isNumberChar, Bool.or_eq_true, decide_eq_true_eq] at h
  rcases h with ((((hd | rfl) | rfl) | rfl) | rfl) | rfl
  · simp only [Char.isDigit, Bool.and_eq_true, decide_eq_true_eq] at hd
    have hlow : 48 ≤ c.toNat := hd.1
    have hhigh : c.toNat ≤ 57 := hd.2
    exact not_blank_of_visible (by omega) (by omega)
  all_goals decide

theorem not_blank_of_lower {c : Char} (h : c.isLower) : Text.isBlank c = false := by
  obtain ⟨h, h'⟩ := Bool.and_eq_true_iff.mp h
  have hlow : 97 ≤ c.toNat := of_decide_eq_true h
  have hhigh : c.toNat ≤ 122 := of_decide_eq_true h'
  exact not_blank_of_visible (by omega) (by omega)

theorem trimmed_of_all {cs : List Char} (h : ∀ c ∈ cs, Text.isBlank c = false) : Text.Trimmed cs where
  head c hc := h c (List.mem_of_head? hc)
  last c hc := h c (List.mem_of_getLast? hc)

theorem trimmed_between {a b : Char} (ha : Text.isBlank a = false) (hb : Text.isBlank b = false) (cs : List Char) :
    Text.Trimmed (a :: cs ++ [b]) := by
  constructor
  · intro c hc
    cases hc
    exact ha
  · intro c hc
    rw [List.getLast?_concat] at hc
    cases hc
    exact hb

theorem trimmed_scalarText (j : Json) : Text.Trimmed (scalarText j) := by
  have hnumeral : ∀ {cs : List Char}, IsNumeral cs → Text.Trimmed cs := fun h =>
    trimmed_of_all fun c hc => not_blank_of_numberChar (List.all_eq_true.mp h.chars c hc)
  have hnull : Text.Trimmed "null".toList := trimmed_of_all (by simp [Text.isBlank])
  cases j with
  | bool b => cases b <;> exact trimmed_of_all (by simp [scalarText, Text.isBlank])
  | int i => exact hnumeral (isNumeral_int i)
  | float x =>
    by_cases hx : x.isFinite
    · exact hnumeral (isNumeral_float hx)
    · rw [scalarText, floatText, if_neg hx]
      exact hnull
  | str s => exact trimmed_between (by decide) (by decide) _
  | _ => exact hnull

theorem trimmed_compactChars : ∀ j : Json, Text.Trimmed (compactChars j)
  | .arr es => trimmed_between (by decide) (by decide) (compactElements es)
  | .obj fs => trimmed_between (by decide) (by decide) (compactFields fs)
  | .null => trimmed_scalarText .null
  | .bool b => trimmed_scalarText (.bool b)
  | .int i => trimmed_scalarText (.int i)
  | .float x => trimmed_scalarText (.float x)
  | .str s => trimmed_scalarText (.str s)

theorem IsNumeral.ne_nil {cs : List Char} (h : IsNumeral cs) : cs ≠ [] := by
  rintro rfl
  cases h.head

theorem compactChars_ne_nil (j : Json) : compactChars j ≠ [] := by
  cases j with
  | null => exact List.cons_ne_nil _ _
  | bool b => cases b <;> exact List.cons_ne_nil _ _
  | int i => exact (isNumeral_int i).ne_nil
  | float x =>
    change floatText x ≠ []
    rw [floatText]
    split
    · rename_i hx
      have hnumeral := isNumeral_float hx
      rw [floatText, if_pos hx] at hnumeral
      exact hnumeral.ne_nil
    · exact List.cons_ne_nil _ _
  | str s => exact List.cons_ne_nil _ _
  | arr es => exact List.cons_ne_nil _ _
  | obj fs => exact List.cons_ne_nil _ _

/-! ## Objects -/

theorem toList_compact_obj (fs : List (String × Json)) :
    (obj fs).compact.toList = '\x7b' :: compactFields fs ++ ['\x7d'] := by
  rw [toList_compact, compactChars]

theorem allBlank_compact_obj (fs : List (String × Json)) : Text.allBlank (obj fs).compact = false := by
  have hbrace : Text.isBlank '\x7b' = false := by decide
  simp [Text.allBlank, toList_compact_obj, hbrace]

end Casework.Json
