import Mathlib.Data.List.TakeWhile
import Casework.Json.Reader

/-!
# Numerals

The text of a number is made of the characters that the reader takes for one, and begins with a sign or a
digit. The text of an integer that fits 64 bits, signed or not, reads as that integer.
-/

namespace Casework

namespace Json

def opensNumeral (c : Char) : Bool := c = '-' || c.isDigit

/-- What the reader takes for one numeral, whatever it comes to. -/
structure IsNumeral (cs : List Char) : Prop where
  head : cs.head?.any opensNumeral
  chars : cs.all isNumberChar

theorem isNumberChar_of_isDigit {c : Char} (h : c.isDigit) : isNumberChar c := by
  simp [isNumberChar, h]

theorem IsNumeral.neg {cs : List Char} (h : IsNumeral cs) : IsNumeral ('-' :: cs) := by
  refine ⟨rfl, ?_⟩
  rw [List.all_cons, h.chars]
  rfl

/-! ## Digits -/

theorem isDigit_of_mem_toDigits {n : Nat} {c : Char} (h : c ∈ Nat.toDigits 10 n) : c.isDigit :=
  Nat.isDigit_of_mem_toDigits (by omega) (by omega) h

theorem isNumeral_of_digits {c : Char} {cs : List Char} (h : (c :: cs).all Char.isDigit) : IsNumeral (c :: cs) := by
  have hall := List.all_eq_true.mp h
  refine ⟨?_, List.all_eq_true.mpr fun d hd => isNumberChar_of_isDigit (hall d hd)⟩
  have hc := hall c List.mem_cons_self
  simp [opensNumeral, hc]

theorem exists_toDigits (n : Nat) :
    ∃ c cs, Nat.toDigits 10 n = c :: cs ∧ (c :: cs).all Char.isDigit = true := by
  obtain ⟨c, cs, h⟩ := List.exists_cons_of_ne_nil (Nat.toDigits_ne_nil (n := n) (b := 10))
  refine ⟨c, cs, h, List.all_eq_true.mpr fun d hd => ?_⟩
  rw [← h] at hd
  exact isDigit_of_mem_toDigits hd

theorem toList_toString_int (i : Int) : (toString i).toList =
    if 0 ≤ i then Nat.toDigits 10 i.toNat else '-' :: Nat.toDigits 10 (-i).toNat := by
  rw [Int.toString_eq_repr, Int.repr_eq_if]
  split
  · exact Nat.toList_repr
  · rw [String.toList_append, Nat.toList_repr]
    rfl

theorem isNumeral_int (i : Int) : IsNumeral (toString i).toList := by
  have hnat : ∀ n, IsNumeral (Nat.toDigits 10 n) := by
    intro n
    obtain ⟨c, cs, h, hall⟩ := exists_toDigits n
    rw [h]
    exact isNumeral_of_digits hall
  rw [toList_toString_int]
  split
  · exact hnat _
  · exact (hnat _).neg

/-! ## Floats -/

section
variable {c : Char} {cs : List Char} (h : (c :: cs).all Char.isDigit)
include h

theorem isNumeral_positional (e : Int) : IsNumeral (Layout.positional (c :: cs) e).toList := by
  obtain ⟨hhead, hchars⟩ := isNumeral_of_digits h
  have hzero : isNumberChar '0' = true := rfl
  have hpoint : isNumberChar '.' = true := rfl
  have hopen : opensNumeral '0' = true := rfl
  have htake : ∀ n, ((c :: cs).take n).all isNumberChar ∧ ((c :: cs).drop n).all isNumberChar := by
    intro n
    rw [List.all_eq_true] at hchars
    exact ⟨List.all_eq_true.mpr fun d hd => hchars d (List.mem_of_mem_take hd),
      List.all_eq_true.mpr fun d hd => hchars d (List.mem_of_mem_drop hd)⟩
  simp only [Layout.positional]
  split
  · constructor
    · simpa using hhead
    · simp only [String.toList_append, String.toList_ofList, List.all_append, hchars]
      simp [hzero, hpoint]
  · split
    · rename_i hlt
      obtain ⟨k, hk⟩ : ∃ k, (c :: cs).length - (-e).toNat = k + 1 := ⟨_, (Nat.succ_pred_eq_of_pos (by omega)).symm⟩
      constructor
      · rw [hk]
        simpa using hhead
      · simp only [String.toList_append, String.toList_ofList, List.all_append, (htake _).1, (htake _).2]
        simp [hpoint]
    · constructor
      · simp [hopen]
      · simp only [String.toList_append, String.toList_ofList, List.all_append, hchars]
        simp [hzero, hpoint]

theorem isNumeral_scientific (e : Int) : IsNumeral (numberLayout.scientific (c :: cs) e).toList := by
  obtain ⟨hhead, hchars⟩ := isNumeral_of_digits h
  have hlead := (isNumeral_int (e + (c :: cs).length - 1)).chars
  have hmark : isNumberChar 'e' = true := rfl
  have hpoint : isNumberChar '.' = true := rfl
  have hplus : (if 0 ≤ e + (c :: cs).length - 1 then numberLayout.plus else "").toList.all isNumberChar = true := by
    split <;> rfl
  rw [List.all_cons, Bool.and_eq_true] at hchars
  constructor
  · cases cs <;> simpa [Layout.scientific] using hhead
  · simp only [Layout.scientific, String.toList_append, List.all_append, hlead, hplus, Bool.and_true]
    cases cs with
    | nil => simp [hchars.1, hmark]
    | cons d ds =>
      have hds := hchars.2
      rw [List.all_cons, Bool.and_eq_true] at hds
      simp only [String.toList_ofList, List.all_cons, hchars.1, hpoint, hds.1, hds.2]
      simp [hmark]

end

theorem isNumeral_magnitude (x : Binary64) : IsNumeral (numberLayout.magnitude x).toList := by
  obtain ⟨c, cs, hd, hall⟩ := exists_toDigits x.shortest.1
  simp only [Layout.magnitude]
  split
  · exact ⟨rfl, rfl⟩
  · rw [hd]
    split
    · exact isNumeral_positional hall _
    · exact isNumeral_scientific hall _

theorem isNumeral_float {x : Binary64} (h : x.isFinite) : IsNumeral (floatText x) := by
  have hnan : ¬ x.isNaN = true := by
    simp only [Binary64.isFinite, Binary64.isNaN, decide_eq_true_eq] at h ⊢
    omega
  have hm := isNumeral_magnitude x
  rw [floatText, if_pos h, Layout.text, if_neg hnan, if_pos h]
  split
  · rw [String.toList_append]
    exact hm.neg
  · simpa using hm

/-! ## Integers -/

def isWord (i : Int) : Prop := -(pow2 63 : Int) ≤ i ∧ i ≤ word64

theorem digit?_digitChar {d : Nat} (h : d < 10) : digit? d.digitChar = some d := by
  have hdigit : d.digitChar.isDigit = true := by
    rw [Nat.isDigit_digitChar]
    exact decide_eq_true h
  rw [digit?, if_pos hdigit, Nat.toNat_digitChar_sub_48_of_lt_ten h]

theorem digits_held (n : Nat) (h : n ≤ word64) :
    ((Nat.toDigits 10 n).filterMap digit?).foldl Digits.pushInteger ⟨0, 0, false⟩ = ⟨n, 0, false⟩ := by
  induction n using Nat.strongRecOn with
  | ind n ih =>
    have hpush : ∀ m d, m * 10 + d ≤ word64 → Digits.pushInteger ⟨m, 0, false⟩ d = ⟨m * 10 + d, 0, false⟩ := by
      intro m d hle
      have hnot : ¬ word64 < m * 10 + d := Nat.not_lt.mpr hle
      simp [Digits.pushInteger, hnot]
    by_cases hn : n < 10
    · rw [Nat.toDigits_of_lt_base hn]
      have := hpush 0 n (by omega)
      simpa [digit?_digitChar hn] using this
    · have hmod : n % 10 < 10 := Nat.mod_lt n (by omega)
      have hsum : n / 10 * 10 + n % 10 = n := Nat.div_add_mod' n 10
      rw [Nat.toDigits_of_base_le (by omega) (by omega), List.filterMap_append, List.foldl_append,
        ih (n / 10) (by omega) (by omega)]
      have := hpush (n / 10) (n % 10) (by omega)
      simpa [digit?_digitChar hmod, hsum] using this

theorem head?_toDigits {n : Nat} (h : 0 < n) : (Nat.toDigits 10 n).head? ≠ some '0' := by
  induction n using Nat.strongRecOn with
  | ind n ih =>
    by_cases hn : n < 10
    · rw [Nat.toDigits_of_lt_base hn, List.head?_cons, ne_eq, Option.some.injEq, Nat.digitChar_eq_zero]
      omega
    · obtain ⟨c, cs, hd, -⟩ := exists_toDigits (n / 10)
      have ih := ih (n / 10) (by omega) (by omega)
      rw [Nat.toDigits_of_base_le (by omega) (by omega), hd]
      rw [hd] at ih
      exact ih

theorem unsigned?_toDigits (neg : Bool) {n : Nat} (h : n ≤ word64) : unsigned? neg (Nat.toDigits 10 n) =
    if !neg then some (.int n)
    else if n = 0 || pow2 63 < n then some (.float (Binary64.ofNat n).neg)
    else some (.int (-n)) := by
  have hall : ∀ c ∈ Nat.toDigits 10 n, c.isDigit = true := fun c => isDigit_of_mem_toDigits
  have htake : (Nat.toDigits 10 n).takeWhile Char.isDigit = Nat.toDigits 10 n := by
    rw [List.takeWhile_eq_self_iff]
    exact hall
  have hdrop : (Nat.toDigits 10 n).dropWhile Char.isDigit = [] := List.dropWhile_eq_nil_iff.mpr hall
  have hempty : (Nat.toDigits 10 n).isEmpty = false := by
    obtain ⟨c, cs, hd, -⟩ := exists_toDigits n
    rw [hd]
    rfl
  have hzero : ((Nat.toDigits 10 n).head? = some '0' && (Nat.toDigits 10 n).length ≠ 1) = false := by
    by_cases hn : 0 < n
    · simp [head?_toDigits hn]
    · have : n = 0 := by omega
      subst this
      rfl
  simp only [unsigned?, htake, hdrop, hempty, hzero, digits_held n h]
  simp

theorem number?_int {i : Int} (h : isWord i) : number? (toString i).toList = some (.int i) := by
  obtain ⟨hlo, hhi⟩ := h
  have hpow : (pow2 63 : Int) ≤ word64 := by decide
  rw [toList_toString_int]
  by_cases hi : 0 ≤ i
  · obtain ⟨c, cs, hd, hall⟩ := exists_toDigits i.toNat
    have hsign : c ≠ '-' := by
      rintro rfl
      cases hall
    have hword : i.toNat ≤ word64 := by omega
    rw [if_pos hi, hd, number?.eq_2 _ (fun cs' he => hsign (List.cons.inj he).1), ← hd, unsigned?_toDigits false hword]
    simp only [Bool.not_false, if_true, Int.toNat_of_nonneg hi]
  · have hword : (-i).toNat ≤ word64 := by omega
    have hnonneg : 0 ≤ -i := by omega
    have hin : ((-i).toNat = 0 || pow2 63 < (-i).toNat) = false := by
      simp only [Bool.or_eq_false_iff, decide_eq_false_iff_not]
      omega
    rw [if_neg hi, number?, unsigned?_toDigits true hword, hin]
    simp only [Bool.not_true, Bool.false_eq_true, if_false, Int.toNat_of_nonneg hnonneg, Int.neg_neg]

end Json

end Casework
