import Mathlib.Tactic.SplitIfs
import Casework.Text.Utf8

/-!
# Reading back what was encoded

The bytes of a character lead the reader from one place between characters to the next, and what it reads
on the way is that character. So every text is the one that its bytes write, and names compare like their
bytes.
-/

namespace Casework.Text

theorem toNat_byte {n : Nat} (h : n < 256) : (UInt8.ofNat n).toNat = n := UInt8.toNat_ofNat_of_lt' h

namespace Utf8

/-! ## First bytes -/

theorem first_one {n : Nat} (h : n < 0x80) : first (.ofNat n) = ([some (Char.ofNat n)], .start) := by
  have hn : (UInt8.ofNat n).toNat = n := toNat_byte (by omega)
  simp [first, UInt8.lt_iff_toNat_lt, hn, h]

theorem first_two {n : Nat} (hlo : 0xC2 ≤ n) (hhi : n < 0xE0) :
    first (.ofNat n) = ([], .owed 1 0x80 0xBF (n - 0xC0)) := by
  have hn : (UInt8.ofNat n).toNat = n := toNat_byte (by omega)
  have h80 : ¬ n < 0x80 := by omega
  have hC2 : ¬ n < 0xC2 := by omega
  simp [first, UInt8.lt_iff_toNat_lt, hn, h80, hC2, hhi]

/-- What the second of three bytes may be, for the bits that the first one holds. -/
def secondOfThree (n : Nat) : UInt8 × UInt8 :=
  if n = 0 then (0xA0, 0xBF) else if n = 0xD then (0x80, 0x9F) else (0x80, 0xBF)

theorem secondOfThree_iff {n m : Nat} : (secondOfThree n).1.toNat ≤ m ∧ m ≤ (secondOfThree n).2.toNat ↔
    0x80 ≤ m ∧ m ≤ 0xBF ∧ (n = 0 → 0xA0 ≤ m) ∧ (n = 0xD → m ≤ 0x9F) := by
  unfold secondOfThree
  by_cases h0 : n = 0
  · rw [if_pos h0]
    show 0xA0 ≤ m ∧ m ≤ 0xBF ↔ _
    omega
  · rw [if_neg h0]
    by_cases hD : n = 0xD
    · rw [if_pos hD]
      show 0x80 ≤ m ∧ m ≤ 0x9F ↔ _
      omega
    · rw [if_neg hD]
      show 0x80 ≤ m ∧ m ≤ 0xBF ↔ _
      omega

theorem first_three {n : Nat} (h : n < 16) : first (.ofNat (n + 0xE0)) =
    ([], .owed 2 (secondOfThree n).1 (secondOfThree n).2 n) := by
  revert n
  decide

def secondOfFour (n : Nat) : UInt8 × UInt8 :=
  if n = 0 then (0x90, 0xBF) else if n = 4 then (0x80, 0x8F) else (0x80, 0xBF)

theorem secondOfFour_iff {n m : Nat} : (secondOfFour n).1.toNat ≤ m ∧ m ≤ (secondOfFour n).2.toNat ↔
    0x80 ≤ m ∧ m ≤ 0xBF ∧ (n = 0 → 0x90 ≤ m) ∧ (n = 4 → m ≤ 0x8F) := by
  unfold secondOfFour
  by_cases h0 : n = 0
  · rw [if_pos h0]
    show 0x90 ≤ m ∧ m ≤ 0xBF ↔ _
    omega
  · rw [if_neg h0]
    by_cases h4 : n = 4
    · rw [if_pos h4]
      show 0x80 ≤ m ∧ m ≤ 0x8F ↔ _
      omega
    · rw [if_neg h4]
      show 0x80 ≤ m ∧ m ≤ 0xBF ↔ _
      omega

theorem first_four {n : Nat} (h : n < 5) : first (.ofNat (n + 0xF0)) =
    ([], .owed 3 (secondOfFour n).1 (secondOfFour n).2 n) := by
  revert n
  decide

/-! ## Bytes that are owed -/

section
variable {lo hi : UInt8} {acc n : Nat} {bs : Bytes} (hn : n < 64) (hlo : lo.toNat ≤ n + 0x80)
  (hhi : n + 0x80 ≤ hi.toNat)
include hn hlo hhi

theorem step_owed (k : Nat) : step (.ofNat (n + 0x80)) (.owed k lo hi acc) =
    if k ≤ 1 then ([some (Char.ofNat (acc * 64 + n))], .start) else ([], .owed (k - 1) 0x80 0xBF (acc * 64 + n)) := by
  have hb : (UInt8.ofNat (n + 0x80)).toNat = n + 0x80 := toNat_byte (by omega)
  have hin : (lo ≤ UInt8.ofNat (n + 0x80) && UInt8.ofNat (n + 0x80) ≤ hi) = true := by
    rw [Bool.and_eq_true, decide_eq_true_eq, decide_eq_true_eq, UInt8.le_iff_toNat_le, UInt8.le_iff_toNat_le, hb]
    exact ⟨hlo, hhi⟩
  rw [step, if_pos hin, hb, Nat.add_sub_cancel]

theorem pieces_last : pieces (.owed 1 lo hi acc) (.ofNat (n + 0x80) :: bs) =
    some (Char.ofNat (acc * 64 + n)) :: pieces .start bs := by
  rw [pieces, step_owed hn hlo hhi]
  rfl

theorem pieces_next (k : Nat) : pieces (.owed (k + 2) lo hi acc) (.ofNat (n + 0x80) :: bs) =
    pieces (.owed (k + 1) 0x80 0xBF (acc * 64 + n)) bs := by
  rw [pieces, step_owed hn hlo hhi, if_neg (by omega)]
  rfl

end

/-! ## Characters -/

theorem pieces_first {b : UInt8} {st : State} (h : first b = ([], st)) (bs : Bytes) :
    pieces .start (b :: bs) = pieces st bs := by
  rw [pieces, step, h]
  rfl

theorem pieces_encodeChar (c : Char) (bs : Bytes) :
    pieces .start (String.utf8EncodeChar c ++ bs) = some c :: pieces .start bs := by
  have hv : c.val.toNat < 0xD800 ∨ 0xDFFF < c.val.toNat ∧ c.val.toNat < 0x110000 := by
    have := c.valid
    simpa only [UInt32.isValidChar, Nat.isValidChar] using this
  have hc : Char.ofNat c.val.toNat = c := Char.ofNat_toNat c
  unfold String.utf8EncodeChar
  generalize c.val.toNat = v at *
  have h80 : (0x80 : UInt8).toNat = 0x80 := rfl
  have hBF : (0xBF : UInt8).toNat = 0xBF := rfl
  -- one case for each length; in each the bits of the bytes make the value up again
  by_cases h1 : v ≤ 0x7F
  · simp only [if_pos h1, List.cons_append, List.nil_append]
    rw [pieces, step, first_one (by omega), hc]
    rfl
  by_cases h2 : v ≤ 0x7FF
  · have hacc : (v / 64 % 32 + 192 - 0xC0) * 64 + v % 64 = v := by omega
    simp only [if_neg h1, if_pos h2, List.cons_append, List.nil_append]
    rw [pieces_first (first_two (by omega) (by omega)), pieces_last (by omega) (by omega) (by omega), hacc, hc]
  by_cases h3 : v ≤ 0xFFFF
  · have hlead : v / 4096 % 16 < 16 := by omega
    -- a value that needs three bytes is not below 0x800, and no surrogate
    have hsecond := (secondOfThree_iff (n := v / 4096 % 16) (m := v / 64 % 64 + 128)).2 (by omega)
    have hacc : (v / 4096 % 16 * 64 + v / 64 % 64) * 64 + v % 64 = v := by omega
    simp only [if_neg h1, if_neg h2, if_pos h3, List.cons_append, List.nil_append]
    rw [pieces_first (first_three hlead), pieces_next (by omega) hsecond.1 hsecond.2,
      pieces_last (by omega) (by omega) (by omega), hacc, hc]
  · have hlead : v / 262144 % 8 < 5 := by omega
    have hsecond := (secondOfFour_iff (n := v / 262144 % 8) (m := v / 4096 % 64 + 128)).2 (by omega)
    have hacc : ((v / 262144 % 8 * 64 + v / 4096 % 64) * 64 + v / 64 % 64) * 64 + v % 64 = v := by omega
    simp only [if_neg h1, if_neg h2, if_neg h3, List.cons_append, List.nil_append]
    rw [pieces_first (first_four hlead), pieces_next (by omega) hsecond.1 hsecond.2,
      pieces_next (by omega) (by omega) (by omega), pieces_last (by omega) (by omega) (by omega), hacc, hc]

theorem pieces_flatMap : ∀ cs : List Char, pieces .start (cs.flatMap String.utf8EncodeChar) = cs.map some
  | [] => rfl
  | c :: cs => by rw [List.flatMap_cons, pieces_encodeChar, pieces_flatMap cs, List.map_cons]

theorem pieces_append {st : State} {b : Bytes} (h : none ∉ pieces st b) (rest : Bytes) :
    pieces st (b ++ rest) = pieces st b ++ pieces .start rest := by
  induction b generalizing st with
  | nil =>
    cases st with
    | start => rfl
    | owed n lo hi acc => exact absurd List.mem_cons_self h
  | cons x b ih =>
    rw [pieces, List.mem_append, not_or] at h
    simp only [List.cons_append, pieces, ih h.2, List.append_assoc]

end Utf8

/-! ## Texts -/

theorem mapM_id_eq_some {α : Type} {ps : List (Option α)} {cs : List α} : ps.mapM id = some cs ↔ ps = cs.map some := by
  induction ps generalizing cs with
  | nil => cases cs <;> simp
  | cons p ps ih =>
    cases p with
    | none => cases cs <;> simp
    | some c =>
      have hstep : (some c :: ps).mapM id = (ps.mapM id).map (c :: ·) := by
        rw [List.mapM_cons]
        cases ps.mapM id <;> rfl
      rw [hstep, Option.map_eq_some_iff]
      constructor
      · rintro ⟨cs, hcs, rfl⟩
        rw [ih.1 hcs, List.map_cons]
      · intro h
        cases cs with
        | nil => cases h
        | cons d cs =>
          cases h
          exact ⟨cs, ih.2 rfl, rfl⟩

theorem decode?_eq_some {b : Bytes} {s : String} : decode? b = some s ↔ Utf8.pieces .start b = s.toList.map some := by
  rw [decode?, Option.map_eq_some_iff]
  constructor
  · rintro ⟨cs, hcs, rfl⟩
    rw [String.toList_ofList]
    exact mapM_id_eq_some.1 hcs
  · intro h
    exact ⟨s.toList, mapM_id_eq_some.2 h, String.ofList_toList⟩

theorem decode?_encode (s : String) : decode? (encode s) = some s := by
  rw [decode?_eq_some, encode, Utf8.pieces_flatMap]

theorem encode_ne_nil {s : String} (h : s ≠ "") : encode s ≠ [] := by
  intro hnil
  have hread := decode?_encode s
  rw [hnil] at hread
  cases hread
  exact h rfl

theorem decode?_append {b c : Bytes} {s u : String} (hb : decode? b = some s) (hc : decode? c = some u) :
    decode? (b ++ c) = some (s ++ u) := by
  rw [decode?_eq_some] at hb hc ⊢
  have hwhole : none ∉ Utf8.pieces .start b := by simp [hb]
  rw [Utf8.pieces_append hwhole, hb, hc, String.toList_append, List.map_append]

/-! ## Bytes of one character -/

theorem ofNat_mem_encodeChar {c : Char} {n : Nat} (hn : n < 0x80) :
    UInt8.ofNat n ∈ String.utf8EncodeChar c ↔ c.toNat = n := by
  have hv : c.val.toNat < 0x110000 := by
    have := c.valid
    simp only [UInt32.isValidChar, Nat.isValidChar] at this
    omega
  change _ ↔ c.val.toNat = n
  unfold String.utf8EncodeChar
  generalize c.val.toNat = v at *
  have hne : ∀ m, m < 256 → (UInt8.ofNat n = UInt8.ofNat m ↔ n = m) := by
    intro m hm
    rw [← UInt8.toNat_inj, toNat_byte (by omega), toNat_byte hm]
  by_cases h1 : v ≤ 0x7F
  · simp only [if_pos h1, List.mem_singleton]
    rw [hne v (by omega)]
    omega
  -- of a longer character every byte lies beyond ASCII
  · have hfar : ¬ v = n := by omega
    simp only [if_neg h1, hfar, iff_false]
    split
    · simp only [List.mem_cons, List.not_mem_nil, or_false]
      rw [hne _ (by omega), hne _ (by omega)]
      omega
    · split
      · simp only [List.mem_cons, List.not_mem_nil, or_false]
        rw [hne _ (by omega), hne _ (by omega), hne _ (by omega)]
        omega
      · simp only [List.mem_cons, List.not_mem_nil, or_false]
        rw [hne _ (by omega), hne _ (by omega), hne _ (by omega), hne _ (by omega)]
        omega

theorem ofNat_mem_encode {s : String} {n : Nat} (hn : n < 0x80) :
    UInt8.ofNat n ∈ encode s ↔ ∃ c ∈ s.toList, c.toNat = n := by
  rw [encode, List.mem_flatMap]
  exact exists_congr fun c => and_congr_right fun _ => ofNat_mem_encodeChar hn

/-! ## The order of names

Texts compare by code points. UTF-8 keeps that order: of two encoded characters the first byte that
differs decides, whatever follows.
-/

theorem ofNat_cons_lt {a b : Nat} (ha : a < 256) (hb : b < 256) {l l' : Bytes} :
    UInt8.ofNat a :: l < UInt8.ofNat b :: l' ↔ a < b ∨ a = b ∧ l < l' := by
  rw [List.cons_lt_cons_iff, UInt8.lt_iff_toNat_lt, ← UInt8.toNat_inj, UInt8.toNat_ofNat_of_lt' ha,
    UInt8.toNat_ofNat_of_lt' hb]

theorem utf8EncodeChar_append_lt {c d : Char} (h : c < d) (r r' : Bytes) :
    String.utf8EncodeChar c ++ r < String.utf8EncodeChar d ++ r' := by
  have hv : c.val.toNat < d.val.toNat := h
  have hd : d.val.toNat < 0x110000 := by
    have := d.valid
    simp only [UInt32.isValidChar, Nat.isValidChar] at this
    omega
  unfold String.utf8EncodeChar
  generalize c.val.toNat = v at *
  generalize d.val.toNat = w at *
  have hdiv : ∀ n, n / 4096 = n / 64 / 64 ∧ n / 262144 = n / 64 / 64 / 64 := by omega
  simp only [hdiv]
  -- one case for each pair of lengths, the first byte decides between different ones
  split_ifs <;> (simp (disch := omega) only [List.cons_append, List.nil_append, ofNat_cons_lt]; omega)

theorem flatMap_lt_flatMap {l l' : List Char} (h : l < l') :
    l.flatMap String.utf8EncodeChar < l'.flatMap String.utf8EncodeChar := by
  induction h with
  | nil =>
    rename_i d l'
    rw [List.flatMap_cons]
    obtain ⟨b, bs, hb⟩ := List.exists_cons_of_ne_nil (String.utf8EncodeChar_ne_nil (c := d))
    rw [hb]
    exact List.nil_lt_cons _ _
  | rel h =>
    rw [List.flatMap_cons, List.flatMap_cons]
    exact utf8EncodeChar_append_lt h _ _
  | cons _ ih =>
    rw [List.flatMap_cons, List.flatMap_cons]
    exact List.append_left_lt ih

theorem encode_lt_encode {s t : String} : encode s < encode t ↔ s < t := by
  constructor
  · intro h
    rcases Std.lt_trichotomy s t with hst | rfl | hst
    · exact hst
    · exact absurd h (List.lt_irrefl _)
    · exact absurd h (List.lt_asymm (flatMap_lt_flatMap hst))
  · exact fun h => flatMap_lt_flatMap h

end Casework.Text
