import Casework.Proofs.Text.Lines
import Casework.Proofs.Text.Utf8
import Mathlib.Data.List.Basic

/-!
# Only what is written is read

Where no character is cut short, the bytes read for a character are the bytes that write it: no character has a second
spelling. So a text is read from its own bytes and from no others, and the lines of its bytes are the bytes of its lines.
-/

namespace Casework.Text

namespace Utf8

/-! ## First bytes -/

theorem first_stray : ∀ n < 256, 0x80 ≤ n ∧ n < 0xC2 ∨ 0xF5 ≤ n → first (.ofNat n) = ([none], .start) := by
  decide +kernel

theorem first_cases (b : UInt8) :
    (b.toNat < 0x80 ∧ first b = ([some (Char.ofNat b.toNat)], .start)) ∨
    (∃ n < 32, 2 ≤ n ∧ b.toNat = n + 0xC0 ∧ first b = ([], .owed 1 0x80 0xBF n)) ∨
    (∃ n < 16, b.toNat = n + 0xE0 ∧ first b = ([], .owed 2 (secondOfThree n).1 (secondOfThree n).2 n)) ∨
    (∃ n < 5, b.toNat = n + 0xF0 ∧ first b = ([], .owed 3 (secondOfFour n).1 (secondOfFour n).2 n)) ∨
    first b = ([none], .start) := by
  have hlt : b.toNat < 256 := b.toNat_lt
  have hb : b = .ofNat b.toNat := UInt8.ofNat_toNat.symm
  generalize b.toNat = v at hlt hb
  subst b
  by_cases h80 : v < 0x80
  · exact .inl ⟨h80, first_one h80⟩
  by_cases hstray : v < 0xC2 ∨ 0xF5 ≤ v
  · exact .inr (.inr (.inr (.inr (first_stray v hlt (by omega)))))
  by_cases hE0 : v < 0xE0
  · obtain ⟨n, rfl⟩ : ∃ n, v = n + 0xC0 := ⟨v - 0xC0, by omega⟩
    have hfirst := first_two (n := n + 0xC0) (by omega) hE0
    rw [Nat.add_sub_cancel] at hfirst
    exact .inr (.inl ⟨n, by omega, by omega, rfl, hfirst⟩)
  by_cases hF0 : v < 0xF0
  · obtain ⟨n, rfl⟩ : ∃ n, v = n + 0xE0 := ⟨v - 0xE0, by omega⟩
    exact .inr (.inr (.inl ⟨n, by omega, rfl, first_three (by omega)⟩))
  · obtain ⟨n, rfl⟩ : ∃ n, v = n + 0xF0 := ⟨v - 0xF0, by omega⟩
    exact .inr (.inr (.inr (.inl ⟨n, by omega, rfl, first_four (by omega)⟩)))

theorem exists_owed {k : Nat} {lo hi : UInt8} {acc : Nat} {b : Bytes} (h : none ∉ pieces (.owed k lo hi acc) b) :
    ∃ x bs, b = x :: bs ∧ lo.toNat ≤ x.toNat ∧ x.toNat ≤ hi.toNat ∧ pieces (.owed k lo hi acc) b =
      if k ≤ 1 then some (Char.ofNat (acc * 64 + (x.toNat - 0x80))) :: pieces .start bs
      else pieces (.owed (k - 1) 0x80 0xBF (acc * 64 + (x.toNat - 0x80))) bs := by
  cases b with
  | nil => exact absurd List.mem_cons_self h
  | cons x bs =>
    by_cases hin : (lo ≤ x && x ≤ hi) = true
    · have hstep : step x (.owed k lo hi acc) = if k ≤ 1 then ([some (Char.ofNat (acc * 64 + (x.toNat - 0x80)))], .start)
          else ([], .owed (k - 1) 0x80 0xBF (acc * 64 + (x.toNat - 0x80))) := if_pos hin
      rw [Bool.and_eq_true, decide_eq_true_eq, decide_eq_true_eq] at hin
      refine ⟨x, bs, rfl, UInt8.le_iff_toNat_le.mp hin.1, UInt8.le_iff_toNat_le.mp hin.2, ?_⟩
      by_cases hk : k ≤ 1
      · simp only [pieces, hstep, if_pos hk, List.singleton_append]
      · simp only [pieces, hstep, if_neg hk, List.nil_append]
    · have hstep : step x (.owed k lo hi acc) = (none :: (first x).1, (first x).2) := if_neg hin
      rw [pieces, hstep] at h
      exact absurd List.mem_cons_self h

/-! ## Characters of one to four bytes -/

theorem toNat_val_ofNat {n : Nat} (h : n.isValidChar) : (Char.ofNat n).val.toNat = n := by
  rw [Char.ofNat, dif_pos h]
  rfl

theorem ofNat_eq {x : UInt8} {n : Nat} (h : n = x.toNat) : UInt8.ofNat n = x := by rw [h, UInt8.ofNat_toNat]

section
variable {b x y z : UInt8} {n : Nat}

theorem encodeChar_one (hb : b.toNat < 0x80) : String.utf8EncodeChar (Char.ofNat b.toNat) = [b] := by
  unfold String.utf8EncodeChar
  have hval : (Char.ofNat b.toNat).val.toNat = b.toNat := toNat_val_ofNat (.inl (by omega))
  simp only [hval]
  rw [if_pos (by omega), UInt8.ofNat_toNat]

variable (hy : 0x80 ≤ y.toNat) (hy' : y.toNat ≤ 0xBF)
include hy hy'

theorem encodeChar_two (hn : 2 ≤ n) (hn' : n < 32) (hb : b.toNat = n + 0xC0) :
    String.utf8EncodeChar (Char.ofNat (n * 64 + (y.toNat - 0x80))) = [b, y] := by
  unfold String.utf8EncodeChar
  have hval := toNat_val_ofNat (n := n * 64 + (y.toNat - 0x80)) (.inl (by omega))
  simp only [hval]
  rw [if_neg (by omega), if_pos (by omega), ofNat_eq (x := b) (by omega), ofNat_eq (x := y) (by omega)]

theorem encodeChar_three (hn : n < 16) (hb : b.toNat = n + 0xE0) (hx : (secondOfThree n).1.toNat ≤ x.toNat)
    (hx' : x.toNat ≤ (secondOfThree n).2.toNat) :
    String.utf8EncodeChar (Char.ofNat ((n * 64 + (x.toNat - 0x80)) * 64 + (y.toNat - 0x80))) = [b, x, y] := by
  have hbounds := secondOfThree_iff.1 ⟨hx, hx'⟩
  have hvalid : ((n * 64 + (x.toNat - 0x80)) * 64 + (y.toNat - 0x80)).isValidChar := by
    unfold Nat.isValidChar
    omega
  unfold String.utf8EncodeChar
  simp only [toNat_val_ofNat hvalid]
  rw [if_neg (by omega), if_neg (by omega), if_pos (by omega), ofNat_eq (x := b) (by omega), ofNat_eq (x := x) (by omega),
    ofNat_eq (x := y) (by omega)]

theorem encodeChar_four (hz : 0x80 ≤ z.toNat) (hz' : z.toNat ≤ 0xBF) (hn : n < 5) (hb : b.toNat = n + 0xF0)
    (hx : (secondOfFour n).1.toNat ≤ x.toNat) (hx' : x.toNat ≤ (secondOfFour n).2.toNat) :
    String.utf8EncodeChar (Char.ofNat (((n * 64 + (x.toNat - 0x80)) * 64 + (y.toNat - 0x80)) * 64 + (z.toNat - 0x80))) =
      [b, x, y, z] := by
  have hbounds := secondOfFour_iff.1 ⟨hx, hx'⟩
  have hvalid : (((n * 64 + (x.toNat - 0x80)) * 64 + (y.toNat - 0x80)) * 64 + (z.toNat - 0x80)).isValidChar := by
    unfold Nat.isValidChar
    omega
  unfold String.utf8EncodeChar
  simp only [toNat_val_ofNat hvalid]
  rw [if_neg (by omega), if_neg (by omega), if_neg (by omega), ofNat_eq (x := b) (by omega), ofNat_eq (x := x) (by omega),
    ofNat_eq (x := y) (by omega), ofNat_eq (x := z) (by omega)]

end

theorem exists_char {b : UInt8} {bs : Bytes} (h : none ∉ pieces .start (b :: bs)) : ∃ c rest,
    b :: bs = String.utf8EncodeChar c ++ rest ∧ pieces .start (b :: bs) = some c :: pieces .start rest := by
  have hnext : ∀ {st}, first b = ([], st) → none ∉ pieces st bs := by
    intro st hst
    rwa [pieces_first hst] at h
  -- the first byte says how many are owed, and each of them has to come
  rcases first_cases b with ⟨hb, hf⟩ | ⟨n, hn, hn', hb, hf⟩ | ⟨n, hn, hb, hf⟩ | ⟨n, hn, hb, hf⟩ | hf
  · refine ⟨_, bs, by rw [encodeChar_one hb]; rfl, ?_⟩
    rw [pieces, step, hf]
    rfl
  · obtain ⟨y, rest, rfl, hy, hy', hread⟩ := exists_owed (hnext hf)
    refine ⟨_, rest, by rw [encodeChar_two hy hy' hn' hn hb]; rfl, ?_⟩
    rw [pieces_first hf, hread]
    rfl
  · have hwhole := hnext hf
    obtain ⟨x, rest, rfl, hx, hx', hread⟩ := exists_owed hwhole
    rw [if_neg (by decide)] at hread
    rw [hread] at hwhole
    obtain ⟨y, rest, rfl, hy, hy', hread'⟩ := exists_owed hwhole
    refine ⟨_, rest, by rw [encodeChar_three hy hy' hn hb hx hx']; rfl, ?_⟩
    rw [pieces_first hf, hread, hread']
    rfl
  · have hwhole := hnext hf
    obtain ⟨x, rest, rfl, hx, hx', hread⟩ := exists_owed hwhole
    rw [if_neg (by decide)] at hread
    rw [hread] at hwhole
    obtain ⟨y, rest, rfl, hy, hy', hread'⟩ := exists_owed hwhole
    rw [if_neg (by decide)] at hread'
    rw [hread'] at hwhole
    obtain ⟨z, rest, rfl, hz, hz', hread''⟩ := exists_owed hwhole
    refine ⟨_, rest, by rw [encodeChar_four hy hy' hz hz' hn hb hx hx']; rfl, ?_⟩
    rw [pieces_first hf, hread, hread', hread'']
    rfl
  · rw [pieces, step, hf] at h
    exact absurd List.mem_cons_self h

theorem exists_chars {b : Bytes} (h : none ∉ pieces .start b) : ∃ cs : List Char,
    b = cs.flatMap String.utf8EncodeChar := by
  induction hlen : b.length using Nat.strongRecOn generalizing b with
  | _ n ih =>
    cases b with
    | nil => exact ⟨[], rfl⟩
    | cons x bs =>
      obtain ⟨c, rest, hb, hread⟩ := exists_char h
      have hrest : none ∉ pieces .start rest := fun hmem => h (hread ▸ List.mem_cons_of_mem _ hmem)
      have hshort : rest.length < n := by
        have := congrArg List.length hb
        have := String.length_utf8EncodeChar c
        have := c.utf8Size_pos
        rw [List.length_append] at *
        omega
      obtain ⟨cs, rfl⟩ := ih _ hshort hrest rfl
      exact ⟨c :: cs, hb⟩

end Utf8

theorem decode?_eq_some_iff {b : Bytes} {s : String} : decode? b = some s ↔ b = encode s := by
  constructor
  · intro h
    rw [decode?_eq_some] at h
    obtain ⟨cs, rfl⟩ := Utf8.exists_chars (b := b) (by simp [h])
    rw [Utf8.pieces_flatMap] at h
    rw [(List.map_inj_right fun _ _ => Option.some.inj).mp h, encode]
  · rintro rfl
    exact decode?_encode s

/-! ## Lines -/

theorem exists_last {cs : List Char} {n : Nat} (hn : n < 0x80)
    (h : (cs.flatMap String.utf8EncodeChar).getLast? = some (.ofNat n)) : ∃ front, cs = front ++ [Char.ofNat n] := by
  rcases cs.eq_nil_or_concat' with rfl | ⟨front, c, rfl⟩
  · cases h
  · have hne : String.utf8EncodeChar c ≠ [] := String.utf8EncodeChar_ne_nil
    rw [List.flatMap_append, List.flatMap_singleton, List.getLast?_append, List.getLast?_eq_some_getLast hne, Option.some_or,
      Option.some_inj] at h
    have hc : c.toNat = n := (ofNat_mem_encodeChar hn).1 (h ▸ List.getLast_mem hne)
    exact ⟨front, by rw [← hc, Char.ofNat_toNat]⟩

theorem dropReturn_encode (cs : List Char) : (dropReturn 13 (cs.flatMap String.utf8EncodeChar).reverse).reverse =
    (dropReturn '\r' cs.reverse).reverse.flatMap String.utf8EncodeChar := by
  by_cases h : (cs.flatMap String.utf8EncodeChar).getLast? = some 13
  · obtain ⟨front, rfl⟩ := exists_last (n := 13) (by decide) h
    rw [List.flatMap_append]
    simp [dropReturn, String.utf8EncodeChar]
  · have hlast : cs.getLast? ≠ some '\r' := by
      intro hlast
      obtain ⟨front, rfl⟩ := List.getLast?_eq_some_iff.1 hlast
      rw [List.flatMap_append] at h
      simp [String.utf8EncodeChar] at h
    rw [dropReturn_of_last h, dropReturn_of_last hlast, List.reverse_reverse, List.reverse_reverse]

theorem chomp_encode (cs : List Char) : chomp 10 13 (cs.flatMap String.utf8EncodeChar) =
    (chomp '\n' '\r' cs).flatMap String.utf8EncodeChar := by
  by_cases h : (cs.flatMap String.utf8EncodeChar).getLast? = some 10
  · obtain ⟨front, rfl⟩ := exists_last (n := 10) (by decide) h
    have hbytes : (front ++ [Char.ofNat 10]).flatMap String.utf8EncodeChar =
        front.flatMap String.utf8EncodeChar ++ [10] := by
      rw [List.flatMap_append]
      rfl
    rw [hbytes, chomp_concat, dropReturn_encode]
    exact congrArg (List.flatMap String.utf8EncodeChar) (chomp_concat front).symm
  · have hlast : cs.getLast? ≠ some '\n' := by
      intro hlast
      obtain ⟨front, rfl⟩ := List.getLast?_eq_some_iff.1 hlast
      rw [List.flatMap_append] at h
      simp [String.utf8EncodeChar] at h
    rw [chomp_of_last h, chomp_of_last hlast]

theorem decode?_chomp (b : Bytes) :
    decode? (chomp 10 13 b) = (decode? b).map fun s => .ofList (chomp '\n' '\r' s.toList) := by
  cases h : decode? b with
  | some s =>
    rw [decode?_eq_some_iff] at h
    rw [h, encode, chomp_encode, Option.map_some, decode?_eq_some_iff, encode, String.toList_ofList]
  | none =>
    obtain ⟨tail, hb, htail⟩ := exists_chomp 10 13 b
    obtain ⟨u, hu⟩ : ∃ u, decode? tail = some u := by
      rcases htail with rfl | rfl | rfl
      · exact ⟨"", rfl⟩
      · exact ⟨"\n", by decide⟩
      · exact ⟨"\r\n", by decide⟩
    cases hs : decode? (chomp 10 13 b) with
    | none => rfl
    | some s =>
      have hread := decode?_append hs hu
      rw [← hb, h] at hread
      cases hread

theorem firstLine_encode (cs : List Char) :
    firstLine 10 (cs.flatMap String.utf8EncodeChar) = (firstLine '\n' cs).flatMap String.utf8EncodeChar ∧
      behindFirst 10 (cs.flatMap String.utf8EncodeChar) = (behindFirst '\n' cs).flatMap String.utf8EncodeChar := by
  have hbytes : ∀ {l : List Char}, '\n' ∉ l → 10 ∉ l.flatMap String.utf8EncodeChar := by
    intro l hl hmem
    obtain ⟨c, hc, hten⟩ := List.mem_flatMap.1 hmem
    have hchar : c = '\n' := Char.toNat_inj.1 ((ofNat_mem_encodeChar (n := 10) (by decide)).1 hten)
    exact hl (hchar ▸ hc)
  obtain ⟨l, hl, rfl | ⟨rest, rfl⟩⟩ := exists_line '\n' cs
  · rw [firstLine_open hl, behindFirst_open hl, firstLine_open (hbytes hl), behindFirst_open (hbytes hl)]
    exact ⟨rfl, rfl⟩
  · have hsplit : (l ++ '\n' :: rest).flatMap String.utf8EncodeChar =
        l.flatMap String.utf8EncodeChar ++ 10 :: rest.flatMap String.utf8EncodeChar := by
      rw [List.flatMap_append]
      rfl
    rw [hsplit, firstLine_line hl, behindFirst_line hl, firstLine_line (hbytes hl), behindFirst_line (hbytes hl),
      List.flatMap_append]
    exact ⟨rfl, rfl⟩

theorem byteLines_encode (cs : List Char) : byteLines (cs.flatMap String.utf8EncodeChar) =
    (lines cs).map (List.flatMap String.utf8EncodeChar) := by
  induction hlen : cs.length using Nat.strongRecOn generalizing cs with
  | _ n ih =>
    by_cases hcs : cs = []
    · rw [hcs]
      rfl
    · have hne : cs.flatMap String.utf8EncodeChar ≠ [] := by
        obtain ⟨c, cs, rfl⟩ := List.exists_cons_of_ne_nil hcs
        rw [List.flatMap_cons]
        exact List.append_ne_nil_of_left_ne_nil String.utf8EncodeChar_ne_nil _
      have hshort : (behindFirst '\n' cs).length < n := hlen ▸ length_behindFirst hcs
      rw [byteLines, linesOf_first hne, (firstLine_encode cs).1, (firstLine_encode cs).2, chomp_encode, lines,
        linesOf_first hcs, List.map_cons]
      exact congrArg (_ :: ·) (ih _ hshort _ rfl)

end Casework.Text
