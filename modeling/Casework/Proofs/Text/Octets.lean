import Casework.Proofs.Text.Utf8
import Casework.Text.Utf8

/-!
# Octets of a text

The octets of a text are those of its characters one after the other. A character of ASCII is its own octet, and no
other has an octet of ASCII. The bytes that they stand for write the text.
-/

namespace Casework.Text

def charOctets (c : Char) : List Char := (String.utf8EncodeChar c).map fun x => Char.ofNat x.toNat

theorem charOctets_ascii {c : Char} (h : c.toNat < 128) : charOctets c = [c] := by
  have hbyte : String.utf8EncodeChar c = [UInt8.ofNat c.toNat] := by
    have hle : c.val.toNat ≤ 0x7F := Nat.le_of_lt_succ h
    simp only [String.utf8EncodeChar, if_pos hle]
    rfl
  rw [charOctets, hbyte, List.map_singleton, toNat_byte (by omega), Char.ofNat_toNat]

theorem toNat_octet (x : UInt8) : (Char.ofNat x.toNat).toNat = x.toNat := by
  have hsize : x.toNat < 256 := x.toNat_lt
  have hvalid : x.toNat.isValidChar := .inl (by omega)
  rw [Char.ofNat, dif_pos hvalid]
  rfl

theorem le_of_mem_charOctets {c d : Char} (h : 128 ≤ c.toNat) (hd : d ∈ charOctets c) : 128 ≤ d.toNat := by
  obtain ⟨x, hx, rfl⟩ := List.mem_map.1 hd
  rw [toNat_octet]
  refine Classical.byContradiction fun hlt => ?_
  have hmem : UInt8.ofNat x.toNat ∈ String.utf8EncodeChar c := by rwa [UInt8.ofNat_toNat]
  have := (ofNat_mem_encodeChar (by omega)).1 hmem
  omega

theorem toList_toOctets (s : String) : (toOctets s).toList = s.toList.flatMap charOctets := by
  rw [toOctets]
  split
  · rename_i hascii
    have hself : ∀ cs : List Char, (∀ c ∈ cs, c.toNat < 128) → cs.flatMap charOctets = cs := by
      intro cs hcs
      induction cs with
      | nil => rfl
      | cons c cs ih =>
        obtain ⟨hc, hcs⟩ := List.forall_mem_cons.1 hcs
        rw [List.flatMap_cons, charOctets_ascii hc, ih hcs]
        rfl
    exact (hself _ (by simpa using hascii)).symm
  · rw [octets, String.toList_ofList, encode, List.map_flatMap]
    rfl

theorem ofOctets_toOctets (s : String) : ofOctets (toOctets s) = encode s := by
  have hbytes : ∀ c, (charOctets c).map (fun d => UInt8.ofNat d.toNat) = String.utf8EncodeChar c := by
    intro c
    rw [charOctets, List.map_map]
    have hbyte : ∀ x : UInt8, UInt8.ofNat (Char.ofNat x.toNat).toNat = x := by
      intro x
      rw [toNat_octet, UInt8.ofNat_toNat]
    simp [Function.comp_def, hbyte]
  rw [ofOctets, toList_toOctets, List.map_flatMap, encode]
  exact congrArg (fun f => s.toList.flatMap f) (funext hbytes)

/-! ## Octets of a path -/

theorem pathChars_append {bs : Bytes} (h : 47 ∉ bs) (segment rest : Bytes) :
    pathChars segment (bs ++ rest) = pathChars (bs.reverse ++ segment) rest := by
  induction bs generalizing segment with
  | nil => rfl
  | cons b bs ih =>
    rw [List.mem_cons, not_or] at h
    rw [List.cons_append, pathChars, if_neg (Ne.symm h.1), ih h.2, List.reverse_cons, List.append_assoc,
      List.singleton_append]

theorem segmentName_encode (cs : List Char) : segmentName (cs.flatMap String.utf8EncodeChar) = cs := by
  have hread := decode?_encode (.ofList cs)
  rw [encode, String.toList_ofList] at hread
  rw [segmentName, hread]
  exact String.toList_ofList

theorem pathChars_encode (before cs : List Char) :
    pathChars (before.flatMap String.utf8EncodeChar).reverse (cs.flatMap String.utf8EncodeChar) = before ++ cs := by
  induction cs generalizing before with
  | nil => rw [List.flatMap_nil, pathChars, List.reverse_reverse, segmentName_encode, List.append_nil]
  | cons c cs ih =>
    rw [List.flatMap_cons]
    by_cases hc : c = '/'
    · subst hc
      have hslash : String.utf8EncodeChar '/' = [47] := by decide
      rw [hslash, List.singleton_append, pathChars, if_pos rfl, List.reverse_reverse, segmentName_encode]
      exact congrArg (before ++ '/' :: ·) (ih [])
    · have hnone : 47 ∉ String.utf8EncodeChar c := by
        intro hmem
        exact hc (Char.toNat_inj.1 ((ofNat_mem_encodeChar (n := 47) (by decide)).1 hmem))
      have hmore := ih (before ++ [c])
      rw [List.flatMap_append, List.flatMap_singleton, List.reverse_append, List.append_assoc] at hmore
      rw [pathChars_append hnone, hmore, List.singleton_append]

theorem pathOf_toOctets (p : String) : pathOf (toOctets p) = p := by
  by_cases hascii : p.toList.all (·.toNat < 128) = true
  · rw [toOctets, if_pos hascii, pathOf, if_pos hascii]
  · have hfar : ¬ (toOctets p).toList.all (·.toNat < 128) = true := by
      rw [List.all_eq_true] at hascii ⊢
      intro hall
      refine hascii fun c hc => decide_eq_true (Classical.byContradiction fun hlarge => ?_)
      obtain ⟨b, hb⟩ := List.exists_mem_of_ne_nil _ (String.utf8EncodeChar_ne_nil (c := c))
      have hoctet : Char.ofNat b.toNat ∈ charOctets c := List.mem_map_of_mem hb
      have hmem : Char.ofNat b.toNat ∈ (toOctets p).toList := by
        rw [toList_toOctets, List.mem_flatMap]
        exact ⟨c, hc, hoctet⟩
      have hle := le_of_mem_charOctets (Nat.le_of_not_lt hlarge) hoctet
      have hlt := of_decide_eq_true (hall _ hmem)
      omega
    rw [pathOf, if_neg hfar, ofOctets_toOctets, encode]
    exact (congrArg String.ofList (pathChars_encode [] p.toList)).trans String.ofList_toList

theorem slash_mem_toOctets {p : String} : '/' ∈ (toOctets p).toList ↔ '/' ∈ p.toList := by
  rw [toList_toOctets, List.mem_flatMap]
  constructor
  · rintro ⟨c, hc, hslash⟩
    by_cases hsmall : c.toNat < 128
    · rw [charOctets_ascii hsmall, List.mem_singleton] at hslash
      rwa [hslash]
    · have := le_of_mem_charOctets (Nat.le_of_not_lt hsmall) hslash
      exact absurd this (by decide)
  · intro hslash
    exact ⟨'/', hslash, List.mem_singleton.2 rfl⟩

theorem slash_mem_pathChars {bs : Bytes} (h : 47 ∈ bs) (segment : Bytes) : '/' ∈ pathChars segment bs := by
  induction bs generalizing segment with
  | nil => cases h
  | cons b bs ih =>
    rw [pathChars]
    split
    · exact List.mem_append_right _ List.mem_cons_self
    · rename_i hb
      exact ih ((List.mem_cons.1 h).resolve_left (Ne.symm hb)) _

theorem slash_mem_pathOf {o : String} (h : '/' ∈ o.toList) : '/' ∈ (pathOf o).toList := by
  rw [pathOf]
  split
  · exact h
  · rw [String.toList_ofList]
    exact slash_mem_pathChars (List.mem_map.2 ⟨'/', h, rfl⟩) []

end Casework.Text
