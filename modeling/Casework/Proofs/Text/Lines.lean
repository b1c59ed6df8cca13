import Casework.Text.Blank
import Mathlib.Data.List.TakeWhile

/-!
# Trimmed texts and framed lines

A trimmed text is one that trimming leaves alone. Texts without a line feed, of which none ends in a carriage
return, are the lines of what they give one after the other, each with a line feed behind it.
-/

namespace Casework.Text

/-! ## Trimming -/

structure Trimmed (s : List Char) : Prop where
  head : ∀ c ∈ s.head?, isBlank c = false
  last : ∀ c ∈ s.getLast?, isBlank c = false

theorem dropWhile_of_head {s : List Char} (h : ∀ c ∈ s.head?, isBlank c = false) : s.dropWhile isBlank = s := by
  cases s with
  | nil => rfl
  | cons c s => rw [List.dropWhile_cons, h c rfl, if_neg Bool.false_ne_true]

theorem head_dropWhile (s : List Char) : ∀ c ∈ (s.dropWhile isBlank).head?, isBlank c = false := by
  intro c hc
  have hhead := List.head?_dropWhile_not isBlank s
  rw [hc] at hhead
  exact hhead

theorem trimEnd_of_last {s : List Char} (h : ∀ c ∈ s.getLast?, isBlank c = false) : trimEnd s = s := by
  rw [trimEnd, dropWhile_of_head, List.reverse_reverse]
  rwa [List.head?_reverse]

theorem trim_eq_self {s : List Char} (h : Trimmed s) : trim s = s := by
  rw [trim, dropWhile_of_head h.head, trimEnd_of_last h.last]

theorem trimEnd_append (s : List Char) : ∃ blanks, s = trimEnd s ++ blanks ∧ blanks.all isBlank := by
  refine ⟨(s.reverse.takeWhile isBlank).reverse, ?_, ?_⟩
  · rw [trimEnd, ← List.reverse_append, List.takeWhile_append_dropWhile, List.reverse_reverse]
  · rw [List.all_reverse]
    exact List.all_takeWhile

theorem trimmed_trim (s : List Char) : Trimmed (trim s) := by
  constructor
  · intro c hc
    obtain ⟨blanks, hs, -⟩ := trimEnd_append (s.dropWhile isBlank)
    refine head_dropWhile s c ?_
    rw [hs, List.head?_append]
    change c ∈ (trim s).head?.or _
    rw [hc]
    rfl
  · intro c hc
    rw [trim, trimEnd, List.getLast?_reverse] at hc
    exact head_dropWhile _ c hc

theorem mem_of_mem_trim {s : List Char} {c : Char} (h : c ∈ trim s) : c ∈ s := by
  have hrev := (List.dropWhile_suffix isBlank).subset (List.mem_reverse.mp h)
  exact (List.dropWhile_suffix isBlank).subset (List.mem_reverse.mp hrev)

theorem trim_eq_nil {s : List Char} : trim s = [] ↔ s.all isBlank := by
  constructor
  · intro h
    obtain ⟨blanks, hs, hb⟩ := trimEnd_append (s.dropWhile isBlank)
    have hrest : s.dropWhile isBlank = blanks := by
      rw [hs]
      change trim s ++ blanks = blanks
      rw [h, List.nil_append]
    rw [← List.takeWhile_append_dropWhile (p := isBlank) (l := s), List.all_append, List.all_takeWhile, hrest, hb]
    rfl
  · intro h
    have hnil : s.dropWhile isBlank = [] := by simpa using h
    rw [trim, hnil]
    rfl

theorem trim_concat {c : Char} (h : isBlank c = true) (s : List Char) : trim (s ++ [c]) = trim s := by
  have hend : ∀ t, trimEnd (t ++ [c]) = trimEnd t := by
    intro t
    rw [trimEnd, List.reverse_append, List.reverse_singleton, List.singleton_append, List.dropWhile_cons, if_pos h,
      trimEnd]
  rw [trim, List.dropWhile_append, trim]
  split
  · rename_i hnil
    rw [List.isEmpty_iff.1 hnil, List.dropWhile_cons, if_pos h, List.dropWhile_nil]
  · exact hend _

theorem trim_dropReturn (l : List Char) : trim (dropReturn '\r' l).reverse = trim l.reverse := by
  cases l with
  | nil => rfl
  | cons c l =>
    rw [dropReturn]
    split
    · rename_i hc
      rw [hc, List.reverse_cons, trim_concat (by decide)]
    · rfl

/-! ## Lines -/

section
variable {α : Type} [DecidableEq α] {lf cr : α}

theorem linesFrom_line {l : List α} (h : lf ∉ l) (acc rest : List α) : linesFrom lf cr acc (l ++ lf :: rest) =
    (dropReturn cr (l.reverse ++ acc)).reverse :: linesFrom lf cr [] rest := by
  induction l generalizing acc with
  | nil => simp [linesFrom]
  | cons c l ih =>
    rw [List.mem_cons, not_or] at h
    rw [List.cons_append, linesFrom, if_neg (Ne.symm h.1), ih h.2]
    simp

theorem dropReturn_of_last {l : List α} (h : l.getLast? ≠ some cr) : dropReturn cr l.reverse = l.reverse := by
  rw [← List.head?_reverse] at h
  cases hl : l.reverse with
  | nil => rfl
  | cons c s =>
    rw [hl] at h
    exact if_neg fun hc => h (congrArg some hc)

theorem linesOf_framed {ls : List (List α)} (h : ∀ l ∈ ls, lf ∉ l ∧ l.getLast? ≠ some cr) :
    linesOf lf cr (ls.flatMap (· ++ [lf])) = ls := by
  induction ls with
  | nil => rfl
  | cons l ls ih =>
    obtain ⟨hl, hls⟩ := List.forall_mem_cons.1 h
    have hrest : linesFrom lf cr [] (ls.flatMap (· ++ [lf])) = ls := ih hls
    rw [linesOf, List.flatMap_cons, List.append_assoc, List.singleton_append, linesFrom_line hl.1, List.append_nil,
      dropReturn_of_last hl.2, hrest, List.reverse_reverse]

theorem dropReturn_suffix (cr : α) (l : List α) : dropReturn cr l <:+ l := by
  cases l with
  | nil => exact List.suffix_refl _
  | cons c l =>
    rw [dropReturn]
    split
    · exact List.suffix_cons c l
    · exact List.suffix_refl _

theorem not_mem_of_mem_linesFrom {s acc l : List α} (hacc : lf ∉ acc) (h : l ∈ linesFrom lf cr acc s) : lf ∉ l := by
  induction s generalizing acc with
  | nil =>
    rw [linesFrom] at h
    split at h
    · cases h
    · cases List.mem_singleton.1 h
      simpa using hacc
  | cons c s ih =>
    rw [linesFrom] at h
    split at h
    · rcases List.mem_cons.1 h with rfl | h
      · intro hmem
        exact hacc ((dropReturn_suffix cr acc).subset (List.mem_reverse.1 hmem))
      · exact ih List.not_mem_nil h
    · rename_i hc
      refine ih (fun hmem => ?_) h
      rcases List.mem_cons.1 hmem with rfl | hmem
      · exact hc rfl
      · exact hacc hmem

theorem not_mem_of_mem_linesOf {s l : List α} (h : l ∈ linesOf lf cr s) : lf ∉ l :=
  not_mem_of_mem_linesFrom List.not_mem_nil h

theorem mem_of_mem_linesFrom {s acc l : List α} {c : α} (h : l ∈ linesFrom lf cr acc s) (hc : c ∈ l) :
    c ∈ acc ∨ c ∈ s := by
  induction s generalizing acc with
  | nil =>
    rw [linesFrom] at h
    split at h
    · cases h
    · cases List.mem_singleton.1 h
      exact .inl (List.mem_reverse.1 hc)
  | cons d s ih =>
    rw [linesFrom] at h
    split at h
    · rcases List.mem_cons.1 h with rfl | h
      · exact .inl ((dropReturn_suffix cr acc).subset (List.mem_reverse.1 hc))
      · exact .inr (List.mem_cons_of_mem _ ((ih h).resolve_left List.not_mem_nil))
    · rcases ih h with hacc | hs
      · exact (List.mem_cons.1 hacc).elim (fun hd => .inr (hd ▸ List.mem_cons_self)) .inl
      · exact .inr (List.mem_cons_of_mem _ hs)

theorem mem_of_mem_linesOf {s l : List α} {c : α} (h : l ∈ linesOf lf cr s) (hc : c ∈ l) : c ∈ s :=
  (mem_of_mem_linesFrom h hc).resolve_left List.not_mem_nil

/-! ## The unfinished line -/

/-- What stands behind the last `lf`. -/
def unfinished (lf : α) (s : List α) : List α := (s.reverse.takeWhile (· ≠ lf)).reverse

def Finished (lf : α) (s : List α) : Prop := ∀ c ∈ s.getLast?, c = lf

instance (lf : α) (s : List α) : Decidable (Finished lf s) := inferInstanceAs (Decidable (∀ c ∈ s.getLast?, c = lf))

theorem exists_finished (lf : α) (s : List α) : ∃ front, Finished lf front ∧ s = front ++ unfinished lf s := by
  refine ⟨(s.reverse.dropWhile (· ≠ lf)).reverse, ?_, ?_⟩
  · intro c hc
    rw [List.getLast?_reverse] at hc
    have hhead := List.head?_dropWhile_not (· ≠ lf) s.reverse
    rw [hc] at hhead
    simpa using hhead
  · rw [unfinished, ← List.reverse_append, List.takeWhile_append_dropWhile, List.reverse_reverse]

theorem not_mem_unfinished (lf : α) (s : List α) : lf ∉ unfinished lf s := by
  intro h
  have := List.mem_takeWhile_imp (List.mem_reverse.1 h)
  simp at this

theorem linesFrom_append {s : List α} (h : Finished lf s) (acc rest : List α) (hs : s ≠ []) :
    linesFrom lf cr acc (s ++ rest) = linesFrom lf cr acc s ++ linesOf lf cr rest := by
  induction s generalizing acc with
  | nil => exact absurd rfl hs
  | cons c s ih =>
    cases s with
    | nil =>
      have hc : c = lf := h c rfl
      simp [linesFrom, hc, linesOf]
    | cons d s =>
      have htail : Finished lf (d :: s) := fun e he => h e (by rwa [List.getLast?_cons_cons])
      have hih := fun acc => ih htail acc (List.cons_ne_nil d s)
      rw [List.cons_append, linesFrom, linesFrom]
      split
      · rw [hih, List.cons_append]
      · exact hih _

theorem linesOf_append {s : List α} (h : Finished lf s) (rest : List α) :
    linesOf lf cr (s ++ rest) = linesOf lf cr s ++ linesOf lf cr rest := by
  cases s with
  | nil => rfl
  | cons c s => exact linesFrom_append h [] rest (List.cons_ne_nil c s)

theorem linesOf_unfinished {l : List α} (h : lf ∉ l) (hne : l ≠ []) : linesOf lf cr l = [l] := by
  have hfrom : ∀ acc : List α, l ≠ [] ∨ acc ≠ [] → linesFrom lf cr acc l = [acc.reverse ++ l] := by
    clear hne
    induction l with
    | nil =>
      intro acc hacc
      have : acc.isEmpty = false := by simpa using hacc
      rw [linesFrom, this]
      simp
    | cons c l ih =>
      intro acc _
      rw [List.mem_cons, not_or] at h
      rw [linesFrom, if_neg (Ne.symm h.1), ih h.2 (c :: acc) (.inr (List.cons_ne_nil c acc))]
      simp
  exact hfrom [] (.inl hne)

/-! ## The first line -/

theorem dropWhile_eq_nil {l : List α} : l.dropWhile (· ≠ lf) = [] ↔ lf ∉ l := by
  rw [List.dropWhile_eq_nil_iff]
  constructor
  · intro h hmem
    simpa using h lf hmem
  · intro h c hc
    exact decide_eq_true fun he => h (he ▸ hc)

theorem chomp_concat (l : List α) : chomp lf cr (l ++ [lf]) = (dropReturn cr l.reverse).reverse := by
  simp [chomp]

theorem chomp_of_last {l : List α} (h : l.getLast? ≠ some lf) : chomp lf cr l = l := by
  rw [← List.head?_reverse] at h
  unfold chomp
  split
  · rename_i hl
    exact (List.reverse_eq_nil_iff.mp hl).symm
  · rename_i c s hl
    rw [hl] at h
    exact if_neg fun hc => h (congrArg some hc)

theorem exists_chomp (lf cr : α) (l : List α) : ∃ tail, l = chomp lf cr l ++ tail ∧
    (tail = [] ∨ tail = [lf] ∨ tail = [cr, lf]) := by
  by_cases h : l.getLast? = some lf
  · obtain ⟨front, rfl⟩ := List.getLast?_eq_some_iff.mp h
    rw [chomp_concat]
    cases hrev : front.reverse with
    | nil => exact ⟨[lf], by simp [List.reverse_eq_nil_iff.mp hrev, dropReturn], .inr (.inl rfl)⟩
    | cons c s =>
      have hfront : front = s.reverse ++ [c] := by rw [← List.reverse_cons, ← hrev, List.reverse_reverse]
      rw [dropReturn]
      split
      · rename_i hc
        exact ⟨[cr, lf], by simp [hfront, hc], .inr (.inr rfl)⟩
      · exact ⟨[lf], by simp [hfront], .inr (.inl rfl)⟩
  · exact ⟨[], by rw [chomp_of_last h, List.append_nil], .inl rfl⟩

def firstLine (lf : α) (s : List α) : List α := s.takeWhile (· ≠ lf) ++ (s.dropWhile (· ≠ lf)).take 1

def behindFirst (lf : α) (s : List α) : List α := (s.dropWhile (· ≠ lf)).drop 1

theorem firstLine_append {l : List α} (h : lf ∉ l) (s : List α) : firstLine lf (l ++ s) = l ++ firstLine lf s := by
  have hall : ∀ c ∈ l, decide (c ≠ lf) = true := fun c hc => decide_eq_true fun he => h (he ▸ hc)
  rw [firstLine, List.takeWhile_append_of_pos hall, List.dropWhile_append_of_pos hall, List.append_assoc, firstLine]

theorem behindFirst_append {l : List α} (h : lf ∉ l) (s : List α) : behindFirst lf (l ++ s) = behindFirst lf s := by
  have hall : ∀ c ∈ l, decide (c ≠ lf) = true := fun c hc => decide_eq_true fun he => h (he ▸ hc)
  rw [behindFirst, List.dropWhile_append_of_pos hall, behindFirst]

theorem firstLine_line {l : List α} (h : lf ∉ l) (s : List α) : firstLine lf (l ++ lf :: s) = l ++ [lf] := by
  rw [firstLine_append h]
  simp [firstLine]

theorem behindFirst_line {l : List α} (h : lf ∉ l) (s : List α) : behindFirst lf (l ++ lf :: s) = s := by
  rw [behindFirst_append h]
  simp [behindFirst]

theorem firstLine_open {l : List α} (h : lf ∉ l) : firstLine lf l = l := by
  simpa [firstLine] using firstLine_append h []

theorem behindFirst_open {l : List α} (h : lf ∉ l) : behindFirst lf l = [] := by
  simpa [behindFirst] using behindFirst_append h []

theorem length_behindFirst {s : List α} (h : s ≠ []) : (behindFirst lf s).length < s.length := by
  have hdrop := (List.dropWhile_suffix (· ≠ lf) (l := s)).length_le
  have hpos := List.length_pos_iff.2 h
  rw [behindFirst, List.length_drop]
  omega

theorem exists_line (lf : α) (s : List α) : ∃ l, lf ∉ l ∧ (s = l ∨ ∃ rest, s = l ++ lf :: rest) := by
  refine ⟨s.takeWhile (· ≠ lf), fun hmem => by simpa using List.mem_takeWhile_imp hmem, ?_⟩
  have hsplit := List.takeWhile_append_dropWhile (p := (· ≠ lf)) (l := s)
  have hhead := List.head?_dropWhile_not (· ≠ lf) s
  cases hrest : s.dropWhile (· ≠ lf) with
  | nil =>
    rw [hrest, List.append_nil] at hsplit
    exact .inl hsplit.symm
  | cons c rest =>
    rw [hrest] at hsplit hhead
    have hc : c = lf := by simpa using hhead
    rw [hc] at hsplit
    exact .inr ⟨rest, hsplit.symm⟩

theorem firstLine_eq_nil {s : List α} : firstLine lf s = [] ↔ s = [] := by
  constructor
  · intro h
    obtain ⟨l, hl, rfl | ⟨rest, rfl⟩⟩ := exists_line lf s
    · rwa [firstLine_open hl] at h
    · rw [firstLine_line hl] at h
      exact absurd h (List.concat_ne_nil lf l)
  · rintro rfl
    rfl

theorem linesOf_first {s : List α} (h : s ≠ []) :
    linesOf lf cr s = chomp lf cr (firstLine lf s) :: linesOf lf cr (behindFirst lf s) := by
  obtain ⟨l, hl, rfl | ⟨rest, rfl⟩⟩ := exists_line lf s
  · have hlast : s.getLast? ≠ some lf := fun hlast => hl (List.mem_of_getLast? hlast)
    rw [firstLine_open hl, behindFirst_open hl, linesOf_unfinished hl h, chomp_of_last hlast]
    rfl
  · rw [firstLine_line hl, behindFirst_line hl, chomp_concat, linesOf, linesFrom_line hl, List.append_nil]
    rfl

end

end Casework.Text
