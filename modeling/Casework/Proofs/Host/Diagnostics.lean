import Casework.Host.Process
import Casework.Proofs.Text.Lines
import Mathlib.Data.List.DropRight

/-!
# What is kept of diagnostics

The history is the end of what is read of the diagnostics. Reading ends at the first line that is not text, so what
stands before the last lines leaves no trace in the history just as long as all of it is text.
-/

namespace Casework

namespace Diagnostics

/-! ## The history -/

theorem rtake_drop_first {α : Type} (ls : List α) (n : Nat) :
    (if (ls.rtake (n + 1)).length = n + 1 then (ls.rtake (n + 1)).drop 1 else ls.rtake (n + 1)) = ls.rtake n := by
  simp only [List.rtake, List.length_drop, List.drop_drop]
  split
  · rw [show ls.length - (n + 1) + 1 = ls.length - n by omega]
  · rw [show ls.length - (n + 1) = ls.length - n by omega]

theorem remember_rtake (ls : List String) (l : String) :
    remember (ls.rtake historyLimit) l = (ls ++ [l]).rtake historyLimit := by
  have hkept := rtake_drop_first ls 49
  rw [historyLimit, List.rtake_concat_succ, ← hkept]
  rfl

theorem foldl_remember (ls : List String) : ls.foldl remember [] = ls.rtake historyLimit := by
  induction ls using List.reverseRecOn with
  | nil => rfl
  | append_singleton ls l ih => rw [List.foldl_append, ih, List.foldl_cons, List.foldl_nil, remember_rtake]

theorem historyOf_eq (stderr : Text.Bytes) : historyOf stderr = (linesOf stderr).rtake historyLimit :=
  foldl_remember _

theorem rtake_append {α : Type} {ls : List α} {n : Nat} (h : ls.length = n) (front : List α) :
    (front ++ ls).rtake n = ls := by
  rw [List.rtake, List.length_append, h, Nat.add_sub_cancel, List.drop_left]

/-! ## Lines that are read -/

theorem readable_append {ls : List Text.Bytes} (h : ∀ l ∈ ls, Text.decode? l ≠ none) (rest : List Text.Bytes) :
    readable (ls ++ rest) = readable ls ++ readable rest := by
  induction ls with
  | nil => rfl
  | cons l ls ih =>
    obtain ⟨hl, hls⟩ := List.forall_mem_cons.1 h
    obtain ⟨s, hs⟩ := Option.ne_none_iff_exists'.1 hl
    rw [List.cons_append, readable, readable, hs]
    exact congrArg (s :: ·) (ih hls)

theorem readable_stop {ls : List Text.Bytes} (h : ∃ l ∈ ls, Text.decode? l = none) (rest : List Text.Bytes) :
    readable (ls ++ rest) = readable ls := by
  induction ls with
  | nil => obtain ⟨l, hl, -⟩ := h; cases hl
  | cons l ls ih =>
    rw [List.cons_append, readable, readable]
    cases hl : Text.decode? l with
    | none => rfl
    | some s =>
      obtain ⟨d, hd, hnone⟩ := h
      rcases List.mem_cons.1 hd with rfl | hd
      · rw [hl] at hnone
        cases hnone
      · exact congrArg (s :: ·) (ih ⟨d, hd, hnone⟩)

theorem readable_texts {ls : List Text.Bytes} {texts : List String} (h : ls.map Text.decode? = texts.map some) :
    readable ls = texts := by
  induction ls generalizing texts with
  | nil => rw [List.map_eq_nil_iff.1 h.symm]; rfl
  | cons l ls ih =>
    obtain ⟨s, texts, rfl, hs, hrest⟩ := List.map_eq_cons_iff.1 h.symm
    rw [readable, ← hs]
    exact congrArg (s :: ·) (ih hrest.symm)

/-! ## Diagnostics with an end -/

/-- Every line is text. -/
def Legible (stderr : Text.Bytes) : Prop := ∀ l ∈ Text.byteLines stderr, Text.decode? l ≠ none

instance (stderr : Text.Bytes) : Decidable (Legible stderr) :=
  inferInstanceAs (Decidable (∀ l ∈ Text.byteLines stderr, Text.decode? l ≠ none))

structure WholeLines (stderr : Text.Bytes) (texts : List String) : Prop where
  finished : Text.Finished 10 stderr
  reads : (Text.byteLines stderr).map Text.decode? = texts.map some

section
variable {front : Text.Bytes} (hfront : Text.Finished 10 front)
include hfront

theorem linesOf_legible (h : Legible front) (rest : Text.Bytes) : linesOf (front ++ rest) = linesOf front ++ linesOf rest := by
  rw [linesOf, Text.byteLines, Text.linesOf_append hfront]
  exact readable_append h _

theorem historyOf_illegible (h : ¬ Legible front) (rest : Text.Bytes) : historyOf (front ++ rest) = historyOf front := by
  have hstray : ∃ l ∈ Text.byteLines front, Text.decode? l = none := by
    rw [Legible] at h
    push Not at h
    exact h
  rw [historyOf, linesOf, Text.byteLines, Text.linesOf_append hfront]
  exact congrArg (List.foldl remember []) (readable_stop hstray _)

theorem historyOf_legible {tail : Text.Bytes} {texts : List String} (h : Legible front) (htail : WholeLines tail texts)
    (hlength : texts.length = historyLimit) : historyOf (front ++ tail) = texts := by
  rw [historyOf_eq, linesOf_legible hfront h]
  have hread : linesOf tail = texts := readable_texts htail.reads
  rw [hread, rtake_append hlength]

end

/-! ## The report of a failure -/

theorem capture_failed {ending : Ending} (h : ending.isSuccess = false) (out err : Text.Bytes) :
    capture out err ending = .error ⟨ending.message, "\n".intercalate (historyOf err)⟩ := by
  rw [capture, if_neg (Bool.eq_false_iff.1 h)]

/-- Two processes that fail in the same way, with diagnostics that end in the same fifty lines, have the same report,
with these lines, if what stands before the lines is text. If some line before is not text, nothing behind it comes into
the report, and these lines are reported only if they stood before as well. -/
theorem failure_of_lastLines {tail : Text.Bytes} {texts : List String} {ending : Ending} (htail : WholeLines tail texts)
    (hlength : texts.length = 50) (hfails : ending.isSuccess = false) :
    (∀ out front, Text.Finished 10 front →
      (capture out (front ++ tail) ending = .error ⟨ending.message, "\n".intercalate texts⟩ ↔
        Legible front ∨ capture out front ending = .error ⟨ending.message, "\n".intercalate texts⟩)) ∧
    (∀ out out' front front', Text.Finished 10 front → Text.Finished 10 front' → Legible front → Legible front' →
      capture out (front ++ tail) ending = capture out' (front' ++ tail) ending) ∧
    ∀ out front, Text.Finished 10 front → ¬ Legible front → ∀ rest,
      capture out (front ++ rest) ending = capture out front ending := by
  have hlegible : ∀ out front, Text.Finished 10 front → Legible front →
      capture out (front ++ tail) ending = .error ⟨ending.message, "\n".intercalate texts⟩ := by
    intro out front hfront h
    rw [capture_failed hfails, historyOf_legible hfront h htail hlength]
  have hillegible : ∀ out front, Text.Finished 10 front → ¬ Legible front → ∀ rest,
      capture out (front ++ rest) ending = capture out front ending := by
    intro out front hfront h rest
    rw [capture_failed hfails, capture_failed hfails, historyOf_illegible hfront h]
  refine ⟨fun out front hfront => ?_, fun out out' front front' hfront hfront' h h' => ?_, hillegible⟩
  · by_cases h : Legible front
    · exact iff_of_true (hlegible out front hfront h) (.inl h)
    · rw [hillegible out front hfront h, or_iff_right h]
  · rw [hlegible out front hfront h, hlegible out' front' hfront' h']

def pleas : Text.Bytes := (List.replicate 50 [104, 13, 10]).flatten

def strayLine : Text.Bytes := [0xE9, 10]

theorem pleas_lastLines : WholeLines pleas (List.replicate 50 "h") ∧ Legible [0xC3, 0xA9, 10] ∧
    capture [] ([0xC3, 0xA9, 10] ++ pleas) (.code 3) =
      .error ⟨"exit status: 3", "\n".intercalate (List.replicate 50 "h")⟩ := by
  have hpleas : WholeLines pleas (List.replicate 50 "h") := ⟨by decide, by decide +kernel⟩
  have hlegible : Legible [0xC3, 0xA9, 10] := by decide +kernel
  exact ⟨hpleas, hlegible, ((failure_of_lastLines hpleas rfl rfl).1 [] _ (by decide)).2 (.inl hlegible)⟩

theorem strayLine_hides : capture [] (strayLine ++ pleas) (.code 3) = .error ⟨"exit status: 3", ""⟩ ∧
    capture [] pleas (.code 3) = .error ⟨"exit status: 3", "\n".intercalate (List.replicate 50 "h")⟩ := by
  decide +kernel

end Diagnostics

end Casework
