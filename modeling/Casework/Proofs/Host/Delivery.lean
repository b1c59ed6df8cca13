import Casework.Backend.Exchange
import Casework.Host.Delivery
import Casework.Proofs.Host.Diagnostics
import Casework.Proofs.Text.Decoding

/-!
# Diagnostics in pieces

Where a pipe is cut into pieces makes no difference to what is read from it: line by line it is what stands in the whole,
and what is kept after so many lines are the last of them.
-/

namespace Casework

namespace Diagnostics

/-! ## One line -/

namespace Inflow

/-- What is read of pieces, and what is left of them, is what a reader of the whole would take and leave. -/
theorem takeLine_spec (got buffer : Text.Bytes) (pieces : List Piece) :
    (takeLine got buffer pieces).1 = got ++ Text.firstLine 10 (buffer ++ pieces.flatMap (·.1)) ∧
      (takeLine got buffer pieces).2.rest = Text.behindFirst 10 (buffer ++ pieces.flatMap (·.1)) := by
  fun_induction takeLine got buffer pieces with
  | case1 got buffer b buffer' pieces h =>
    obtain ⟨l, hl, rfl | ⟨rest, rfl⟩⟩ := Text.exists_line 10 buffer
    · rw [Text.dropWhile_eq_nil.2 hl] at h
      cases h
    · have hall : ∀ c ∈ l, decide (c ≠ 10) = true := fun c hc => decide_eq_true fun he => hl (he ▸ hc)
      rw [List.dropWhile_append_of_pos hall] at h
      cases h
      rw [List.append_assoc l, List.cons_append, Text.firstLine_line hl, Text.behindFirst_line hl,
        List.takeWhile_append_of_pos hall]
      simp [rest]
  | case2 got buffer h =>
    have hl := Text.dropWhile_eq_nil.1 h
    rw [List.flatMap_nil, List.append_nil, Text.firstLine_open hl, Text.behindFirst_open hl]
    exact ⟨rfl, rfl⟩
  | case3 got buffer p ps h ih =>
    have hl := Text.dropWhile_eq_nil.1 h
    rw [ih.1, ih.2, Text.firstLine_append hl, Text.behindFirst_append hl, List.append_assoc, List.flatMap_cons]
    exact ⟨rfl, rfl⟩

theorem next_cases (i : Inflow) : (linesOf i.rest = [] ∧ ∀ s, i.next.1 ≠ .line s) ∨
    ∃ s j, i.next = (.line s, j) ∧ linesOf i.rest = s :: linesOf j.rest := by
  have htake := takeLine_spec [] i.buffer i.pieces
  change _ = [] ++ Text.firstLine 10 i.rest ∧ _ = Text.behindFirst 10 i.rest at htake
  rw [List.nil_append] at htake
  -- however the bytes are cut into pieces, what is taken is the first line of all that is left
  unfold next
  generalize takeLine [] i.buffer i.pieces = taken at htake
  obtain ⟨line, j⟩ := taken
  obtain ⟨hline, hj⟩ := htake
  dsimp only at hline hj ⊢
  by_cases hrest : i.rest = []
  · rw [Text.firstLine_eq_nil.2 hrest] at hline
    exact .inl ⟨by rw [hrest]; rfl, by rw [if_pos hline]; simp⟩
  · have hfirst : Text.firstLine 10 i.rest ≠ [] := by
      intro hnil
      rw [Text.firstLine_eq_nil.1 hnil] at hrest
      exact hrest rfl
    have hlines : linesOf i.rest = readable (Text.chomp 10 13 line :: Text.byteLines j.rest) := by
      rw [linesOf, Text.byteLines, Text.linesOf_first hrest, hline, hj, Text.byteLines]
    rw [hline] at hlines ⊢
    rw [if_neg hfirst, hlines, readable, Text.decode?_chomp]
    cases Text.decode? (Text.firstLine 10 i.rest) with
    | none => exact .inl ⟨rfl, by simp⟩
    | some s => exact .inr ⟨_, j, rfl, rfl⟩

end Inflow

namespace Listening

theorem turn?_cases (x : Listening) : (linesOf x.inflow.rest = [] ∧ x.turn? = none) ∨
    ∃ s y, x.turn? = some y ∧ linesOf x.inflow.rest = s :: linesOf y.inflow.rest ∧ y.history = remember x.history s := by
  rcases x.inflow.next_cases with ⟨hlines, hnext⟩ | ⟨s, j, hnext, hlines⟩
  · refine .inl ⟨hlines, ?_⟩
    unfold turn?
    split
    · rename_i s j h
      exact absurd (congrArg Prod.fst h) (hnext s)
    · rfl
  · refine .inr ⟨s, ⟨j, remember x.history s⟩, ?_, hlines, rfl⟩
    unfold turn?
    rw [hnext]
    rfl

/-! ## Many lines -/

theorem after?_isSome (x : Listening) (n : Nat) : (∃ y, x.after? n = some y) ↔ n ≤ (linesOf x.inflow.rest).length := by
  induction n generalizing x with
  | zero => exact iff_of_true ⟨x, rfl⟩ (Nat.zero_le _)
  | succ n ih =>
    rw [after?]
    rcases x.turn?_cases with ⟨hlines, hturn⟩ | ⟨s, y, hturn, hlines, -⟩
    · simp [hturn, hlines]
    · rw [hturn, hlines, Option.bind_some, ih, List.length_cons, Nat.add_le_add_iff_right]

theorem history_of_after? {x y : Listening} {n : Nat} (h : x.after? n = some y) :
    y.history = ((linesOf x.inflow.rest).take n).foldl remember x.history := by
  induction n generalizing x with
  | zero =>
    cases h
    rfl
  | succ n ih =>
    rw [after?] at h
    rcases x.turn?_cases with ⟨-, hturn⟩ | ⟨s, z, hturn, hlines, hhistory⟩
    · rw [hturn] at h
      cases h
    · rw [hturn, Option.bind_some] at h
      rw [ih h, hlines, List.take_succ_cons, List.foldl_cons, hhistory]

theorem finish_eq (x : Listening) : x.finish = (linesOf x.inflow.rest).foldl remember x.history := by
  fun_induction finish x with
  | case1 x y hturn ih =>
    rcases x.turn?_cases with ⟨-, hnone⟩ | ⟨s, z, hz, hlines, hhistory⟩
    · rw [hturn] at hnone
      cases hnone
    · rw [hturn] at hz
      cases hz
      rw [ih, hlines, List.foldl_cons, hhistory]
  | case2 x hturn =>
    rcases x.turn?_cases with ⟨hlines, -⟩ | ⟨s, z, hz, -⟩
    · rw [hlines]
      rfl
    · rw [hturn] at hz
      cases hz

end Listening

theorem captureFrom_eq (out : Text.Bytes) (pieces : List Piece) (ending : Ending) :
    captureFrom out pieces ending = capture out (pieces.flatMap (·.1)) ending := by
  rw [captureFrom, Listening.finish_eq]
  rfl

/-! ## Lines of a text -/

def textLines (s : String) : List String := (Text.lines s.toList).map .ofList

theorem linesOf_encode (s : String) : linesOf (Text.encode s) = textLines s := by
  apply readable_texts
  rw [Text.encode, Text.byteLines_encode, textLines, List.map_map, List.map_map]
  refine List.map_congr_left fun l _ => ?_
  rw [Function.comp_apply, Function.comp_apply, Text.decode?_eq_some_iff, Text.encode, String.toList_ofList]

theorem length_rtake {α : Type} (ls : List α) (n : Nat) : (ls.rtake n).length = min n ls.length := by
  rw [List.rtake, List.length_drop]
  omega

theorem length_makeRoom {history : List String} (h : history.length ≤ historyLimit) :
    (makeRoom history).length < historyLimit := by
  unfold makeRoom
  split
  · rw [List.length_drop]
    have : 0 < historyLimit := by decide
    omega
  · omega

/-- However a text is cut into pieces, as many lines can be read from them as it has. What is kept after `n` lines are the
last fifty of these, or all of them if there are no more, and before the next one is kept there is room for it. At the
end the last lines of the whole text are kept, and these, with line feeds between them, are reported if the process
fails or is lost. -/
theorem history_is_tail {s : String} {pieces : List Piece} (h : pieces.flatMap (·.1) = Text.encode s) :
    (∀ n, (∃ x, (Listening.start pieces).after? n = some x) ↔ n ≤ (textLines s).length) ∧
    (∀ n x, (Listening.start pieces).after? n = some x → x.history = ((textLines s).take n).rtake 50 ∧
      x.history.length = min 50 n ∧ (makeRoom x.history).length < 50) ∧
    (Listening.start pieces).finish = (textLines s).rtake 50 ∧
    (∀ out ending, ending.isSuccess = false → captureFrom out pieces ending =
      .error ⟨ending.message, "\n".intercalate ((textLines s).rtake 50)⟩) ∧
    (∀ out ending, capture out (Text.encode s) ending = captureFrom out pieces ending) ∧
    ∀ e, (Fate.lost (Text.encode s) e).capture =
      .error ⟨"wait failed: " ++ e.message, "\n".intercalate ((textLines s).rtake 50)⟩ := by
  have hrest : linesOf (Listening.start pieces).inflow.rest = textLines s := by
    rw [← linesOf_encode, ← h]
    rfl
  have hkept : historyOf (Text.encode s) = (textLines s).rtake 50 := by rw [historyOf_eq, linesOf_encode, historyLimit]
  refine ⟨fun n => by rw [Listening.after?_isSome, hrest], fun n x hx => ?_, ?_, fun out ending hfails => ?_,
    fun out ending => by rw [captureFrom_eq, h], fun e => by rw [Fate.capture, hkept]⟩
  · have hn : n ≤ (textLines s).length := by rw [← hrest, ← Listening.after?_isSome]; exact ⟨x, hx⟩
    have hhistory : x.history = ((textLines s).take n).rtake 50 := by
      rw [Listening.history_of_after? hx, hrest]
      exact foldl_remember _
    have hlength : x.history.length = min 50 n := by
      rw [hhistory, length_rtake, List.length_take]
      omega
    exact ⟨hhistory, hlength, length_makeRoom (by rw [hlength, historyLimit]; omega)⟩
  · rw [Listening.finish_eq, hrest]
    exact foldl_remember _
  · rw [captureFrom_eq, h, capture_failed hfails, hkept]

def wails : String := .ofList ((List.replicate 50 ['é', '\r', '\n']).flatten ++ ['h'])

theorem toList_wails : wails.toList = (List.replicate 50 ['é', '\r', '\n']).flatten ++ ['h'] := String.toList_ofList

theorem drop_wails : (Text.encode wails).drop 1 ≠ [] := by
  rw [Text.encode, toList_wails]
  decide +kernel

def wailPieces : List Piece := [⟨[0xC3], by decide⟩, ⟨(Text.encode wails).drop 1, drop_wails⟩]

theorem wails_heard : wailPieces.flatMap (·.1) = Text.encode wails ∧ (∃ x, (Listening.start wailPieces).after? 51 = some x) ∧
    captureFrom [] wailPieces (.code 3) =
      .error ⟨"exit status: 3", "\n".intercalate (List.replicate 49 "é" ++ ["h"])⟩ := by
  have hfirst : (Text.encode wails).take 1 = [0xC3] := by
    rw [Text.encode, toList_wails]
    decide +kernel
  have hpieces : wailPieces.flatMap (·.1) = Text.encode wails :=
    calc
      wailPieces.flatMap (·.1) = [0xC3] ++ (Text.encode wails).drop 1 := by
        simp only [wailPieces, List.flatMap_cons, List.flatMap_nil, List.append_nil]
      _ = Text.encode wails := hfirst ▸ List.take_append_drop 1 (Text.encode wails)
  have hlines : textLines wails = List.replicate 50 "é" ++ ["h"] := by
    unfold textLines
    rw [toList_wails]
    decide +kernel
  have hlast : (List.replicate 50 "é" ++ ["h"]).rtake 50 = List.replicate 49 "é" ++ ["h"] := by decide +kernel
  obtain ⟨hread, -, -, hfails, -⟩ := history_is_tail hpieces
  refine ⟨hpieces, (hread 51).2 (by rw [hlines]; decide), ?_⟩
  rw [hfails [] (.code 3) rfl, hlines, hlast]
  rfl

end Diagnostics

end Casework
