import Casework.Proofs.Shell.Lines
import Casework.Proofs.Shell.Literal

/-!
# Splitting a line of quoted words

A line of quoted words with blanks between them is taken apart into those words again, once their quotes are taken
away. Outside the quotes stands no character that means anything to the shell but itself, so that each word is one
field in the end, which is the word.
-/

namespace Casework.Shell

/-! ## Words up to the end of a text -/

/-- The words in front of the reader, whatever they would be as commands. No other token may stand there. -/
def readWords : Nat → Parse (List Word)
  | 0 => fail "too long"
  | fuel + 1 => do
    match ← rawToken fuel with
    | .eof => return []
    | .word w _ => return w :: (← readWords fuel)
    | _ => unexpected

def splitWords? (text : List Char) : Option (List Word) :=
  match readWords (Reader.reach + text.length) { text } with
  | .ok ws _ => some ws
  | .error _ _ => none

def unquoted? (w : Word) : Option String := Text.decode? (Text.ofOctets (.ofList (wordChars w)))

section
variable {r : Reader} {cs : List Char} {n fuel : Nat}

theorem readWords_eof (h : r.Gives n .eof cs) (hfuel : n + 1 ≤ fuel) : ∃ s, readWords fuel r = .ok [] s := by
  obtain ⟨k, rfl⟩ : ∃ k, fuel = k + 1 := ⟨fuel - 1, by omega⟩
  obtain ⟨s, hraw, -, -⟩ := h k (by omega)
  refine ⟨s, ?_⟩
  rw [readWords]
  exact bind_ok hraw

theorem readWords_word {w : Word} {q : Bool} {ws : List Word} (h : r.Gives n (.word w q) cs) (hfuel : n ≤ fuel)
    (hrest : ∀ r' : Reader, r'.At cs → ∃ s, readWords fuel r' = .ok ws s) :
    ∃ s, readWords (fuel + 1) r = .ok (w :: ws) s := by
  obtain ⟨r', hraw, h', -⟩ := h fuel hfuel
  obtain ⟨s, hws⟩ := hrest r' h'
  refine ⟨s, ?_⟩
  rw [readWords]
  refine (bind_ok hraw).trans ?_
  exact bind_ok hws

end

theorem readWords_behind (ws : List (List Char)) {r : Reader} (h : r.At (behind ws)) {fuel : Nat}
    (hfuel : (behind ws).length + 3 ≤ fuel) : ∃ s, readWords fuel r = .ok (ws.map literal) s := by
  induction ws generalizing r fuel with
  | nil => exact readWords_eof h.gives_eof (by omega)
  | cons w ws ih =>
    have hcons : behind (w :: ws) = ' ' :: (quoteChars w ++ behind ws) := by
      rw [behind, List.flatMap_cons]
      rfl
    rw [hcons, List.length_cons, List.length_append] at hfuel
    rw [hcons] at h
    obtain ⟨k, rfl⟩ : ∃ k, fuel = k + 1 := ⟨fuel - 1, by omega⟩
    have hgives := h.gives_blank fun r' h' => h'.gives_word (over_behind ws) w
    exact readWords_word hgives (by omega) fun r' h' => ih h' (by omega)

theorem splitWords?_quoted (ws : List String) :
    splitWords? (octetChars (" ".intercalate (ws.map quote))) = some (ws.map fun w => literal (octetChars w)) := by
  have hat (text : List Char) : ({ text } : Reader).At text := ⟨rfl, rfl, rfl, fun _ => rfl, rfl, rfl, rfl⟩
  have hreach : 4 ≤ Reader.reach := by decide
  cases ws with
  | nil =>
    obtain ⟨s, hread⟩ := readWords_eof (hat []).gives_eof (by omega : 1 + 1 ≤ Reader.reach + 0)
    have hline : octetChars (" ".intercalate ([].map quote)) = [] := rfl
    rw [hline, splitWords?, List.length_nil, hread]
    rfl
  | cons w ws =>
    rw [octetChars_line, splitWords?, List.length_append]
    obtain ⟨k, hk⟩ : ∃ k, Reader.reach + ((quoteChars (octetChars w)).length + (behind (ws.map octetChars)).length) = k + 1 :=
      ⟨_, (Nat.succ_pred_eq_of_pos (by omega)).symm⟩
    have hgives := (hat _).gives_word (over_behind (ws.map octetChars)) (octetChars w)
    obtain ⟨s, hread⟩ := readWords_word hgives (by omega : _ ≤ k) fun r' h' => readWords_behind _ h' (by omega)
    rw [hk, hread, List.map_map]
    rfl

theorem unquoted?_literal (w : String) : unquoted? (literal (octetChars w)) = some w := by
  rw [unquoted?, wordChars_literal, octetChars, String.ofList_toList, Text.ofOctets_toOctets, Text.decode?_encode]

theorem mapM_unquoted? (ws : List String) : (ws.map fun w => literal (octetChars w)).mapM unquoted? = some ws := by
  induction ws with
  | nil => rfl
  | cons w ws ih =>
    rw [List.map_cons, List.mapM_cons, unquoted?_literal, ih]
    rfl

/-! ## What stands outside quotes -/

def specialChars : List Char := "|&;<>()$\x60\\\"' \t\n*?[]#~!\x7b\x7d".toList

def Piece.Inert : Piece → Prop
  | .char c quoted => quoted = true ∨ c ∉ specialChars
  | .mark => True
  | _ => False

theorem inert_of_isLiteral {p : Piece} (h : IsLiteral p) : p.Inert := by
  cases h with
  | quoted c => exact .inl rfl
  | mark => trivial
  | plain hc =>
    refine .inr fun hmem => ?_
    exact ne_of_plain hc (not_plain_of_mem (by decide) hmem) rfl

theorem mapM_expandFields (run : Command → Act String) (s : Session) (ws : List String) :
    (ws.map fun w => literal (octetChars w)).mapM (expandFields run) s = .ok (ws.map fun w => [Text.toOctets w]) s := by
  induction ws with
  | nil => rfl
  | cons w ws ih =>
    have hfield : expandFields run (literal (octetChars w)) s = .ok [Text.toOctets w] s := by
      rw [expandFields_literal, octetChars, String.ofList_toList]
    rw [List.map_cons, List.mapM_cons]
    refine (bind_ok hfield).trans ?_
    refine (bind_ok ih).trans ?_
    rfl

/-- Quoted words with a blank between any two are read as just these words, and in any session they come to these
words, each one a field. So no two words are quoted alike. -/
theorem quoted_words_split :
    (∀ ws : List String, ∃ words, splitWords? (octetChars (" ".intercalate (ws.map quote))) = some words ∧
      words.mapM unquoted? = some ws ∧ (∀ word ∈ words, ∀ p ∈ word, p.Inert) ∧
      ∀ run session, words.mapM (expandFields run) session = .ok (ws.map fun w => [Text.toOctets w]) session) ∧
    Function.Injective quote := by
  constructor
  · intro ws
    refine ⟨_, splitWords?_quoted ws, mapM_unquoted? ws, ?_, fun run s => mapM_expandFields run s ws⟩
    intro word hword p hp
    obtain ⟨w, -, rfl⟩ := List.mem_map.1 hword
    exact inert_of_isLiteral (isLiteral_literal _ p hp)
  · intro v w h
    have hsplit : [literal (octetChars v)] = [literal (octetChars w)] := by
      have hv := splitWords?_quoted [v]
      have hw := splitWords?_quoted [w]
      rw [List.map_singleton, h] at hv
      exact Option.some.inj (hv.symm.trans hw)
    have hwords := congrArg (List.mapM unquoted?) hsplit
    have hv := mapM_unquoted? [v]
    have hw := mapM_unquoted? [w]
    rw [List.map_singleton] at hv hw
    rw [hv, hw] at hwords
    exact (List.cons.inj (Option.some.inj hwords)).1

end Casework.Shell
