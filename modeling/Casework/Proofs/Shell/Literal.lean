import Casework.Shell.Expansion
import Casework.Proofs.Shell.Words

/-!
# Expansion of quoted words

A word that was quoted comes to itself, whatever the variables are and whatever files there are: nothing in it is
expanded, split or taken for a pattern.
-/

namespace Casework.Shell

/-! ## Patterns without a choice -/

inductive Fixed : List Char → Prop
  | nil : Fixed []
  | escaped (c : Char) {cs : List Char} : Fixed cs → Fixed ('\\' :: c :: cs)
  | plain {c : Char} {cs : List Char} : c ≠ '*' → c ≠ '?' → c ≠ '[' → c ≠ '\\' → Fixed cs → Fixed (c :: cs)

theorem Fixed.append {cs ds : List Char} (h : Fixed cs) (h' : Fixed ds) : Fixed (cs ++ ds) := by
  induction h with
  | nil => exact h'
  | escaped c _ ih => exact .escaped c ih
  | plain h₁ h₂ h₃ h₄ _ ih => exact .plain h₁ h₂ h₃ h₄ ih

theorem Fixed.isOpen {cs : List Char} (h : Fixed cs) : isOpen cs = false := by
  induction h with
  | nil => rfl
  | escaped c _ ih =>
    rw [Shell.isOpen]
    exact ih
  | plain h₁ h₂ h₃ h₄ _ ih =>
    rw [Shell.isOpen]
    · exact ih
    · exact h₁
    · exact h₂
    · exact fun _ h _ => h₃ h
    · exact h₃
    · exact fun _ _ h _ => h₄ h

theorem Fixed.patternParts {cs : List Char} (h : Fixed cs) {part : List Char} (hpart : Fixed part.reverse) :
    ∀ p ∈ patternParts part cs, Fixed p := by
  induction h generalizing part with
  | nil =>
    intro p hp
    rw [Shell.patternParts, List.mem_singleton] at hp
    rw [hp]
    exact hpart
  | @escaped c cs _ ih =>
    by_cases hc : c = '/'
    · subst hc
      rw [Shell.patternParts]
      exact List.forall_mem_cons.2 ⟨hpart, ih .nil⟩
    · have hmore : Fixed (c :: '\\' :: part).reverse := by
        simpa using hpart.append (.escaped c .nil)
      rw [Shell.patternParts]
      · exact ih hmore
      · exact hc
  | @plain c cs h₁ h₂ h₃ h₄ _ ih =>
    by_cases hc : c = '/'
    · subst hc
      rw [Shell.patternParts]
      exact List.forall_mem_cons.2 ⟨hpart, ih .nil⟩
    · have hmore : Fixed (c :: part).reverse := by
        simpa using hpart.append (.plain h₁ h₂ h₃ h₄ .nil)
      rw [Shell.patternParts]
      · exact ih hmore
      · exact fun _ h _ => h₄ h
      · exact fun _ _ h _ => h₄ h
      · exact hc

theorem Fixed.pathnames {cs : List Char} (h : Fixed cs) (t : FileTree) : pathnames t cs = [] := by
  have hclosed : (Shell.patternParts [] cs).any Shell.isOpen = false := by
    rw [List.any_eq_false]
    intro p hp
    have hnil : Fixed ([] : List Char).reverse := .nil
    rw [(h.patternParts hnil p hp).isOpen]
    exact Bool.false_ne_true
  rw [Shell.pathnames, hclosed, if_neg Bool.false_ne_true]

/-! ## Literal words -/

/-- A piece that comes to itself. A character that is not quoted is a plain one. -/
inductive IsLiteral : Piece → Prop
  | quoted (c : Char) : IsLiteral (.char c true)
  | plain {c : Char} : isPlain c = true → IsLiteral (.char c false)
  | mark : IsLiteral .mark

theorem isLiteral_quotedPieces (c : Char) : ∀ p ∈ quotedPieces c, IsLiteral p := by
  rw [quotedPieces]
  split
  · intro p hp
    simp only [List.mem_cons, List.not_mem_nil, or_false] at hp
    rcases hp with rfl | rfl | rfl
    · exact .mark
    · exact .quoted _
    · exact .mark
  · intro p hp
    cases List.mem_singleton.1 hp
    exact .quoted c

theorem isLiteral_literal (w : List Char) : ∀ p ∈ literal w, IsLiteral p := by
  rw [literal]
  split
  · rename_i hw
    rw [Bool.and_eq_true] at hw
    intro p hp
    obtain ⟨c, hc, rfl⟩ := List.mem_map.1 hp
    exact .plain (List.all_eq_true.1 hw.2 c hc)
  · intro p hp
    rcases List.mem_append.1 hp with hp | hp
    · rcases List.mem_cons.1 hp with rfl | hp
      · exact .mark
      · obtain ⟨c, _, hp⟩ := List.mem_flatMap.1 hp
        exact isLiteral_quotedPieces c p hp
    · cases List.mem_singleton.1 hp
      exact .mark

def itemOf : Piece → Item
  | .char c q => .char c q
  | _ => .mark

/-- The word's own text `is` and nothing else has been read, and may be split nowhere. -/
structure Growth.Own (g : Growth) (is : List Item) : Prop where
  done : g.done = []
  items : g.items = is.reverse
  splits : is ≠ [] → g.splits = .nowhere
  dropped : g.dropped = false

theorem Growth.Own.literal {g : Growth} {is : List Item} (h : g.Own is) (i : Item) :
    (g.literal .nowhere i).Own (is ++ [i]) := by
  have hwhere : (g.items.isEmpty || decide (g.splits = .nowhere)) = true := by
    by_cases his : is = []
    · simp [h.items, his]
    · simp [h.splits his]
  rw [Growth.literal, if_pos hwhere]
  exact ⟨h.done, by simp [h.items], fun _ => rfl, h.dropped⟩

section
variable (run : Command → Act String) (s : Session)

theorem expandPieces_char {c : Char} {q : Bool} (hc : (c = '~' && !q) = false) {g : Growth} {is : List Item}
    (hg : g.Own is) (ps : List Piece) : ∃ g' : Growth, g'.Own (is ++ [.char c q]) ∧
      expandPieces run { full := true } g 0 (.char c q :: ps) s = expandPieces run { full := true } g' 0 ps s := by
  refine ⟨{ g.literal .nowhere (.char c q) with tilde := false }, ?_, ?_⟩
  · obtain ⟨hdone, hitems, hsplits, hdropped⟩ := hg.literal (.char c q)
    exact ⟨hdone, hitems, hsplits, hdropped⟩
  · rw [expandPieces, hg.dropped, if_neg Bool.false_ne_true]
    refine (bind_ok (x := get) rfl).trans ?_
    simp only [hc, Bool.false_and, Bool.false_eq_true, if_false]

theorem expandPieces_mark {g : Growth} {is : List Item} (hg : g.Own is) {ps : List Piece}
    (hps : ∀ p ∈ ps, IsLiteral p) : ∃ g' : Growth, g'.Own (is ++ [.mark]) ∧
      expandPieces run { full := true } g 0 (.mark :: ps) s = expandPieces run { full := true } g' 0 ps s := by
  refine ⟨{ g.literal .nowhere .mark with quotes := !g.quotes }, ?_, ?_⟩
  · obtain ⟨hdone, hitems, hsplits, hdropped⟩ := hg.literal .mark
    exact ⟨hdone, hitems, hsplits, hdropped⟩
  · rw [expandPieces, hg.dropped, if_neg Bool.false_ne_true]
    rintro tail - rfl
    cases hps _ List.mem_cons_self

theorem expandPieces_literal {ps : List Piece} (hps : ∀ p ∈ ps, IsLiteral p) {g : Growth} {is : List Item}
    (hg : g.Own is) : ∃ g', expandPieces run { full := true } g 0 ps s = .ok g' s ∧ g'.Own (is ++ ps.map itemOf) := by
  induction ps generalizing g is with
  | nil =>
    refine ⟨g, ?_, by simpa using hg⟩
    rw [expandPieces]
    rfl
  | cons p ps ih =>
    obtain ⟨hp, htail⟩ := List.forall_mem_cons.1 hps
    -- whatever the piece, the word grows by one item and stays in one part
    have hstep : ∃ g' : Growth, g'.Own (is ++ [itemOf p]) ∧
        expandPieces run { full := true } g 0 (p :: ps) s = expandPieces run { full := true } g' 0 ps s := by
      cases hp with
      | quoted c => exact expandPieces_char run s (by simp) hg ps
      | @plain c hc =>
        have htilde : (c = '~' && !false) = false := by simp [ne_of_plain hc (d := '~') rfl]
        exact expandPieces_char run s htilde hg ps
      | mark => exact expandPieces_mark run s hg htail
    obtain ⟨g', hg', heq⟩ := hstep
    obtain ⟨g'', hrun, hg''⟩ := ih htail hg'
    refine ⟨g'', heq.trans hrun, ?_⟩
    simpa using hg''

/-! ## Fields -/

theorem foldl_push (is : List Item) (b : Breakup) :
    is.foldl Breakup.push b = { b with current := is.reverse ++ b.current } := by
  induction is generalizing b with
  | nil => rfl
  | cons i is ih =>
    rw [List.foldl_cons, ih]
    simp [Breakup.push]

theorem fieldsOf_nowhere (separators : List Char) {is : List Item} (h : is ≠ []) :
    fieldsOf separators none [⟨.nowhere, is⟩] = [is] := by
  have hempty : is.isEmpty = false := by simpa using h
  simp [fieldsOf, Breakup.run, foldl_push, hempty]

theorem literal_ne_nil (w : List Char) : literal w ≠ [] := by
  rw [literal]
  split
  · rename_i hw
    cases w with
    | nil => cases hw
    | cons c w => exact List.cons_ne_nil _ _
  · exact List.cons_ne_nil _ _

theorem itemText_literal (w : List Char) : itemText ((literal w).map itemOf) = .ofList w := by
  have hchars : ∀ ps : Word, (markedText (ps.map itemOf)).map (·.1) = wordChars ps := by
    intro ps
    rw [markedText, wordChars, List.filterMap_map, List.map_filterMap]
    congr 1
    funext p
    cases p <;> rfl
  rw [itemText, hchars, wordChars_literal]

theorem fixed_pieces {ps : Word} (h : ∀ p ∈ ps, IsLiteral p) : Fixed (patternText (markedText (ps.map itemOf))) := by
  induction ps with
  | nil => exact .nil
  | cons p ps ih =>
    obtain ⟨hp, htail⟩ := List.forall_mem_cons.1 h
    cases hp with
    | quoted c => exact .escaped c (ih htail)
    | plain hc =>
      exact .plain (ne_of_plain hc rfl) (ne_of_plain hc rfl) (ne_of_plain hc rfl) (ne_of_plain hc rfl) (ih htail)
    | mark => exact ih htail

/-- In every session a word that was quoted is one field, which is the word. -/
theorem expandFields_literal (w : List Char) : expandFields run (literal w) s = .ok [.ofList w] s := by
  have hown : Growth.Own { tilde := true } [] := ⟨rfl, rfl, fun h => absurd rfl h, rfl⟩
  obtain ⟨g, hrun, hg⟩ := expandPieces_literal run s (isLiteral_literal w) hown
  rw [List.nil_append] at hg
  have hne : (literal w).map itemOf ≠ [] := by simpa using literal_ne_nil w
  have hsegments : g.segments = [⟨.nowhere, (literal w).map itemOf⟩] := by
    have hitems : g.items.isEmpty = false := by simpa [hg.items] using literal_ne_nil w
    rw [Growth.segments, Growth.close, hitems, if_neg Bool.false_ne_true, hg.done, hg.items, hg.splits hne]
    simp
  have hpaths : pathnames s.machine.tree (patternText (markedText ((literal w).map itemOf))) = [] :=
    (fixed_pieces (isLiteral_literal w)).pathnames _
  have hchoice : (if s.isOn 'f' then [] else
      pathnames s.machine.tree (patternText (markedText ((literal w).map itemOf)))) = [] := by
    rw [hpaths]
    split <;> rfl
  rw [expandFields]
  refine (bind_ok hrun).trans ?_
  refine (bind_ok (x := get) rfl).trans ?_
  rw [hsegments, fieldsOf_nowhere _ hne, List.flatMap_singleton, hchoice, itemText_literal]
  rfl

end

end Casework.Shell
