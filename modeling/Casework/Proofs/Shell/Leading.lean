import Casework.Shell.Variables
import Casework.Proofs.Shell.Lines

/-!
# The first word of a line

The first word decides what a line is. It is taken for an assignment if it begins as one, and a line of commands that
is handed to the shell as an argument is taken for options if its first word begins so.
-/

namespace Casework.Shell

/-! ## Words that are assignments -/

theorem nameThenEquals_plain {w name : List Char} {v : Word} : nameThenEquals (w.map (.char · false)) = some (name, v) ↔
    ∃ value, w = name ++ '=' :: value ∧ name.all isNameChar = true ∧ v = value.map (.char · false) := by
  induction w generalizing name with
  | nil =>
    constructor
    · intro h
      cases h
    · rintro ⟨value, h, _⟩
      cases name <;> cases h
  | cons c w ih =>
    -- the name ends at the first equals sign, since no name holds one
    by_cases hc : c = '='
    · subst hc
      constructor
      · intro h
        cases h
        exact ⟨w, rfl, rfl, rfl⟩
      · rintro ⟨value, h, hname, rfl⟩
        cases name with
        | nil =>
          cases h
          rfl
        | cons d name =>
          obtain rfl : '=' = d := (List.cons.inj h).1
          exact absurd hname (by simp [isNameChar])
    · rw [List.map_cons, nameThenEquals]
      · constructor
        · intro h
          by_cases hchar : isNameChar c = true
          · rw [if_pos hchar, Option.map_eq_some_iff] at h
            obtain ⟨⟨n, u⟩, hrest, h⟩ := h
            cases h
            obtain ⟨value, rfl, hname, rfl⟩ := ih.1 hrest
            exact ⟨value, rfl, by rw [List.all_cons, hchar, hname]; rfl, rfl⟩
          · rw [if_neg hchar] at h
            cases h
        · rintro ⟨value, h, hname, rfl⟩
          cases name with
          | nil => exact absurd (List.cons.inj h).1 hc
          | cons d name =>
            obtain ⟨rfl, rfl⟩ := List.cons.inj h
            rw [List.all_cons, Bool.and_eq_true] at hname
            rw [if_pos hname.1, ih.2 ⟨value, rfl, hname.2, rfl⟩]
            rfl
      · exact hc

/-- The word is plain, and begins with a name and an equals sign. -/
def BeginsAssignment (w : List Char) : Prop :=
  w.all isPlain = true ∧ ∃ c name value, w = c :: name ++ '=' :: value ∧ isNameStart c = true ∧
    (c :: name).all isNameChar = true

theorem beginsAssignment_iff {w : List Char} : BeginsAssignment w ↔ w.all isPlain = true ∧
    ∃ c name v, nameThenEquals (w.map (.char · false)) = some (c :: name, v) ∧ isNameStart c = true := by
  refine and_congr_right fun _ => ⟨?_, ?_⟩
  · rintro ⟨c, name, value, hw, hstart, hname⟩
    exact ⟨c, name, value.map (.char · false), nameThenEquals_plain.2 ⟨value, hw, hname, rfl⟩, hstart⟩
  · rintro ⟨c, name, v, h, hstart⟩
    obtain ⟨value, hw, hname, _⟩ := nameThenEquals_plain.1 h
    exact ⟨c, name, value, hw, hstart, hname⟩

theorem assignment?_literal (w : List Char) : (assignment? (literal w)).isSome = true ↔ BeginsAssignment w := by
  by_cases hw : (!w.isEmpty && w.all isPlain) = true
  · rw [literal, if_pos hw, assignment?, beginsAssignment_iff]
    rw [Bool.and_eq_true] at hw
    cases hname : nameThenEquals (w.map (.char · false)) with
    | none => simp
    | some x =>
      obtain ⟨name, v⟩ := x
      cases name with
      | nil => simp
      | cons c name =>
        by_cases hstart : isNameStart c = true
        · simp [hstart, hw.2]
        · simp [hstart]
  · rw [literal, if_neg hw]
    constructor
    · intro h
      cases h
    · rintro ⟨hplain, c, name, value, rfl, _⟩
      exact absurd hplain (by simpa using hw)

/-! ## Keywords -/

theorem plainText?_plain (w : List Char) : plainText? (w.map (.char · false)) = some (.ofList w) := by
  have hchars : (w.map (.char · false)).mapM Piece.plainChar? = some w := by
    induction w with
    | nil => rfl
    | cons c w ih => simp [ih, Piece.plainChar?]
  rw [plainText?, hchars]
  rfl

theorem keywordOf?_dashed {w : List Char} (h : '-' ∈ w) : keywordOf? (literal w) (isQuoted w) = none := by
  rw [keywordOf?]
  by_cases hw : (!w.isEmpty && w.all isPlain) = true
  · have hkeyword : String.ofList w ∉ keywords := by
      intro hmem
      have hall : ∀ k ∈ keywords, '-' ∉ k.toList := by decide
      exact hall _ hmem (by rwa [String.toList_ofList])
    rw [isQuoted, hw, literal, if_pos hw, plainText?_plain]
    simp [hkeyword]
  · rw [isQuoted, Bool.eq_false_iff.2 hw]
    rfl

/-! ## Parts of a line -/

theorem take_false (p : Parts) (ws : List Word) : p.take false ws = { p with words := ws.reverse ++ p.words } := by
  induction ws generalizing p with
  | nil => rfl
  | cons w ws ih =>
    rw [Parts.take, ih]
    simp

theorem assigns_take {p : Parts} (h : p.assigns ≠ []) (start : Bool) (ws : List Word) : (p.take start ws).assigns ≠ [] := by
  induction ws generalizing p start with
  | nil => cases start <;> exact h
  | cons w ws ih =>
    have hwords : ({ p with words := w :: p.words } : Parts).assigns ≠ [] := h
    cases start with
    | false => exact ih hwords false
    | true =>
      rw [Parts.take]
      split
      · exact ih (List.cons_ne_nil _ _) true
      · exact ih hwords false

theorem lineCommand_of_none {w : Word} (h : assignment? w = none) (line : Nat) (ws : List Word) :
    lineCommand line (w :: ws) = .simple line [] (w :: ws) [] := by
  rw [lineCommand, Parts.take, h, take_false]
  simp [Parts.command]

theorem lineCommand_of_some {w : Word} {a : String × Word} (h : assignment? w = some a) (line n : Nat) (ws vs : List Word) :
    lineCommand line (w :: ws) ≠ .simple n [] vs [] := by
  intro heq
  rw [lineCommand, Parts.take, h, Parts.command] at heq
  have hassigns := assigns_take (p := { assigns := [a] }) (List.cons_ne_nil _ _) true ws
  injection heq with _ hnone
  exact hassigns (List.reverse_eq_nil_iff.1 hnone)

/-! ## Lines as arguments -/

theorem switchNamed_nil {on starting : Bool} {s t : Session} {left : List String}
    (h : switchNamed on starting [] s = .ok left t) : left = [] := by
  cases h
  rfl

theorem switchLetters_nil {on : Bool} {more cs ms : List Char} {s t : Session} {left : List String}
    (h : switchLetters on more cs [] s = .ok (ms, left) t) : left = [] := by
  induction cs generalizing ms s with
  | nil =>
    cases h
    rfl
  | cons c cs ih =>
    rw [switchLetters] at h
    split at h
    · obtain ⟨⟨ns, left'⟩, u, hrest, h⟩ := of_bind_ok h
      cases h
      exact ih hrest
    · split at h
      · obtain ⟨left', u, hnamed, h⟩ := of_bind_ok h
        rw [switchNamed_nil hnamed] at h
        exact ih h
      · split at h
        · obtain ⟨_, u, _, h⟩ := of_bind_ok h
          exact ih h
        · cases h

theorem switchAll_go_nil {more cs : List Char} {on : Bool} {s t : Session} {r : Settings}
    (h : switchAll.go more 0 on cs [] s = .ok r t) : r.rest = [] := by
  rw [switchAll.go] at h
  obtain ⟨⟨ms, left⟩, u, hletters, h⟩ := of_bind_ok h
  rw [switchLetters_nil hletters] at h
  obtain ⟨r', u', hnone, h⟩ := of_bind_ok h
  rw [switchAll] at hnone
  cases hnone
  cases h
  rfl

theorem switchAll_operand {more : List Char} {fuel : Nat} {a : String} {args : List String}
    (hdash : a.toList.head? ≠ some '-') (hplus : a.toList.head? ≠ some '+') :
    switchAll more (fuel + 1) (a :: args) = pure { rest := a :: args } := by
  rw [switchAll]
  split
  · next h => exact absurd (congrArg List.head? h) hdash
  · next h => exact absurd (congrArg List.head? h) hdash
  · next h => exact absurd (congrArg List.head? h) hdash
  · next h => exact absurd (congrArg List.head? h) hplus
  · rfl

theorem switchAll_option {more : List Char} {a : String} {s t : Session} {r : Settings}
    (ha : a.toList.head? = some '-' ∨ a.toList.head? = some '+') (h : switchAll more 1 [a] s = .ok r t) : r.rest = [] := by
  have hstep : (∃ n, switchAll more 1 [a] = pure { dashes := n }) ∨
      ∃ on cs, switchAll more 1 [a] = switchAll.go more 0 on cs [] := by
    rw [switchAll]
    split
    · exact .inl ⟨2, rfl⟩
    · exact .inl ⟨1, rfl⟩
    · exact .inr ⟨true, _, rfl⟩
    · exact .inr ⟨false, _, rfl⟩
    -- the sign in front rules the last case out
    · next hdash hplus =>
      rcases ha with ha | ha
      · obtain ⟨cs, hcs⟩ := List.head?_eq_some_iff.1 ha
        exact absurd hcs (hdash cs)
      · obtain ⟨cs, hcs⟩ := List.head?_eq_some_iff.1 ha
        exact absurd hcs (hplus cs)
  obtain ⟨n, hstep⟩ | ⟨on, cs, hstep⟩ := hstep
  · rw [hstep] at h
    cases h
    rfl
  · rw [hstep] at h
    exact switchAll_go_nil h

theorem switchAll_letter (text : String) (s : Session) : switchAll ['c', 'l'] 2 ["-c", text] s =
    (switchAll ['c', 'l'] 1 [text] >>= fun r => pure { r with more := 'c' :: r.more }) s := by
  have hchars : "-c".toList = ['-', 'c'] := rfl
  rw [switchAll, hchars]
  change switchAll.go ['c', 'l'] 1 true ['c'] [text] s = _
  rw [switchAll.go]
  rfl

/-- With `-c` and a text for its arguments, the shell takes the text for its commands and nothing for an option. -/
def TakesCommands (text : String) : Prop :=
  ∀ s, switchAll ['c', 'l'] 2 ["-c", text] s = .ok { more := ['c'], rest := [text] } s

theorem takesCommands_iff {text : String} :
    TakesCommands text ↔ ¬ (text.toList.head? = some '-' ∨ text.toList.head? = some '+') := by
  constructor
  · intro htakes hoption
    have hall := htakes default
    rw [switchAll_letter] at hall
    obtain ⟨r, t, hr, hall⟩ := of_bind_ok hall
    have hrest : r.rest = [text] := congrArg Settings.rest (EStateM.Result.ok.inj hall).1
    rw [switchAll_option hoption hr] at hrest
    cases hrest
  · intro hoption s
    rw [not_or] at hoption
    rw [switchAll_letter, switchAll_operand hoption.1 hoption.2]
    rfl

def BeginsOption (w : List Char) : Prop := w.all isPlain = true ∧ (w.head? = some '-' ∨ w.head? = some '+')

theorem beginsOption_iff {w : List Char} (rest : List Char) :
    BeginsOption w ↔ (quoteChars w ++ rest).head? = some '-' ∨ (quoteChars w ++ rest).head? = some '+' := by
  by_cases hw : (!w.isEmpty && w.all isPlain) = true
  · rw [quoteChars, if_pos hw]
    rw [Bool.and_eq_true] at hw
    cases w with
    | nil => cases hw.1
    | cons c w => exact and_iff_right hw.2
  · rw [quoteChars, if_neg hw]
    constructor
    · rintro ⟨hplain, hsign⟩
      cases w with
      | nil => simp at hsign
      | cons c w => exact absurd hplain (by simpa using hw)
    · intro h
      simp at h

end Casework.Shell
