import Casework.Backend.CommandLine
import Casework.Shell.Grammar

/-!
# Reading quoted words

What the reader makes of a word that has been quoted: pieces that are characters, of which those that are not plain
were quoted, and marks where the quotes were.
-/

namespace Casework.Shell

/-! ## Words as they are read -/

def quotedPieces (c : Char) : Word := if c = '\'' then [.mark, .char '\'' true, .mark] else [.char c true]

def literal (w : List Char) : Word :=
  if !w.isEmpty && w.all isPlain then w.map (.char · false) else .mark :: w.flatMap quotedPieces ++ [.mark]

theorem wordChars_quotedPieces (w : List Char) : wordChars (w.flatMap quotedPieces) = w := by
  induction w with
  | nil => rfl
  | cons c w ih =>
    rw [wordChars, List.flatMap_cons, List.filterMap_append]
    rw [wordChars] at ih
    rw [ih]
    by_cases hc : c = '\''
    · subst hc
      rfl
    · rw [quotedPieces, if_neg hc]
      rfl

theorem wordChars_literal (w : List Char) : wordChars (literal w) = w := by
  rw [literal]
  split
  · rw [wordChars, List.filterMap_map]
    exact List.filterMap_some
  · have h := wordChars_quotedPieces w
    rw [wordChars] at h
    rw [wordChars, List.cons_append, List.filterMap_cons, List.filterMap_append, h]
    exact List.append_nil w

/-! ## The reader in front of a text -/

theorem bind_ok {ε σ α β : Type} {x : EStateM ε σ α} {f : α → EStateM ε σ β} {r s : σ} {a : α} (h : x r = .ok a s) :
    (x >>= f) r = f a s := by
  simp [bind, EStateM.bind, h]

theorem of_bind_ok {ε σ α β : Type} {x : EStateM ε σ α} {f : α → EStateM ε σ β} {r t : σ} {b : β}
    (h : (x >>= f) r = .ok b t) : ∃ a s, x r = .ok a s ∧ f a s = .ok b t := by
  cases hx : x r with
  | ok a s => exact ⟨a, s, rfl, by rwa [bind_ok hx] at h⟩
  | error e s => simp [bind, EStateM.bind, hx] at h

/-- The reader is in front of `cs`, with nothing else to read, no alias known and no document announced. -/
structure Reader.At (r : Reader) (cs : List Char) : Prop where
  text : r.text = cs
  pushed : r.pushed = []
  ended : r.ended = []
  noAlias : ∀ n, r.aliases.find? n = none
  announced : r.announced = []
  again : r.again = false
  noMark : r.expect.mark = false

section
variable {r : Reader} {cs : List Char}

theorem Reader.At.next (h : r.At cs) : ∃ r', r.next = (cs.head?, r') ∧ r'.At cs.tail := by
  obtain ⟨text, pushed, ended, noAlias, announced, again, noMark⟩ := h
  have hended : r.ended.isEmpty = true := by rw [ended]; rfl
  cases cs with
  | nil =>
    refine ⟨r, ?_, text, pushed, ended, noAlias, announced, again, noMark⟩
    simp [Reader.next, hended, pushed, text]
  | cons c cs =>
    refine ⟨{ r with text := cs }, ?_, rfl, pushed, ended, noAlias, announced, again, noMark⟩
    simp [Reader.next, hended, pushed, text]

theorem Reader.At.unread (h : r.At cs) (c : Char) : (r.unread c).At (c :: cs) := by
  obtain ⟨text, pushed, ended, noAlias, announced, again, noMark⟩ := h
  have hunread : r.unread c = { r with text := c :: cs } := by rw [Reader.unread, pushed, text]
  rw [hunread]
  exact ⟨rfl, pushed, ended, noAlias, announced, again, noMark⟩

/-- No backslash takes a line break away in front of `cs`. -/
def Unjoined (cs : List Char) : Prop := ∀ ds, cs ≠ '\\' :: '\n' :: ds

theorem exists_reach : ∃ n, Reader.reach = n + 1 := Nat.exists_eq_succ_of_ne_zero (Nat.pos_iff_ne_zero.1 (pow2_pos 60))

theorem Reader.At.nextJoined (h : r.At cs) (hj : Unjoined cs) :
    ∃ r', Shell.nextJoined r = .ok cs.head? r' ∧ r'.At cs.tail := by
  obtain ⟨n, hn⟩ := exists_reach
  have hfrom (x : Option Char × Reader) (hx : r.nextJoinedFrom (n + 1) = x) : Shell.nextJoined r = .ok x.1 x.2 := by
    rw [Shell.nextJoined, Reader.nextJoined, hn, hx]
  obtain ⟨r', hnext, h'⟩ := h.next
  cases cs with
  | nil =>
    refine ⟨r', hfrom (none, r') ?_, h'⟩
    simp [Reader.nextJoinedFrom, hnext]
  | cons c ds =>
    by_cases hc : c = '\\'
    · subst hc
      obtain ⟨r'', hnext', h''⟩ := h'.next
      cases ds with
      | nil =>
        refine ⟨r'', hfrom (some '\\', r'') ?_, h''⟩
        simp [Reader.nextJoinedFrom, hnext, hnext']
      | cons d ds =>
        have hd : d ≠ '\n' := fun hd => hj ds (by rw [hd])
        refine ⟨r''.unread d, hfrom (some '\\', r''.unread d) ?_, h''.unread d⟩
        simp [Reader.nextJoinedFrom, hnext, hnext']
    · refine ⟨r', hfrom (some c, r') ?_, h'⟩
      simp [Reader.nextJoinedFrom, hnext, hc]

theorem Reader.At.nextChar (h : r.At cs) : ∃ r', Shell.nextChar r = .ok cs.head? r' ∧ r'.At cs.tail := by
  obtain ⟨r', hnext, h'⟩ := h.next
  exact ⟨r', by rw [Shell.nextChar, hnext], h'⟩

theorem Reader.At.newLine (h : r.At cs) : ∃ r', Shell.newLine r = .ok () r' ∧ r'.At cs :=
  ⟨{ r with line := r.line + 1 }, rfl, h.text, h.pushed, h.ended, h.noAlias, h.announced, h.again, h.noMark⟩

end

/-! ## Reading a word -/

def bare (ps : List Piece) (q : Bool) : Draft := { level := { style := .base }, pieces := ps, quoted := q }

def inQuotes (ps : List Piece) (q : Bool) : Draft := { level := { style := .single }, pieces := ps, quoted := q }

theorem ne_of_plain {c : Char} (h : isPlain c = true) {d : Char} (hd : isPlain d = false) : c ≠ d := by
  rintro rfl
  rw [h] at hd
  cases hd

theorem not_plain_of_mem {cs : List Char} (h : cs.all (!isPlain ·) = true) {c : Char} (hc : c ∈ cs) :
    isPlain c = false := by
  simpa using List.all_eq_true.1 h c hc

theorem kind_plain {c : Char} (h : isPlain c = true) : Style.base.kind c = .plain := by
  have hseparators : "<>();&| \t".toList.contains c = false := by
    rw [List.contains_eq_mem, decide_eq_false_iff_not]
    intro hmem
    exact ne_of_plain h (not_plain_of_mem (by decide) hmem) rfl
  simp only [Style.kind, ne_of_plain h (d := '\n') rfl, ne_of_plain h (d := '\\') rfl, ne_of_plain h (d := '$') rfl,
    ne_of_plain h (d := '\x60') rfl, ne_of_plain h (d := '\x7d') rfl, ne_of_plain h (d := '\'') rfl,
    ne_of_plain h (d := '"') rfl, hseparators, if_false]
  rfl

section
variable {r : Reader} {cs : List Char} (fuel : Nat) (ps : List Piece) (q : Bool) (h : r.At cs)
include h

theorem wordFrom_plain {c : Char} (hc : isPlain c = true) (hj : Unjoined cs) : ∃ r', r'.At cs.tail ∧
    wordFrom (fuel + 1) (bare ps q) (some c) r = wordFrom fuel (bare (.char c false :: ps) q) cs.head? r' := by
  obtain ⟨r', hnext, h'⟩ := h.nextJoined hj
  have hkind : (bare ps q).level.style.kind c = .plain := kind_plain hc
  refine ⟨r', h', ?_⟩
  rw [wordFrom]
  simp only [hkind]
  exact bind_ok hnext

theorem wordFrom_openQuote : ∃ r', r'.At cs.tail ∧
    wordFrom (fuel + 1) (bare ps q) (some '\'') r = wordFrom fuel (inQuotes (.mark :: ps) q) cs.head? r' := by
  obtain ⟨r', hnext, h'⟩ := h.nextChar
  have hkind : (bare ps q).level.style.kind '\'' = .singleQuote := rfl
  refine ⟨r', h', ?_⟩
  rw [wordFrom]
  simp only [hkind]
  exact bind_ok hnext

theorem wordFrom_inside {c : Char} (hc : c ≠ '\'') : ∃ r', r'.At cs.tail ∧
    wordFrom (fuel + 1) (inQuotes ps q) (some c) r = wordFrom fuel (inQuotes (.char c true :: ps) q) cs.head? r' := by
  by_cases hline : c = '\n'
  · subst hline
    obtain ⟨r', hnew, h'⟩ := h.newLine
    obtain ⟨r'', hnext, h''⟩ := h'.nextChar
    have hkind : (inQuotes ps q).level.style.kind '\n' = .newline := rfl
    refine ⟨r'', h'', ?_⟩
    rw [wordFrom]
    simp only [hkind]
    refine (bind_ok hnew).trans ?_
    refine (bind_ok hnext).trans ?_
    rfl
  · obtain ⟨r', hnext, h'⟩ := h.nextChar
    have hkind : (inQuotes ps q).level.style.kind c = .plain := by
      change Style.single.kind c = .plain
      simp [Style.kind, hline, hc]
    refine ⟨r', h', ?_⟩
    rw [wordFrom]
    simp only [hkind]
    exact bind_ok hnext

theorem wordFrom_closeQuote (hj : Unjoined cs) : ∃ r', r'.At cs.tail ∧
    wordFrom (fuel + 1) (inQuotes ps q) (some '\'') r = wordFrom fuel (bare (.mark :: ps) true) cs.head? r' := by
  obtain ⟨r', hnext, h'⟩ := h.nextJoined hj
  have hkind : (inQuotes ps q).level.style.kind '\'' = .endQuote := rfl
  refine ⟨r', h', ?_⟩
  rw [wordFrom]
  simp only [hkind]
  exact bind_ok hnext

theorem wordFrom_escapedQuote (hj : Unjoined cs.tail) (hhead : cs.head? = some '\'') : ∃ r', r'.At cs.tail.tail ∧
    wordFrom (fuel + 1) (bare ps q) (some '\\') r = wordFrom fuel (bare (.char '\'' true :: ps) true) cs.tail.head? r' := by
  obtain ⟨r', hnext, h'⟩ := h.nextChar
  obtain ⟨r'', hnext', h''⟩ := h'.nextJoined hj
  rw [hhead] at hnext
  have hkind : (bare ps q).level.style.kind '\\' = .backslash := rfl
  refine ⟨r'', h'', ?_⟩
  rw [wordFrom]
  simp only [hkind]
  refine (bind_ok hnext).trans ?_
  exact bind_ok hnext'

end

def Over (rest : List Char) : Prop := rest = [] ∨ rest.head? = some ' '

theorem Over.unjoined {rest : List Char} (h : Over rest) : Unjoined rest := by
  rintro ds rfl
  rcases h with h | h <;> cases h

section
variable {rest : List Char} (hrest : Over rest)
include hrest

theorem wordFrom_end (fuel : Nat) (ps : List Piece) (q : Bool) (r : Reader) :
    wordFrom (fuel + 1) (bare ps q) rest.head? r = .ok (bare ps q, rest.head?) r := by
  rcases hrest with rfl | hrest
  · rw [List.head?_nil, wordFrom]
    rfl
  · rw [hrest, wordFrom]
    rfl

theorem wordFrom_quoted (w : List Char) {fuel : Nat} {r : Reader} {ps : List Piece} {q : Bool}
    (hfuel : (w.flatMap quoteChar).length + 2 ≤ fuel)
    (h : r.At (w.flatMap quoteChar ++ '\'' :: rest).tail) : ∃ r', r'.At rest.tail ∧
      wordFrom fuel (inQuotes ps q) (w.flatMap quoteChar ++ '\'' :: rest).head? r =
        .ok (bare (.mark :: ((w.flatMap quotedPieces).reverse ++ ps)) true, rest.head?) r' := by
  induction w generalizing fuel r ps q with
  | nil =>
    obtain ⟨n, rfl⟩ : ∃ n, fuel = n + 1 + 1 := ⟨fuel - 2, by simp at hfuel; omega⟩
    obtain ⟨r', h', hstep⟩ := wordFrom_closeQuote (n + 1) ps q h hrest.unjoined
    exact ⟨r', h', hstep.trans (wordFrom_end hrest n _ _ r')⟩
  | cons c w ih =>
    by_cases hc : c = '\''
    · subst hc
      have hquote : quoteChar '\'' = ['\'', '\\', '\'', '\''] := rfl
      have hpieces : quotedPieces '\'' = [.mark, .char '\'' true, .mark] := rfl
      rw [List.flatMap_cons, hquote, List.length_append] at hfuel
      rw [List.flatMap_cons, hquote] at h ⊢
      obtain ⟨n, rfl⟩ : ∃ n, fuel = n + 1 + 1 + 1 := ⟨fuel - 3, by
        simp only [List.length_cons, List.length_nil] at hfuel
        omega⟩
      have hbackslash : Unjoined ('\\' :: '\'' :: '\'' :: (w.flatMap quoteChar ++ '\'' :: rest)) := by
        intro ds hds
        cases hds
      have hreopen : Unjoined ('\'' :: (w.flatMap quoteChar ++ '\'' :: rest)) := by
        intro ds hds
        cases hds
      -- the quotes are left, one stands escaped outside of them, and they are entered again
      obtain ⟨r₁, h₁, hclose⟩ := wordFrom_closeQuote (n + 1 + 1) ps q h hbackslash
      obtain ⟨r₂, h₂, hescape⟩ := wordFrom_escapedQuote (n + 1) (.mark :: ps) true h₁ hreopen rfl
      obtain ⟨r₃, h₃, hopen⟩ := wordFrom_openQuote n (.char '\'' true :: .mark :: ps) true h₂
      have hleft : (w.flatMap quoteChar).length + 2 ≤ n := by
        simp only [List.length_cons, List.length_nil] at hfuel
        omega
      obtain ⟨r₄, h₄, hword⟩ := ih hleft h₃
      refine ⟨r₄, h₄, ?_⟩
      rw [List.flatMap_cons, hpieces]
      refine hclose.trans (hescape.trans (hopen.trans (hword.trans ?_)))
      simp
    · have hquote : quoteChar c = [c] := if_neg hc
      have hpieces : quotedPieces c = [.char c true] := if_neg hc
      rw [List.flatMap_cons, hquote, List.singleton_append, List.length_cons] at hfuel
      rw [List.flatMap_cons, hquote] at h ⊢
      obtain ⟨n, rfl⟩ : ∃ n, fuel = n + 1 := ⟨fuel - 1, by omega⟩
      obtain ⟨r', h', hstep⟩ := wordFrom_inside n ps q h hc
      have hleft : (w.flatMap quoteChar).length + 2 ≤ n := by omega
      obtain ⟨r'', h'', hword⟩ := ih hleft h'
      refine ⟨r'', h'', ?_⟩
      rw [List.flatMap_cons, hpieces]
      refine hstep.trans (hword.trans ?_)
      simp

theorem wordFrom_plains (w : List Char) (hw : w.all isPlain = true) {fuel : Nat} {r : Reader} {ps : List Piece}
    {q : Bool} (hfuel : w.length + 1 ≤ fuel) (h : r.At (w ++ rest).tail) : ∃ r', r'.At rest.tail ∧
      wordFrom fuel (bare ps q) (w ++ rest).head? r =
        .ok (bare ((w.map (.char · false)).reverse ++ ps) q, rest.head?) r' := by
  induction w generalizing fuel r ps with
  | nil =>
    obtain ⟨n, rfl⟩ : ∃ n, fuel = n + 1 := ⟨fuel - 1, by omega⟩
    exact ⟨r, h, wordFrom_end hrest n ps q r⟩
  | cons c w ih =>
    rw [List.all_cons, Bool.and_eq_true] at hw
    rw [List.length_cons] at hfuel
    obtain ⟨n, rfl⟩ : ∃ n, fuel = n + 1 := ⟨fuel - 1, by omega⟩
    have hj : Unjoined (w ++ rest) := by
      cases w with
      | nil => exact hrest.unjoined
      | cons d w =>
        intro ds hds
        have hd : d = '\\' := (List.cons.inj hds).1
        subst hd
        exact absurd hw.2 (by simp [isPlain])
    obtain ⟨r', h', hstep⟩ := wordFrom_plain n ps q h hw.1 hj
    have hleft : w.length + 1 ≤ n := by omega
    obtain ⟨r'', h'', hword⟩ := ih hw.2 hleft h'
    refine ⟨r'', h'', hstep.trans (hword.trans ?_)⟩
    simp

def isQuoted (w : List Char) : Bool := !(!w.isEmpty && w.all isPlain)

theorem wordFrom_quoteChars (w : List Char) {fuel : Nat} {r : Reader} (hfuel : (quoteChars w).length + 1 ≤ fuel)
    (h : r.At (quoteChars w ++ rest).tail) : ∃ r', r'.At rest.tail ∧
      wordFrom fuel (bare [] false) (quoteChars w ++ rest).head? r =
        .ok (bare (literal w).reverse (isQuoted w), rest.head?) r' := by
  by_cases hw : (!w.isEmpty && w.all isPlain) = true
  · have hquoted : isQuoted w = false := by
      rw [isQuoted, hw]
      rfl
    rw [quoteChars, if_pos hw] at hfuel h ⊢
    rw [literal, if_pos hw, hquoted]
    rw [Bool.and_eq_true] at hw
    obtain ⟨r', h', hword⟩ := wordFrom_plains hrest w hw.2 hfuel h
    refine ⟨r', h', hword.trans ?_⟩
    rw [List.append_nil]
  · have hquoted : isQuoted w = true := by
      rw [isQuoted, Bool.eq_false_iff.2 hw]
      rfl
    rw [quoteChars, if_neg hw] at hfuel h ⊢
    rw [literal, if_neg hw, hquoted]
    simp only [List.cons_append, List.append_assoc, List.length_cons, List.length_append, List.length_nil] at hfuel h ⊢
    obtain ⟨n, rfl⟩ : ∃ n, fuel = n + 1 := ⟨fuel - 1, by omega⟩
    obtain ⟨r', h', hopen⟩ := wordFrom_openQuote n [] false h
    have hleft : (w.flatMap quoteChar).length + 2 ≤ n := by omega
    obtain ⟨r'', h'', hword⟩ := wordFrom_quoted hrest w hleft h'
    refine ⟨r'', h'', hopen.trans (hword.trans ?_)⟩
    simp

end

end Casework.Shell
