import Casework.Proofs.Shell.Words
import Casework.Proofs.Text.Octets

/-!
# Reading a line of quoted words

Words that were quoted and put on one line are read as one simple command and nothing else, if the first of them is
no keyword. What is plain and reads as an assignment is one as long as only such words stand in front of it.
-/

namespace Casework.Shell

/-! ## Tokens -/

theorem Reader.At.expectNext {r : Reader} {cs : List Char} (h : r.At cs) {e : Expect} (he : e.mark = false) :
    ({ r with expect := e } : Reader).At cs :=
  ⟨h.text, h.pushed, h.ended, h.noAlias, h.announced, h.again, he⟩

/-- The token `t`, behind which `cs` stands, has been read and is to be read again. -/
structure Reader.Behind (r : Reader) (t : Token) (cs : List Char) : Prop where
  again : r.again = true
  last : r.last = t
  expect : r.expect = {}
  rest : ({ r with again := false } : Reader).At cs

theorem Reader.At.pushBack {r : Reader} {t : Token} {cs : List Char} (h : r.At cs) (hlast : r.last = t)
    (hexpect : r.expect = {}) : ({ r with again := true } : Reader).Behind t cs :=
  ⟨rfl, hlast, hexpect, h.text, h.pushed, h.ended, h.noAlias, h.announced, rfl, h.noMark⟩

/-- With so much fuel the next token is `t`, and `cs` stands behind it. -/
def Reader.Gives (r : Reader) (n : Nat) (t : Token) (cs : List Char) : Prop :=
  ∀ fuel, n ≤ fuel → ∃ r', rawToken fuel r = .ok t r' ∧ r'.At cs ∧ r'.last = t

theorem Reader.Behind.gives {r : Reader} {t : Token} {cs : List Char} (h : r.Behind t cs) {e : Expect}
    (he : e.mark = false) : ({ r with expect := e } : Reader).Gives 1 t cs := by
  intro fuel hfuel
  obtain ⟨n, rfl⟩ : ∃ n, fuel = n + 1 := ⟨fuel - 1, by omega⟩
  refine ⟨{ r with expect := e, again := false }, ?_, h.rest.expectNext he, h.last⟩
  rw [rawToken]
  refine (bind_ok (x := get) rfl).trans ?_
  rw [if_pos h.again, ← h.last]
  rfl

theorem Reader.At.gives_eof {r : Reader} (h : r.At []) : r.Gives 1 .eof [] := by
  intro fuel hfuel
  obtain ⟨n, rfl⟩ : ∃ n, fuel = n + 1 := ⟨fuel - 1, by omega⟩
  obtain ⟨r', hnext, h'⟩ := h.nextJoined (fun ds hds => by cases hds)
  refine ⟨{ r' with last := .eof }, ?_, ⟨h'.text, h'.pushed, h'.ended, h'.noAlias, h'.announced, h'.again, h'.noMark⟩,
    rfl⟩
  rw [rawToken]
  refine (bind_ok (x := get) rfl).trans ?_
  rw [h.again, if_neg Bool.false_ne_true]
  exact bind_ok hnext

theorem Reader.At.gives_blank {r : Reader} {t : Token} {cs ds : List Char} {n : Nat} (h : r.At (' ' :: cs))
    (hgives : ∀ r' : Reader, r'.At cs → r'.Gives n t ds) : r.Gives (n + 1) t ds := by
  intro fuel hfuel
  obtain ⟨k, rfl⟩ : ∃ k, fuel = k + 1 := ⟨fuel - 1, by omega⟩
  obtain ⟨r', hnext, h'⟩ := h.nextJoined (fun ds hds => by cases hds)
  obtain ⟨r'', hraw, h'', hlast⟩ := hgives r' h' k (by omega)
  refine ⟨r'', ?_, h'', hlast⟩
  rw [rawToken]
  refine (bind_ok (x := get) rfl).trans ?_
  rw [h.again, if_neg Bool.false_ne_true]
  exact (bind_ok hnext).trans hraw

theorem token_bare {r : Reader} {rest : List Char} (hrest : Over rest) (h : r.At rest.tail) (w : Word) (q : Bool) :
    ∃ r', (bare w.reverse q).token rest.head? r = .ok (.word w q) r' ∧ r'.At rest ∧ r'.last = .word w q := by
  have hword : (bare w.reverse q).word = w := List.reverse_reverse w
  have hfinish : ∀ s : Reader, (bare w.reverse q).finish s = .ok () s := fun _ => rfl
  rcases hrest with rfl | hrest
  · refine ⟨{ r with lastWord := w, last := .word w q },
      ?_, ⟨h.text, h.pushed, h.ended, h.noAlias, h.announced, h.again, h.noMark⟩, rfl⟩
    unfold Draft.token
    refine (bind_ok (hfinish r)).trans ?_
    rw [hword]
    rfl
  -- the blank has been read to see the end of the word, and is put back
  · have hback := h.unread ' '
    have hcons : ' ' :: rest.tail = rest := by
      cases rest with
      | nil => cases hrest
      | cons c rest =>
        cases hrest
        rfl
    rw [hcons] at hback
    refine ⟨{ r.unread ' ' with lastWord := w, last := .word w q },
      ?_, ⟨hback.text, hback.pushed, hback.ended, hback.noAlias, hback.announced, hback.again, hback.noMark⟩, rfl⟩
    rw [hrest]
    unfold Draft.token
    refine (bind_ok (hfinish r)).trans ?_
    rw [hword]
    rfl

theorem head_quoteChars (w : List Char) : ∃ c cs, quoteChars w = c :: cs ∧ (c = '\'' ∨ isPlain c = true) := by
  rw [quoteChars]
  split
  · rename_i hw
    cases w with
    | nil => cases hw
    | cons c w =>
      refine ⟨c, w, rfl, .inr ?_⟩
      simp only [List.all_cons, Bool.and_eq_true] at hw
      exact hw.2.1
  · exact ⟨_, _, rfl, .inl rfl⟩

theorem Reader.At.gives_word {r : Reader} {rest : List Char} (hrest : Over rest) (w : List Char)
    (h : r.At (quoteChars w ++ rest)) :
    r.Gives ((quoteChars w).length + 2) (.word (literal w) (isQuoted w)) rest := by
  intro fuel hfuel
  obtain ⟨n, rfl⟩ : ∃ n, fuel = n + 1 := ⟨fuel - 1, by omega⟩
  obtain ⟨c, cs, hc, hfirst⟩ := head_quoteChars w
  have hne : ∀ d ∈ [' ', '\t', '#', '\n', '&', '|', ';', '(', ')', '\\'], c ≠ d := by
    rintro d hd rfl
    rcases hfirst with rfl | hplain
    · exact absurd hd (by decide)
    · exact ne_of_plain hplain (not_plain_of_mem (by decide) hd) rfl
  have hhead : (quoteChars w ++ rest).head? = some c := by rw [hc, List.cons_append, List.head?_cons]
  have hj : Unjoined (quoteChars w ++ rest) := by
    intro ds hds
    rw [hds] at hhead
    exact hne '\\' (by decide) (Option.some.inj hhead).symm
  obtain ⟨r₁, hnext, h₁⟩ := h.nextJoined hj
  have hleft : (quoteChars w).length + 1 ≤ n := by omega
  obtain ⟨r₂, h₂, hword⟩ := wordFrom_quoteChars hrest w hleft h₁
  obtain ⟨r₃, htoken, h₃, hlast⟩ := token_bare hrest h₂ (literal w) (isQuoted w)
  refine ⟨r₃, ?_, h₃, hlast⟩
  have hdraft : ({ isMark := r.expect.mark, level := { style := .base } } : Draft) = bare [] false := by
    rw [h.noMark]
    rfl
  rw [rawToken]
  refine (bind_ok (x := get) rfl).trans ?_
  rw [h.again, if_neg Bool.false_ne_true]
  refine (bind_ok hnext).trans ?_
  rw [hhead] at hword ⊢
  simp only [hne ' ' (by decide), hne '\t' (by decide), hne '#' (by decide), hne '\n' (by decide),
    hne '&' (by decide), hne '|' (by decide), hne ';' (by decide), hne '(' (by decide), hne ')' (by decide),
    decide_false, Bool.or_false, Bool.false_eq_true, if_false, hdraft]
  exact (bind_ok hword).trans htoken

theorem Reader.At.alias? {r : Reader} {cs : List Char} (h : r.At cs) (w : Word) : r.alias? w = none := by
  rw [Reader.alias?]
  cases plainText? w with
  | none => rfl
  | some n =>
    simp only [Option.bind_some, h.noAlias]
    split <;> rfl

section
variable {r : Reader} {cs : List Char} {n fuel : Nat}

theorem token_word {w : Word} {q : Bool} (h : r.Gives n (.word w q) cs)
    (hkeyword : r.expect.keyword = true → keywordOf? w q = none) (hfuel : n + 2 ≤ fuel) :
    ∃ r', token fuel r = .ok (.word w q) r' ∧ r'.At cs ∧ r'.last = .word w q ∧ r'.expect = {} := by
  obtain ⟨k, rfl⟩ : ∃ k, fuel = k + 1 + 1 := ⟨fuel - 2, by omega⟩
  obtain ⟨r', hraw, h', hlast⟩ := h k (by omega)
  have hkept : (if r.expect.keyword then keywordOf? w q else none) = none := by
    split
    · rename_i hk
      exact hkeyword hk
    · rfl
  refine ⟨{ r' with expect := {} }, ?_, h'.expectNext rfl, hlast, rfl⟩
  rw [token]
  refine (bind_ok (x := get) rfl).trans ?_
  rw [tokenAs]
  refine (bind_ok hraw).trans ?_
  simp only [hkept]
  refine (bind_ok (x := get) rfl).trans ?_
  have hplain : (if (r'.expect.aliases && !q) = true then r'.alias? w else none) = none := by
    rw [h'.alias?]
    split <;> rfl
  simp only [hplain]
  rfl

theorem token_eof (h : r.Gives n .eof cs) (hfuel : n + 2 ≤ fuel) :
    ∃ r', token fuel r = .ok .eof r' ∧ r'.At cs ∧ r'.last = .eof ∧ r'.expect = {} := by
  obtain ⟨k, rfl⟩ : ∃ k, fuel = k + 1 + 1 := ⟨fuel - 2, by omega⟩
  obtain ⟨r', hraw, h', hlast⟩ := h k (by omega)
  refine ⟨{ r' with expect := {} }, ?_, h'.expectNext rfl, hlast, rfl⟩
  rw [token]
  refine (bind_ok (x := get) rfl).trans ?_
  rw [tokenAs]
  exact (bind_ok hraw).trans rfl

end

/-! ## Simple commands -/

def behind (ws : List (List Char)) : List Char := ws.flatMap fun w => ' ' :: quoteChars w

theorem over_behind (ws : List (List Char)) : Over (behind ws) := by
  cases ws with
  | nil => exact .inl rfl
  | cons w ws => exact .inr rfl

/-- The parts with more words; at the start those that read as assignments are taken as such. -/
def Parts.take (p : Parts) : Bool → List Word → Parts
  | _, [] => p
  | true, w :: ws =>
    match assignment? w with
    | some a => Parts.take { p with assigns := a :: p.assigns } true ws
    | none => Parts.take { p with words := w :: p.words } false ws
  | false, w :: ws => Parts.take { p with words := w :: p.words } false ws

theorem simple_end {r : Reader} (h : r.At []) {fuel : Nat} (hfuel : 4 ≤ fuel) (line : Nat) (p : Parts) (start : Bool) :
    ∃ r', simple fuel line p start r = .ok (p.command line) r' ∧ r'.Behind .eof [] := by
  obtain ⟨k, rfl⟩ : ∃ k, fuel = k + 1 := ⟨fuel - 1, by omega⟩
  have hexpect := h.expectNext (e := { aliases := start }) rfl
  obtain ⟨r', htoken, h', hlast, hnothing⟩ := token_eof hexpect.gives_eof (by omega : 1 + 2 ≤ k)
  refine ⟨{ r' with again := true }, ?_, h'.pushBack hlast hnothing⟩
  rw [simple]
  refine (bind_ok (x := expectNext _) rfl).trans ?_
  refine (bind_ok htoken).trans ?_
  rfl

theorem simple_next {r : Reader} {n fuel line : Nat} {w : Word} {q : Bool} {ws : List Word} {cs : List Char}
    {p : Parts} {start : Bool} (h : ({ r with expect := { aliases := start } } : Reader).Gives n (.word w q) cs)
    (hfuel : n + 2 ≤ fuel)
    (hrest : ∀ (r' : Reader) (p' : Parts) (more : Bool), r'.At cs → ∃ s : Reader,
      simple fuel line p' more r' = .ok ((p'.take more ws).command line) s ∧ s.Behind .eof []) :
    ∃ s : Reader, simple (fuel + 1) line p start r = .ok ((p.take start (w :: ws)).command line) s ∧
      s.Behind .eof [] := by
  obtain ⟨r', htoken, h', _, _⟩ := token_word h (fun hk => by cases hk) hfuel
  rw [simple]
  have hstart : ∀ s : Reader, expectNext { aliases := start } r = .ok () { r with expect := { aliases := start } } :=
    fun _ => rfl
  rw [bind_ok (hstart r), bind_ok htoken]
  cases start with
  | false => exact hrest r' _ false h'
  | true =>
    rw [Parts.take]
    cases hassign : assignment? w with
    | none => simpa only [if_true, hassign] using hrest r' _ false h'
    | some a => simpa only [if_true, hassign] using hrest r' _ true h'

theorem simple_words (ws : List (List Char)) {r : Reader} (h : r.At (behind ws)) {fuel : Nat}
    (hfuel : (behind ws).length + 6 ≤ fuel) (line : Nat) (p : Parts) (start : Bool) :
    ∃ s, simple fuel line p start r = .ok ((p.take start (ws.map literal)).command line) s ∧ s.Behind .eof [] := by
  induction ws generalizing r fuel p start with
  | nil =>
    obtain ⟨s, hend, hs⟩ := simple_end h (by omega : 4 ≤ fuel) line p start
    refine ⟨s, hend.trans ?_, hs⟩
    cases start <;> rfl
  | cons w ws ih =>
    have hcons : behind (w :: ws) = ' ' :: (quoteChars w ++ behind ws) := by
      rw [behind, List.flatMap_cons]
      rfl
    have hlength : (behind (w :: ws)).length = 1 + (quoteChars w).length + (behind ws).length := by
      rw [hcons, List.length_cons, List.length_append]
      omega
    rw [hlength] at hfuel
    rw [hcons] at h
    obtain ⟨k, rfl⟩ : ∃ k, fuel = k + 1 := ⟨fuel - 1, by omega⟩
    have hgives := (h.expectNext (e := { aliases := start }) rfl).gives_blank fun r' h' =>
      h'.gives_word (over_behind ws) w
    exact simple_next hgives (by omega) fun r' p' more h' => ih h' (by omega) p' more

/-! ## Lines -/

section
variable {r : Reader} {w : List Char} {ws : List (List Char)} {fuel : Nat}

def lineCommand (line : Nat) (ws : List Word) : Command := (Parts.take {} true ws).command line

theorem command_words (h : r.Behind (.word (literal w) (isQuoted w)) (behind ws))
    (hfuel : (behind ws).length + 8 ≤ fuel) :
    ∃ line s, command fuel r = .ok (lineCommand line (literal w :: ws.map literal)) s ∧ s.Behind .eof [] := by
  obtain ⟨k, rfl⟩ : ∃ k, fuel = k + 1 + 1 := ⟨fuel - 2, by omega⟩
  obtain ⟨r', htoken, h', hlast, hexpect⟩ := token_word (h.gives (e := r.expect) (by rw [h.expect]))
    (fun hk => by rw [h.expect] at hk; cases hk) (by omega : 1 + 2 ≤ k + 1)
  have hbehind := h'.pushBack hlast hexpect
  have hfirst : ∃ s : Reader, simple (k + 1) r'.line {} true { r' with again := true } =
      .ok (lineCommand r'.line (literal w :: ws.map literal)) s ∧ s.Behind .eof [] :=
    simple_next (hbehind.gives rfl) (by omega) fun r'' p' more h'' => simple_words ws h'' (by omega) _ p' more
  obtain ⟨s, hsimple, hs⟩ := hfirst
  refine ⟨r'.line, s, ?_, hs⟩
  rw [command]
  refine (bind_ok (x := get) rfl).trans ?_
  refine (bind_ok htoken).trans ?_
  refine (bind_ok (x := pushBack) rfl).trans ?_
  refine (bind_ok (x := get) rfl).trans ?_
  exact hsimple

theorem token_behind_eof (h : r.Behind .eof []) (hfuel : 3 ≤ fuel) :
    ∃ s, token fuel r = .ok .eof s ∧ s.At [] ∧ s.last = .eof ∧ s.expect = {} := by
  have hgives : r.Gives 1 .eof [] := by
    have hkept := h.gives (e := r.expect) (by rw [h.expect])
    exact hkept
  exact token_eof hgives hfuel

theorem pipes_end (h : r.Behind .eof []) (hfuel : 4 ≤ fuel) : ∃ s, pipes fuel r = .ok [] s ∧ s.Behind .eof [] := by
  obtain ⟨k, rfl⟩ : ∃ k, fuel = k + 1 := ⟨fuel - 1, by omega⟩
  obtain ⟨r', htoken, h', hlast, hexpect⟩ := token_behind_eof h (by omega : 3 ≤ k)
  refine ⟨{ r' with again := true }, ?_, h'.pushBack hlast hexpect⟩
  rw [pipes]
  exact (bind_ok htoken).trans rfl

theorem pipeline_words (h : r.Behind (.word (literal w) (isQuoted w)) (behind ws))
    (hfuel : (behind ws).length + 9 ≤ fuel) :
    ∃ line s, pipeline fuel r = .ok (lineCommand line (literal w :: ws.map literal)) s ∧ s.Behind .eof [] := by
  obtain ⟨k, rfl⟩ : ∃ k, fuel = k + 1 := ⟨fuel - 1, by omega⟩
  obtain ⟨r', htoken, h', hlast, hexpect⟩ := token_word (h.gives (e := r.expect) (by rw [h.expect]))
    (fun hk => by rw [h.expect] at hk; cases hk) (by omega : 1 + 2 ≤ k)
  obtain ⟨line, r'', hcommand, h''⟩ := command_words (h'.pushBack hlast hexpect) (by omega : _ ≤ k)
  obtain ⟨s, hpipes, hs⟩ := pipes_end h'' (by omega : 4 ≤ k)
  refine ⟨line, s, ?_, hs⟩
  rw [pipeline]
  refine (bind_ok htoken).trans ?_
  refine (bind_ok (x := pushBack) rfl).trans ?_
  refine (bind_ok hcommand).trans ?_
  refine (bind_ok hpipes).trans ?_
  rfl

theorem andOr_words (h : r.Behind (.word (literal w) (isQuoted w)) (behind ws))
    (hfuel : (behind ws).length + 10 ≤ fuel) :
    ∃ line s, andOr fuel r = .ok (lineCommand line (literal w :: ws.map literal)) s ∧ s.Behind .eof [] := by
  obtain ⟨k, rfl⟩ : ∃ k, fuel = k + 1 + 1 := ⟨fuel - 2, by omega⟩
  obtain ⟨line, r', hpipeline, h'⟩ := pipeline_words h (by omega : _ ≤ k + 1)
  obtain ⟨r'', htoken, h'', hlast, hexpect⟩ := token_behind_eof h' (by omega : 3 ≤ k)
  refine ⟨line, { r'' with again := true }, ?_, h''.pushBack hlast hexpect⟩
  rw [andOr]
  refine (bind_ok hpipeline).trans ?_
  rw [andOrFrom]
  exact (bind_ok htoken).trans rfl

theorem readDocuments_nothing (h : r.At []) (hfuel : 1 ≤ fuel) : readDocuments fuel r = .ok () r := by
  obtain ⟨k, rfl⟩ : ∃ k, fuel = k + 1 := ⟨fuel - 1, by omega⟩
  rw [readDocuments]
  refine (bind_ok (x := get) rfl).trans ?_
  rw [h.announced]
  rfl

theorem lineFrom_words (h : r.At (quoteChars w ++ behind ws)) (hkeyword : keywordOf? (literal w) (isQuoted w) = none)
    (hfuel : (quoteChars w).length + (behind ws).length + 11 ≤ fuel) :
    ∃ line s, lineFrom fuel none r = .ok (some (some (lineCommand line (literal w :: ws.map literal)))) s ∧
      s.Behind .eof [] := by
  obtain ⟨k, rfl⟩ : ∃ k, fuel = k + 1 := ⟨fuel - 1, by omega⟩
  have hgives := (h.expectNext (e := anyCommand) rfl).gives_word (over_behind ws) w
  obtain ⟨r₁, hfirst, h₁, hlast, hexpect⟩ := token_word hgives (fun _ => hkeyword) (by omega : _ ≤ k)
  obtain ⟨line, r₂, handOr, h₂⟩ := andOr_words (h₁.pushBack hlast hexpect) (by omega : _ ≤ k)
  obtain ⟨r₃, heof, h₃, hlast, hexpect⟩ := token_behind_eof h₂ (by omega : 3 ≤ k)
  refine ⟨line, { r₃ with again := true, last := .eof }, ?_, ?_⟩
  · rw [lineFrom]
    refine (bind_ok (x := expectNext _) rfl).trans ?_
    refine (bind_ok hfirst).trans ?_
    refine (bind_ok (x := pushBack) rfl).trans ?_
    refine (bind_ok handOr).trans ?_
    refine (bind_ok heof).trans ?_
    refine (bind_ok (readDocuments_nothing h₃ (by omega))).trans ?_
    rfl
  · exact ⟨rfl, rfl, hexpect, h₃.text, h₃.pushed, h₃.ended, h₃.noAlias, h₃.announced, rfl, h₃.noMark⟩

theorem lineFrom_end (h : r.At []) (hfuel : 4 ≤ fuel) : ∃ s, lineFrom fuel none r = .ok none s := by
  obtain ⟨k, rfl⟩ : ∃ k, fuel = k + 1 := ⟨fuel - 1, by omega⟩
  have hexpect := h.expectNext (e := anyCommand) rfl
  obtain ⟨r', heof, h', _, _⟩ := token_eof hexpect.gives_eof (by omega : 1 + 2 ≤ k)
  refine ⟨{ r' with again := true, last := .eof }, ?_⟩
  rw [lineFrom]
  refine (bind_ok (x := expectNext _) rfl).trans ?_
  refine (bind_ok heof).trans ?_
  exact (bind_ok (readDocuments_nothing h' (by omega))).trans rfl

end

/-! ## Texts by themselves -/

theorem nextCommand_words {w : List Char} (ws : List (List Char))
    (hkeyword : keywordOf? (literal w) (isQuoted w) = none) :
    ∃ line r s, nextCommand { text := quoteChars w ++ behind ws } =
      .ok (some (some (lineCommand line (literal w :: ws.map literal)))) r ∧ nextCommand r = .ok none s := by
  have hreach : 11 ≤ Reader.reach := by decide
  have hat : ({ text := quoteChars w ++ behind ws } : Reader).At (quoteChars w ++ behind ws) :=
    ⟨rfl, rfl, rfl, fun _ => rfl, rfl, rfl, rfl⟩
  have hfuel : (quoteChars w).length + (behind ws).length + 11 ≤
      Reader.reach + (quoteChars w ++ behind ws).length := by
    rw [List.length_append]
    omega
  obtain ⟨line, r, hline, hr⟩ := lineFrom_words hat hkeyword hfuel
  have hrest : ({ r with again := false, expect := {}, announced := [] } : Reader).At [] :=
    ⟨hr.rest.text, hr.rest.pushed, hr.rest.ended, hr.rest.noAlias, rfl, rfl, rfl⟩
  obtain ⟨s, hend⟩ := lineFrom_end hrest (by omega : 4 ≤ Reader.reach + r.text.length)
  refine ⟨line, r, s, ?_, ?_⟩
  · rw [nextCommand]
    refine (bind_ok (x := modify _) rfl).trans ?_
    exact (bind_ok (x := get) rfl).trans hline
  · rw [nextCommand]
    refine (bind_ok (x := modify _) rfl).trans ?_
    exact (bind_ok (x := get) rfl).trans hend

/-! ## Octets of a line -/

def octetChars (s : String) : List Char := (Text.toOctets s).toList

theorem octetChars_eq (s : String) : octetChars s = s.toList.flatMap Text.charOctets := Text.toList_toOctets s

theorem ascii_of_plain {c : Char} (h : isPlain c = true) : c.toNat < 128 := by
  rw [isPlain, Bool.or_eq_true] at h
  rcases h with h | h
  · have hkinds : c.isAlphanum = (decide ('A'.val ≤ c.val ∧ c.val ≤ 'Z'.val) ||
        decide ('a'.val ≤ c.val) && decide (c.val ≤ 'z'.val) ||
        decide ('0'.val ≤ c.val) && decide (c.val ≤ '9'.val)) := rfl
    simp only [hkinds, Bool.or_eq_true, Bool.and_eq_true, decide_eq_true_eq, UInt32.le_iff_toNat_le] at h
    change c.val.toNat < 128
    have h9 : ('9' : Char).val.toNat = 57 := rfl
    have hZ : ('Z' : Char).val.toNat = 90 := rfl
    have hz : ('z' : Char).val.toNat = 122 := rfl
    omega
  · have hall : "-_./=:,@+%".toList.all (·.toNat < 128) = true := by decide
    exact of_decide_eq_true (List.all_eq_true.1 hall c (List.contains_iff_mem.1 h))

section
variable {c : Char}

theorem octet_far (hc : 128 ≤ c.toNat) : ∀ d ∈ Text.charOctets c, isPlain d = false ∧ d ≠ '\'' := by
  intro d hd
  have hfar := Text.le_of_mem_charOctets hc hd
  constructor
  · refine Bool.eq_false_iff.2 fun hplain => ?_
    have := ascii_of_plain hplain
    omega
  · rintro rfl
    exact absurd hfar (by decide)

theorem charOctets_ne_nil (c : Char) : Text.charOctets c ≠ [] := by
  simp [Text.charOctets, String.utf8EncodeChar_ne_nil]

theorem all_plain_charOctets (c : Char) : (Text.charOctets c).all isPlain = isPlain c := by
  by_cases hc : c.toNat < 128
  · rw [Text.charOctets_ascii hc]
    simp
  · obtain ⟨d, ds, hd⟩ := List.exists_cons_of_ne_nil (charOctets_ne_nil c)
    have hplain : isPlain c = false := Bool.eq_false_iff.2 fun h => hc (ascii_of_plain h)
    have hmem : d ∈ Text.charOctets c := by
      rw [hd]
      exact List.mem_cons_self
    have hfirst := (octet_far (Nat.le_of_not_lt hc) d hmem).1
    rw [hplain, hd, List.all_cons, hfirst, Bool.false_and]

theorem flatMap_quoteChar_charOctets (c : Char) :
    (Text.charOctets c).flatMap quoteChar = (quoteChar c).flatMap Text.charOctets := by
  by_cases hquote : c = '\''
  · subst hquote
    rfl
  · have hself : ∀ ds : List Char, (∀ d ∈ ds, d ≠ '\'') → ds.flatMap quoteChar = ds := by
      intro ds hds
      induction ds with
      | nil => rfl
      | cons d ds ih =>
        obtain ⟨hd, hds⟩ := List.forall_mem_cons.1 hds
        rw [List.flatMap_cons, quoteChar, if_neg hd, ih hds]
        rfl
    have hoctets : ∀ d ∈ Text.charOctets c, d ≠ '\'' := by
      by_cases hc : c.toNat < 128
      · rw [Text.charOctets_ascii hc]
        intro d hd
        rw [List.mem_singleton.1 hd]
        exact hquote
      · exact fun d hd => (octet_far (by omega) d hd).2
    rw [hself _ hoctets, quoteChar, if_neg hquote, List.flatMap_singleton]

end

theorem quoteChars_octets (w : List Char) :
    quoteChars (w.flatMap Text.charOctets) = (quoteChars w).flatMap Text.charOctets := by
  have hall : (w.flatMap Text.charOctets).all isPlain = w.all isPlain := by
    induction w with
    | nil => rfl
    | cons c w ih => rw [List.flatMap_cons, List.all_append, all_plain_charOctets, ih, List.all_cons]
  have hempty : (w.flatMap Text.charOctets).isEmpty = w.isEmpty := by
    cases w with
    | nil => rfl
    | cons c w => simp [charOctets_ne_nil]
  have hchars : (w.flatMap Text.charOctets).flatMap quoteChar = (w.flatMap quoteChar).flatMap Text.charOctets := by
    rw [List.flatMap_assoc, List.flatMap_assoc]
    exact congrArg (fun f => w.flatMap f) (funext flatMap_quoteChar_charOctets)
  have hquote : Text.charOctets '\'' = ['\''] := rfl
  rw [quoteChars, hall, hempty, quoteChars]
  split
  · rfl
  · rw [hchars, List.flatMap_append, List.flatMap_cons, List.flatMap_singleton, hquote]
    rfl

theorem intercalate_cons (sep w : List Char) (ws : List (List Char)) :
    sep.intercalate (w :: ws) = w ++ ws.flatMap (sep ++ ·) := by
  induction ws generalizing w with
  | nil => simp
  | cons v ws ih =>
    rw [List.intercalate_cons_cons, ih]
    simp

theorem octetChars_line (w : String) (ws : List String) :
    octetChars (" ".intercalate ((w :: ws).map quote)) = quoteChars (octetChars w) ++ behind (ws.map octetChars) := by
  have hquote : ∀ v : String, (quote v).toList.flatMap Text.charOctets = quoteChars (octetChars v) := by
    intro v
    rw [quote, String.toList_ofList, ← quoteChars_octets, octetChars_eq]
  have hblank : Text.charOctets ' ' = [' '] := rfl
  rw [octetChars_eq, String.toList_intercalate, List.map_cons, List.map_cons, intercalate_cons, List.flatMap_append,
    hquote, List.map_map, List.flatMap_map, List.flatMap_assoc, behind, List.flatMap_map]
  refine congrArg (fun f => quoteChars (octetChars w) ++ ws.flatMap f) (funext fun v => ?_)
  have hsep : (" " : String).toList = [' '] := rfl
  rw [hsep, List.flatMap_append, List.flatMap_singleton, hblank]
  exact congrArg _ (hquote v)

end Casework.Shell
