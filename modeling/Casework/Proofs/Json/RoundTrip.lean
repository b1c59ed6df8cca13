import Casework.Json.Reader
import Casework.Proofs.Json.Characters
import Casework.Proofs.NameMap

/-!
# Reading back the text of a value

The text of a value, compact or pretty, is cut into the tokens of that value, whatever follows, and from its tokens
the value is built up again under any arrays and objects that are open, as long as there is room for its own. Of a
float it is asked that its text reads as it: that is a matter of numerals alone.
-/

namespace Casework.Json

/-! ## Values that can be read back -/

mutual

def nesting : Json → Nat
  | .arr es => nestingElements es + 1
  | .obj fs => nestingFields fs + 1
  | _ => 0

def nestingElements : List Json → Nat
  | [] => 0
  | e :: es => max (nesting e) (nestingElements es)

def nestingFields : List (String × Json) → Nat
  | [] => 0
  | f :: fs => max (nesting f.2) (nestingFields fs)

end

mutual

/-- Integers fit 64 bits, fields stand in the order of their keys, and the text of a float reads as it. -/
def Faithful : Json → Prop
  | .int i => isWord i
  | .float x => number? (floatText x) = some (.float x)
  | .arr es => FaithfulElements es
  | .obj fs => fs.Pairwise (fun a b => a.1 < b.1) ∧ FaithfulFields fs
  | _ => True

def FaithfulElements : List Json → Prop
  | [] => True
  | e :: es => Faithful e ∧ FaithfulElements es

def FaithfulFields : List (String × Json) → Prop
  | [] => True
  | f :: fs => Faithful f.2 ∧ FaithfulFields fs

end

mutual

def Legible : Json → Prop
  | .int i => isWord i
  | .float x => number? (floatText x) = some (.float x)
  | .arr es => LegibleElements es
  | .obj fs => LegibleFields fs
  | _ => True

def LegibleElements : List Json → Prop
  | [] => True
  | e :: es => Legible e ∧ LegibleElements es

def LegibleFields : List (String × Json) → Prop
  | [] => True
  | f :: fs => Legible f.2 ∧ LegibleFields fs

end

mutual

/-- The value with its fields in the order of their keys, and of several for one key the last. -/
def settled : Json → Json
  | .arr es => .arr (settledElements es)
  | .obj fs => .obj (settledFields [] fs)
  | j => j

def settledElements : List Json → List Json
  | [] => []
  | e :: es => settled e :: settledElements es

def settledFields : List (String × Json) → List (String × Json) → List (String × Json)
  | done, [] => done
  | done, f :: fs => settledFields (putField f.1 (settled f.2) done) fs

end

/-! ## Tokens of a value -/

mutual

def tokens : Json → List Token
  | .arr es => .openArr :: elementTokens es ++ [.closeArr]
  | .obj fs => .openObj :: fieldTokens fs ++ [.closeObj]
  | j => [.scalar j]

def elementTokens : List Json → List Token
  | [] => []
  | [e] => tokens e
  | e :: es => tokens e ++ .comma :: elementTokens es

def fieldTokens : List (String × Json) → List Token
  | [] => []
  | [(k, v)] => .scalar (.str k) :: .colon :: tokens v
  | (k, v) :: fs => .scalar (.str k) :: .colon :: tokens v ++ .comma :: fieldTokens fs

end

/-! ## Cutting text into tokens -/

def Ends (cs : List Char) : Prop := ∀ c ∈ cs.head?, c = ',' ∨ c = ']' ∨ c = '\x7d' ∨ c = '\n'

theorem ends_cons {c : Char} {cs : List Char} (h : c = ',' ∨ c = ']' ∨ c = '\x7d' ∨ c = '\n') : Ends (c :: cs) := by
  intro d hd
  cases hd
  exact h

theorem tokensFrom_cons (m : Mode) (c : Char) (cs : List Char) :
    tokensFrom m (c :: cs) = (m.step c).bind fun x => (tokensFrom x.2 cs).map (x.1 ++ ·) := by
  rw [tokensFrom]
  cases m.step c with
  | none => rfl
  | some x => cases h : tokensFrom x.2 cs <;> simp [h]

theorem tokensFrom_step {m n : Mode} {c : Char} {ts : List Token} (h : m.step c = some (ts, n))
    (cs : List Char) : tokensFrom m (c :: cs) = (tokensFrom n cs).map (ts ++ ·) := by
  rw [tokensFrom_cons, h, Option.bind_some]

theorem tokensFrom_silent {m n : Mode} {c : Char} (h : m.step c = some ([], n)) (cs : List Char) :
    tokensFrom m (c :: cs) = tokensFrom n cs := by
  rw [tokensFrom_step h]
  cases tokensFrom n cs <;> rfl

theorem tokensFrom_hex (acc : List Char) {u : Nat} (hu : u < 0x20) (cs : List Char) :
    tokensFrom (.unit acc none 0 0) ('0' :: '0' :: Nat.digitChar (u / 16) :: Nat.digitChar (u % 16) :: cs) =
      tokensFrom (.string (Char.ofNat u :: acc)) cs := by
  have hhex : ∀ d < 16, hexValue? (Nat.digitChar d) = some d := by decide
  have hlast : unitEnd acc none u = some (.string (Char.ofNat u :: acc)) := by
    have hhigh : ¬ 0xD800 ≤ u := by omega
    have hlow : ¬ 0xDC00 ≤ u := by omega
    simp [unitEnd, hhigh, hlow]
  have hsum : u / 16 * 16 + u % 16 = u := by omega
  rw [tokensFrom_silent (n := .unit acc none 1 0) rfl, tokensFrom_silent (n := .unit acc none 2 0) rfl,
    tokensFrom_silent (n := .unit acc none 3 (u / 16)), tokensFrom_silent (n := .string (Char.ofNat u :: acc))]
  · simp [Mode.step, hhex (u % 16) (by omega), hsum, hlast]
  · simp [Mode.step, hhex (u / 16) (by omega)]

theorem tokensFrom_escapeChar (acc : List Char) (c : Char) (cs : List Char) :
    tokensFrom (.string acc) (escapeChar c ++ cs) = tokensFrom (.string (c :: acc)) cs := by
  have hpair : ∀ d e, d ≠ 'u' → unescape? d = some e →
      tokensFrom (.string acc) ('\\' :: d :: cs) = tokensFrom (.string (e :: acc)) cs := by
    intro d e hu hd
    rw [tokensFrom_silent (n := .escape acc) rfl, tokensFrom_silent (n := .string (e :: acc))]
    simp [Mode.step, hu, hd]
  unfold escapeChar
  split
  iterate 7 exact hpair _ _ (by decide) rfl
  · rename_i hquote hbackslash _ _ _ _ _
    split
    · rename_i hlt
      have h := tokensFrom_hex acc hlt cs
      rw [Char.ofNat_toNat] at h
      rw [← h]
      change tokensFrom _ ('\\' :: 'u' :: _) = _
      rw [tokensFrom_silent (n := .escape acc) rfl, tokensFrom_silent (n := .unit acc none 0 0) rfl]
      rfl
    · rename_i hle
      refine tokensFrom_silent ?_ cs
      rw [Mode.step, if_neg hquote, if_neg hbackslash, if_neg hle]

theorem tokensFrom_escaped (rest : List Char) : ∀ s acc : List Char,
    tokensFrom (.string acc) (s.flatMap escapeChar ++ '"' :: rest) =
      (tokensFrom .between rest).map ([.scalar (.str (.ofList (acc.reverse ++ s)))] ++ ·)
  | [], acc => by
    rw [List.append_nil]
    exact tokensFrom_step rfl rest
  | c :: s, acc => by
    rw [List.flatMap_cons, List.append_assoc, tokensFrom_escapeChar, tokensFrom_escaped rest s]
    simp

theorem tokensFrom_quote (s : String) (rest : List Char) : tokensFrom .between (quote s ++ rest) =
    (tokensFrom .between rest).map ([.scalar (.str s)] ++ ·) := by
  have h := tokensFrom_escaped rest s.toList []
  rw [List.reverse_nil, List.nil_append, String.ofList_toList] at h
  rw [quote, List.append_assoc, List.cons_append, tokensFrom_silent (n := .string []) rfl]
  exact h

section
variable {M : List Char → Mode} {p : Char → Bool} {judge : List Char → Option Json} {j : Json} {rest : List Char}
variable (hmore : ∀ acc c, p c → (M acc).step c = some ([], M (c :: acc)))
variable (hover : ∀ acc c, p c = false → judge acc.reverse = some j →
  (M acc).step c = (fresh c).map fun x => (.scalar j :: x.1, x.2))
variable (hfinish : ∀ acc, judge acc.reverse = some j → (M acc).finish = some [.scalar j])
include hmore hover hfinish

theorem tokensFrom_run (hrest : ∀ c ∈ rest.head?, p c = false) : ∀ {cs a : List Char}, cs.all p →
    judge (a.reverse ++ cs) = some j →
    tokensFrom (M a) (cs ++ rest) = (tokensFrom .between rest).map ([.scalar j] ++ ·)
  | [], a, _, h => by
    -- the run is over: it is judged, and what is behind it begins anew
    rw [List.append_nil] at h
    rw [List.nil_append]
    cases rest with
    | nil =>
      rw [tokensFrom, hfinish a h]
      rfl
    | cons c cs =>
      rw [tokensFrom_cons, tokensFrom_cons, hover a c (hrest c rfl) h]
      change _ = ((fresh c).bind _).map _
      cases fresh c with
      | none => rfl
      | some x =>
        simp only [Option.map_some, Option.bind_some]
        cases tokensFrom x.2 cs <;> rfl
  | c :: cs, a, hall, h => by
    rw [List.all_cons, Bool.and_eq_true] at hall
    have hjudge : judge ((c :: a).reverse ++ cs) = some j := by simpa using h
    rw [List.cons_append, tokensFrom_silent (hmore a c hall.1), tokensFrom_run hrest hall.2 hjudge]

end

theorem tokensFrom_numeral {cs rest : List Char} {j : Json} (hrest : Ends rest) (hn : IsNumeral cs)
    (h : number? cs = some j) :
    tokensFrom .between (cs ++ rest) = (tokensFrom .between rest).map ([.scalar j] ++ ·) := by
  have hstop : ∀ c ∈ rest.head?, isNumberChar c = false := by
    intro c hc
    rcases hrest c hc with rfl | rfl | rfl | rfl <;> rfl
  have hmore : ∀ acc c, isNumberChar c → (Mode.number acc).step c = some ([], .number (c :: acc)) :=
    fun acc c hc => if_pos hc
  have hover : ∀ acc c, isNumberChar c = false → number? acc.reverse = some j →
      (Mode.number acc).step c = (fresh c).map fun x => (.scalar j :: x.1, x.2) := by
    intro acc c hc hj
    cases hf : fresh c <;> simp [Mode.step, hc, hj, hf]
  have hfinish : ∀ acc : List Char, number? acc.reverse = some j → (Mode.number acc).finish = some [.scalar j] := by
    intro acc hj
    simp [Mode.finish, hj]
  cases cs with
  | nil => cases hn.head
  | cons c cs =>
    have hopen : (decide (c = '-') || c.isDigit) = true := hn.head
    have hchars := hn.chars
    rw [List.all_cons, Bool.and_eq_true] at hchars
    -- a digit or a minus opens a number, and none of the characters tried before it does
    have hfresh : Mode.between.step c = some ([], .number [c]) := by
      rw [Mode.step]
      unfold fresh
      split
      iterate 11 exact absurd hopen (by decide)
      exact if_pos hopen
    rw [List.cons_append, tokensFrom_silent hfresh]
    exact tokensFrom_run hmore hover hfinish hstop (a := [c]) hchars.2 h

theorem tokensFrom_word {c : Char} {s rest : List Char} {j : Json} (hrest : Ends rest)
    (hfresh : Mode.between.step c = some ([], .word [c])) (hall : s.all Char.isLower)
    (h : word? (c :: s) = some j) :
    tokensFrom .between (c :: s ++ rest) = (tokensFrom .between rest).map ([.scalar j] ++ ·) := by
  have hstop : ∀ c ∈ rest.head?, c.isLower = false := by
    intro c hc
    rcases hrest c hc with rfl | rfl | rfl | rfl <;> rfl
  have hmore : ∀ acc c, c.isLower → (Mode.word acc).step c = some ([], .word (c :: acc)) :=
    fun acc c hc => if_pos hc
  have hover : ∀ acc c, c.isLower = false → word? acc.reverse = some j →
      (Mode.word acc).step c = (fresh c).map fun x => (.scalar j :: x.1, x.2) := by
    intro acc c hc hj
    cases hf : fresh c <;> simp [Mode.step, hc, hj, hf]
  have hfinish : ∀ acc : List Char, word? acc.reverse = some j → (Mode.word acc).finish = some [.scalar j] := by
    intro acc hj
    simp [Mode.finish, hj]
  rw [List.cons_append, tokensFrom_silent hfresh]
  exact tokensFrom_run hmore hover hfinish hstop (a := [c]) hall h

theorem tokensFrom_scalar {j : Json} {rest : List Char} (hrest : Ends rest) (hj : Legible j)
    (hs : tokens j = [.scalar j]) :
    tokensFrom .between (scalarText j ++ rest) = (tokensFrom .between rest).map (tokens j ++ ·) := by
  rw [hs]
  cases j with
  | null => exact tokensFrom_word hrest (c := 'n') (s := ['u', 'l', 'l']) rfl rfl rfl
  | bool b =>
    cases b with
    | true => exact tokensFrom_word hrest (c := 't') (s := ['r', 'u', 'e']) rfl rfl rfl
    | false => exact tokensFrom_word hrest (c := 'f') (s := ['a', 'l', 's', 'e']) rfl rfl rfl
  | int i => exact tokensFrom_numeral hrest (isNumeral_int i) (number?_int hj)
  | float x =>
    have hread : number? (floatText x) = some (.float x) := hj
    have hfinite : x.isFinite = true := by
      refine Classical.byContradiction fun hx => ?_
      rw [floatText, if_neg hx] at hread
      cases hread
    exact tokensFrom_numeral hrest (isNumeral_float hfinite) hread
  | str s => exact tokensFrom_quote s rest
  | arr es => cases hs
  | obj fs => cases hs

theorem map_append {α : Type} (o : Option (List α)) (a b : List α) :
    (o.map (b ++ ·)).map (a ++ ·) = o.map (a ++ b ++ ·) := by
  cases o with
  | none => rfl
  | some l => simp

theorem tokensFrom_mark {c : Char} {t : Token} (h : Mode.between.step c = some ([t], .between)) (cs : List Char) :
    tokensFrom .between (c :: cs) = (tokensFrom .between cs).map ([t] ++ ·) :=
  tokensFrom_step h cs

mutual

theorem tokensFrom_compact : ∀ {j : Json} {rest : List Char}, Ends rest → Legible j →
    tokensFrom .between (compactChars j ++ rest) = (tokensFrom .between rest).map (tokens j ++ ·)
  | .arr es, rest, hrest, h => by
    have hes : LegibleElements es := h
    have hclose : Ends (']' :: rest) := ends_cons (.inr (.inl rfl))
    have htext : compactChars (.arr es) ++ rest = '[' :: (compactElements es ++ ']' :: rest) := by
      simp [compactChars]
    rw [htext, tokensFrom_mark (t := .openArr) rfl, tokensFrom_elements hclose hes,
      tokensFrom_mark (t := .closeArr) rfl, map_append, map_append]
    simp [tokens]
  | .obj fs, rest, hrest, h => by
    have hfs : LegibleFields fs := h
    have hclose : Ends ('\x7d' :: rest) := ends_cons (.inr (.inr (.inl rfl)))
    have htext : compactChars (.obj fs) ++ rest = '\x7b' :: (compactFields fs ++ '\x7d' :: rest) := by
      simp [compactChars]
    rw [htext, tokensFrom_mark (t := .openObj) rfl, tokensFrom_fields hclose hfs,
      tokensFrom_mark (t := .closeObj) rfl, map_append, map_append]
    simp [tokens]
  | .null, _, hrest, h => tokensFrom_scalar (j := .null) hrest h rfl
  | .bool b, _, hrest, h => tokensFrom_scalar (j := .bool b) hrest h rfl
  | .int i, _, hrest, h => tokensFrom_scalar (j := .int i) hrest h rfl
  | .float x, _, hrest, h => tokensFrom_scalar (j := .float x) hrest h rfl
  | .str s, _, hrest, h => tokensFrom_scalar (j := .str s) hrest h rfl

theorem tokensFrom_elements : ∀ {es : List Json} {rest : List Char}, Ends rest → LegibleElements es →
    tokensFrom .between (compactElements es ++ rest) = (tokensFrom .between rest).map (elementTokens es ++ ·)
  | [], rest, _, _ => by
    cases h : tokensFrom .between rest <;> simp [compactElements, elementTokens, h]
  | [e], _, hrest, h => tokensFrom_compact (j := e) hrest h.1
  | e :: e' :: es, rest, hrest, h => by
    have hcomma : Ends (',' :: (compactElements (e' :: es) ++ rest)) := ends_cons (.inl rfl)
    have htext : compactElements (e :: e' :: es) ++ rest =
        compactChars e ++ ',' :: (compactElements (e' :: es) ++ rest) := by
      simp [compactElements]
    rw [htext, tokensFrom_compact hcomma h.1, tokensFrom_mark (t := .comma) rfl,
      tokensFrom_elements hrest h.2, map_append, map_append]
    simp [elementTokens]

theorem tokensFrom_fields : ∀ {fs : List (String × Json)} {rest : List Char}, Ends rest → LegibleFields fs →
    tokensFrom .between (compactFields fs ++ rest) = (tokensFrom .between rest).map (fieldTokens fs ++ ·)
  | [], rest, _, _ => by
    cases h : tokensFrom .between rest <;> simp [compactFields, fieldTokens, h]
  | [(k, v)], rest, hrest, h => by
    have htext : compactFields [(k, v)] ++ rest = quote k ++ ':' :: (compactChars v ++ rest) := by
      simp [compactFields]
    rw [htext, tokensFrom_quote, tokensFrom_mark (t := .colon) rfl, tokensFrom_compact hrest h.1,
      map_append, map_append]
    simp [fieldTokens]
  | (k, v) :: f :: fs, rest, hrest, h => by
    have hcomma : Ends (',' :: (compactFields (f :: fs) ++ rest)) := ends_cons (.inl rfl)
    have htext : compactFields ((k, v) :: f :: fs) ++ rest =
        quote k ++ ':' :: (compactChars v ++ ',' :: (compactFields (f :: fs) ++ rest)) := by
      simp [compactFields]
    rw [htext, tokensFrom_quote, tokensFrom_mark (t := .colon) rfl, tokensFrom_compact hcomma h.1,
      tokensFrom_mark (t := .comma) rfl, tokensFrom_fields hrest h.2, map_append, map_append, map_append, map_append]
    simp [fieldTokens]

end

/-! ## White space -/

def isSpace (c : Char) : Bool := c = ' ' || c = '\t' || c = '\n' || c = '\r'

theorem step_space {c : Char} (h : isSpace c) : Mode.between.step c = some ([], .between) := by
  simp only [isSpace, Bool.or_eq_true, decide_eq_true_eq] at h
  rcases h with ((rfl | rfl) | rfl) | rfl <;> rfl

theorem tokensFrom_spaces {s : List Char} (h : s.all isSpace) (rest : List Char) :
    tokensFrom .between (s ++ rest) = tokensFrom .between rest := by
  induction s with
  | nil => rfl
  | cons c s ih =>
    rw [List.all_cons, Bool.and_eq_true] at h
    rw [List.cons_append, tokensFrom_silent (step_space h.1), ih h.2]

theorem tokensFrom_newline (level : Nat) (rest : List Char) :
    tokensFrom .between (newline level ++ rest) = tokensFrom .between rest := by
  apply tokensFrom_spaces
  rw [newline, List.all_cons, List.all_eq_true.2 fun c hc => by rw [(List.mem_replicate.1 hc).2]; rfl]
  rfl

theorem ends_newline (level : Nat) (rest : List Char) : Ends (newline level ++ rest) :=
  ends_cons (.inr (.inr (.inr rfl)))

mutual

theorem tokensFrom_pretty : ∀ {j : Json} {rest : List Char} (level : Nat), Ends rest → Legible j →
    tokensFrom .between (prettyChars level j ++ rest) = (tokensFrom .between rest).map (tokens j ++ ·)
  | .arr [], rest, _, _, _ => by
    change tokensFrom .between ('[' :: ']' :: rest) = _
    rw [tokensFrom_mark (t := .openArr) rfl, tokensFrom_mark (t := .closeArr) rfl, map_append]
    rfl
  | .arr (e :: es), rest, level, hrest, h => by
    have htext : prettyChars level (.arr (e :: es)) ++ rest =
        '[' :: (prettyElements (level + 1) (e :: es) ++ (newline level ++ ']' :: rest)) := by
      simp [prettyChars]
    rw [htext, tokensFrom_mark (t := .openArr) rfl, tokensFrom_prettyElements (level + 1) (ends_newline _ _) h,
      tokensFrom_newline, tokensFrom_mark (t := .closeArr) rfl, map_append, map_append]
    simp [tokens]
  | .obj [], rest, _, _, _ => by
    change tokensFrom .between ('\x7b' :: '\x7d' :: rest) = _
    rw [tokensFrom_mark (t := .openObj) rfl, tokensFrom_mark (t := .closeObj) rfl, map_append]
    rfl
  | .obj (f :: fs), rest, level, hrest, h => by
    have htext : prettyChars level (.obj (f :: fs)) ++ rest =
        '\x7b' :: (prettyFields (level + 1) (f :: fs) ++ (newline level ++ '\x7d' :: rest)) := by
      simp [prettyChars]
    rw [htext, tokensFrom_mark (t := .openObj) rfl, tokensFrom_prettyFields (level + 1) (ends_newline _ _) h,
      tokensFrom_newline, tokensFrom_mark (t := .closeObj) rfl, map_append, map_append]
    simp [tokens]
  | .null, _, _, hrest, h => tokensFrom_scalar (j := .null) hrest h rfl
  | .bool b, _, _, hrest, h => tokensFrom_scalar (j := .bool b) hrest h rfl
  | .int i, _, _, hrest, h => tokensFrom_scalar (j := .int i) hrest h rfl
  | .float x, _, _, hrest, h => tokensFrom_scalar (j := .float x) hrest h rfl
  | .str s, _, _, hrest, h => tokensFrom_scalar (j := .str s) hrest h rfl

theorem tokensFrom_prettyElements : ∀ {es : List Json} {rest : List Char} (level : Nat), Ends rest → LegibleElements es →
    tokensFrom .between (prettyElements level es ++ rest) = (tokensFrom .between rest).map (elementTokens es ++ ·)
  | [], rest, _, _, _ => by
    cases h : tokensFrom .between rest <;> simp [prettyElements, elementTokens, h]
  | [e], rest, level, hrest, h => by
    rw [prettyElements, List.append_assoc, tokensFrom_newline, tokensFrom_pretty level hrest h.1]
    rfl
  | e :: e' :: es, rest, level, hrest, h => by
    have hcomma : Ends (',' :: (prettyElements level (e' :: es) ++ rest)) := ends_cons (.inl rfl)
    have htext : prettyElements level (e :: e' :: es) ++ rest =
        newline level ++ (prettyChars level e ++ ',' :: (prettyElements level (e' :: es) ++ rest)) := by
      simp [prettyElements]
    rw [htext, tokensFrom_newline, tokensFrom_pretty level hcomma h.1, tokensFrom_mark (t := .comma) rfl,
      tokensFrom_prettyElements level hrest h.2, map_append, map_append]
    simp [elementTokens]

theorem tokensFrom_prettyFields : ∀ {fs : List (String × Json)} {rest : List Char} (level : Nat), Ends rest →
    LegibleFields fs →
    tokensFrom .between (prettyFields level fs ++ rest) = (tokensFrom .between rest).map (fieldTokens fs ++ ·)
  | [], rest, _, _, _ => by
    cases h : tokensFrom .between rest <;> simp [prettyFields, fieldTokens, h]
  | [(k, v)], rest, level, hrest, h => by
    have htext : prettyFields level [(k, v)] ++ rest =
        newline level ++ (quote k ++ ':' :: ([' '] ++ (prettyChars level v ++ rest))) := by
      simp [prettyFields]
    rw [htext, tokensFrom_newline, tokensFrom_quote, tokensFrom_mark (t := .colon) rfl, tokensFrom_spaces rfl,
      tokensFrom_pretty level hrest h.1, map_append, map_append]
    simp [fieldTokens]
  | (k, v) :: f :: fs, rest, level, hrest, h => by
    have hcomma : Ends (',' :: (prettyFields level (f :: fs) ++ rest)) := ends_cons (.inl rfl)
    have htext : prettyFields level ((k, v) :: f :: fs) ++ rest = newline level ++
        (quote k ++ ':' :: ([' '] ++ (prettyChars level v ++ ',' :: (prettyFields level (f :: fs) ++ rest)))) := by
      simp [prettyFields]
    rw [htext, tokensFrom_newline, tokensFrom_quote, tokensFrom_mark (t := .colon) rfl, tokensFrom_spaces rfl,
      tokensFrom_pretty level hcomma h.1, tokensFrom_mark (t := .comma) rfl,
      tokensFrom_prettyFields level hrest h.2, map_append, map_append, map_append, map_append]
    simp [fieldTokens]

end

theorem tokens?_of_tokensFrom {s : List Char} {ts : List Token}
    (h : tokensFrom .between (s ++ []) = (tokensFrom .between []).map (ts ++ ·)) : tokens? s = some ts := by
  rw [List.append_nil] at h
  rw [tokens?, h]
  simp [tokensFrom, Mode.finish]

/-! ## Building values up -/

theorem ofTokensFrom_cons {e d : Expect} {stack stack' : List Frame} {t : Token}
    (h : e.step t stack = some (d, stack')) (ts : List Token) :
    ofTokensFrom e stack (t :: ts) = ofTokensFrom d stack' ts := by
  rw [ofTokensFrom, h]
  rfl

theorem step_value {t : Token} (ht : (t == Token.closeArr) = false) (first : Bool) (stack : List Frame) :
    (Expect.value first).step t stack = openValue stack t := by
  cases first with
  | false => rfl
  | true =>
    cases stack with
    | nil => rfl
    | cons f stack =>
      cases f with
      | arr done => simp [Expect.step, ht]
      | obj done k => rfl

theorem putField_append {k : String} {v : Json} : ∀ {fs : List (String × Json)}, (∀ f ∈ fs, f.1 < k) →
    putField k v fs = fs ++ [(k, v)]
  | [], _ => rfl
  | (k', v') :: fs, h => by
    have hk : k' < k := h (k', v') List.mem_cons_self
    have hnot : ¬ k < k' := fun hlt => String.lt_irrefl _ (String.lt_trans hk hlt)
    have hne : k ≠ k' := fun e => String.ne_of_lt hk e.symm
    rw [putField, if_neg hnot, if_neg hne, putField_append fun f hf => h f (List.mem_cons_of_mem _ hf)]
    rfl

theorem putField_eq_put (k : String) (v : Json) (fs : List (String × Json)) : putField k v fs = NameMap.put k v fs := by
  induction fs with
  | nil => rfl
  | cons f fs ih =>
    obtain ⟨k', v'⟩ := f
    rw [putField, NameMap.put, ih]

theorem openValue_arr {stack : List Frame} (h : stack.length < depthLimit) :
    openValue stack .openArr = some (.value true, .arr [] :: stack) := if_pos h

theorem openValue_obj {stack : List Frame} (h : stack.length < depthLimit) :
    openValue stack .openObj = some (.key [] true, stack) := if_pos h

mutual

theorem ofTokensFrom_tokens : ∀ {j : Json} {stack : List Frame} {first : Bool} (ts : List Token),
    stack.length + nesting j ≤ depthLimit →
    ofTokensFrom (.value first) stack (tokens j ++ ts) = ofTokensFrom (.after (settled j)) stack ts
  | .arr es, stack, first, ts, hroom => by
    have hroom : stack.length + (nestingElements es + 1) ≤ depthLimit := hroom
    have hopen : openValue stack .openArr = some (.value true, .arr [] :: stack) := openValue_arr (by omega)
    have htokens : tokens (.arr es) ++ ts = .openArr :: (elementTokens es ++ .closeArr :: ts) := by simp [tokens]
    rw [htokens, ofTokensFrom_cons ((step_value rfl first stack).trans hopen)]
    cases hes : es with
    | nil => exact ofTokensFrom_cons rfl ts
    | cons e es' =>
      have hne : es ≠ [] := by simp [hes]
      rw [← hes, ofTokensFrom_elements ts hne (by omega)]
      rfl
  | .obj fs, stack, first, ts, hroom => by
    have hroom : stack.length + (nestingFields fs + 1) ≤ depthLimit := hroom
    have hopen : openValue stack .openObj = some (.key [] true, stack) := openValue_obj (by omega)
    have htokens : tokens (.obj fs) ++ ts = .openObj :: (fieldTokens fs ++ .closeObj :: ts) := by simp [tokens]
    rw [htokens, ofTokensFrom_cons ((step_value rfl first stack).trans hopen)]
    cases hfs : fs with
    | nil => exact ofTokensFrom_cons rfl ts
    | cons f fs' =>
      have hne : fs ≠ [] := by simp [hfs]
      rw [← hfs, ofTokensFrom_fields ts hne (by omega)]
      rfl
  | .null, _, _, ts, _ => ofTokensFrom_cons (step_value rfl _ _) ts
  | .bool b, _, _, ts, _ => ofTokensFrom_cons (step_value rfl _ _) ts
  | .int i, _, _, ts, _ => ofTokensFrom_cons (step_value rfl _ _) ts
  | .float x, _, _, ts, _ => ofTokensFrom_cons (step_value rfl _ _) ts
  | .str s, _, _, ts, _ => ofTokensFrom_cons (step_value rfl _ _) ts

theorem ofTokensFrom_elements : ∀ {es done : List Json} {stack : List Frame} {first : Bool} (ts : List Token),
    es ≠ [] → stack.length + (nestingElements es + 1) ≤ depthLimit →
    ofTokensFrom (.value first) (.arr done :: stack) (elementTokens es ++ .closeArr :: ts) =
      ofTokensFrom (.after (.arr (done.reverse ++ settledElements es))) stack ts
  | [], _, _, _, _, hne, _ => absurd rfl hne
  | [e], done, stack, first, ts, _, hroom => by
    have hroom : stack.length + (max (nesting e) 0 + 1) ≤ depthLimit := hroom
    have hinner : (Frame.arr done :: stack).length + nesting e ≤ depthLimit := by
      rw [List.length_cons]
      omega
    rw [elementTokens, ofTokensFrom_tokens _ hinner]
    change _ = ofTokensFrom (.after (.arr (done.reverse ++ [settled e]))) stack ts
    rw [← List.reverse_cons]
    exact ofTokensFrom_cons rfl ts
  | e :: e' :: es, done, stack, first, ts, _, hroom => by
    have hroom : stack.length + (max (nesting e) (nestingElements (e' :: es)) + 1) ≤ depthLimit := hroom
    have hinner : (Frame.arr done :: stack).length + nesting e ≤ depthLimit := by
      rw [List.length_cons]
      omega
    have htokens : elementTokens (e :: e' :: es) ++ .closeArr :: ts =
        tokens e ++ .comma :: (elementTokens (e' :: es) ++ .closeArr :: ts) := by simp [elementTokens]
    rw [htokens, ofTokensFrom_tokens _ hinner, ofTokensFrom_cons (d := .value false) rfl,
      ofTokensFrom_elements ts (List.cons_ne_nil _ _) (by omega), List.reverse_cons, List.append_assoc]
    rfl

theorem ofTokensFrom_fields : ∀ {fs done : List (String × Json)} {stack : List Frame} {first : Bool} (ts : List Token),
    fs ≠ [] → stack.length + (nestingFields fs + 1) ≤ depthLimit →
    ofTokensFrom (.key done first) stack (fieldTokens fs ++ .closeObj :: ts) =
      ofTokensFrom (.after (.obj (settledFields done fs))) stack ts
  | [], _, _, _, _, hne, _ => absurd rfl hne
  | [(k, v)], done, stack, first, ts, _, hroom => by
    have hroom : stack.length + (max (nesting v) 0 + 1) ≤ depthLimit := hroom
    have hinner : (Frame.obj done k :: stack).length + nesting v ≤ depthLimit := by
      rw [List.length_cons]
      omega
    have htokens : fieldTokens [(k, v)] ++ .closeObj :: ts =
        .scalar (.str k) :: .colon :: (tokens v ++ .closeObj :: ts) := by simp [fieldTokens]
    rw [htokens, ofTokensFrom_cons (d := .colon done k) rfl, ofTokensFrom_cons (d := .value false) rfl,
      ofTokensFrom_tokens _ hinner]
    exact ofTokensFrom_cons rfl ts
  | (k, v) :: f :: fs, done, stack, first, ts, _, hroom => by
    have hroom : stack.length + (max (nesting v) (nestingFields (f :: fs)) + 1) ≤ depthLimit := hroom
    have hinner : (Frame.obj done k :: stack).length + nesting v ≤ depthLimit := by
      rw [List.length_cons]
      omega
    have htokens : fieldTokens ((k, v) :: f :: fs) ++ .closeObj :: ts =
        .scalar (.str k) :: .colon :: (tokens v ++ .comma :: (fieldTokens (f :: fs) ++ .closeObj :: ts)) := by
      simp [fieldTokens]
    rw [htokens, ofTokensFrom_cons (d := .colon done k) rfl, ofTokensFrom_cons (d := .value false) rfl,
      ofTokensFrom_tokens _ hinner, ofTokensFrom_cons (d := .key (putField k (settled v) done) false) rfl,
      ofTokensFrom_fields ts (List.cons_ne_nil _ _) (by omega)]
    rfl

end

/-! ## Values that nest too deep -/

theorem openValue_full {stack : List Frame} (h : depthLimit ≤ stack.length) :
    openValue stack .openArr = none ∧ openValue stack .openObj = none :=
  ⟨if_neg (Nat.not_lt.2 h), if_neg (Nat.not_lt.2 h)⟩

theorem ofTokensFrom_none {e : Expect} {stack : List Frame} {t : Token} (h : e.step t stack = none)
    (ts : List Token) : ofTokensFrom e stack (t :: ts) = none := by
  rw [ofTokensFrom, h]
  rfl

theorem not_deep_scalar {stack : List Frame} (h : stack.length ≤ depthLimit) : ¬ depthLimit < stack.length + 0 := by
  omega

mutual

theorem ofTokensFrom_deep : ∀ {j : Json} {stack : List Frame} {first : Bool} (ts : List Token),
    stack.length ≤ depthLimit → depthLimit < stack.length + nesting j →
    ofTokensFrom (.value first) stack (tokens j ++ ts) = none
  | .arr es, stack, first, ts, hstack, hdeep => by
    have hdeep : depthLimit < stack.length + (nestingElements es + 1) := hdeep
    have htokens : tokens (.arr es) ++ ts = .openArr :: (elementTokens es ++ .closeArr :: ts) := by simp [tokens]
    rw [htokens]
    -- the bracket may still open, and then it is an element that is too deep
    by_cases hroom : stack.length < depthLimit
    · have hne : es ≠ [] := by
        rintro rfl
        rw [nestingElements] at hdeep
        omega
      rw [ofTokensFrom_cons ((step_value rfl first stack).trans (openValue_arr hroom))]
      exact ofTokensFrom_deepElements _ hne hroom hdeep
    · exact ofTokensFrom_none ((step_value rfl first stack).trans (openValue_full (by omega)).1) _
  | .obj fs, stack, first, ts, hstack, hdeep => by
    have hdeep : depthLimit < stack.length + (nestingFields fs + 1) := hdeep
    have htokens : tokens (.obj fs) ++ ts = .openObj :: (fieldTokens fs ++ .closeObj :: ts) := by simp [tokens]
    rw [htokens]
    by_cases hroom : stack.length < depthLimit
    · have hne : fs ≠ [] := by
        rintro rfl
        rw [nestingFields] at hdeep
        omega
      rw [ofTokensFrom_cons ((step_value rfl first stack).trans (openValue_obj hroom))]
      exact ofTokensFrom_deepFields _ hne hroom hdeep
    · exact ofTokensFrom_none ((step_value rfl first stack).trans (openValue_full (by omega)).2) _
  | .null, _, _, _, hstack, hdeep => absurd hdeep (not_deep_scalar hstack)
  | .bool _, _, _, _, hstack, hdeep => absurd hdeep (not_deep_scalar hstack)
  | .int _, _, _, _, hstack, hdeep => absurd hdeep (not_deep_scalar hstack)
  | .float _, _, _, _, hstack, hdeep => absurd hdeep (not_deep_scalar hstack)
  | .str _, _, _, _, hstack, hdeep => absurd hdeep (not_deep_scalar hstack)

theorem ofTokensFrom_deepElements : ∀ {es done : List Json} {stack : List Frame} {first : Bool} (ts : List Token),
    es ≠ [] → stack.length < depthLimit → depthLimit < stack.length + (nestingElements es + 1) →
    ofTokensFrom (.value first) (.arr done :: stack) (elementTokens es ++ ts) = none
  | [], _, _, _, _, hne, _, _ => absurd rfl hne
  | [e], done, stack, first, ts, _, hstack, hdeep => by
    have hdeep : depthLimit < stack.length + (max (nesting e) 0 + 1) := hdeep
    have hinner : depthLimit < (Frame.arr done :: stack).length + nesting e := by
      rw [List.length_cons]
      omega
    exact ofTokensFrom_deep ts hstack hinner
  | e :: e' :: es, done, stack, first, ts, _, hstack, hdeep => by
    have hdeep : depthLimit < stack.length + (max (nesting e) (nestingElements (e' :: es)) + 1) := hdeep
    have htokens : elementTokens (e :: e' :: es) ++ ts = tokens e ++ .comma :: (elementTokens (e' :: es) ++ ts) := by
      simp [elementTokens]
    rw [htokens]
    -- this element is read if there is room for it, and then a later one is too deep
    by_cases hinner : (Frame.arr done :: stack).length + nesting e ≤ depthLimit
    · have hrest : depthLimit < stack.length + (nestingElements (e' :: es) + 1) := by
        rw [List.length_cons] at hinner
        omega
      rw [ofTokensFrom_tokens _ hinner, ofTokensFrom_cons (d := .value false) rfl]
      exact ofTokensFrom_deepElements ts (List.cons_ne_nil _ _) hstack hrest
    · exact ofTokensFrom_deep _ hstack (Nat.lt_of_not_le hinner)

theorem ofTokensFrom_deepFields : ∀ {fs done : List (String × Json)} {stack : List Frame} {first : Bool}
    (ts : List Token), fs ≠ [] → stack.length < depthLimit → depthLimit < stack.length + (nestingFields fs + 1) →
    ofTokensFrom (.key done first) stack (fieldTokens fs ++ ts) = none
  | [], _, _, _, _, hne, _, _ => absurd rfl hne
  | [(k, v)], done, stack, first, ts, _, hstack, hdeep => by
    have hdeep : depthLimit < stack.length + (max (nesting v) 0 + 1) := hdeep
    have hinner : depthLimit < (Frame.obj done k :: stack).length + nesting v := by
      rw [List.length_cons]
      omega
    have htokens : fieldTokens [(k, v)] ++ ts = .scalar (.str k) :: .colon :: (tokens v ++ ts) := by
      simp [fieldTokens]
    rw [htokens, ofTokensFrom_cons (d := .colon done k) rfl, ofTokensFrom_cons (d := .value false) rfl]
    exact ofTokensFrom_deep ts hstack hinner
  | (k, v) :: f :: fs, done, stack, first, ts, _, hstack, hdeep => by
    have hdeep : depthLimit < stack.length + (max (nesting v) (nestingFields (f :: fs)) + 1) := hdeep
    have htokens : fieldTokens ((k, v) :: f :: fs) ++ ts =
        .scalar (.str k) :: .colon :: (tokens v ++ .comma :: (fieldTokens (f :: fs) ++ ts)) := by
      simp [fieldTokens]
    rw [htokens, ofTokensFrom_cons (d := .colon done k) rfl, ofTokensFrom_cons (d := .value false) rfl]
    -- the value is read if there is room for it, and then a later one is too deep
    by_cases hinner : (Frame.obj done k :: stack).length + nesting v ≤ depthLimit
    · have hrest : depthLimit < stack.length + (nestingFields (f :: fs) + 1) := by
        rw [List.length_cons] at hinner
        omega
      rw [ofTokensFrom_tokens _ hinner, ofTokensFrom_cons (d := .key (putField k (settled v) done) false) rfl]
      exact ofTokensFrom_deepFields ts (List.cons_ne_nil _ _) hstack hrest
    · exact ofTokensFrom_deep _ hstack (Nat.lt_of_not_le hinner)

end

/-! ## Texts of values -/

/-- Whatever the text is, from the tokens of a value that value is built within the limit on nesting, and none beyond. -/
theorem read?_of_tokens {s : List Char} {j : Json} (h : tokens? s = some (tokens j)) :
    read? s = if nesting j ≤ depthLimit then some (settled j) else none := by
  rw [read?, h]
  change ofTokensFrom (.value false) [] (tokens j) = _
  rw [← List.append_nil (tokens j)]
  split
  · rename_i hdepth
    have hroom : ([] : List Frame).length + nesting j ≤ depthLimit := by simpa using hdepth
    exact ofTokensFrom_tokens [] hroom
  · rename_i hdepth
    have hdeep : depthLimit < ([] : List Frame).length + nesting j := by simpa using hdepth
    exact ofTokensFrom_deep [] (Nat.zero_le _) hdeep

theorem ends_nil : Ends [] := fun c hc => by cases hc

theorem parse?_pretty {j : Json} (h : Legible j) :
    parse? j.pretty = if nesting j ≤ depthLimit then some (settled j) else none := by
  rw [parse?, pretty, String.toList_ofList]
  exact read?_of_tokens (tokens?_of_tokensFrom (tokensFrom_pretty 0 ends_nil h))

theorem settledElements_eq_map (es : List Json) : settledElements es = es.map settled := by
  induction es with
  | nil => rfl
  | cons e es ih => rw [settledElements, ih, List.map_cons]

theorem lookup_settledFields {fs : List (String × Json)} (h : (fs.map (·.1)).Nodup) (done : List (String × Json))
    (k : String) : (settledFields done fs).lookup k = ((fs.lookup k).map settled).or (done.lookup k) := by
  induction fs generalizing done with
  | nil => rfl
  | cons f fs ih =>
    obtain ⟨hf, hfs⟩ := List.nodup_cons.1 h
    rw [settledFields, ih hfs, putField_eq_put, NameMap.lookup_put, NameMap.lookup_cons_ite]
    by_cases hk : k = f.1
    · subst hk
      have hnone : fs.lookup f.1 = none := by
        rw [List.lookup_eq_none_iff]
        intro g hg
        exact bne_iff_ne.2 fun he => hf (List.mem_map.2 ⟨g, hg, he.symm⟩)
      rw [hnone, if_pos rfl, if_pos rfl]
      rfl
    · rw [if_neg hk, if_neg hk]

theorem field?_settled {fs : List (String × Json)} (h : (fs.map (·.1)).Nodup) (k : String) :
    (settled (.obj fs)).field? k = ((obj fs).field? k).map settled := by
  have hlookup := lookup_settledFields h [] k
  rwa [List.lookup_nil, Option.or_none] at hlookup

section
variable {α : Type} {f : α → Json} {l : List α}

theorem legible_arr_map (h : ∀ a ∈ l, Legible (f a)) : Legible (.arr (l.map f)) := by
  change LegibleElements (l.map f)
  induction l with
  | nil => trivial
  | cons a l ih =>
    obtain ⟨ha, hl⟩ := List.forall_mem_cons.1 h
    exact ⟨ha, ih hl⟩

theorem nesting_arr_map_le {n : Nat} (h : ∀ a ∈ l, nesting (f a) ≤ n) : nesting (.arr (l.map f)) ≤ n + 1 := by
  apply Nat.succ_le_succ
  induction l with
  | nil => exact Nat.zero_le n
  | cons a l ih =>
    obtain ⟨ha, hl⟩ := List.forall_mem_cons.1 h
    exact Nat.max_le.2 ⟨ha, ih hl⟩

end

mutual

theorem Faithful.legible : ∀ {j : Json}, Faithful j → Legible j
  | .arr _, h => FaithfulElements.legible h
  | .obj _, h => FaithfulFields.legible h.2
  | .null, h => h
  | .bool _, h => h
  | .int _, h => h
  | .float _, h => h
  | .str _, h => h

theorem FaithfulElements.legible : ∀ {es : List Json}, FaithfulElements es → LegibleElements es
  | [], _ => trivial
  | _ :: _, h => ⟨Faithful.legible h.1, FaithfulElements.legible h.2⟩

theorem FaithfulFields.legible : ∀ {fs : List (String × Json)}, FaithfulFields fs → LegibleFields fs
  | [], _ => trivial
  | (_, _) :: _, h => ⟨Faithful.legible h.1, FaithfulFields.legible h.2⟩

end

mutual

theorem Faithful.settled_eq : ∀ {j : Json}, Faithful j → settled j = j
  | .arr _, h => congrArg Json.arr (FaithfulElements.settled_eq h)
  | .obj _, h => congrArg Json.obj (FaithfulFields.settled_eq [] h.1 h.2)
  | .null, _ => rfl
  | .bool _, _ => rfl
  | .int _, _ => rfl
  | .float _, _ => rfl
  | .str _, _ => rfl

theorem FaithfulElements.settled_eq : ∀ {es : List Json}, FaithfulElements es → settledElements es = es
  | [], _ => rfl
  | _ :: _, h => congrArg₂ List.cons (Faithful.settled_eq h.1) (FaithfulElements.settled_eq h.2)

theorem FaithfulFields.settled_eq : ∀ {fs : List (String × Json)} (done : List (String × Json)),
    (done ++ fs).Pairwise (fun a b => a.1 < b.1) → FaithfulFields fs → settledFields done fs = done ++ fs
  | [], done, _, _ => (List.append_nil done).symm
  | (k, v) :: fs, done, hsorted, h => by
    have hput : putField k v done = done ++ [(k, v)] :=
      putField_append fun f hf => (List.pairwise_append.1 hsorted).2.2 f hf (k, v) List.mem_cons_self
    have hsorted' : ((done ++ [(k, v)]) ++ fs).Pairwise fun a b => a.1 < b.1 := by simpa using hsorted
    rw [settledFields, Faithful.settled_eq h.1, hput, FaithfulFields.settled_eq _ hsorted' h.2, List.append_assoc]
    rfl

end

/-- The text of a value reads as it within the limit on nesting, and as nothing beyond. -/
theorem parse?_compact {j : Json} (h : Faithful j) :
    parse? j.compact = if nesting j ≤ depthLimit then some j else none := by
  rw [parse?, toList_compact, read?_of_tokens (tokens?_of_tokensFrom (tokensFrom_compact ends_nil h.legible)),
    h.settled_eq]

end Casework.Json
