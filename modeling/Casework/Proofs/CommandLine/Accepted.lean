import Casework.CommandLine.Program
import Casework.Proofs.Json.Numeral
import Casework.Proofs.Yaml.NumberLine
import Mathlib.Algebra.Group.Nat.Defs

/-!
# Caps that are accepted

A cap on parallel tasks can stand in a workflow file, in the settings and on the command line. All three take just the
numbers below `2 ^ 64`.
-/

namespace Casework

/-! ## Decimal numbers -/

theorem foldl_toDigits (n : Nat) :
    (Nat.toDigits 10 n).foldl (fun n d => n * 10 + (d.toNat - '0'.toNat)) 0 = n := by
  have hread : Nat.ofDigitChars 10 (Nat.toDigits 10 n) 0 = n := Nat.ofDigitChars_ten_toDigits
  rw [Nat.ofDigitChars] at hread
  simpa only [Nat.mul_comm] using hread

theorem toString_ne {n : Nat} {t : String} (h : t.toList.head?.any Char.isDigit = false) : toString n ≠ t := by
  rintro rfl
  obtain ⟨c, cs, hcs, hall⟩ := Json.exists_toDigits n
  have hhead : c.isDigit = false := by rwa [Nat.toString_eq_repr, Nat.toList_repr, hcs] at h
  rw [List.all_cons, hhead] at hall
  cases hall

/-! ## Documents -/

namespace Yaml

theorem foldlM_digits {cs : List Char} (h : ∀ c ∈ cs, c.isDigit = true) (k : Nat) :
    cs.foldlM (fun n c => (digitIn? 10 c).map (n * 10 + ·)) k =
      some (cs.foldl (fun n d => n * 10 + (d.toNat - '0'.toNat)) k) := by
  induction cs generalizing k with
  | nil => rfl
  | cons c cs ih =>
    obtain ⟨hc, hcs⟩ := List.forall_mem_cons.1 h
    have hdigit : digitIn? 10 c = some (c.toNat - 48) := by
      have hle : c.toNat ≤ 57 := (Char.isDigit_iff_toNat.1 hc).2
      have hlt : c.toNat - 48 < 10 := by omega
      rw [digitIn?, if_pos hc]
      simp [hlt]
    rw [List.foldlM_cons, List.foldl_cons, hdigit]
    exact ih hcs _

theorem natural?_toString (n : Nat) : natural? (toString n) = some n := by
  by_cases hn : n = 0
  · rw [hn]
    rfl
  · have hhead := Json.head?_toDigits (Nat.pos_of_ne_zero hn)
    have hfold := foldl_toDigits n
    obtain ⟨c, cs, hcs, hall⟩ := Json.exists_toDigits n
    have hdigits := List.all_eq_true.1 hall
    rw [hcs] at hhead hfold
    -- a numeral without sign and leading zero is read in base ten
    have hzero : c ≠ '0' := fun hc => hhead (congrArg some hc)
    have hsign : isSign c = false := of_isDigit (P := (isSign · = false)) (by decide) (hdigits c List.mem_cons_self)
    have hplain : hasLeadingZero (c :: cs) = false := by
      unfold hasLeadingZero
      rw [dropSign, hsign]
      simp [hzero]
    have hbase : baseOf? (c :: cs) = none := by
      unfold baseOf?
      split <;> simp_all
    have htext : naturalText? (c :: cs) = some n := by
      rw [naturalText?, hbase]
      simp only [hplain, digits?, List.isEmpty_cons]
      exact (foldlM_digits hdigits 0).trans (congrArg some hfold)
    unfold natural?
    rw [Nat.toString_eq_repr, Nat.toList_repr, hcs]
    split
    · rename_i heq
      cases heq
      cases hsign
    · exact htext

namespace Document

theorem run_lift {α : Type} (x : Option α) (s : Nat) : (liftM x : Decode α).run s = x.map (·, s) := by cases x <;> rfl

variable {d : Document}

theorem lt_of_natural {n : Node} {s s' m : Nat} (h : (d.natural n).run s = some (m, s')) : m < 2 ^ 64 := by
  unfold natural at h
  rw [StateT.run_bind, Option.bind_eq_bind, Option.bind_eq_some_iff] at h
  obtain ⟨⟨node, t⟩, -, h⟩ := h
  dsimp only at h
  split at h
  · split at h
    · rw [run_lift] at h
      obtain ⟨k, hk, heq⟩ := Option.map_eq_some_iff.1 h
      cases heq
      exact of_decide_eq_true (Option.mem_filter_iff.1 hk).2
    · cases h
  · cases h

theorem lt_of_optionalNatural {n : Node} {s s' m : Nat} (h : (d.optionalNatural n).run s = some (some m, s')) :
    m < 2 ^ 64 := by
  unfold optionalNatural at h
  rw [StateT.run_bind, Option.bind_eq_bind, Option.bind_eq_some_iff] at h
  obtain ⟨⟨node, t⟩, -, h⟩ := h
  cases node with
  | none => cases h
  | some node =>
    have hread : ((d.natural node).run t).map (fun p => (some p.1, p.2)) = some (some m, s') := by
      rw [← h]
      cases hrun : (d.natural node).run t <;> simp [hrun]
    obtain ⟨⟨k, t'⟩, hk, heq⟩ := Option.map_eq_some_iff.1 hread
    cases heq
    exact lt_of_natural hk

theorem field_cases {α : Type} {es : List (String × Node)} {k : String} {read : Node → Decode α} {absent v : α}
    {s s' : Nat} (h : (field es k read absent).run s = some (v, s')) :
    v = absent ∨ ∃ n t, (read n).run t = some (v, s') := by
  unfold field at h
  rw [StateT.run_bind, Option.bind_eq_bind, Option.bind_eq_some_iff] at h
  obtain ⟨⟨node, t⟩, -, h⟩ := h
  cases node with
  | none =>
    cases h
    exact .inl rfl
  | some node => exact .inr ⟨node, t, h⟩

theorem lt_of_field {es : List (String × Node)} {k : String} {s s' m : Nat}
    (h : (field es k d.optionalNatural none).run s = some (some m, s')) : m < 2 ^ 64 := by
  obtain h | ⟨n, t, h⟩ := field_cases h
  · cases h
  · exact lt_of_optionalNatural h

theorem optionalNatural_toString {n : Nat} (h : n < 2 ^ 64) (s : Nat) :
    (d.optionalNatural (.scalar none (toString n) .plain)).run s = some (some n, s) := by
  have hvalue : ((toString n).isEmpty || isNullWord (toString n)) = false := by
    rw [Bool.or_eq_false_iff, isNullWord]
    simp only [Bool.or_eq_false_iff, decide_eq_false_iff_not, String.isEmpty_eq_false_iff]
    exact ⟨toString_ne rfl, ⟨⟨toString_ne rfl, toString_ne rfl⟩, toString_ne rfl⟩, toString_ne rfl⟩
  have hread : (d.natural (.scalar none (toString n) .plain)).run s = some (n, s) := by
    have hfits : (natural? (toString n)).filter (· < pow2 64) = some n := by
      rw [natural?_toString]
      exact Option.filter_some_pos (decide_eq_true h)
    change (liftM ((natural? (toString n)).filter (· < pow2 64)) : Decode Nat).run s = _
    rw [hfits]
    rfl
  unfold optionalNatural optional
  simp only [follow, pure_bind, hvalue]
  change Option.bind ((d.natural (.scalar none (toString n) .plain)).run s) _ = _
  rw [hread]
  rfl

section
variable {α : Type} {k : String} {n : Node} {read : Node → Decode α} {absent : α}

theorem field_self (s : Nat) : (field [(k, n)] k read absent).run s = (read n).run s := by
  simp [field, single]

theorem field_other {l : String} (h : k ≠ l) (s : Nat) : (field [(k, n)] l read absent).run s = some (absent, s) := by
  simp [field, single, h]

end

end Document

def capText (n : Nat) : String := "max_parallel: " ++ toString n

def capDocument (n : Nat) : Document :=
  ⟨some (.map none [(.scalar none "max_parallel" .plain, .scalar none (toString n) .plain)]), [], 4⟩

theorem parse?_capText (n : Nat) : Document.parse? (capText n) = some (capDocument n) := by
  obtain ⟨c, cs, hcs, hall⟩ := Json.exists_toDigits n
  have hlist : (toString n).toList = c :: cs := by rw [Nat.toString_eq_repr, Nat.toList_repr, hcs]
  exact parse?_number (by rw [hlist]; exact hall) (by rw [hlist]; exact List.cons_ne_nil c cs)

theorem rootEntries_capDocument (n s : Nat) : (capDocument n).rootEntries.run s =
    some ([("max_parallel", .scalar none (toString n) .plain)], s) := rfl

end Yaml

namespace Workflow

theorem maxParallel_lt {text : String} {w : Workflow} (h : parse? text = some w) {n : Nat}
    (hn : w.maxParallel = some n) : n < 2 ^ 64 := by
  obtain ⟨d, -, hd⟩ := Option.bind_eq_some_iff.1 h
  unfold ofDocument? Yaml.Document.decode? at hd
  obtain ⟨⟨v, s⟩, hrun, rfl⟩ := Option.map_eq_some_iff.1 hd
  simp only [StateT.run_bind, Option.bind_eq_bind, Option.bind_eq_some_iff] at hrun
  obtain ⟨_, -, _, -, ⟨cap, t⟩, hcap, hlast⟩ := hrun
  cases hlast
  obtain rfl : cap = some n := hn
  exact Yaml.Document.lt_of_field hcap

theorem parse?_capText {n : Nat} (h : n < 2 ^ 64) : parse? (Yaml.capText n) = some { maxParallel := some n } := by
  unfold parse?
  rw [Yaml.parse?_capText]
  unfold ofDocument? Yaml.Document.decode?
  simp only [StateT.run_bind, Option.bind_eq_bind, Yaml.rootEntries_capDocument, Option.bind_some,
    Yaml.Document.field_other (show "max_parallel" ≠ "tasks" by decide), Yaml.Document.field_self,
    Yaml.Document.optionalNatural_toString h]
  rfl

end Workflow

namespace Config

theorem maxParallel_lt {text : String} {c : Config} (h : parse? text = some c) {n : Nat}
    (hn : c.maxParallel = some n) : n < 2 ^ 64 := by
  obtain ⟨d, -, hd⟩ := Option.bind_eq_some_iff.1 h
  unfold ofDocument? Yaml.Document.decode? at hd
  obtain ⟨⟨v, s⟩, hrun, rfl⟩ := Option.map_eq_some_iff.1 hd
  simp only [StateT.run_bind, Option.bind_eq_bind, Option.bind_eq_some_iff] at hrun
  obtain ⟨_, -, _, -, _, -, ⟨cap, t⟩, hcap, _, -, hlast⟩ := hrun
  cases hlast
  obtain rfl : cap = some n := hn
  exact Yaml.Document.lt_of_field hcap

theorem parse?_capText {n : Nat} (h : n < 2 ^ 64) : parse? (Yaml.capText n) = some { maxParallel := some n } := by
  unfold parse?
  rw [Yaml.parse?_capText]
  unfold ofDocument? Yaml.Document.decode?
  simp only [StateT.run_bind, Option.bind_eq_bind, Yaml.rootEntries_capDocument, Option.bind_some,
    Yaml.Document.field_other (show "max_parallel" ≠ "plugin_dir" by decide),
    Yaml.Document.field_other (show "max_parallel" ≠ "scripts_dir" by decide),
    Yaml.Document.field_other (show "max_parallel" ≠ "container" by decide), Yaml.Document.field_self,
    Yaml.Document.optionalNatural_toString h]
  rfl

end Config

/-! ## The command line -/

namespace CommandLine

theorem natural?_lt {s : String} {n : Nat} (h : natural? s = some n) : n < 2 ^ 64 := by
  unfold natural? at h
  extract_lets digits value at h
  by_cases hdigits : (digits.isEmpty || !digits.all Char.isDigit) = true
  · rw [if_pos hdigits] at h
    cases h
  · rw [if_neg hdigits, Option.ite_none_right_eq_some] at h
    obtain ⟨hlt, heq⟩ := h
    rw [← Option.some.inj heq]
    exact hlt

theorem natural?_toString {n : Nat} (h : n < 2 ^ 64) : natural? (toString n) = some n := by
  obtain ⟨c, cs, hcs, hall⟩ := Json.exists_toDigits n
  have hfold := foldl_toDigits n
  unfold natural?
  rw [Nat.toString_eq_repr, Nat.toList_repr]
  rw [hcs] at hfold ⊢
  dsimp only
  split
  · rename_i heq
    cases heq
    cases hall
  · rw [hall, hfold]
    exact if_pos h

theorem splitAssign_append (name : List Char) (h : '=' ∉ name) (value : List Char) :
    splitAssign (name ++ '=' :: value) = (.ofList name, some (.ofList value)) := by
  have hall : ∀ c ∈ name, decide (c ≠ '=') = true := fun c hc => decide_eq_true fun he => h (he ▸ hc)
  have htake : (name ++ '=' :: value).takeWhile (· ≠ '=') = name := by
    rw [List.takeWhile_append_of_pos hall, List.takeWhile_cons_of_neg (by simp), List.append_nil]
  unfold splitAssign
  rw [htake]
  simp

theorem read_attached {form : Form} {toCommand : Bool} {w : Words} {a name value : String} {as : List String} {c : Char}
    {cs : List Char} {k : ValueKind} (ha : a.toList = '-' :: '-' :: c :: cs)
    (hsplit : splitAssign (c :: cs) = (name, some value)) (hk : form.options.lookup name = some k) (hflag : k ≠ .flag) :
    read form toCommand w (a :: as) = (give w name value k).bind fun w => read form toCommand w as := by
  rw [read, ha]
  split
  · rename_i h
    cases h
  · rename_i h
    cases h
    rw [hsplit]
    split
    · rename_i h
      cases h
    · rename_i h
      cases h
    · rename_i h
      cases h
      rw [hk]
      cases k with
      | flag => exact absurd rfl hflag
      | _ => rfl
  · rename_i h
    simp at h
  · rename_i h
    simp at h
  · rename_i hdash _ _ h
    cases h
    exact (hdash rfl).elim
  · rename_i hdash _ _ _
    exact (hdash _ rfl).elim

theorem parse_cap {s : String} {n : Nat} (h : natural? s = some n) :
    parse ["run", "--max-parallel=" ++ s, "case.yaml", "case.store"] =
      .ok ⟨none, .run { workflow := "case.yaml", stores := ["case.store"], maxParallel := some n }⟩ := by
  have hword : ("--max-parallel=" ++ s).toList = '-' :: '-' :: 'm' :: ("ax-parallel=".toList ++ s.toList) := by
    rw [String.toList_append]
    rfl
  have hsplit : splitAssign ('m' :: ("ax-parallel=".toList ++ s.toList)) = ("max-parallel", some s) := by
    have hname := splitAssign_append "max-parallel".toList (by decide) s.toList
    rw [String.ofList_toList, String.ofList_toList] at hname
    exact hname
  have hgive : give {} "max-parallel" s .natural = .ok { values := [("max-parallel", s)] } := by
    unfold give ValueKind.accepts
    simp [h, Words.has, Words.value?]
  have hread : read runForm false {} ["--max-parallel=" ++ s, "case.yaml", "case.store"] =
      .ok ({ values := [("max-parallel", s)], plain := ["case.yaml", "case.store"] }, []) := by
    rw [read_attached hword hsplit rfl (by decide), hgive]
    rfl
  have hglobals : read overviewForm true {} ["run", "--max-parallel=" ++ s, "case.yaml", "case.store"] =
      .ok ({}, ["run", "--max-parallel=" ++ s, "case.yaml", "case.store"]) := rfl
  have hrun : runOf { values := [("max-parallel", s)], plain := ["case.yaml", "case.store"] } =
      .ok (.run { workflow := "case.yaml", stores := ["case.store"], maxParallel := some n }) := by
    rw [← h]
    rfl
  unfold parse
  rw [hglobals]
  simp only [bind, Except.bind, hread, hrun]
  rfl

theorem exists_words {form : Form} {f : Words → Except Stop Command} {as : List String} {globals : Words} {r : Request}
    (h : (do
      let (w, _) ← read form false {} as
      return ⟨(w.value? "config").or (globals.value? "config"), ← f w⟩) = Except.ok r) : ∃ w, f w = .ok r.command := by
  cases hread : read form false {} as with
  | error e =>
    rw [hread] at h
    cases h
  | ok p =>
    rw [hread] at h
    cases hf : f p.1 with
    | error e =>
      simp only [bind, Except.bind, hf] at h
      cases h
    | ok c =>
      simp only [bind, Except.bind, hf] at h
      cases h
      exact ⟨p.1, hf⟩

theorem exists_runOf {args : List String} {config : Option String} {o : RunOptions}
    (h : parse args = .ok ⟨config, .run o⟩) : ∃ w, runOf w = .ok (.run o) := by
  unfold parse at h
  cases hglobals : read overviewForm true {} args with
  | error e =>
    rw [hglobals] at h
    cases h
  | ok p =>
    rw [hglobals] at h
    dsimp only [bind, Except.bind] at h
    split at h
    · exact exists_words h
    · obtain ⟨w, hw⟩ := exists_words h
      unfold graphOf at hw
      split at hw <;> cases hw
    · obtain ⟨w, hw⟩ := exists_words (f := pluginsOf) h
      cases hw
    · cases h
    · cases h

theorem run_of_parse {args : List String} {config : Option String} {o : RunOptions}
    (h : parse args = .ok ⟨config, .run o⟩) : o.stores ≠ [] ∧ ∀ n, o.maxParallel = some n → n < 2 ^ 64 := by
  obtain ⟨w, hw⟩ := exists_runOf h
  unfold runOf at hw
  split at hw
  · cases hw
    refine ⟨List.cons_ne_nil _ _, fun n hn => ?_⟩
    obtain ⟨s, -, hs⟩ := Option.bind_eq_some_iff.1 hn
    exact natural?_lt hs
  · cases hw

end CommandLine

end Casework
