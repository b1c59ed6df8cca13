import Casework.Yaml.Node

/-!
# A line with a number

A text of one line, with a cap, is read token by token into a mapping of one entry, whatever its digits are.
-/

namespace Casework.Yaml

/-! ## The key -/

def atKey (ds : List Char) : Scan := ⟨.ofText ("max_parallel: ".toList ++ ds), #[], -1, [], [none], true⟩

def atColon (ds : List Char) : Scan :=
  ⟨⟨':' :: ' ' :: ds, 12, 0, 12⟩, #[.scalar "max_parallel" .plain], -1, [], [some ⟨0, 0, 0, 0, false⟩], false⟩

def behindColon (ds : List Char) : Scan :=
  ⟨⟨' ' :: ds, 13, 0, 13⟩, #[.blockMappingStart, .key, .scalar "max_parallel" .plain, .value], 0, [-1], [none], false⟩

theorem run_step {fuel : Nat} {s t u : Scan} {x : Char} (hskip : s.skipSpace.expire = some t)
    (hpeek : (t.unroll t.cursor.column).cursor.peek = some x) (hfetch : (t.unroll t.cursor.column).fetch x = some u) :
    s.run (fuel + 1) = u.run fuel := by
  rw [Scan.run, hskip]
  simp only [bind, Option.bind, hpeek, hfetch]

theorem run_atKey (fuel : Nat) (ds : List Char) : (atKey ds).run (fuel + 1) = (atColon ds).run fuel :=
  run_step (t := atKey ds) (x := 'm') rfl rfl rfl

theorem run_atColon (fuel : Nat) (ds : List Char) : (atColon ds).run (fuel + 1) = (behindColon ds).run fuel := by
  have hkey : (#[Token.scalar "max_parallel" .plain]).insertIdx! 0 .key = #[.key, .scalar "max_parallel" .plain] := by
    decide +kernel
  have hstart : (#[Token.key, Token.scalar "max_parallel" .plain]).insertIdx! 0 .blockMappingStart =
      #[.blockMappingStart, .key, .scalar "max_parallel" .plain] := by
    decide +kernel
  have hvalue : (atColon ds).fetchValue = some (behindColon ds) := by
    simp only [Scan.fetchValue, Scan.roll, Scan.emitAt, Scan.inFlow, atColon, hkey, hstart]
    rfl
  exact run_step (t := atColon ds) (x := ':') rfl rfl hvalue

/-! ## The number -/

theorem of_isDigit {P : Char → Prop} (h : ∀ n < 10, P (Char.ofNat (n + 48))) {c : Char} (hc : c.isDigit = true) : P c := by
  obtain ⟨hlo, hhi⟩ := Char.isDigit_iff_toNat.1 hc
  have hle : 48 ≤ c.toNat := hlo
  have hge : c.toNat ≤ 57 := hhi
  have hp := h (c.toNat - 48) (by omega)
  rwa [Nat.sub_add_cancel hle, Char.ofNat_toNat] at hp

theorem digit_cases {c : Char} (h : c.isDigit = true) : c = '0' ∨ c = '1' ∨ c = '2' ∨ c = '3' ∨ c = '4' ∨ c = '5' ∨
    c = '6' ∨ c = '7' ∨ c = '8' ∨ c = '9' := by
  have hmem := of_isDigit (P := (· ∈ ['0', '1', '2', '3', '4', '5', '6', '7', '8', '9'])) (by decide) h
  simpa only [List.mem_cons, List.not_mem_nil, or_false] using hmem

theorem plainRun_digits {ds : List Char} (h : ds.all Char.isDigit = true) {fuel : Nat} (hfuel : ds.length < fuel)
    (acc : List Char) (i l k : Nat) :
    plainRun false fuel acc ⟨ds, i, l, k⟩ = some (ds.reverse ++ acc, ⟨[], ds.length + i, l, ds.length + k⟩) := by
  induction ds generalizing fuel acc i k with
  | nil =>
    obtain ⟨fuel, rfl⟩ : ∃ m, fuel = m + 1 := ⟨fuel - 1, by rw [List.length_nil] at hfuel; omega⟩
    rw [List.length_nil, Nat.zero_add, Nat.zero_add]
    rfl
  | cons c ds ih =>
    obtain ⟨fuel, rfl⟩ : ∃ m, fuel = m + 1 := ⟨fuel - 1, by omega⟩
    rw [List.all_cons, Bool.and_eq_true] at h
    have hc : (isBlank c || isBreak c) = false ∧ (c == ':') = false :=
      of_isDigit (P := fun c => (isBlank c || isBreak c) = false ∧ (c == ':') = false) (by decide) h.1
    have hstep : plainRun false (fuel + 1) acc ⟨c :: ds, i, l, k⟩ = plainRun false fuel (c :: acc) ⟨ds, i + 1, l, k + 1⟩ := by
      rw [plainRun]
      simp only [Cursor.peek, List.head?_cons, hc.1, badColon, Bool.false_and, endsPlain, Cursor.sees,
        Option.some_beq_some, hc.2]
      rfl
    rw [hstep, ih h.2 (by simpa using hfuel)]
    simp only [List.reverse_cons, List.append_assoc, List.singleton_append, List.length_cons]
    rw [Nat.add_assoc, Nat.add_assoc, Nat.add_comm 1 i, Nat.add_comm 1 k]

def atNumber (ds : List Char) : Scan := { behindColon ds with cursor := ⟨ds, 14, 0, 14⟩ }

def behindNumber (ds : List Char) : Scan :=
  ⟨⟨[], ds.length + 14, 0, ds.length + 14⟩,
    #[.blockMappingStart, .key, .scalar "max_parallel" .plain, .value, .scalar (.ofList ds) .plain], 0, [-1], [none], false⟩

section
variable {c : Char} {ds : List Char} (h : (c :: ds).all Char.isDigit = true)
include h

theorem readPlain_number : readPlain false 1 (atNumber (c :: ds)).cursor =
    some (.ofList (c :: ds), false, (behindNumber (c :: ds)).cursor) := by
  have hmark : ((atNumber (c :: ds)).cursor.seesDocumentMarker || (atNumber (c :: ds)).cursor.sees '#') = false := by
    rcases digit_cases (List.all_eq_true.1 h c List.mem_cons_self) with
      rfl | rfl | rfl | rfl | rfl | rfl | rfl | rfl | rfl | rfl <;> rfl
  have hrun : plainRun false ((atNumber (c :: ds)).cursor.rest.length + 1) [] (atNumber (c :: ds)).cursor =
      some ((c :: ds).reverse ++ [], (behindNumber (c :: ds)).cursor) := plainRun_digits h (Nat.lt_succ_self _) [] 14 0 14
  have hne : ((c :: ds).reverse ++ []).isEmpty = false := by simp
  have hblank : (!((behindNumber (c :: ds)).cursor.seesBlank || (behindNumber (c :: ds)).cursor.seesBreak)) = true := rfl
  unfold readPlain plainFrom
  rw [hmark, if_neg Bool.false_ne_true, hrun]
  simp only [bind, Option.bind, hne, hblank]
  simp [Held.fold]

theorem run_behindColon (fuel : Nat) : (behindColon (c :: ds)).run (fuel + 1) = (behindNumber (c :: ds)).run fuel := by
  have hfirst := digit_cases (List.all_eq_true.1 h c List.mem_cons_self)
  have hskip : (behindColon (c :: ds)).skipSpace.expire = some (atNumber (c :: ds)) := by
    rcases hfirst with rfl | rfl | rfl | rfl | rfl | rfl | rfl | rfl | rfl | rfl <;> rfl
  have hfetch : (atNumber (c :: ds)).fetch c = (atNumber (c :: ds)).fetchPlain := by
    rcases hfirst with rfl | rfl | rfl | rfl | rfl | rfl | rfl | rfl | rfl | rfl <;> rfl
  have hplain : (atNumber (c :: ds)).fetchPlain = some (behindNumber (c :: ds)) := by
    change (readPlain false 1 (atNumber (c :: ds)).cursor).bind _ = _
    rw [readPlain_number h]
    rfl
  exact run_step (t := atNumber (c :: ds)) (x := c) hskip rfl (hfetch.trans hplain)

end

theorem run_behindNumber (fuel : Nat) (ds : List Char) : (behindNumber ds).run (fuel + 1) =
    some #[.blockMappingStart, .key, .scalar "max_parallel" .plain, .value, .scalar (.ofList ds) .plain, .blockEnd] := by
  have hskip : (behindNumber ds).skipSpace.expire = some (behindNumber ds) := rfl
  have hunroll : (behindNumber ds).unroll (behindNumber ds).cursor.column = behindNumber ds := rfl
  rw [Scan.run, hskip]
  simp only [bind, Option.bind, hunroll]
  rfl

/-! ## The line -/

theorem tokens?_number {s : String} (h : s.toList.all Char.isDigit = true) (hne : s.toList ≠ []) :
    tokens? ("max_parallel: " ++ s) =
      some [.blockMappingStart, .key, .scalar "max_parallel" .plain, .value, .scalar s .plain, .blockEnd] := by
  have hallowed : ("max_parallel: ".toList ++ s.toList).all isAllowed = true := by
    rw [List.all_append, Bool.and_eq_true]
    refine ⟨by decide, List.all_eq_true.2 fun c hc => ?_⟩
    exact of_isDigit (P := (isAllowed · = true)) (by decide) (List.all_eq_true.1 h c hc)
  have hfuel : ("max_parallel: ".toList ++ s.toList).length + 1 = s.toList.length + 11 + 1 + 1 + 1 + 1 := by
    rw [List.length_append, Nat.add_comm s.toList.length]
    have : "max_parallel: ".toList.length = 14 := rfl
    omega
  unfold tokens?
  dsimp only
  rw [String.toList_append, hallowed, if_pos rfl, hfuel]
  change ((atKey s.toList).run _).map _ = _
  obtain ⟨c, ds, hs⟩ := List.exists_cons_of_ne_nil hne
  rw [run_atKey, run_atColon]
  rw [hs] at h ⊢
  rw [run_behindColon h, run_behindNumber, ← hs, String.ofList_toList]
  rfl

theorem parse?_number {s : String} (h : s.toList.all Char.isDigit = true) (hne : s.toList ≠ []) :
    Document.parse? ("max_parallel: " ++ s) =
      some ⟨some (.map none [(.scalar none "max_parallel" .plain, .scalar none s .plain)]), [], 4⟩ := by
  unfold Document.parse?
  rw [tokens?_number h hne]
  rfl

end Casework.Yaml
