import Casework.Shell.Eval
import Casework.Proofs.Host.Program
import Casework.Proofs.Shell.Splitting

/-!
# The program of a command

A command of literal words that begins with no builtin and no function runs the program of its first word, and asks
the system for that program at the paths of its name and at no others.
-/

namespace Casework.Shell

open Program (asked)

/-! ## Calls -/

section
variable (run : Command → Act String)

theorem firstFields_literal (w : List Char) (ws : List Word) (s : Session) :
    firstFields run (literal w :: ws) s = .ok ([.ofList w], ws) s := by
  rw [firstFields]
  exact bind_ok (expandFields_literal run s w)

def literalCall (ws : List String) : Call where
  fields := ws.map Text.toOctets
  shown := ws.map Text.toOctets

theorem meaning_program {n : String} {s : Session} (hbuiltin : isBuiltin n = false)
    (hfunction : s.functions.find? n = none) {c : Call} (hfields : c.fields.head? = some n) : s.meaning c = .program := by
  obtain ⟨fs, hfs⟩ := List.head?_eq_some_iff.1 hfields
  have hnone : (if c.noFunctions then none else s.functions.find? n) = none := by rw [hfunction, ite_self]
  simp only [Session.meaning, hfs, hnone, hbuiltin, Bool.false_eq_true, if_false]

theorem callOf_literal {w : String} (ws : List String) {s : Session} (hbuiltin : isBuiltin (Text.toOctets w) = false)
    (hfunction : s.functions.find? (Text.toOctets w) = none) (fuel : Nat) :
    callOf run (fuel + 1) ((w :: ws).map fun w => literal (octetChars w)) s = .ok (literalCall (w :: ws)) s := by
  have hname : String.ofList (octetChars w) = Text.toOctets w := String.ofList_toList
  rw [callOf, List.map_cons]
  refine (bind_ok (firstFields_literal run (octetChars w) _ s)).trans ?_
  rw [hname]
  change callFrom run (fuel + 1) { fields := [Text.toOctets w], shown := [Text.toOctets w] } _ s = _
  rw [callFrom]
  refine (bind_ok (x := get) rfl).trans ?_
  rw [meaning_program hbuiltin hfunction rfl]
  have hplain : (isDeclaring (Text.toOctets w) && isBuiltin (Text.toOctets w)) = false := by rw [hbuiltin, Bool.and_false]
  dsimp only
  rw [callFrom.rest]
  simp only [Call.name, List.headD_cons, hplain, Bool.false_eq_true, if_false]
  refine (bind_ok (mapM_expandFields run s ws)).trans ?_
  have hfields : (ws.map fun w => [Text.toOctets w]).flatten = ws.map Text.toOctets := by
    rw [← List.flatMap_def, ← List.map_eq_flatMap]
  rw [hfields]
  rfl

end

/-! ## Programs -/

def runPaths (fuel : Nat) (mode : Mode) (fields paths : List String) : Act Unit := do
  let act : Act Unit := do
    let _ ← execute fuel fields paths
  if mode.last && !(← get).hasTraps then act
  else
    let e ← apart fuel act
    announceEnding e
    modify (·.withStatus (statusOf e))

/-- The program of the call is run from the paths, or from the last of them if its name has no slash, or there is none
and a message says so. The shell remembers what it has found. -/
def RunsAmong (paths : List String) (fuel : Nat) (mode : Mode) (call : Call) (s : Session) : Prop :=
  ∃ found, (∃ ps, ps <:+ paths ∧ (Program.hasSlash call.name = true → ps = paths) ∧
      runProgram (fuel + 1) mode call s = runPaths fuel mode call.fields ps { s with found }) ∨
    ∃ e, runProgram (fuel + 1) mode call s =
      .ok () ((({ s with found } : Session).complain (call.name ++ ": " ++ programReason e)).withStatus 127)

theorem findProgram_ok (name : String) (s : Session) : ∃ r found, findProgram name s = .ok r { s with found } := by
  rw [findProgram]
  cases hknown : (s.known? name).filter (!·.stale) with
  | some f =>
    refine ⟨.ok f.path, s.found, (bind_ok (x := get) rfl).trans ?_⟩
    simp only [hknown]
    rfl
  | none =>
    cases hfirst : firstProgram s.machine.tree ((s.known? name).map (·.path)) .notFound
        (Program.candidates s.searchEnvironment name) with
    | ok p =>
      obtain ⟨found, hfound⟩ : ∃ found, remember name p s = .ok () { s with found } := ⟨_, rfl⟩
      refine ⟨.ok p, found, (bind_ok (x := get) rfl).trans ?_⟩
      simp only [hknown, hfirst]
      exact bind_ok hfound
    | error e =>
      obtain ⟨found, hfound⟩ : ∃ found, forgetProgram name s = .ok () { s with found } := ⟨_, rfl⟩
      refine ⟨.error e, found, (bind_ok (x := get) rfl).trans ?_⟩
      simp only [hknown, hfirst]
      exact bind_ok hfound

theorem runProgram_among {call : Call} (hstandard : call.standard = false) (fuel : Nat) (mode : Mode) (s : Session) :
    RunsAmong (asked s.searchEnvironment call.name) fuel mode call s := by
  rw [RunsAmong, runProgram]
  by_cases hslash : Program.hasSlash call.name = true
  · rw [asked, if_pos hslash]
    refine ⟨s.found, .inl ⟨[call.name], List.suffix_refl _, fun _ => rfl, ?_⟩⟩
    simp only [hslash, if_true]
    rfl
  · rw [asked, if_neg hslash]
    obtain ⟨r, found, hfind⟩ := findProgram_ok call.name s
    refine ⟨found, ?_⟩
    simp only [hslash, hstandard, Bool.false_eq_true, if_false]
    cases r with
    | ok p =>
      refine .inl ⟨_, List.dropWhile_suffix (· ≠ p), False.elim, ?_⟩
      refine (bind_ok (x := get) rfl).trans ?_
      exact (bind_ok hfind).trans rfl
    | error e =>
      refine .inr ⟨e, (bind_ok (x := get) rfl).trans ?_⟩
      exact (bind_ok hfind).trans rfl

theorem bind_congr_at {ε σ α β : Type} {x y : EStateM ε σ α} {f : α → EStateM ε σ β} {r : σ} (h : x r = y r) :
    (x >>= f) r = (y >>= f) r := by
  simp only [bind, EStateM.bind, h]

theorem withDescriptors_congr {α : Type} {x y : Act α} {s : Session} (h : x s = y s) :
    withDescriptors x s = withDescriptors y s := by
  rw [withDescriptors, withDescriptors, h]

theorem trace_off {s : Session} (h : s.isOn 'x' = false) (fuel : Nat) (fds : Descriptors) (words : List String) :
    trace (fuel + 1) fds words s = .ok () s := by
  rw [trace]
  refine (bind_ok (x := get) rfl).trans ?_
  rw [h]
  rfl

theorem runSimple_literal {w : String} (ws : List String) {s : Session} (hbuiltin : isBuiltin (Text.toOctets w) = false)
    (hfunction : s.functions.find? (Text.toOctets w) = none) (htrace : s.isOn 'x' = false) (fuel line : Nat) (mode : Mode) :
    runSimple (fuel + 2) mode line [] ((w :: ws).map fun w => literal (octetChars w)) [] s =
      (do
        withDescriptors (runProgram fuel mode (literalCall (w :: ws)))
        leaveFrames s.frames.length (← get).frames.length)
      { s with line, substituted := 0, frames := [] :: s.frames } := by
  have hcall := callOf_literal (substitute (fuel + 1)) ws (s := { s with line, substituted := 0 }) hbuiltin hfunction fuel
  -- what the name means is asked for in front of the frame that is begun, and again behind it
  have hmeaning : ∀ t : Session, t.functions = s.functions → t.meaning (literalCall (w :: ws)) = .program := by
    intro t ht
    exact meaning_program hbuiltin (by rw [ht, hfunction]) rfl
  have hbefore := hmeaning { s with line, substituted := 0 } rfl
  have hwithin := hmeaning { s with line, substituted := 0, frames := [] :: s.frames } rfl
  have hquiet : ({ s with line, substituted := 0, frames := [] :: s.frames } : Session).isOn 'x' = false := htrace
  rw [runSimple]
  refine (bind_ok (x := modify _) rfl).trans ?_
  refine (bind_ok hcall).trans ?_
  refine (bind_ok (x := get) rfl).trans ?_
  simp only [hbefore, if_true]
  refine (bind_ok (x := modify _) rfl).trans ?_
  refine (bind_ok (x := List.mapM _ []) rfl).trans ?_
  refine (bind_ok (x := get) rfl).trans ?_
  simp only [hwithin, Bool.false_eq_true, if_false]
  refine bind_congr_at (withDescriptors_congr ?_)
  refine (bind_ok (x := openAll _ true []) rfl).trans ?_
  rw [if_pos rfl]
  refine (bind_ok (x := List.mapM _ []) rfl).trans ?_
  refine (bind_ok (trace_off hquiet fuel _ _)).trans ?_
  rw [perform]
  refine (bind_ok (x := get) rfl).trans ?_
  simp only [hwithin]

/-- A simple command of these words runs the program of this name, for which the system is asked at the paths that it
tries for the name. -/
def RunsProgram (s : Session) (words : List Word) (name : String) : Prop :=
  ∀ fuel line mode, ∃ call t, call.name = name ∧ t.machine = s.machine ∧
    runSimple (fuel + 3) mode line [] words [] s =
      (do
        withDescriptors (runProgram (fuel + 1) mode call)
        leaveFrames s.frames.length (← get).frames.length) t ∧
    RunsAmong (asked s.searchEnvironment name) fuel mode call t

theorem isBuiltin_dashed {n : String} (h : '-' ∈ n.toList) : isBuiltin n = false := by
  have hnames : ∀ n ∈ specialBuiltins ++ "local" :: plainBuiltins, '-' ∉ n.toList := by decide
  rw [Bool.eq_false_iff]
  intro hbuiltin
  rw [isBuiltin, isSpecial, Bool.or_eq_true, Bool.or_eq_true, List.contains_iff_mem, List.contains_iff_mem,
    decide_eq_true_eq, or_assoc, ← List.mem_cons, ← List.mem_append] at hbuiltin
  exact hnames n hbuiltin h

theorem runsProgram_literal {w : String} (ws : List String) {s : Session} (hdash : '-' ∈ octetChars w)
    (hfunction : s.functions.find? (Text.toOctets w) = none) (htrace : s.isOn 'x' = false) :
    RunsProgram s ((w :: ws).map fun w => literal (octetChars w)) (Text.toOctets w) := by
  intro fuel line mode
  refine ⟨literalCall (w :: ws), { s with line, substituted := 0, frames := [] :: s.frames }, rfl, rfl,
    runSimple_literal ws (isBuiltin_dashed hdash) hfunction htrace (fuel + 1) line mode, ?_⟩
  exact runProgram_among (rfl : (literalCall (w :: ws)).standard = false) fuel mode
    { s with line, substituted := 0, frames := [] :: s.frames }

end Casework.Shell
