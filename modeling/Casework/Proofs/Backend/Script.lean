import Casework.Backend.CommandLine
import Casework.Proofs.Host.FileTree
import Casework.Proofs.Shell.Leading
import Casework.Proofs.Shell.Literal

/-!
# What the shell makes of the line of a script

The line is one simple command with the script, the flags and the store as its words, each of them literal. Only the
path of the script can spoil it, which is left as it is if all of it is plain: if it reads as an assignment the shell
runs what stands behind it, and if it begins with a sign the shell takes the whole line for its own options.
-/

namespace Casework

namespace Script

open Shell (octetChars literal nextCommand)

/-! ## The line of a script -/

theorem dash_mem_script (scriptsDir command : String) : '-' ∈ octetChars (slashed (scriptPath scriptsDir command)) := by
  obtain ⟨pre, hpre⟩ := Path.join_suffix scriptsDir (scriptName command)
  have hdash : '-' ∈ (scriptPath scriptsDir command).toList := by
    have hlead : '-' ∈ nameLead.toList := by decide
    rw [scriptPath, hpre, scriptName, String.toList_append, String.toList_append]
    exact List.mem_append_right _ (List.mem_append_left _ hlead)
  rw [Shell.octetChars_eq, slashed, String.toList_ofList, List.mem_flatMap]
  exact ⟨'-', List.mem_map.2 ⟨'-', hdash, rfl⟩, List.mem_singleton.2 rfl⟩

theorem nextCommand_shellLine (scriptsDir command : String) (task : Task) (store : String) :
    ∃ line r s, nextCommand { text := octetChars (shellLine (scriptPath scriptsDir command) task store) } =
      .ok (some (some (Shell.lineCommand line ((lineWords (scriptPath scriptsDir command) task store).map
        fun w => literal (octetChars w))))) r ∧ nextCommand r = .ok none s := by
  have hline := Shell.octetChars_line (slashed (scriptPath scriptsDir command)) (task.forwardedArgs ++ [slashed store])
  have hread := Shell.nextCommand_words ((task.forwardedArgs ++ [slashed store]).map octetChars)
    (Shell.keywordOf?_dashed (dash_mem_script scriptsDir command))
  rw [← hline, List.map_map] at hread
  exact hread

/-- The shell takes the line for its commands if and only if the path of the script does not begin an option, and reads
it as one simple command of its words, without an assignment or a redirection and with nothing behind it, if and only
if the path does not begin an assignment. In any session each of the words comes to itself. -/
theorem shellLine_one_command (scriptsDir command : String) (task : Task) (store : String) :
    let script := scriptPath scriptsDir command
    let line := shellLine script task store
    let words := (lineWords script task store).map fun w => literal (octetChars w)
    (Shell.TakesCommands (Text.toOctets line) ↔ ¬ Shell.BeginsOption (octetChars (slashed script))) ∧
    ((∃ n r s, nextCommand { text := octetChars line } = .ok (some (some (.simple n [] words []))) r ∧
      nextCommand r = .ok none s) ↔ ¬ Shell.BeginsAssignment (octetChars (slashed script))) ∧
    ∀ w ∈ lineWords script task store, Shell.wordChars (literal (octetChars w)) = octetChars w ∧
      ∀ run session, Shell.expandFields run (literal (octetChars w)) session = .ok [Text.toOctets w] session := by
  intro script line words
  refine ⟨?_, ?_, fun w _ => ⟨Shell.wordChars_literal _, fun run session => ?_⟩⟩
  · have hline : (Text.toOctets line).toList = _ := Shell.octetChars_line (slashed script) (task.forwardedArgs ++ [slashed store])
    rw [Shell.takesCommands_iff, hline, ← Shell.beginsOption_iff]
  · obtain ⟨n, r, s, hfirst, hnothing⟩ := nextCommand_shellLine scriptsDir command task store
    rw [← Shell.assignment?_literal]
    cases hassign : Shell.assignment? (literal (octetChars (slashed script))) with
    | none =>
      have hcommand : Shell.lineCommand n words = .simple n [] words [] := Shell.lineCommand_of_none hassign n _
      refine iff_of_true ⟨n, r, s, hfirst.trans ?_, hnothing⟩ (by simp)
      rw [← hcommand]
    | some a =>
      refine iff_of_false ?_ (by simp)
      rintro ⟨n', r', s', hsimple, _⟩
      rw [hfirst] at hsimple
      have hcommand := Option.some.inj (Option.some.inj (EStateM.Result.ok.inj hsimple).1)
      exact Shell.lineCommand_of_some hassign n n' _ _ hcommand
  · rw [Shell.expandFields_literal, octetChars, String.ofList_toList]

theorem assigningDirectory_runs_store : ∃ n r s,
    nextCommand { text := octetChars (shellLine (scriptPath "a=b" "x") (.script "x") "case.store") } =
      .ok (some (some (.simple n [("a", literal "b/evidenceflow-x".toList)] [literal "case.store".toList] []))) r ∧
    nextCommand r = .ok none s := by
  have hwords : (lineWords (scriptPath "a=b" "x") (.script "x") "case.store").map octetChars =
      ["a=b/evidenceflow-x".toList, "case.store".toList] := by decide +kernel
  obtain ⟨n, r, s, hfirst, hnothing⟩ := nextCommand_shellLine "a=b" "x" (.script "x") "case.store"
  have hcommand : Shell.lineCommand n (["a=b/evidenceflow-x".toList, "case.store".toList].map literal) =
      .simple n [("a", literal "b/evidenceflow-x".toList)] [literal "case.store".toList] [] := rfl
  refine ⟨n, r, s, hfirst.trans ?_, hnothing⟩
  rw [← hcommand, ← hwords, List.map_map]
  rfl

end Script

end Casework
