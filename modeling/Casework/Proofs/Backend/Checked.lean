import Casework.Backend.Dispatch
import Casework.Proofs.Backend.Script
import Casework.Proofs.Plugin.Directory
import Casework.Proofs.Shell.Programs

/-!
# The file that was checked and the program that is run

A plugin of a directory and a script are looked at as files before anything is run, and then the system is asked for a
program by name. The name leads to the file that was looked at if it has a slash, which only a directory with a name
gives it; and for a script no slash may have been a backslash before.
-/

namespace Casework

open Text (toOctets pathOf)

namespace Path

theorem slash_mem_join {p : String} (hp : p ≠ "") (q : String) : '/' ∈ (join p q).toList := by
  by_cases hq : isAbsolute q = true
  · rw [join, hq, Bool.true_or, if_pos rfl]
    exact List.mem_of_mem_head? (beq_iff_eq.1 hq)
  by_cases hlast : p.toList.getLast? = some '/'
  · rw [join_slash (Bool.eq_false_iff.2 hq) hp hlast, String.toList_append]
    exact List.mem_append_left _ (List.mem_of_getLast? hlast)
  · rw [join_plain (Bool.eq_false_iff.2 hq) hp hlast, String.toList_append, String.toList_append]
    exact List.mem_append_left _ (List.mem_append_right _ (List.mem_singleton.2 rfl))

end Path

namespace Program

/-- Started by this name, the system tries this path and no other. -/
def AsksFor (env : NameMap String) (name path : String) : Prop := (asked env name).map pathOf = [path]

end Program

open Program (AsksFor searchPath)

/-! ## Plugins -/

namespace PluginDirectory

variable {t : FileTree} {dir command path : String}

theorem asksFor_located (h : locate t dir command = some path) (env : NameMap String) :
    AsksFor env (toOctets path) path ↔ dir ≠ "" ∨ searchPath env = [""] := by
  obtain ⟨hcandidate, hexecutable⟩ := locate_eq_some.1 h
  obtain ⟨⟨_, hone⟩, rfl⟩ := candidate?_eq_some.1 hcandidate
  have hslash : '/' ∈ (Path.join dir command).toList ↔ dir ≠ "" := by
    refine ⟨?_, fun hdir => Path.slash_mem_join hdir command⟩
    rintro hmem rfl
    rw [Path.join_empty] at hmem
    exact (FileTree.isName_of_isExecutable hone hexecutable).noSlash hmem
  rw [AsksFor, Program.asked_self_iff, hslash]

end PluginDirectory

/-! ## Scripts -/

theorem Shell.words_of_lineCommand {w : Shell.Word} {ws vs : List Shell.Word} {line n : Nat}
    (h : Shell.lineCommand line (w :: ws) = .simple n [] vs []) : vs = w :: ws := by
  cases hassign : Shell.assignment? w with
  | none =>
    rw [Shell.lineCommand_of_none hassign] at h
    injection h with _ _ hwords _
    exact hwords.symm
  | some a => exact absurd h (Shell.lineCommand_of_some hassign _ _ _ _)

namespace Script

theorem slashed_eq_iff {p : String} : slashed p = p ↔ '\\' ∉ p.toList := by
  constructor
  · intro h hmem
    rw [← h, slashed, String.toList_ofList] at hmem
    obtain ⟨c, _, hc⟩ := List.mem_map.1 hmem
    split at hc
    · cases hc
    · rename_i hne
      exact hne hc
  · intro h
    have hself : ∀ c ∈ p.toList, (if c = '\\' then '/' else c) = c := by
      rintro c hc
      rw [if_neg]
      rintro rfl
      exact h hc
    rw [slashed, List.map_congr_left hself, List.map_id'', String.ofList_toList]
    exact fun _ => rfl

theorem slash_mem_slashed {p : String} (h : '\\' ∈ p.toList) : '/' ∈ (slashed p).toList := by
  rw [slashed, String.toList_ofList]
  exact List.mem_map.2 ⟨'\\', h, rfl⟩

theorem slash_mem_scriptPath {scriptsDir command : String} :
    '/' ∈ (scriptPath scriptsDir command).toList ↔ scriptsDir ≠ "" ∨ '/' ∈ command.toList := by
  by_cases hdir : scriptsDir = ""
  · subst hdir
    have hlead : '/' ∉ nameLead.toList := by decide
    rw [scriptPath, Path.join_empty, scriptName, String.toList_append, List.mem_append, or_iff_right hlead]
    simp
  · exact iff_of_true (Path.slash_mem_join hdir _) (.inl hdir)

theorem asksFor_script (scriptsDir command : String) (env : NameMap String) :
    AsksFor env (toOctets (slashed (scriptPath scriptsDir command))) (scriptPath scriptsDir command) ↔
      '\\' ∉ (scriptPath scriptsDir command).toList ∧
        (scriptsDir ≠ "" ∨ '/' ∈ command.toList ∨ searchPath env = [""]) := by
  by_cases hback : '\\' ∈ (scriptPath scriptsDir command).toList
  · have hslash := slash_mem_slashed hback
    have hasked := (Program.asked_self_iff env (slashed (scriptPath scriptsDir command))).2 (.inl hslash)
    refine iff_of_false (fun h => ?_) (fun h => h.1 hback)
    rw [AsksFor, hasked] at h
    exact slashed_eq_iff.1 (List.cons.inj h).1 hback
  · rw [slashed_eq_iff.2 hback, AsksFor, Program.asked_self_iff, slash_mem_scriptPath, or_assoc]
    exact (and_iff_right hback).symm

open Shell (octetChars literal nextCommand) in
theorem runsProgram_of_read {scriptsDir command store : String} {task : Task} {n : Nat} {words : List Shell.Word}
    {r : Shell.Reader}
    (hread : nextCommand { text := octetChars (shellLine (scriptPath scriptsDir command) task store) } =
      .ok (some (some (.simple n [] words []))) r)
    {s : Shell.Session} (hfunction : s.functions.find? (toOctets (slashed (scriptPath scriptsDir command))) = none)
    (htrace : s.isOn 'x' = false) :
    Shell.RunsProgram s words (toOctets (slashed (scriptPath scriptsDir command))) := by
  obtain ⟨line, r', _, hfirst, _⟩ := nextCommand_shellLine scriptsDir command task store
  have hcommand := Option.some.inj (Option.some.inj (EStateM.Result.ok.inj (hfirst.symm.trans hread)).1)
  have hdash := dash_mem_script scriptsDir command
  rw [lineWords, List.cons_append, List.map_cons] at hcommand
  generalize slashed (scriptPath scriptsDir command) = script at *
  generalize task.forwardedArgs ++ [slashed store] = more at hcommand
  rw [Shell.words_of_lineCommand hcommand]
  exact Shell.runsProgram_literal more hdash hfunction htrace

end Script

/-! ## The work of a task -/

namespace Context

theorem pluginWork_candidate (c : Context) {task : Task} {path : String} (hregistry : c.plugins.find? task.command = none)
    (hcandidate : PluginDirectory.candidate? c.pluginDir task.command = some path) :
    c.pluginWork task = .check (.executable path) fun found =>
      if found then
        .process ⟨task.command, path, task.forwardedArgs ++ [c.store]⟩ fun r =>
          .finish (r.mapError fun f => .pluginFailed task.command f.cause f.stderr)
      else .finish (.error (.pluginNotFound task.command)) := by
  rw [pluginWork, hregistry, hcandidate]

theorem scriptWork_checked (c : Context) {task : Task} (hcommand : task.command ≠ "") :
    ∃ next after, c.scriptWork task = .check (.regular (Script.scriptPath c.scriptsDir task.command)) next ∧
      next true = .process ⟨Script.scriptName task.command, "sh",
        ["-c", Script.shellLine (Script.scriptPath c.scriptsDir task.command) task c.store]⟩ after := by
  refine ⟨_, fun r => .finish (r.mapError fun f => .scriptFailed (Script.scriptName task.command) f.cause f.stderr), rfl, ?_⟩
  exact if_pos (by simpa using hcommand)

open Shell (octetChars nextCommand)

/-- A plugin that was found is run by its path, and a script whose check went well by its path with slashes for
backslashes, if that is the command word of the line that the shell reads. For this name the system tries the path that
was checked, and nothing else, if and only if the directory has a name, or the command of a script brings a slash of its
own, or nothing but the current directory is searched; for a script the path may have no backslash besides. -/
theorem found_asked_for (c : Context) (task : Task) (t : FileTree) :
    (∀ path, c.plugins.find? task.command = none → PluginDirectory.locate t c.pluginDir task.command = some path →
      ∃ next after, c.pluginWork task = .check (.executable path) next ∧
        next true = .process ⟨task.command, path, task.forwardedArgs ++ [c.store]⟩ after ∧
        ∀ env, (∀ args r, Program.launch t env (toOctets path) args = .ok r →
            ∃ p ∈ Program.asked env (toOctets path), Program.start t env p args = .ok r) ∧
          (AsksFor env (toOctets path) path ↔ c.pluginDir ≠ "" ∨ searchPath env = [""])) ∧
    (task.command ≠ "" →
      let script := Script.scriptPath c.scriptsDir task.command
      let line := Script.shellLine script task c.store
      let name := toOctets (Script.slashed script)
      ∃ next after, c.scriptWork task = .check (.regular script) next ∧
        next true = .process ⟨Script.scriptName task.command, "sh", ["-c", line]⟩ after ∧
        ∀ n words r, nextCommand { text := octetChars line } = .ok (some (some (.simple n [] words []))) r →
          ∀ s : Shell.Session, s.functions.find? name = none → s.isOn 'x' = false →
            Shell.RunsProgram s words name ∧
            (AsksFor s.searchEnvironment name script ↔ '\\' ∉ script.toList ∧
              (c.scriptsDir ≠ "" ∨ '/' ∈ task.command.toList ∨ searchPath s.searchEnvironment = [""]))) := by
  refine ⟨fun path hregistry hlocate => ?_, fun hcommand => ?_⟩
  · have hcandidate := (PluginDirectory.locate_eq_some.1 hlocate).1
    have hwork := c.pluginWork_candidate hregistry hcandidate
    refine ⟨_, _, hwork, rfl, fun env => ⟨fun args r => Program.exists_asked_of_launch, ?_⟩⟩
    exact PluginDirectory.asksFor_located hlocate env
  · obtain ⟨next, after, hwork, hnext⟩ := c.scriptWork_checked hcommand
    refine ⟨next, after, hwork, hnext, fun n words r hread s hfunction htrace => ⟨?_, ?_⟩⟩
    · exact Script.runsProgram_of_read hread hfunction htrace
    · exact Script.asksFor_script c.scriptsDir task.command s.searchEnvironment

def catTree : FileTree where
  cwd := "/work"
  nodes :=
    [(["bin"], .dir), (["bin", "cat"], .utility .cat), (["bin", "sh"], .utility .sh), (["work"], .dir),
      (["work", "cat"], .file (Text.encode "#!/bin/sh\n") 0o755), (["work", "plugins"], .dir),
      (["work", "plugins", "cat"], .file (Text.encode "#!/bin/sh\n") 0o755)]

theorem catPlugin_asked_for :
    (PluginDirectory.locate catTree "plugins" "cat" = some "plugins/cat" ∧
      ∀ env, AsksFor env (toOctets "plugins/cat") "plugins/cat") ∧
    ∃ n words r,
      nextCommand { text := octetChars (Script.shellLine (Script.scriptPath "scripts" "cat") (.script "cat") "case.store") } =
        .ok (some (some (.simple n [] words []))) r ∧
      ∀ l, Shell.RunsProgram (.ofLaunch l) words "scripts/evidenceflow-cat" ∧
        AsksFor (Shell.Session.ofLaunch l).searchEnvironment "scripts/evidenceflow-cat" "scripts/evidenceflow-cat" := by
  have hall := found_asked_for { store := "case.store", pluginDir := "plugins", scriptsDir := "scripts" } (.script "cat") catTree
  have hlocate : PluginDirectory.locate catTree "plugins" "cat" = some "plugins/cat" := by decide +kernel
  obtain ⟨_, _, _, _, hplugin⟩ := hall.1 "plugins/cat" rfl hlocate
  obtain ⟨_, _, _, _, hscript⟩ := hall.2 (by decide)
  refine ⟨⟨hlocate, fun env => (hplugin env).2.2 (.inl (by decide))⟩, ?_⟩
  obtain ⟨n, r, _, hread, _⟩ := Script.nextCommand_shellLine "scripts" "cat" (.script "cat") "case.store"
  have hfirst : Shell.assignment? (Shell.literal (octetChars (Script.slashed (Script.scriptPath "scripts" "cat")))) = none := by
    decide +kernel
  rw [Script.lineWords, List.cons_append, List.map_cons, Shell.lineCommand_of_none hfirst] at hread
  refine ⟨n, _, r, hread, fun l => ?_⟩
  have hname : toOctets (Script.slashed (Script.scriptPath "scripts" "cat")) = "scripts/evidenceflow-cat" := by decide +kernel
  have hpath : Script.scriptPath "scripts" "cat" = "scripts/evidenceflow-cat" := by decide +kernel
  have hruns : Shell.RunsProgram (.ofLaunch l) _ (toOctets (Script.slashed (Script.scriptPath "scripts" "cat"))) :=
    (hscript n _ r hread (.ofLaunch l) rfl rfl).1
  have hasks : AsksFor (Shell.Session.ofLaunch l).searchEnvironment
      (toOctets (Script.slashed (Script.scriptPath "scripts" "cat"))) (Script.scriptPath "scripts" "cat") :=
    (hscript n _ r hread (.ofLaunch l) rfl rfl).2.2 ⟨by decide +kernel, .inl (by decide)⟩
  rw [hname] at hruns
  rw [hname, hpath] at hasks
  exact ⟨hruns, hasks⟩

theorem catPlugin_not_asked_for {env : NameMap String} (h : searchPath env = ["/bin"]) :
    PluginDirectory.locate catTree "" "cat" = some "cat" ∧
    (Program.load catTree "cat").toOption = some (.interpreted "/bin/sh" none) ∧
    Program.asked env "cat" = ["/bin/cat"] ∧
    (Program.load catTree "/bin/cat").toOption = some (.utility .cat) := by
  have hslash : ¬ Program.hasSlash "cat" = true := by decide
  refine ⟨by decide +kernel, by decide +kernel, ?_, by decide +kernel⟩
  rw [Program.asked, if_neg hslash, Program.candidates, h]
  decide +kernel

end Context

end Casework
