import Casework.Backend.Exchange
import Casework.Proofs.Backend.Results
import Casework.Proofs.Plugin.Directory

/-!
# Which step an error blames

Every way that a task can go is one of a few courses, each with what was asked on it. From these it can be read which
processes were run, which of them the result depends on, and what an error names.
-/

namespace Casework

/-! ## Processes -/

theorem Fate.capture_eq_ok {f : Fate} {out : String} : f.capture = .ok out ↔ f.output? = some out := by
  cases f with
  | unstarted e => simp [capture, output?]
  | ended text err ending =>
    cases ending with
    | code n => cases n <;> simp [capture, Casework.capture, Ending.isSuccess, output?]
    | signal n => simp [capture, Casework.capture, Ending.isSuccess, output?]
  | lost err e => simp [capture, output?]

theorem Fate.mapError_eq_ok {f : Fate} {g : ProcessFailure → TaskError} {out : String} :
    f.capture.mapError g = .ok out ↔ f.output? = some out := by
  rw [← capture_eq_ok]
  cases f.capture with
  | ok text =>
    constructor <;>
    · rintro ⟨⟩
      rfl
  | error p => exact iff_of_false (fun h => nomatch h) (fun h => nomatch h)

theorem Host.run_eq_fate (h : Host) (i : Invocation) : (h.run i).2 = (h.fate i).capture := by
  unfold Host.run Host.fate
  cases spawn h.tree h.env i <;> rfl

/-! ## Exchanges -/

namespace Work

/-- What work comes to on a host it comes to by answers that a host gives. -/
theorem goes_perform (store : String) : ∀ (w : Work) (h : Host),
    ∃ log, w.Goes log (w.perform h store).2 ∧ ∀ x ∈ log, Exchange.Genuine store x
  | finish r, h => ⟨[], ⟨rfl, rfl⟩, fun x hx => by cases hx⟩
  | check c next, h => by
    obtain ⟨log, hlog, hgenuine⟩ := goes_perform store (next (c.holds h.tree)) h
    exact ⟨.looked c (c.holds h.tree) :: log, ⟨_, _, rfl, hlog⟩, List.forall_mem_cons.2 ⟨⟨h, rfl⟩, hgenuine⟩⟩
  | process i next, h => by
    obtain ⟨log, hlog, hgenuine⟩ := goes_perform store (next (h.run i).2) (h.run i).1
    refine ⟨.ran i (h.fate i) :: log, ⟨_, _, rfl, ?_⟩, List.forall_mem_cons.2 ⟨⟨h, rfl⟩, hgenuine⟩⟩
    rw [← h.run_eq_fate i]
    exact hlog
  | call p next, h => by
    obtain ⟨log, hlog, hgenuine⟩ := goes_perform store (next (p.runAlone h store).2) (p.runAlone h store).1
    exact ⟨.called p (p.runAlone h store).2 :: log, ⟨_, _, rfl, hlog⟩, List.forall_mem_cons.2 ⟨⟨h, rfl⟩, hgenuine⟩⟩

theorem goes_process {i : Invocation} {g : ProcessFailure → TaskError} {log : List Exchange}
    {r : Except TaskError String} (h : (process i fun a => finish (a.mapError g)).Goes log r) :
    ∃ f, log = [.ran i f] ∧ r = f.capture.mapError g := by
  obtain ⟨f, rest, rfl, rfl, rfl⟩ := h
  exact ⟨f, rfl, rfl⟩

end Work

namespace Context

open PluginDirectory (candidate?)

variable {c : Context} {cwd : Except OsError String} {t : Task} {k : TaskKind} {log : List Exchange}
  {r : Except TaskError String} {e : TaskError}

/-! ## The courses of a task -/

inductive ImageCourse (c : Context) (cwd : Except OsError String) (t : Task) (image : String) :
    List Exchange → Except TaskError String → Prop
  | unplaced {e : OsError} : c.unplaced? cwd = some e →
    ImageCourse c cwd t image [] (.error (.containerFailed image ("cannot resolve store path: " ++ e.message) ""))
  | ran (f : Fate) : ImageCourse c cwd t image [.ran (c.runInvocation t cwd image) f]
    (f.capture.mapError fun p => .containerFailed image p.cause p.stderr)

inductive Course (c : Context) (cwd : Except OsError String) (t : Task) :
    TaskKind → List Exchange → Except TaskError String → Prop
  | builtin {p : Plugin} (e : PluginEnd) : c.plugins.find? t.command = some p →
    Course c cwd t .plugin [.called p e] (pluginResult t.command e)
  | unnamed : c.plugins.find? t.command = none → candidate? c.pluginDir t.command = none →
    Course c cwd t .plugin [] (.error (.pluginNotFound t.command))
  | missing {path : String} : c.plugins.find? t.command = none → candidate? c.pluginDir t.command = some path →
    Course c cwd t .plugin [.looked (.executable path) false] (.error (.pluginNotFound t.command))
  | located {path : String} (f : Fate) : c.plugins.find? t.command = none →
    candidate? c.pluginDir t.command = some path →
    Course c cwd t .plugin [.looked (.executable path) true, .ran (c.pluginInvocation t path) f]
      (f.capture.mapError fun p => .pluginFailed t.command p.cause p.stderr)
  | scriptless (found : Bool) : Course c cwd t .script [.looked (.regular (c.scriptFile t)) found]
      (.error (.scriptFailed (Script.scriptName t.command) ("script not found at " ++ c.scriptFile t) ""))
  | script (f : Fate) : Course c cwd t .script
      [.looked (.regular (c.scriptFile t)) true, .ran (c.scriptInvocation t) f]
      (f.capture.mapError fun p => .scriptFailed (Script.scriptName t.command) p.cause p.stderr)
  | imageless : t.image = "" → Course c cwd t .docker [] (.error (.containerFailed "" "task has no image" ""))
  | image {log : List Exchange} {r : Except TaskError String} : ImageCourse c cwd t t.image log r →
    Course c cwd t .docker log r
  | misnamed : Container.isRecipeName t.recipe = false →
    Course c cwd t .dockerfile [] (.error (.buildFailed t.recipe ("invalid recipe name '" ++ t.recipe ++ "'") ""))
  | recipeless : Container.isRecipeName t.recipe = true →
    Course c cwd t .dockerfile [.looked (.regular (c.recipeFile t)) false]
      (.error (.buildFailed t.recipe ("no Dockerfile in " ++ c.recipeDirectory t.recipe) ""))
  | unbuilt {p : ProcessFailure} (f : Fate) : Container.isRecipeName t.recipe = true → f.capture = .error p →
    Course c cwd t .dockerfile [.looked (.regular (c.recipeFile t)) true, .ran (c.buildInvocation t) f]
      (.error (.buildFailed t.recipe p.cause p.stderr))
  | built {out : String} {log : List Exchange} {r : Except TaskError String} (f : Fate) :
    Container.isRecipeName t.recipe = true → f.output? = some out →
    ImageCourse c cwd t (Container.imageTag t.recipe) log r →
    Course c cwd t .dockerfile (.looked (.regular (c.recipeFile t)) true :: .ran (c.buildInvocation t) f :: log) r

theorem course_of_pluginWork (h : (c.pluginWork t).Goes log r) : Course c cwd t .plugin log r := by
  unfold pluginWork at h
  split at h
  · rename_i p hp
    obtain ⟨e, rest, rfl, rfl, rfl⟩ := h
    exact .builtin e hp
  · rename_i hnone
    split at h
    · rename_i hcandidate
      obtain ⟨rfl, rfl⟩ := h
      exact .unnamed hnone hcandidate
    · rename_i path hcandidate
      obtain ⟨found, rest, rfl, h⟩ := h
      cases found with
      | false =>
        obtain ⟨rfl, rfl⟩ := h
        exact .missing hnone hcandidate
      | true =>
        obtain ⟨f, rfl, rfl⟩ := Work.goes_process h
        exact .located f hnone hcandidate

theorem course_of_scriptWork (h : (c.scriptWork t).Goes log r) : Course c cwd t .script log r := by
  obtain ⟨found, rest, rfl, h⟩ := h
  dsimp only at h
  split at h
  · rename_i hfound
    obtain ⟨f, rfl, rfl⟩ := Work.goes_process h
    rw [(Bool.and_eq_true_iff.1 hfound).1]
    exact .script f
  · obtain ⟨rfl, rfl⟩ := h
    exact .scriptless found

theorem course_of_imageWorkFrom {image : String} (h : (c.imageWorkFrom cwd image t).Goes log r) :
    ImageCourse c cwd t image log r := by
  unfold imageWorkFrom at h
  split at h
  · rename_i e he
    obtain ⟨rfl, rfl⟩ := h
    exact .unplaced he
  · obtain ⟨f, rfl, rfl⟩ := Work.goes_process h
    -- only the current directory is another in the context that was found
    have hseen : (c.seenFrom cwd).engineInvocation image (Container.runArgs (c.seenFrom cwd).cwd image t
        (c.seenFrom cwd).store (c.seenFrom cwd).containerOptions) = c.runInvocation t cwd image := by
      cases cwd <;> rfl
    rw [hseen]
    exact .ran f

theorem course_of_buildWork (h : (c.buildWork t.recipe fun tag => c.imageWorkFrom cwd tag t).Goes log r) :
    Course c cwd t .dockerfile log r := by
  unfold buildWork at h
  split at h
  · rename_i hname
    obtain ⟨rfl, rfl⟩ := h
    exact .misnamed (by simpa using hname)
  · rename_i hname
    have hname : Container.isRecipeName t.recipe = true := by simpa using hname
    obtain ⟨found, rest, rfl, h⟩ := h
    cases found with
    | false =>
      obtain ⟨rfl, rfl⟩ := h
      exact .recipeless hname
    | true =>
      obtain ⟨f, rest, rfl, h⟩ := h
      cases hf : f.capture with
      | ok out =>
        rw [hf] at h
        exact .built f hname (Fate.capture_eq_ok.1 hf) (course_of_imageWorkFrom h)
      | error p =>
        rw [hf] at h
        obtain ⟨rfl, rfl⟩ := h
        exact .unbuilt f hname hf

theorem course_of_dispatchFrom (h : (c.dispatchFrom cwd t).Goes log r) (hk : t.kind = .ok k) :
    Course c cwd t k log r := by
  unfold dispatchFrom at h
  rw [hk] at h
  cases k with
  | plugin =>
    rw [dispatch, hk] at h
    exact course_of_pluginWork h
  | script =>
    rw [dispatch, hk] at h
    exact course_of_scriptWork h
  | docker =>
    dsimp only at h
    split at h
    · rename_i himage
      rw [dockerWork, if_pos himage] at h
      obtain ⟨rfl, rfl⟩ := h
      exact .imageless himage
    · exact .image (course_of_imageWorkFrom h)
  | dockerfile => exact course_of_buildWork h

/-! ## What is asked on a course -/

theorem called_iff (h : Course c cwd t .plugin log r) (p : Plugin) :
    (∃ e, .called p e ∈ log) ↔ c.plugins.find? t.command = some p := by
  cases h with
  | builtin e hp => simp [hp, eq_comm]
  | unnamed hnone _ | missing hnone _ | located f hnone _ => simp [hnone]

theorem ran_iff_located (h : Course c cwd t .plugin log r) (i : Invocation) :
    (∃ f, .ran i f ∈ log) ↔ c.plugins.find? t.command = none ∧ ∃ path, candidate? c.pluginDir t.command = some path ∧
      .looked (.executable path) true ∈ log ∧ i = c.pluginInvocation t path := by
  cases h with
  | builtin e hp => simp [hp]
  | unnamed hnone hcandidate => simp [hcandidate]
  | missing hnone hcandidate => simp
  | located f hnone hcandidate => simp [hnone, hcandidate]

theorem run_ne_build (image : String) (cwd : Except OsError String) (t' : Task) :
    c.runInvocation t' cwd image ≠ c.buildInvocation t := by
  intro h
  have hargs := List.append_cancel_left (congrArg Invocation.args h)
  exact absurd (List.cons.inj hargs).1 (by decide)

section
variable (h : Course c cwd t k log r) (hplugin : k = .plugin → c.plugins.find? t.command = none)
include h hplugin

theorem processes_prefix : (Exchange.processes log).map (·.1) <+: c.needed t cwd k := by
  cases h with
  | builtin e hp =>
    rw [hplugin rfl] at hp
    cases hp
  | unnamed | missing | scriptless | imageless | misnamed | recipeless => exact List.nil_prefix
  | located f hnone hcandidate =>
    obtain ⟨-, rfl⟩ := PluginDirectory.candidate?_eq_some.1 hcandidate
    exact List.prefix_refl _
  | script f => exact List.prefix_refl _
  | image himage =>
    cases himage with
    | unplaced => exact List.nil_prefix
    | ran f => exact List.prefix_refl _
  | unbuilt f => exact ⟨[_], rfl⟩
  | built f _ _ himage =>
    cases himage with
    | unplaced => exact ⟨[_], rfl⟩
    | ran f' => exact List.prefix_refl _

theorem ok_iff (out : String) : r = .ok out ↔ (Exchange.processes log).map (·.1) = c.needed t cwd k ∧
    (∀ x ∈ Exchange.processes log, x.2.output?.isSome = true) ∧
    (Exchange.processes log).getLast?.bind (·.2.output?) = some out := by
  cases h with
  | builtin e hp =>
    rw [hplugin rfl] at hp
    cases hp
  | unnamed | missing | scriptless | imageless | misnamed | recipeless => simp [Exchange.processes, needed]
  | located f hnone hcandidate =>
    obtain ⟨-, rfl⟩ := PluginDirectory.candidate?_eq_some.1 hcandidate
    rw [Fate.mapError_eq_ok]
    exact ⟨fun hf => by simp [Exchange.processes, needed, hf], fun h => h.2.2⟩
  | script f =>
    rw [Fate.mapError_eq_ok]
    exact ⟨fun hf => by simp [Exchange.processes, needed, hf], fun h => h.2.2⟩
  | image himage =>
    cases himage with
    | unplaced => simp [Exchange.processes, needed]
    | ran f =>
      rw [Fate.mapError_eq_ok]
      exact ⟨fun hf => by simp [Exchange.processes, needed, hf], fun h => h.2.2⟩
  | unbuilt f => simp [Exchange.processes, needed]
  | built f _ hbuilt himage =>
    cases himage with
    | unplaced => simp [Exchange.processes, needed]
    | ran f' =>
      rw [Fate.mapError_eq_ok]
      exact ⟨fun hf => by simp [Exchange.processes, needed, hf, hbuilt], fun h => h.2.2⟩

end

/-! ## What errors name -/

theorem image_error {image : String} (h : ImageCourse c cwd t image log r) (hr : r = .error e) :
    ∃ cause stderr, e = .containerFailed image cause stderr := by
  cases h with
  | unplaced =>
    cases hr
    exact ⟨_, _, rfl⟩
  | ran f =>
    obtain ⟨p, rfl⟩ := error_of_mapError hr
    exact ⟨_, _, rfl⟩

theorem error_of_course (h : Course c cwd t k log r) (hr : r = .error e) : TaskError.Of t k e := by
  cases h with
  | builtin d hp =>
    cases d with
    | ok => cases hr
    | failed chain =>
      cases hr
      exact .plugin _ _
    | panicked text =>
      cases hr
      exact .panicked _
  | unnamed | missing =>
    cases hr
    exact .notFound
  | located f =>
    obtain ⟨p, rfl⟩ := error_of_mapError hr
    exact .plugin _ _
  | scriptless =>
    cases hr
    exact .script _ _
  | script f =>
    obtain ⟨p, rfl⟩ := error_of_mapError hr
    exact .script _ _
  | imageless himage =>
    cases hr
    rw [← himage]
    exact .image _ _
  | image himage =>
    obtain ⟨_, _, rfl⟩ := image_error himage hr
    exact .image _ _
  | misnamed | recipeless | unbuilt =>
    cases hr
    exact .build _ _
  | built f _ _ himage =>
    obtain ⟨_, _, rfl⟩ := image_error himage hr
    exact .container _ _

theorem eq_pluginResult (h : Course c cwd t k log r) {p : Plugin} {d : PluginEnd} (hd : .called p d ∈ log) :
    r = pluginResult t.command d := by
  cases h with
  | builtin d' hp =>
    cases List.mem_singleton.1 hd
    rfl
  | image himage =>
    cases himage with
    | unplaced | ran f => simp at hd
  | built f _ _ himage =>
    cases himage with
    | unplaced | ran f => simp at hd
  | unnamed | missing | located | scriptless | script | imageless | misnamed | recipeless | unbuilt => simp at hd

theorem panicked_iff (h : Course c cwd t k log r) (reason : String) :
    r = .error (.panicked reason) ↔ ∃ p text, .called p (.panicked text) ∈ log ∧ reason = panicText text := by
  constructor
  · intro hr
    cases error_of_course h hr
    cases h with
    | builtin d hp =>
      cases d with
      | panicked text =>
        cases hr
        exact ⟨_, _, List.mem_singleton_self _, rfl⟩
      | ok | failed => cases hr
    | unnamed | missing => cases hr
    | located f =>
      obtain ⟨p, heq⟩ := error_of_mapError hr
      cases heq
  · rintro ⟨p, text, hcalled, rfl⟩
    exact eq_pluginResult h hcalled

/-! ## Builds -/

def FailsBuild (t : Task) (r : Except TaskError String) : Prop :=
  ∃ cause stderr, r = .error (.buildFailed t.recipe cause stderr)

theorem not_failsBuild {image : String} (h : ImageCourse c cwd t image log r) : ¬ FailsBuild t r := by
  rintro ⟨cause, stderr, hr⟩
  obtain ⟨_, _, heq⟩ := image_error h hr
  cases heq

theorem eq_run_of_mem {image : String} {x : Exchange} (h : ImageCourse c cwd t image log r) (hx : x ∈ log) :
    ∃ f, x = .ran (c.runInvocation t cwd image) f := by
  cases h with
  | unplaced => cases hx
  | ran f => exact ⟨f, List.mem_singleton.1 hx⟩

theorem failsBuild_iff (h : Course c cwd t .dockerfile log r) : FailsBuild t r ↔
    Container.isRecipeName t.recipe = false ∨ .looked (.regular (c.recipeFile t)) false ∈ log ∨
      ∃ f, .ran (c.buildInvocation t) f ∈ log ∧ f.output? = none := by
  cases h with
  | misnamed hname => exact iff_of_true ⟨_, _, rfl⟩ (.inl hname)
  | recipeless => exact iff_of_true ⟨_, _, rfl⟩ (.inr (.inl (List.mem_singleton_self _)))
  | unbuilt f _ hf =>
    refine iff_of_true ⟨_, _, rfl⟩ (.inr (.inr ⟨f, by simp, ?_⟩))
    cases hout : f.output? with
    | none => rfl
    | some out =>
      rw [Fate.capture_eq_ok.2 hout] at hf
      cases hf
  | @built out log r f hname hbuilt himage =>
    -- behind the build stands at most the run of the image, which is neither a look nor a build
    refine iff_of_false (not_failsBuild himage) ?_
    rintro (hmis | hlooked | ⟨f', hran, hnone⟩)
    · rw [hname] at hmis
      cases hmis
    · simp only [List.mem_cons, Exchange.looked.injEq, Bool.false_eq_true, and_false, reduceCtorEq, false_or] at hlooked
      obtain ⟨_, heq⟩ := eq_run_of_mem himage hlooked
      cases heq
    · simp only [List.mem_cons, reduceCtorEq, Exchange.ran.injEq, true_and, false_or] at hran
      rcases hran with rfl | hran
      · rw [hbuilt] at hnone
        cases hnone
      · obtain ⟨_, heq⟩ := eq_run_of_mem himage hran
        exact run_ne_build _ _ _ (Exchange.ran.inj heq).1.symm

theorem not_ran_of_failsBuild (h : Course c cwd t .dockerfile log r) (hr : FailsBuild t r) (t' : Task)
    (cwd' : Except OsError String) (image : String) (f : Fate) : .ran (c.runInvocation t' cwd' image) f ∉ log := by
  intro hran
  cases h with
  | misnamed => cases hran
  | recipeless => cases List.mem_singleton.1 hran
  | unbuilt f' =>
    simp only [List.mem_cons, reduceCtorEq, Exchange.ran.injEq, List.not_mem_nil, or_false, false_or] at hran
    exact run_ne_build _ _ _ hran.1
  | built f' _ _ himage => exact not_failsBuild himage hr

theorem container_error (h : Course c cwd t .dockerfile log r) {f : Fate}
    (hran : .ran (c.buildInvocation t) f ∈ log) (hbuilt : f.output?.isSome = true) (hr : r = .error e) :
    ∃ cause stderr, e = .containerFailed (Container.imageTag t.recipe) cause stderr := by
  cases h with
  | misnamed => cases hran
  | recipeless => cases List.mem_singleton.1 hran
  | unbuilt f' _ hf' =>
    simp only [List.mem_cons, reduceCtorEq, Exchange.ran.injEq, true_and, List.not_mem_nil, or_false, false_or] at hran
    subst hran
    obtain ⟨out, hout⟩ := Option.isSome_iff_exists.1 hbuilt
    rw [Fate.capture_eq_ok.2 hout] at hf'
    cases hf'
  | built f' _ _ himage => exact image_error himage hr

/-! ## All tasks -/

/-- The result `r` of the task blames the step of `log` that failed, and is one if none did. -/
structure Attributed (c : Context) (cwd : Except OsError String) (t : Task) (log : List Exchange)
    (r : Except TaskError String) : Prop where
  unknown : TaskKind.ofName? t.type = none → r = .error (.unknownType t.type) ∧ log = []
  named : ∀ k e, t.kind = .ok k → r = .error e → TaskError.Of t k e
  direct : ∀ e, r = .error e → e.isDependencyFailure = false
  called : t.kind = .ok .plugin → ∀ p, (∃ e, .called p e ∈ log) ↔ c.plugins.find? t.command = some p
  /-- A plugin of the directory is run just if none is registered and it is found there. -/
  located : t.kind = .ok .plugin → ∀ i, (∃ f, .ran i f ∈ log) ↔ c.plugins.find? t.command = none ∧
    ∃ path, candidate? c.pluginDir t.command = some path ∧ .looked (.executable path) true ∈ log ∧
      i = c.pluginInvocation t path
  panicked : ∀ reason, r = .error (.panicked reason) ↔
    ∃ p text, .called p (.panicked text) ∈ log ∧ reason = panicText text
  /-- A build fails by the name of the recipe, by its directory or by its process. -/
  failsBuild : t.kind = .ok .dockerfile → (FailsBuild t r ↔ Container.isRecipeName t.recipe = false ∨
    .looked (.regular (c.recipeFile t)) false ∈ log ∨ ∃ f, .ran (c.buildInvocation t) f ∈ log ∧ f.output? = none)
  unrun : t.kind = .ok .dockerfile → FailsBuild t r →
    ∀ t' cwd' image f, .ran (c.runInvocation t' cwd' image) f ∉ log
  container : t.kind = .ok .dockerfile → ∀ f e, .ran (c.buildInvocation t) f ∈ log → f.output?.isSome = true →
    r = .error e → ∃ cause stderr, e = .containerFailed (Container.imageTag t.recipe) cause stderr
  /-- No process is run but those that are needed, one after the other. -/
  processes : ∀ k, t.kind = .ok k → (k = .plugin → c.plugins.find? t.command = none) →
    (Exchange.processes log).map (·.1) <+: c.needed t cwd k
  /-- There is a result just if all of them are run and exit with status zero. -/
  succeeds : ∀ k, t.kind = .ok k → (k = .plugin → c.plugins.find? t.command = none) →
    ((∃ out, r = .ok out) ↔ (Exchange.processes log).map (·.1) = c.needed t cwd k ∧
      ∀ x ∈ Exchange.processes log, x.2.output?.isSome = true)
  output : ∀ k out, t.kind = .ok k → (k = .plugin → c.plugins.find? t.command = none) → r = .ok out →
    (Exchange.processes log).getLast?.bind (·.2.output?) = some out

theorem exists_ok_iff (h : Course c cwd t k log r) (hplugin : k = .plugin → c.plugins.find? t.command = none) :
    (∃ out, r = .ok out) ↔ (Exchange.processes log).map (·.1) = c.needed t cwd k ∧
      ∀ x ∈ Exchange.processes log, x.2.output?.isSome = true := by
  constructor
  · rintro ⟨out, hr⟩
    obtain ⟨hneeded, hsucceed, -⟩ := (ok_iff h hplugin out).1 hr
    exact ⟨hneeded, hsucceed⟩
  · rintro ⟨hneeded, hsucceed⟩
    have hne : Exchange.processes log ≠ [] := by
      intro hnil
      rw [hnil] at hneeded
      cases k <;> cases hneeded
    obtain ⟨out, hout⟩ := Option.isSome_iff_exists.1 (hsucceed _ (List.getLast_mem hne))
    refine ⟨out, (ok_iff h hplugin out).2 ⟨hneeded, hsucceed, ?_⟩⟩
    rw [List.getLast?_eq_some_getLast hne]
    exact hout

theorem unknown_of_goes (h : (c.dispatchFrom cwd t).Goes log r) (hnone : TaskKind.ofName? t.type = none) :
    r = .error (.unknownType t.type) ∧ log = [] := by
  have hkind : t.kind = .error (.unknownType t.type) := by rw [Task.kind, hnone]
  rw [dispatchFrom, hkind, dispatch, hkind] at h
  obtain ⟨rfl, rfl⟩ := h
  exact ⟨rfl, rfl⟩

theorem kind_cases (t : Task) : TaskKind.ofName? t.type = none ∨ ∃ k, t.kind = .ok k := by
  rw [Task.kind]
  cases TaskKind.ofName? t.type with
  | none => exact .inl rfl
  | some k => exact .inr ⟨k, rfl⟩

theorem attributed_of_goes (h : (c.dispatchFrom cwd t).Goes log r) : Attributed c cwd t log r where
  unknown := unknown_of_goes h
  named k e hk hr := error_of_course (course_of_dispatchFrom h hk) hr
  direct e hr := by
    rcases kind_cases t with hnone | ⟨k, hk⟩
    · rw [(unknown_of_goes h hnone).1] at hr
      cases hr
      rfl
    · exact (error_of_course (course_of_dispatchFrom h hk) hr).isDependencyFailure
  called hk := called_iff (course_of_dispatchFrom h hk)
  located hk := ran_iff_located (course_of_dispatchFrom h hk)
  panicked reason := by
    rcases kind_cases t with hnone | ⟨k, hk⟩
    · obtain ⟨rfl, rfl⟩ := unknown_of_goes h hnone
      simp
    · exact panicked_iff (course_of_dispatchFrom h hk) reason
  failsBuild hk := failsBuild_iff (course_of_dispatchFrom h hk)
  unrun hk := not_ran_of_failsBuild (course_of_dispatchFrom h hk)
  container hk f e hran hbuilt hr := container_error (course_of_dispatchFrom h hk) hran hbuilt hr
  processes k hk hplugin := processes_prefix (course_of_dispatchFrom h hk) hplugin
  succeeds k hk hplugin := exists_ok_iff (course_of_dispatchFrom h hk) hplugin
  output k out hk hplugin hr := ((ok_iff (course_of_dispatchFrom h hk) hplugin out).1 hr).2.2

theorem dispatchFrom_cwd (c : Context) (t : Task) : c.dispatchFrom (.ok c.cwd) t = c.dispatch t := by
  unfold dispatchFrom dispatch
  cases t.kind with
  | error e => rfl
  | ok k =>
    cases k with
    | plugin | script | dockerfile => rfl
    | docker =>
      dsimp only [workOf]
      split
      · rfl
      · rename_i himage
        rw [dockerWork, if_neg himage]
        rfl

def crampedContext : Context := { store := "case.store", pluginDir := "plugins", scriptsDir := "scripts" }

def crampedTask : Task := .dockerfile "timesketch"

def crampedLog : List Exchange :=
  [.looked (.regular (crampedContext.recipeFile crampedTask)) true,
    .ran (crampedContext.buildInvocation crampedTask) (.ended [] (Text.encode "no space\n") (.code 1))]

end Context

end Casework
