import Casework.Proofs.Run.Timeline

/-!
# The kept graph

A workflow keeps the graph of the tasks that it has now, or none, whatever tasks were added, checked and run
before. So it answers as it would if it kept nothing, and a run finds all that it looks up.
-/

namespace Casework.Workflow

inductive Call where
  | insertTask (name : String) (t : Task)
  | withTask (name : String) (t : Task)
  | setupGraph
  | runWith (r : Runner) (h : Host)

def perform (w : Workflow) : Call → Workflow
  | .insertTask name t | .withTask name t => w.insertTask name t
  | .setupGraph => w.setupGraph.1
  | .runWith r h => (w.runWith r h).1

def performAll (w : Workflow) (calls : List Call) : Workflow := calls.foldl perform w

def Call.tasksAfter (tasks : NameMap Task) : Call → NameMap Task
  | insertTask name t | withTask name t => tasks.insert name t
  | setupGraph | runWith .. => tasks

def forget (w : Workflow) : Workflow := { w with cached := none }

def Current (w : Workflow) : Prop := ∀ g, w.cached = some g → Graph.build w.tasks = .ok g

section
variable {w : Workflow}

theorem current_of_none (h : w.cached = none) : w.Current := by
  intro g hg
  rw [h] at hg
  cases hg

theorem setupGraph_eq (h : w.Current) :
    w.setupGraph = ({ w with cached := (Graph.build w.tasks).toOption }, Graph.build w.tasks) := by
  obtain ⟨tasks, cap, cached⟩ := w
  unfold setupGraph
  cases cached with
  | some g =>
    have hb : Graph.build tasks = .ok g := h g rfl
    simp [hb, Except.toOption]
  | none =>
    cases hb : Graph.build tasks with
    | ok g => simp [Except.toOption]
    | error e => simp [Except.toOption]

theorem runWith_fst (r : Runner) (h : Host) : (w.runWith r h).1 = w.setupGraph.1 := by
  unfold runWith
  split
  · rename_i hs
    rw [hs]
  · rename_i hs
    rw [hs]
    split <;> rfl

theorem current_setupGraph (h : w.Current) : w.setupGraph.1.Current := by
  rw [setupGraph_eq h]
  intro g hg
  cases hb : Graph.build w.tasks with
  | error e => simp [hb, Except.toOption] at hg
  | ok g' =>
    simp only [hb, Except.toOption, Option.some.injEq] at hg
    simp [hg]

/-! ## Sequences of calls -/

theorem current_perform (h : w.Current) (c : Call) : (w.perform c).Current := by
  cases c with
  | insertTask name t => exact current_of_none rfl
  | withTask name t => exact current_of_none rfl
  | setupGraph => exact current_setupGraph h
  | runWith r host =>
    simp only [perform, runWith_fst]
    exact current_setupGraph h

theorem current_performAll : ∀ {calls : List Call} {w : Workflow}, w.Current → (w.performAll calls).Current
  | [], _, h => h
  | c :: _, _, h => (current_performAll (current_perform h c) :)

theorem tasks_perform (w : Workflow) (c : Call) : (w.perform c).tasks = c.tasksAfter w.tasks := by
  cases c with
  | insertTask name t => rfl
  | withTask name t => rfl
  | setupGraph => exact tasks_setupGraph w
  | runWith r host =>
    simp only [perform, runWith_fst]
    exact tasks_setupGraph w

theorem tasks_performAll : ∀ (calls : List Call) (w : Workflow),
    (w.performAll calls).tasks = calls.foldl Call.tasksAfter w.tasks
  | [], _ => rfl
  | c :: calls, w => by
    rw [List.foldl_cons, ← tasks_perform]
    exact tasks_performAll calls (w.perform c)

/-! ## Without the kept graph -/

theorem setupGraph_forget (h : w.Current) : w.setupGraph = w.forget.setupGraph := by
  have hf : w.forget.Current := current_of_none rfl
  rw [setupGraph_eq h, setupGraph_eq hf]
  rfl

theorem runWith_forget (h : w.Current) (r : Runner) (host : Host) :
    w.runWith r host = w.forget.runWith r host := by
  unfold runWith
  rw [setupGraph_forget h]

theorem exists_task {tasks : NameMap Task} {g : Graph} (hb : Graph.build tasks = .ok g) {cap : Option Nat}
    {ms : List (Moment × Move)} {s : RunState}
    (hs : (RunState.start g).follow? (RunState.permitsOf cap) ms = some s) {n : Nat}
    (hn : .launch n ∈ s.scheduler.scheduleNext.2 ∨ n ∈ s.nodes) : ∃ t, tasks.find? (s.taskName n) = some t := by
  have hg := Graph.sound_build hb
  have hsound := RunState.sound_follow hg hs
  have hfits := hsound.scheduler.fits
  have hlt : n < g.size := by
    rcases hn with hn | hn
    · exact ((Scheduler.mem_steps hg hfits).mp hn).1
    · have hr := (hsound.workers n).mp hn
      exact Scheduler.lt_of_ne_pending hfits (by simp [hr])
  rw [RunState.taskName_eq hsound, ← NameMap.mem_keys]
  exact (Graph.mem_keys_iff (Graph.describes_build hb)).mpr ⟨n, hlt, rfl⟩

end

/-- Whatever was asked of a workflow that kept nothing at first, it keeps the graph of its tasks or none, and
its tasks are those it was given. It answers the question for its graph from its tasks, and a refusal changes
nothing and leaves nothing kept. A run goes as it would if nothing were kept, on that graph, and all the names
that it looks up are those of tasks. -/
theorem graph_never_stale {w₀ w : Workflow} (h₀ : w₀.cached = none) {calls : List Call}
    (hw : w₀.performAll calls = w) :
    (w.cached = none ∨ ∃ g, w.cached = some g ∧ Graph.build w.tasks = .ok g) ∧
    w.tasks = calls.foldl Call.tasksAfter w₀.tasks ∧
    w.setupGraph.2 = Graph.build w.tasks ∧
    (∀ e, w.setupGraph.2 = .error e → w.setupGraph.1 = w.forget) ∧
    (∀ g, w.setupGraph.2 = .ok g → w.setupGraph.1 = { w with cached := some g }) ∧
    (∀ r h, w.runWith r h = w.forget.runWith r h) ∧
    (∀ r h x, (w.runWith r h).2 = .ok x → x.tasks = w.tasks ∧ ∃ g ms, Graph.build w.tasks = .ok g ∧
      (RunState.start g).follow? (RunState.permitsOf r.cap) ms = some x.run) ∧
    ∀ g cap ms s, Graph.build w.tasks = .ok g →
      (RunState.start g).follow? (RunState.permitsOf cap) ms = some s →
      ∀ n, .launch n ∈ s.scheduler.scheduleNext.2 ∨ n ∈ s.nodes → ∃ t, w.tasks.find? (s.taskName n) = some t := by
  subst hw
  have hc : (w₀.performAll calls).Current := current_performAll (current_of_none h₀)
  have hset := setupGraph_eq hc
  refine ⟨?_, tasks_performAll calls w₀, by rw [hset], fun e he => ?_, fun g hg => ?_, runWith_forget hc,
    fun r h x hx => ?_, fun g cap ms s hb hs n hn => exists_task hb hs hn⟩
  · cases hk : (w₀.performAll calls).cached with
    | none => exact .inl rfl
    | some g => exact .inr ⟨g, rfl, hc g hk⟩
  · rw [hset] at he
    have hb : Graph.build (w₀.performAll calls).tasks = .error e := he
    simp [hset, hb, Except.toOption, forget]
  · rw [hset] at hg
    have hb : Graph.build (w₀.performAll calls).tasks = .ok g := hg
    simp [hset, hb, Except.toOption]
  · obtain ⟨g, hg, ht, hms⟩ := follow_of_runWith hx
    rw [hset] at hg
    obtain ⟨ms, hms⟩ := hms
    exact ⟨ht, g, ms, hg, hms⟩

def restless : List Call :=
  [.insertTask "import" (Task.plugin "count"), .setupGraph,
    .runWith { context := { store := "case.store", pluginDir := "plugins", scriptsDir := "scripts" } } default,
    .withTask "report" ((Task.plugin "count").requiring ["import", "report"]), .setupGraph,
    .insertTask "report" ((Task.plugin "count").requiring ["import"]), .setupGraph,
    .withTask "report" ((Task.plugin "count").requiring ["import", "hashes"])]

theorem restless_never_stale : ({} : Workflow).cached = none ∧
    (({} : Workflow).performAll restless).setupGraph.2 = .error (.unknownDependency "report" "hashes") ∧
    (({} : Workflow).performAll restless).setupGraph.1.cached = none := by
  obtain ⟨-, ht, hset, hfail, -⟩ := @graph_never_stale {} _ rfl restless rfl
  have hb : Graph.build (restless.foldl Call.tasksAfter {}) = .error (.unknownDependency "report" "hashes") := by
    decide +kernel
  have he : (({} : Workflow).performAll restless).setupGraph.2 = .error (.unknownDependency "report" "hashes") := by
    rw [hset, ht]
    exact hb
  refine ⟨rfl, he, ?_⟩
  rw [hfail _ he]
  rfl

end Casework.Workflow
