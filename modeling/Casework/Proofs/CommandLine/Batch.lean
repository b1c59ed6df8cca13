import Casework.CommandLine.Program
import Casework.Proofs.CommandLine.Report
import Casework.Proofs.Host.Places
import Casework.Proofs.Run.Confluence
import Casework.Proofs.Run.Ending

/-!
# Runs against several stores

What a request prints and reports follows from the results that the tasks bring at each store. The order in which
they finish leaves no trace in it, and a store that goes wrong stops no other.
-/

namespace Casework

/-! ## What comes of one store -/

/-- The result of a run over `g` that has ended, and in which the workers brought the results of `f`. -/
def RunResult.Of (g : Graph) (cap : Option Nat) (f : String → Except TaskError String) (r : RunResult) : Prop :=
  ∃ ms s, (RunState.start g).follow? (RunState.permitsOf cap) ms = some s ∧
    (∀ x ∈ ms, RunState.Obeys f g x.2) ∧ s.turn = .ended ∧ r.outcomes = s.outcomes

structure RunResult.Settled (tasks : NameMap Task) (f : String → Except TaskError String) (r : RunResult) : Prop where
  keys : r.outcomes.keys = tasks.keys
  settles : ∀ a o, r.outcomes.find? a = some o → Settles tasks f a o

namespace CommandLine

open Classical in
noncomputable def expectedText (tasks : NameMap Task) (f : String → Except TaskError String) (names : List String)
    (format : OutputFormat) : String :=
  String.join (names.map fun a =>
    if Succeeds tasks f a then
      match f a with
      | .ok out => if Text.allBlank out then "" else render out format
      | .error _ => ""
    else "")

open Classical in
noncomputable def expectedStatus (tasks : NameMap Task) (f : String → Except TaskError String) (a : String) : String :=
  if Cleared tasks f a then
    match f a with
    | .ok _ => "done"
    | .error _ => "failed"
  else "skipped"

noncomputable def expectedRows (tasks : NameMap Task) (f : String → Except TaskError String) : List (String × String) :=
  tasks.keys.map fun a => (a, expectedStatus tasks f a)

section
variable {tasks : NameMap Task} {g : Graph} {cap : Option Nat} {f : String → Except TaskError String} {r : RunResult}

theorem settled_of (hb : Graph.build tasks = .ok g) (hf : ∀ a e, f a = .error e → e.isDependencyFailure = false)
    (h : r.Of g cap f) : r.Settled tasks f := by
  obtain ⟨ms, s, hs, ho, he, hr⟩ := h
  have hg := Graph.sound_build hb
  have hd := Graph.describes_build hb
  obtain ⟨hsound, hfaith⟩ := RunState.faithful_follow hg ho hs
  have hkeys : r.outcomes.keys = tasks.keys := by
    rw [hr]
    exact RunState.keys_of_idle hg hd hsound (by rw [he]; simp) (hsound.idle he)
  refine ⟨hkeys, fun a o hao => ?_⟩
  have ha : a ∈ tasks.keys := by
    rw [← hkeys, NameMap.mem_keys]
    exact ⟨o, hao⟩
  obtain ⟨n, hn, rfl⟩ := (Graph.mem_keys_iff hd).mp ha
  obtain ⟨o', ho', hsettles, -⟩ := RunState.settles_of_ended hg hd hf hsound hfaith he n hn
  rw [hr, ho'] at hao
  cases hao
  exact hsettles

theorem outputText_eq (h : r.Settled tasks f) (hnames : ∀ a ∈ g.orderedNames, a ∈ tasks.keys) (format : OutputFormat) :
    outputText g r format = expectedText tasks f g.orderedNames format := by
  unfold outputText expectedText
  congr 1
  apply List.map_congr_left
  intro a ha
  have hkey := hnames a ha
  rw [← h.keys, NameMap.mem_keys] at hkey
  obtain ⟨o, ho⟩ := hkey
  have hsettles := h.settles a o ho
  rw [ho, Option.bind_some]
  by_cases hs : Succeeds tasks f a
  · obtain ⟨out, hout⟩ := hs.2
    have hres : o.result = .ok out := (hsettles.ok_iff out).2 ⟨hs.1, hout⟩
    rw [if_pos hs, Outcome.output?, hres, hout]
  · rw [if_neg hs, Outcome.output?]
    cases hres : o.result with
    | ok out => exact absurd (hsettles.done_iff.1 (status_eq_done.2 ⟨out, hres⟩)) hs
    | error e => rfl

theorem isSuccess_iff_all (h : r.Settled tasks f) : r.isSuccess = true ↔ ∀ a ∈ tasks.keys, Succeeds tasks f a := by
  unfold RunResult.isSuccess
  rw [List.all_eq_true, ← h.keys]
  constructor
  · intro hall a ha
    obtain ⟨o, ho⟩ := NameMap.mem_keys.1 ha
    have hsucc := hall (a, o) (NameMap.find?_eq_some.1 ho)
    exact (h.settles a o ho).done_iff.1 (status_eq_done.2 (isSuccess_iff.1 hsucc))
  · rintro hall ⟨a, o⟩ ho
    have hfind := NameMap.find?_eq_some.2 ho
    have hdone := (h.settles a o hfind).done_iff.2 (hall a (NameMap.mem_keys.2 ⟨o, hfind⟩))
    exact isSuccess_iff.2 (status_eq_done.1 hdone)

theorem name_status {a : String} {o : Outcome} (h : Settles tasks f a o) : o.status.name = expectedStatus tasks f a := by
  unfold expectedStatus
  by_cases hc : Cleared tasks f a
  · rw [if_pos hc]
    cases hfa : f a with
    | ok out =>
      rw [h.done_iff.2 ⟨hc, out, hfa⟩]
      rfl
    | error e =>
      rw [h.failed_iff.2 ⟨hc, e, hfa⟩]
      rfl
  · rw [if_neg hc, h.skipped_iff.2 hc]
    rfl

theorem outputBytes_le {n : Nat} (hf : ∀ a out, f a = .ok out → out.utf8ByteSize ≤ n) (h : r.Settled tasks f) :
    ∀ e ∈ r.report, e.outputBytes ≤ n := by
  intro e he
  obtain ⟨⟨a, o⟩, hmem, rfl⟩ := List.mem_map.1 he
  have hsettles := h.settles a o (NameMap.find?_eq_some.2 hmem)
  change (o.output?.map String.utf8ByteSize).getD 0 ≤ n
  rw [Outcome.output?]
  cases hres : o.result with
  | ok out => exact hf a out ((hsettles.ok_iff out).1 hres).2
  | error x => exact Nat.zero_le n

end

/-- The entry of a store lists every task once, in the order of their names, each with its status. -/
structure Reported (tasks : NameMap Task) (f : String → Except TaskError String) (r : StoreRun) : Prop where
  names : r.result.report.map (·.task) = tasks.keys
  done : ∀ e ∈ r.result.report, e.status = .done ↔ Succeeds tasks f e.task
  failed : ∀ e ∈ r.result.report, e.status = .failed ↔ Cleared tasks f e.task ∧ ∃ x, f e.task = .error x
  skipped : ∀ e ∈ r.result.report, e.status = .skipped ↔ ¬ Cleared tasks f e.task

theorem reported_of_settled {tasks : NameMap Task} {f : String → Except TaskError String} {r : StoreRun}
    (h : r.result.Settled tasks f) : Reported tasks f r := by
  have hentry : ∀ e ∈ r.result.report, ∃ o, Settles tasks f e.task o ∧ e.status = o.status := by
    intro e he
    unfold RunResult.report at he
    obtain ⟨⟨a, o⟩, hmem, rfl⟩ := List.mem_map.1 he
    exact ⟨o, h.settles a o (NameMap.find?_eq_some.2 hmem), rfl⟩
  refine ⟨?_, fun e he => ?_, fun e he => ?_, fun e he => ?_⟩
  · rw [← h.keys]
    unfold RunResult.report NameMap.keys
    rw [List.map_map]
    rfl
  · obtain ⟨o, ho, hstatus⟩ := hentry e he
    rw [hstatus, ho.done_iff]
  · obtain ⟨o, ho, hstatus⟩ := hentry e he
    rw [hstatus, ho.failed_iff]
  · obtain ⟨o, ho, hstatus⟩ := hentry e he
    rw [hstatus, ho.skipped_iff]

theorem rows_eq {tasks : NameMap Task} {f : String → Except TaskError String} {r : StoreRun}
    (h : r.result.Settled tasks f) : rows r = expectedRows tasks f := by
  rw [rows, expectedRows, ← h.keys, RunResult.report, NameMap.keys, List.map_map, List.map_map]
  refine List.map_congr_left fun e he => ?_
  exact congrArg (Prod.mk e.1) (name_status (h.settles e.1 e.2 (NameMap.find?_eq_some.2 he)))

/-! ## One store after the other -/

/-- Run by `k`, the tasks bring the results of `f i` at the `i`-th store. -/
def Conduct.Brings (k : Conduct) (p : RunPlan) (b : Batch) (stores : List String)
    (f : Nat → String → Except TaskError String) : Prop :=
  ∀ i s b', stores[i]? = some s → runStores k p b (stores.take i) = .ok b' →
    ∃ w h r, k b' (p.runner b'.host s) = .ok (w, h, r) ∧ r.Of p.graph p.cap (f i)

section
variable {k : Conduct} {p : RunPlan} {b : Batch} {f : Nat → String → Except TaskError String}

theorem Conduct.Brings.tail {s : String} {ss : List String} {b' : Batch} (h : k.Brings p b (s :: ss) f)
    (hb : runStore k p b s = .ok b') : k.Brings p b' ss fun i => f (i + 1) := by
  intro i s' b'' hs hrun
  apply h (i + 1) s' b''
  · rw [List.getElem?_cons_succ, hs]
  · rw [List.take_succ_cons, runStores, hb]
    exact hrun

theorem runStores_spec (stores : List String) (h : k.Brings p b stores f) :
    ∃ (runs : List StoreRun) (b' : Batch), runStores k p b stores = .ok b' ∧ b'.runs = b.runs ++ runs ∧
      b'.out = b.out ++ String.join (runs.map fun r => outputText p.graph r.result p.format) ∧
      runs.map (·.store) = stores ∧ ∀ (i : Nat) (r : StoreRun), runs[i]? = some r → r.result.Of p.graph p.cap (f i) := by
  -- every store is run from the batch that the stores before it have left
  induction stores generalizing b f with
  | nil => exact ⟨[], b, rfl, by simp, by simp, rfl, fun i r hr => by simp at hr⟩
  | cons s ss ih =>
    obtain ⟨w, host, r, hk, hr⟩ := h 0 s b rfl rfl
    have hrun : runStore k p b s = .ok ⟨w, host, b.out ++ outputText p.graph r p.format, b.runs ++ [⟨s, r⟩]⟩ := by
      unfold runStore
      rw [hk]
    obtain ⟨runs, b', hb', hruns, hout, hstores, hof⟩ := ih (h.tail hrun)
    refine ⟨⟨s, r⟩ :: runs, b', ?_, ?_, ?_, ?_, ?_⟩
    · rw [runStores, hrun]
      exact hb'
    · rw [hruns, List.append_assoc]
      rfl
    · rw [hout, List.map_cons, String.join_cons, String.append_assoc]
    · rw [List.map_cons, hstores]
    · intro i r' hi
      cases i with
      | zero =>
        cases hi
        exact hr
      | succ i => exact hof i r' hi

end

/-! ## All stores -/

/-- What a report says if the tasks bring the results of `f i` at the `i`-th store. -/
noncomputable def expectedReport (tasks : NameMap Task) (f : Nat → String → Except TaskError String)
    (stores : List String) : List (String × List (String × String)) :=
  stores.zipIdx.map fun s => (s.1, expectedRows tasks (f s.2))

section
variable {tasks : NameMap Task} {g : Graph} {f : Nat → String → Except TaskError String} {runs : List StoreRun}
  (h : ∀ (i : Nat) (r : StoreRun), runs[i]? = some r → r.result.Settled tasks (f i))
include h

theorem join_outputText (hnames : ∀ a ∈ g.orderedNames, a ∈ tasks.keys) (format : OutputFormat) :
    String.join (runs.map fun r => outputText g r.result format) =
      String.join ((List.range runs.length).map fun i => expectedText tasks (f i) g.orderedNames format) := by
  congr 1
  apply List.ext_getElem
  · simp
  · intro i hi _
    rw [List.length_map] at hi
    rw [List.getElem_map, List.getElem_map, List.getElem_range]
    exact outputText_eq (h i runs[i] (List.getElem?_eq_getElem hi)) hnames format

theorem all_isSuccess_iff : (∀ r ∈ runs, r.result.isSuccess = true) ↔
    ∀ i < runs.length, ∀ a ∈ tasks.keys, Succeeds tasks (f i) a := by
  have hrun : ∀ (i : Nat) (hi : i < runs.length), runs[i].result.isSuccess = true ↔
      ∀ a ∈ tasks.keys, Succeeds tasks (f i) a :=
    fun i hi => isSuccess_iff_all (h i runs[i] (List.getElem?_eq_getElem hi))
  constructor
  · intro hall i hi
    exact (hrun i hi).1 (hall _ (List.getElem_mem hi))
  · intro hall r hr
    obtain ⟨i, hi, rfl⟩ := List.getElem_of_mem hr
    exact (hrun i hi).2 (hall i hi)

theorem entries_eq : (runs.map fun r => (r.store, rows r)) = expectedReport tasks f (runs.map (·.store)) := by
  apply List.ext_getElem
  · simp [expectedReport]
  · intro i hi _
    rw [List.length_map] at hi
    have hrows := rows_eq (h i runs[i] (List.getElem?_eq_getElem hi))
    simp [expectedReport, hrows]

end

/-! ## Runs in time -/

structure Batch.Keeps (tasks : NameMap Task) (b : Batch) : Prop where
  current : b.workflow.Current
  tasks : b.workflow.tasks = tasks

section
variable {tasks : NameMap Task} {p : RunPlan} {b : Batch}

theorem timed_spec (hb : Graph.build tasks = .ok p.graph) (hp : ∀ h s, (p.runner h s).holdsPermits = true)
    (hkeeps : b.Keeps tasks) (store : String) : ∃ w h r f, Conduct.timed b (p.runner b.host store) = .ok (w, h, r) ∧
      r.Of p.graph p.cap f ∧ (∀ a, (p.runner b.host store).context.Answers tasks a (f a)) ∧ w.Current ∧
      w.tasks = tasks := by
  obtain ⟨hcurrent, rfl⟩ := hkeeps
  obtain ⟨x, f, ms, hrun, hcourse, hobeys, hended, hanswers⟩ :=
    Workflow.ended_of_holdsPermits hcurrent hb (hp b.host store) b.host
  refine ⟨b.workflow.setupGraph.1, x.host, x.result, f, ?_, ⟨ms, x.run, hcourse, hobeys, hended, rfl⟩, hanswers,
    Workflow.current_setupGraph hcurrent, b.workflow.tasks_setupGraph⟩
  unfold Conduct.timed
  rw [hrun]

theorem keeps_runStores (hb : Graph.build tasks = .ok p.graph) (hp : ∀ h s, (p.runner h s).holdsPermits = true)
    {stores : List String} {b' : Batch} (hkeeps : b.Keeps tasks) (hrun : runStores .timed p b stores = .ok b') :
    b'.Keeps tasks := by
  induction stores generalizing b with
  | nil =>
    cases hrun
    exact hkeeps
  | cons s ss ih =>
    obtain ⟨w, h, r, f, htimed, -, -, hcurrent, htasks⟩ := timed_spec hb hp hkeeps s
    rw [runStores, runStore, htimed] at hrun
    exact ih ⟨hcurrent, htasks⟩ hrun

theorem exists_brings (hb : Graph.build tasks = .ok p.graph) (hp : ∀ h s, (p.runner h s).holdsPermits = true)
    (hkeeps : b.Keeps tasks) (stores : List String) : ∃ f, Conduct.timed.Brings p b stores f ∧
      ∀ i a e, f i a = .error e → e.isDependencyFailure = false := by
  have hstore : ∀ i, ∃ f : String → Except TaskError String,
      (∀ s b', stores[i]? = some s → runStores .timed p b (stores.take i) = .ok b' →
        ∃ w h r, Conduct.timed b' (p.runner b'.host s) = .ok (w, h, r) ∧ r.Of p.graph p.cap f) ∧
      ∀ a e, f a = .error e → e.isDependencyFailure = false := by
    intro i
    by_cases hreached : ∃ s b', stores[i]? = some s ∧ runStores .timed p b (stores.take i) = .ok b'
    · obtain ⟨s, b', hs, hb'⟩ := hreached
      obtain ⟨w, h, r, f, htimed, hof, hanswers, -⟩ := timed_spec hb hp (keeps_runStores hb hp hkeeps hb') s
      refine ⟨f, fun s' b'' hs' hb'' => ?_, fun a e he => (he ▸ hanswers a).isDependencyFailure⟩
      rw [hs] at hs'
      rw [hb'] at hb''
      cases hs'
      cases hb''
      exact ⟨w, h, r, htimed, hof⟩
    · refine ⟨fun _ => .ok "", fun s b' hs hb' => absurd ⟨s, b', hs, hb'⟩ hreached, fun a e he => ?_⟩
      cases he
  choose f hbrings hdirect using hstore
  exact ⟨f, hbrings, hdirect⟩

end

/-! ## The end of a request -/

theorem failed_eq_false_iff {b : Batch} : b.failed = false ↔ ∀ r ∈ b.runs, r.result.isSuccess = true := by
  unfold Batch.failed
  rw [List.any_eq_false]
  simp

theorem conclude_out (b : Batch) (report : Option String) : (conclude b report).out = b.out := by
  unfold conclude
  split
  · rfl
  · split <;> rfl

theorem conclude_host {b : Batch} {report : Option String} {host : Host} (h : b.writeReport report = .ok host) :
    (conclude b report).host = host := by
  unfold conclude
  rw [h]
  dsimp only
  split <;> rfl

theorem write_of_writeReport {b : Batch} {path : String} {host : Host} (h : b.writeReport (some path) = .ok host) :
    b.host.tree.write path (Text.encode (reportText b.runs)) = .ok host.tree := by
  unfold Batch.writeReport at h
  dsimp only at h
  split at h
  · rename_i tree htree
    cases h
    exact htree
  · cases h

theorem conclude_error {b : Batch} {path : String} {e : OsError}
    (h : b.host.tree.write path (Text.encode (reportText b.runs)) = .error e) :
    (conclude b (some path)).error = some ("writing report " ++ path) := by
  unfold conclude Batch.writeReport
  simp only [h]
  rfl

theorem conclude_code {b : Batch} {report : Option String} : (conclude b report).code = 0 ↔
    (∀ r ∈ b.runs, r.result.isSuccess = true) ∧ ∃ host, b.writeReport report = .ok host := by
  rw [← failed_eq_false_iff]
  unfold conclude
  cases hw : b.writeReport report with
  | error e => simp [Exit.failed]
  | ok host => cases hf : b.failed <;> simp [Exit.failed]

theorem cached_load {t : FileTree} {path : String} {w : Workflow} (h : Workflow.load t path = .ok w) :
    w.cached = none := by
  unfold Workflow.load at h
  split at h
  · cases h
  rename_i text _
  cases hparse : Workflow.parse? text with
  | none =>
    rw [hparse] at h
    cases h
  | some v =>
    rw [hparse] at h
    cases h
    unfold Workflow.parse? at hparse
    obtain ⟨d, -, hd⟩ := Option.bind_eq_some_iff.1 hparse
    -- the document is read field by field, and nothing of it is a graph
    unfold Workflow.ofDocument? Yaml.Document.decode? at hd
    obtain ⟨out, hrun, rfl⟩ := Option.map_eq_some_iff.1 hd
    simp only [StateT.run_bind, Option.bind_eq_bind, Option.bind_eq_some_iff] at hrun
    obtain ⟨_, -, _, -, _, -, hlast⟩ := hrun
    cases hlast
    rfl

section
variable {w : Workflow} (hcurrent : w.Current)
include hcurrent

theorem setupGraph_of_build {g : Graph} (hbuild : Graph.build w.tasks = .ok g) :
    w.setupGraph = (w.setupGraph.1, .ok g) := by
  rw [Workflow.setupGraph_eq hcurrent, hbuild]

theorem plan_setupGraph (o : RunOptions) (clock : Moment) (c : Config) (g : Graph) :
    o.plan clock c w.setupGraph.1 g = o.plan clock c w g := by
  rw [Workflow.setupGraph_eq hcurrent]
  rfl

theorem keeps_setupGraph (h : Host) : ({ workflow := w.setupGraph.1, host := h } : Batch).Keeps w.tasks :=
  ⟨Workflow.current_setupGraph hcurrent, w.tasks_setupGraph⟩

end

theorem runCommand_eq {k : Conduct} {clock : Moment} {h : Host} {c : Config} {o : RunOptions} {w : Workflow} {g : Graph}
    {b : Batch} (hload : Workflow.load h.tree o.workflow = .ok w) (hcurrent : w.Current)
    (hbuild : Graph.build w.tasks = .ok g)
    (hb : runStores k (o.plan clock c w g) { workflow := w.setupGraph.1, host := h } o.stores = .ok b) :
    runCommand k clock h c o = conclude b o.report := by
  unfold runCommand
  rw [hload]
  dsimp only
  rw [setupGraph_of_build hcurrent hbuild]
  dsimp only
  rw [plan_setupGraph hcurrent, hb]

/-- Whatever the workflow, the stores and the format are, and in whatever order the tasks of each run finish: if they
bring the results of `f i` at the `i`-th store, all stores have their runs in the order of the command line. The
output is what the tasks that succeed print, store by store and in the order of the graph. The text of the report is
in the file at its path whether or not all tasks succeed. It has an entry for each store in the order of the command
line, with all tasks in the order of their names and with their statuses, and so it is read back. The program succeeds
just if all tasks at all stores do and the report, if one is asked for, can be written; if it cannot, that is the
error. Runs in time are such runs, if there are permits for the cap. -/
theorem runCommand_over_stores {clock : Moment} {h : Host} {c : Config} {o : RunOptions} {w : Workflow} {g : Graph}
    (hload : Workflow.load h.tree o.workflow = .ok w) (hbuild : Graph.build w.tasks = .ok g) :
    (∀ {k : Conduct} {f : Nat → String → Except TaskError String},
      k.Brings (o.plan clock c w g) { workflow := w.setupGraph.1, host := h } o.stores f →
      (∀ i a e, f i a = .error e → e.isDependencyFailure = false) →
      ∃ b, runStores k (o.plan clock c w g) { workflow := w.setupGraph.1, host := h } o.stores = .ok b ∧
        b.runs.map (·.store) = o.stores ∧
        (∀ i run, b.runs[i]? = some run → Reported w.tasks (f i) run) ∧
        (runCommand k clock h c o).out = String.join ((List.range o.stores.length).map fun i =>
          expectedText w.tasks (f i) g.orderedNames o.format) ∧
        (∀ host, b.writeReport o.report = .ok host → (runCommand k clock h c o).host = host ∧
          ∀ path, o.report = some path → (∀ n, b.host.tree.get? path = some n → ∃ content mode, n = .file content mode) →
            (runCommand k clock h c o).host.tree.read path = .ok (Text.encode (reportText b.runs))) ∧
        (∃ j : Json, reportText b.runs = j.pretty ∧ entriesOf? j = some (expectedReport w.tasks f o.stores)) ∧
        ((∀ i a out, f i a = .ok out → out.utf8ByteSize ≤ Json.word64) →
          (Json.parse? (reportText b.runs)).bind entriesOf? = some (expectedReport w.tasks f o.stores)) ∧
        (∀ path e, o.report = some path → b.host.tree.write path (Text.encode (reportText b.runs)) = .error e →
          (runCommand k clock h c o).error = some ("writing report " ++ path)) ∧
        ((runCommand k clock h c o).code = 0 ↔
          (∀ i < o.stores.length, ∀ a ∈ w.tasks.keys, Succeeds w.tasks (f i) a) ∧
            ∃ host, b.writeReport o.report = .ok host)) ∧
    ((RunState.permitsOf (o.cap w (o.override c))).all (· ≤ Runner.permitLimit) = true →
      ∃ f, Conduct.timed.Brings (o.plan clock c w g) { workflow := w.setupGraph.1, host := h } o.stores f ∧
        ∀ i a e, f i a = .error e → e.isDependencyFailure = false) := by
  have hcurrent : w.Current := Workflow.current_of_none (cached_load hload)
  refine ⟨fun {k f} hk hf => ?_, fun hp => ?_⟩
  · have hperm := Graph.orderedNames_perm (Graph.sound_build hbuild) (Graph.describes_build hbuild)
    have hnames : ∀ a ∈ g.orderedNames, a ∈ w.tasks.keys := fun a ha => hperm.mem_iff.1 ha
    obtain ⟨runs, b, hb, hruns, hout, hstores, hof⟩ := runStores_spec o.stores hk
    rw [List.nil_append] at hruns
    subst hruns
    have hlength : b.runs.length = o.stores.length := by rw [← hstores, List.length_map]
    have hsettled : ∀ (i : Nat) (r : StoreRun), b.runs[i]? = some r → r.result.Settled w.tasks (f i) :=
      fun i r hr => settled_of hbuild (hf i) (hof i r hr)
    have hcommand : runCommand k clock h c o = conclude b o.report := runCommand_eq hload hcurrent hbuild hb
    have hentries := entries_eq hsettled
    rw [hstores] at hentries
    refine ⟨b, hb, hstores, fun i run hi => reported_of_settled (hsettled i run hi), ?_, fun host hw => ?_, ?_,
      fun hbytes => ?_, fun path e hpath hwrite => ?_, ?_⟩
    · rw [hcommand, conclude_out, hout, String.empty_append, ← hlength]
      exact join_outputText hsettled hnames o.format
    · have hhost : (runCommand k clock h c o).host = host := by rw [hcommand, conclude_host hw]
      refine ⟨hhost, fun path hpath hfile => ?_⟩
      rw [hpath] at hw
      rw [hhost]
      exact FileTree.read_of_write (write_of_writeReport hw) hfile
    · exact ⟨_, rfl, hentries ▸ entriesOf?_report b.runs⟩
    · rw [← hentries]
      refine entriesOf?_reportText fun r hr => ?_
      obtain ⟨i, hi, rfl⟩ := List.getElem_of_mem hr
      exact outputBytes_le (hbytes i) (hsettled i _ (List.getElem?_eq_getElem hi))
    · rw [hcommand, hpath]
      exact conclude_error hwrite
    · rw [hcommand, conclude_code, ← hlength, all_isSuccess_iff hsettled]
  · have hpermits : ∀ h s, ((o.plan clock c w g).runner h s).holdsPermits = true := fun _ _ => hp
    exact exists_brings hbuild hpermits (keeps_setupGraph hcurrent h) o.stores

def censusTree : FileTree :=
  { nodes := [(["case.yaml"], .file (Text.encode "tasks:\n  census:\n    type: plugin\n    command: example\n") 0o644),
      (["case.store"], .dir)]
    cwd := "/" }

def censusHost : Host := { tree := censusTree }

def censusGraph : Graph := ⟨⟨#["census"], #[[]], #[[]]⟩, [0]⟩

def censusRun : RunOptions :=
  { workflow := "case.yaml", stores := ["case.yaml", "case.store"], report := some "case.json" }

theorem ok_of_toOption {ε α : Type} {e : Except ε α} {a : α} (h : e.toOption = some a) : e = .ok a := by
  cases e with
  | error _ => cases h
  | ok _ =>
    cases h
    rfl

theorem census_load : ∃ w, Workflow.load censusTree "case.yaml" = .ok w ∧ Graph.build w.tasks = .ok censusGraph ∧
    w.maxParallel = none := by
  have hread : ((Workflow.load censusTree "case.yaml").toOption.bind fun w =>
      (Graph.build w.tasks).toOption.map fun g => (g, w.maxParallel)) = some (censusGraph, none) := by decide +kernel
  obtain ⟨w, hw, hg⟩ := Option.bind_eq_some_iff.1 hread
  obtain ⟨g, hg, heq⟩ := Option.map_eq_some_iff.1 hg
  obtain ⟨rfl, hcap⟩ := Prod.mk.inj heq
  exact ⟨w, ok_of_toOption hw, ok_of_toOption hg, hcap⟩

theorem census_over_stores : ∃ w f b, Workflow.load censusTree "case.yaml" = .ok w ∧
    Graph.build w.tasks = .ok censusGraph ∧
    Conduct.timed.Brings (censusRun.plan ⟨0, 0⟩ {} w censusGraph) { workflow := w.setupGraph.1, host := censusHost }
      censusRun.stores f ∧
    runStores .timed (censusRun.plan ⟨0, 0⟩ {} w censusGraph) { workflow := w.setupGraph.1, host := censusHost }
      censusRun.stores = .ok b ∧
    b.runs.map (·.store) = ["case.yaml", "case.store"] ∧
    (∀ i run, b.runs[i]? = some run → Reported w.tasks (f i) run) ∧
    (runCommand .timed ⟨0, 0⟩ censusHost {} censusRun).host.tree.read "case.json" = .ok (Text.encode (reportText b.runs)) ∧
    (∃ j : Json, reportText b.runs = j.pretty ∧ entriesOf? j = some (expectedReport w.tasks f censusRun.stores)) ∧
    ¬ ∀ i < 2, ∀ a ∈ w.tasks.keys, Succeeds w.tasks (f i) a := by
  obtain ⟨w, hw, hbuild, hcap⟩ := census_load
  have hload : Workflow.load censusHost.tree censusRun.workflow = .ok w := hw
  have hpermits : (RunState.permitsOf (censusRun.cap w (censusRun.override {}))).all (· ≤ Runner.permitLimit) = true := by
    unfold RunOptions.cap
    rw [hcap]
    decide
  obtain ⟨f, hbrings, hdirect⟩ := (runCommand_over_stores hload hbuild).2 hpermits
  obtain ⟨b, hb, hstores, hreported, -, hhost, hwritten, -, -, hcode⟩ := (runCommand_over_stores hload hbuild).1
    (hbrings : Conduct.timed.Brings (censusRun.plan ⟨0, 0⟩ {} w censusGraph) _ _ f) hdirect
  have hchecked : ((Workflow.load censusTree "case.yaml").toOption.bind fun w =>
      (runStores .timed (censusRun.plan ⟨0, 0⟩ {} w censusGraph) { workflow := w.setupGraph.1, host := censusHost }
        censusRun.stores).toOption.map fun b => (b.failed, (b.writeReport censusRun.report).toOption.isSome,
          (b.host.tree.get? "case.json").isNone)) = some (true, true, true) := by decide +kernel
  obtain ⟨w', hw', hchecked⟩ := Option.bind_eq_some_iff.1 hchecked
  obtain ⟨b', hb', hchecked⟩ := Option.map_eq_some_iff.1 hchecked
  obtain rfl : w = w' := Except.ok.inj (hw.symm.trans (ok_of_toOption hw'))
  obtain rfl : b = b' := Except.ok.inj (hb.symm.trans (ok_of_toOption hb'))
  rw [Prod.mk.injEq, Prod.mk.injEq] at hchecked
  obtain ⟨hfailed, hok, hvacant⟩ := hchecked
  obtain ⟨host, hwrite⟩ := Option.isSome_iff_exists.1 hok
  have hwrite : b.writeReport censusRun.report = .ok host := ok_of_toOption hwrite
  have hfile := (hhost host hwrite).2 "case.json" rfl fun n hn => by
    rw [hn] at hvacant
    cases hvacant
  refine ⟨w, f, b, hload, hbuild, hbrings, hb, hstores, hreported, hfile, hwritten, fun hall => ?_⟩
  have hcommand := runCommand_eq hload (Workflow.current_of_none (cached_load hload)) hbuild hb
  have hsuccess := hcode.2 ⟨hall, host, hwrite⟩
  rw [hcommand, conclude_code, ← failed_eq_false_iff, hfailed] at hsuccess
  cases hsuccess.1

def statuses (b : Batch) : List (List (String × TaskStatus)) :=
  b.runs.map fun r => r.result.report.map fun e => (e.task, e.status)

def unwritableReport : RunOptions :=
  { workflow := "case.yaml", stores := ["case.store"], report := some "reports/case.json" }

def unboundedCap : RunOptions :=
  { workflow := "case.yaml", stores := ["case.store"], maxParallel := some (Runner.permitLimit + 1) }

/-- All tasks are done, and the program fails as there is no directory for the report. With a cap that no counter of
permits can hold it does not come to the end of the first store. -/
theorem done_without_success :
    (((Workflow.load censusTree "case.yaml").toOption.bind fun w =>
      (runStores .timed (unwritableReport.plan ⟨0, 0⟩ {} w censusGraph) { workflow := w.setupGraph.1, host := censusHost }
        unwritableReport.stores).toOption).map statuses = some [[("census", TaskStatus.done)]] ∧
      (runCommand .timed ⟨0, 0⟩ censusHost {} unwritableReport).code = 1) ∧
    (runCommand .timed ⟨0, 0⟩ censusHost {} unboundedCap).code = panicCode := by
  refine ⟨⟨?_, ?_⟩, ?_⟩ <;> decide +kernel

end CommandLine

end Casework
