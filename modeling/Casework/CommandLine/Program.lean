import Casework.CommandLine.Arguments
import Casework.Json.Basic
import Casework.Run.Result
import Casework.Run.Timeline
import Casework.Workflow

/-!
# The program behind the command line

What a request does on a host: what it prints, which files it leaves, and how it ends.
-/

namespace Casework.CommandLine

/-! ## The report

One entry for each store, in the order of the command line, with all its tasks in the order of their
names.
-/

structure StoreRun where
  store : String
  result : RunResult

def momentJson : Option Moment → Json
  | some t => .str t.text
  | none => .null

def taskJson (t : TaskReport) : Json :=
  .obj [("task", .str t.task), ("status", .str t.status.name), ("started", momentJson t.started),
    ("ended", .str t.ended.text), ("error", (t.error.map Json.str).getD .null),
    ("output_bytes", .int t.outputBytes)]

def StoreRun.toJson (r : StoreRun) : Json :=
  .obj [("store", .str r.store), ("started", momentJson r.result.started),
    ("ended", momentJson r.result.ended), ("tasks", .arr (r.result.report.map taskJson))]

def reportText (runs : List StoreRun) : String := (Json.arr (runs.map StoreRun.toJson)).pretty

/-! ## Ends of the program -/

structure Exit where
  host : Host
  code : Nat := 0
  out : String := ""
  error : Option String := none

def Exit.failed (host : Host) (out error : String) : Exit := { host, code := 1, out, error := some error }

def usageCode : Nat := 2

def panicCode : Nat := 101

/-! ## Output -/

/-- The output of the tasks that are done, in the order of the graph. Blank output is left out. -/
def outputText (g : Graph) (r : RunResult) (f : OutputFormat) : String :=
  String.join (g.orderedNames.map fun n =>
    match (r.outcomes.find? n).bind Outcome.output? with
    | some out => if Text.allBlank out then "" else render out f
    | none => "")

def levelLine (l : Nat × List String) : String := toString l.1 ++ ": " ++ " ".intercalate l.2 ++ "\n"

def graphText (g : Graph) (levels : Bool) : String :=
  if levels then String.join (((List.range g.levels.length).zip g.levels).map levelLine)
  else String.join (g.orderedNames.map (· ++ "\n"))

def pluginsText (t : FileTree) (dir : String) : String :=
  String.join ((Registry.builtin.keys.map (· ++ " (built-in)\n")) ++
    (PluginDirectory.discover t dir).map (· ++ "\n"))

/-! ## Runs against several stores -/

structure Batch where
  workflow : Workflow
  host : Host
  out : String := ""
  runs : List StoreRun := []

def contextOf (c : Config) (h : Host) (store : String) : Context :=
  { store, pluginDir := c.resolvedPluginDir h.env, scriptsDir := c.resolvedScriptsDir h.env
    plugins := Registry.builtin, options := some c.container, cwd := h.tree.cwd, env := h.env }

/-- How the workflow is run against the next store, and what that leaves. -/
abbrev Conduct := Batch → Runner → Except RunError (Workflow × Host × RunResult)

def Conduct.timed : Conduct := fun b r =>
  match b.workflow.runWith r b.host with
  | (_, .error e) => .error e
  | (workflow, .ok x) => .ok (workflow, x.host, x.result)

structure RunPlan where
  clock : Moment
  config : Config
  cap : Option Nat
  format : OutputFormat
  graph : Graph

def RunPlan.runner (p : RunPlan) (h : Host) (store : String) : Runner :=
  { context := contextOf p.config h store, cap := p.cap, clock := p.clock }

section

variable (k : Conduct) (p : RunPlan)

def runStore (b : Batch) (store : String) : Except RunError Batch :=
  match k b (p.runner b.host store) with
  | .error e => .error e
  | .ok (workflow, host, result) =>
    .ok ⟨workflow, host, b.out ++ outputText p.graph result p.format, b.runs ++ [⟨store, result⟩]⟩

def runStores : Batch → List String → Except (Batch × RunError) Batch
  | b, [] => .ok b
  | b, s :: ss =>
    match runStore k p b s with
    | .ok b => runStores b ss
    | .error e => .error (b, e)

end

/-! ## Requests -/

def RunOptions.override (o : RunOptions) (c : Config) : Config :=
  { c with
    pluginDir := o.pluginDir.or c.pluginDir
    scriptsDir := o.scriptsDir.or c.scriptsDir
    container := { c.container with
      dockerfilesDir := o.dockerfilesDir.or c.container.dockerfilesDir
      engine := o.engine.getD c.container.engine
      host := o.dockerHost.or c.container.host } }

/-- The command line goes before the workflow, and the workflow before the settings. -/
def RunOptions.cap (o : RunOptions) (w : Workflow) (c : Config) : Option Nat :=
  (o.maxParallel.or w.maxParallel).or c.maxParallel

def RunOptions.plan (o : RunOptions) (clock : Moment) (c : Config) (w : Workflow) (g : Graph) : RunPlan :=
  ⟨clock, o.override c, o.cap w (o.override c), o.format, g⟩

def failureText : String := "workflow failed for at least one store"

def Batch.writeReport (b : Batch) : Option String → Except String Host
  | none => .ok b.host
  | some path =>
    match b.host.tree.write path (Text.encode (reportText b.runs)) with
    | .ok tree => .ok { b.host with tree }
    | .error _ => .error ("writing report " ++ path)

def Batch.failed (b : Batch) : Bool := b.runs.any fun r => !r.result.isSuccess

/-- The report is written even if tasks failed. -/
def conclude (b : Batch) (report : Option String) : Exit :=
  match b.writeReport report with
  | .error e => .failed b.host b.out e
  | .ok host => if b.failed then .failed host b.out failureText else { host, out := b.out }

def runCommand (k : Conduct) (clock : Moment) (h : Host) (c : Config) (o : RunOptions) : Exit :=
  match Workflow.load h.tree o.workflow with
  | .error e => .failed h "" e.message
  | .ok w =>
    match w.setupGraph with
    | (_, .error e) => .failed h "" e.message
    | (w, .ok g) =>
      match runStores k (o.plan clock c w g) { workflow := w, host := h } o.stores with
      | .ok b => conclude b o.report
      | .error (b, .graph e) => .failed b.host b.out e.message
      | .error (b, .permits _) => { host := b.host, code := panicCode, out := b.out }

def graphCommand (h : Host) (workflow : String) (levels : Bool) : Exit :=
  match Workflow.load h.tree workflow with
  | .error e => .failed h "" e.message
  | .ok w =>
    match w.setupGraph.2 with
    | .error e => .failed h "" e.message
    | .ok g => { host := h, out := graphText g levels }

def pluginsCommand (h : Host) (c : Config) (dir : Option String) : Exit :=
  { host := h, out := pluginsText h.tree (dir.getD (c.resolvedPluginDir h.env)) }

def serve (clock : Moment) (h : Host) (r : Request) : Exit :=
  match Config.load h.tree (r.config.getD h.env.configPath) with
  | .error e => .failed h "" e.message
  | .ok c =>
    match r.command with
    | .run o => runCommand .timed clock h c o
    | .graph w levels => graphCommand h w levels
    | .plugins dir => pluginsCommand h c dir

def program (clock : Moment) (h : Host) (args : List String) : Exit :=
  match parse args with
  | .error .usage => { host := h, code := usageCode }
  | .error (.shown text) => { host := h, out := text }
  | .ok r => serve clock h r

end Casework.CommandLine
