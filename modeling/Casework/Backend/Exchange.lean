import Casework.Backend.Engine

/-!
# What work asks and is told

Work asks what a file is, how a process fares and how a plugin of the program ends. Its exchanges are these questions
with their answers, in their order. Any answer may be given to any question.
-/

namespace Casework

/-! ## Processes -/

inductive Fate where
  | unstarted (e : OsError)
  | ended (out err : Text.Bytes) (ending : Ending)
  | lost (err : Text.Bytes) (e : OsError)

namespace Fate

def capture : Fate → Capture
  | unstarted e => .error (spawnFailure e)
  | ended out err ending => Casework.capture out err ending
  | lost err e => .error ⟨"wait failed: " ++ e.message, "\n".intercalate (Diagnostics.historyOf err)⟩

def output? : Fate → Option String
  | ended out _ (.code 0) => some (Text.decodeLossy out)
  | _ => none

end Fate

def Host.fate (h : Host) (i : Invocation) : Fate :=
  match spawn h.tree h.env i with
  | .error e => .unstarted e
  | .ok r => .ended r.out r.err r.ending

/-! ## Exchanges -/

inductive Exchange where
  | looked (c : FileCheck) (found : Bool)
  | ran (i : Invocation) (f : Fate)
  | called (p : Plugin) (e : PluginEnd)

namespace Exchange

def Genuine (store : String) : Exchange → Prop
  | looked c found => ∃ h : Host, c.holds h.tree = found
  | ran i f => ∃ h : Host, h.fate i = f
  | called p e => ∃ h : Host, (p.runAlone h store).2 = e

def processes (log : List Exchange) : List (Invocation × Fate) :=
  log.filterMap fun x =>
    match x with
    | ran i f => some (i, f)
    | _ => none

end Exchange

/-- With these exchanges and no other the work comes to the result `r`. -/
def Work.Goes : Work → List Exchange → Except TaskError String → Prop
  | finish r', log, r => log = [] ∧ r' = r
  | check c next, log, r => ∃ found rest, log = .looked c found :: rest ∧ Goes (next found) rest r
  | process i next, log, r => ∃ f rest, log = .ran i f :: rest ∧ Goes (next f.capture) rest r
  | call p next, log, r => ∃ e rest, log = .called p e :: rest ∧ Goes (next e) rest r

/-! ## The processes of a task -/

namespace Context

variable (c : Context) (t : Task)

def pluginInvocation (path : String) : Invocation := ⟨t.command, path, t.forwardedArgs ++ [c.store]⟩

def scriptFile : String := Script.scriptPath c.scriptsDir t.command

def scriptInvocation : Invocation :=
  ⟨Script.scriptName t.command, "sh", ["-c", Script.shellLine (c.scriptFile t) t c.store]⟩

def runInvocation (cwd : Except OsError String) (image : String) : Invocation :=
  c.engineInvocation image (Container.runArgs (c.seenFrom cwd).cwd image t c.store c.containerOptions)

def recipeFile : String := Path.join (c.recipeDirectory t.recipe) "Dockerfile"

def buildInvocation : Invocation :=
  c.engineInvocation (Container.imageTag t.recipe)
    (Container.buildArgs (Container.imageTag t.recipe) (c.recipeDirectory t.recipe))

/-- The processes that a task of this kind needs when no plugin of the program carries it out, in their order. -/
def needed (cwd : Except OsError String) : TaskKind → List Invocation
  | .plugin => [c.pluginInvocation t (Path.join c.pluginDir t.command)]
  | .script => [c.scriptInvocation t]
  | .docker => [c.runInvocation t cwd t.image]
  | .dockerfile => [c.buildInvocation t, c.runInvocation t cwd (Container.imageTag t.recipe)]

end Context

end Casework
