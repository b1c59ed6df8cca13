import Casework.Config
import Casework.Shell.Eval
import Casework.Text.Blank

/-!
# Processes and what is kept of them

The standard output of a process is taken whole. Its diagnostics are logged line by line, and the last
lines are kept for the case that it fails.
-/

namespace Casework

structure Invocation where
  label : String
  program : String
  args : List String
  deriving DecidableEq, Repr

structure ProcessFailure where
  cause : String
  stderr : String
  deriving DecidableEq, Repr

abbrev Capture := Except ProcessFailure String

/-! ## Diagnostics -/

namespace Diagnostics

def historyLimit : Nat := 50

def remember (history : List String) (line : String) : List String :=
  (if history.length = historyLimit then history.drop 1 else history) ++ [line]

/-- The lines in front of the first one that is not text. -/
def readable : List Text.Bytes → List String
  | [] => []
  | l :: ls =>
    match Text.decode? l with
    | some s => s :: readable ls
    | none => []

def linesOf (stderr : Text.Bytes) : List String := readable (Text.byteLines stderr)

def historyOf (stderr : Text.Bytes) : List String := (linesOf stderr).foldl remember []

def logText (label line : String) : String := "[" ++ label ++ "] " ++ line

end Diagnostics

/-! ## How a process ended -/

def Ending.isSuccess : Ending → Bool
  | .code n => n = 0
  | .signal _ => false

def signalName? (n : Nat) : Option String :=
  if n = 16 then some "STKFLT" else if n = 0 then none else Shell.signalNames.lookup n

def Ending.message : Ending → String
  | .code n => "exit status: " ++ toString n
  | .signal n => "signal: " ++ toString n ++ (signalName? n).elim "" (" (SIG" ++ · ++ ")")

def capture (out err : Text.Bytes) (ending : Ending) : Capture :=
  if ending.isSuccess then .ok (Text.decodeLossy out)
  else .error ⟨ending.message, "\n".intercalate (Diagnostics.historyOf err)⟩

def spawnFailure (e : OsError) : ProcessFailure := ⟨"spawn failed: " ++ e.message, ""⟩

/-! ## Running -/

/-- Bounds the nesting of shells and of calls inside them. -/
def nestingLimit : Nat := 50000

def patience : Nat := 2000000

def hasNul (s : String) : Bool := s.toList.contains '\x00'

structure Finished where
  tree : FileTree
  out : Text.Bytes
  err : Text.Bytes
  ending : Ending

def collecting (t : FileTree) : Machine :=
  { tree := t
    channels := #[.device .null, .output [] none, .output [] none]
    patience }

def spawn (t : FileTree) (env : Environment) (i : Invocation) : Except OsError Finished := do
  if (i.program :: i.args).any hasNul then .error .nulInArgument
  else
    let octetEnv : Environment := .ofList (env.entries.map fun e => (Text.toOctets e.1, Text.toOctets e.2))
    let program := Text.toOctets i.program
    let (utility, args) ← Program.launch t octetEnv program (program :: i.args.map Text.toOctets)
    let machine := collecting t
    let ran := Shell.runLaunch nestingLimit utility
      { machine
        fds := [(0, 0), (1, 1), (2, 2)]
        env := octetEnv
        args
        process := machine.lastProcess
        ancestors := [1] }
    return ⟨{ ran.machine.tree with cwd := t.cwd }, ran.machine.collected 1, ran.machine.collected 2, ran.ending⟩

end Casework
