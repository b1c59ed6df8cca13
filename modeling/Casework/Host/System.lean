import Casework.Host.Process

/-!
# The host of a run

The files, the environment, and all that a run leaves in the logs; and a bare system, with the
directories and programs that are there before anything is written.
-/

namespace Casework

/-! ## Hosts -/

structure Host where
  tree : FileTree
  env : Environment := {}
  processLog : List (String × String) := []
  pluginLog : List String := []
  notes : List (String × String) := []
  identifiers : Nat := 0
  deriving Inhabited

namespace Host

variable (h : Host)

/-- Runs a process; what it wrote as diagnostics goes to the log, whether it succeeds or not. -/
def run (i : Invocation) : Host × Capture :=
  match spawn h.tree h.env i with
  | .error e => (h, .error (spawnFailure e))
  | .ok r =>
    ({ h with
        tree := r.tree
        processLog := h.processLog ++ (Diagnostics.linesOf r.err).map (i.label, ·) },
      capture r.out r.err r.ending)

def report (lines : List String) : Host := { h with pluginLog := h.pluginLog ++ lines }

def note (text store : String) : Host := { h with notes := h.notes ++ [(text, store)] }

/-! ## Identifiers -/

def hexDigits (width n : Nat) : String :=
  let ds := Nat.toDigits 16 n
  .ofList (List.replicate (width - ds.length) '0' ++ ds)

def freshIdentifier : String × Host :=
  ("00000000-0000-4000-8000-" ++ hexDigits 12 h.identifiers, { h with identifiers := h.identifiers + 1 })

end Host

/-! ## A bare system -/

def systemDirs : List Address :=
  [["dev"], ["dev", "fd"], ["etc"], ["home"], ["root"], ["tmp"], ["usr"], ["usr", "bin"], ["var"]]

def systemDevices : List (String × Device) :=
  [("null", .null), ("full", .full), ("tty", .terminal), ("stdin", .descriptor 0),
    ("stdout", .descriptor 1), ("stderr", .descriptor 2)]

def systemUtilities : List (String × Utility) :=
  [("sh", .sh), ("cat", .cat), ("cut", .cut), ("mkdir", .mkdir)]

def systemNodes : List (Address × FileNode) :=
  systemDirs.map (·, .dir) ++ systemDevices.map (fun d => (["dev", d.1], .device d.2)) ++
    (List.range 10).map (fun n => (["dev", "fd", toString n], .device (.descriptor n))) ++
    (["bin"], .link "usr/bin") :: systemUtilities.map fun u => (["usr", "bin", u.1], .utility u.2)

def FileTree.bare (cwd : String) : FileTree := { (FileTree.makeDirs ⟨systemNodes, "/"⟩ cwd).1 with cwd }

/-! ## Laying out files -/

structure FileEntry where
  path : String
  node : FileNode

def FileTree.layOut (t : FileTree) (e : FileEntry) : FileTree :=
  let t := match Path.parent? e.path with
    | some p => (t.makeDirs p).1
    | none => t
  match e.node with
  | .file b mode => ((t.write e.path b).toOption.getD t).setMode e.path mode
  | .link target => (t.makeLink target e.path).toOption.getD t
  | _ => (t.makeDirs e.path).1

end Casework
