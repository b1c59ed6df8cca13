import Casework.Shell.Fields
import Casework.Shell.Format
import Casework.Shell.Job
import Casework.Shell.Names
import Casework.Shell.Session
import Casework.Shell.Test
import Casework.Shell.Variables

/-!
# Builtin commands

Those that run no other commands. Among them are the one that goes to a directory and the one that
reads a line.
-/

namespace Casework.Shell

/-! ## The current directory

A shell remembers the way it went, so that the parent of a directory that was reached by a link is the
directory the link is in.
-/

open Text

def walkedFrom : List String → List String → List String
  | way, [] => way
  | way, s :: ss =>
    if Path.isIdle s then walkedFrom way ss
    else if s = ".." then walkedFrom way.tail ss
    else walkedFrom (s :: way) ss

/-- The directory that `target` leads to from `dir`; two slashes in front stay two. -/
def walked (dir target : String) : String :=
  let isDouble (p : String) : Bool :=
    match p.toList with
    | '/' :: '/' :: c :: _ => c ≠ '/'
    | ['/', '/'] => true
    | _ => false
  let absolute := Path.isAbsolute target
  let lead := if isDouble (if absolute then target else dir) then "//" else "/"
  let way := walkedFrom (if absolute then [] else walkedFrom [] (dir.splitOn "/")) (target.splitOn "/")
  lead ++ "/".intercalate way.reverse

def physicalDirectory (s : Session) : String := ofPath s.machine.tree.cwd

def isPhysical (os : List (Char × String)) : Bool := (os.map (·.1)).getLast? = some 'P'

def settleDirectory (way physical : Option String) : Act Unit := do
  let directory := (way <|> physical).getD ""
  modify fun s => { s with directory, physical }
  exportVar "PWD" directory

def goTo (target : String) (physical : Bool) : Act Bool := do
  let s ← get
  let way := if physical then target else walked s.directory target
  match s.machine.tree.lookup (pathOf (if way.isEmpty then "." else way)) with
  | .ok (a, .dir) => do
    set { s with machine := s.machine.withDirectory ("/" ++ "/".intercalate a) }
    exportVar "OLDPWD" s.directory
    if physical then settleDirectory none (some (physicalDirectory (← get))) else settleDirectory (some way) none
    modify fun s => { s with found := s.found.map fun f => { f with stale := true } }
    return true
  | _ => return false

def isFixed (target : String) : Bool :=
  match target.toList with
  | '/' :: _ | ['.'] | '.' :: '/' :: _ | ['.', '.'] | '.' :: '.' :: '/' :: _ => true
  | _ => false

def searchDirectory (s : Session) (target : String) : Option (String × Bool) :=
  ((s.var? "CDPATH").elim [] (·.splitOn ":")).findSome? fun d =>
    let p := if d.isEmpty then target else d ++ "/" ++ target
    if s.machine.tree.isDir (pathOf p) then some (p, !d.isEmpty) else none

def cdCommand (args : List String) : Act Nat := do
  let (os, rest) ← takeOptions "LP" "" args
  let s ← get
  let (target, shown) := match rest with
    | [] => ((s.var? "HOME").getD "", false)
    | "-" :: _ => ((s.var? "OLDPWD").getD "", true)
    | d :: _ => (d, false)
  let target' := if target.isEmpty then "." else target
  let (way, moved) := if isFixed target then (target', false) else (searchDirectory s target').getD (target', false)
  if !(← goTo way (isPhysical os)) then refuse ("can't cd to " ++ target')
  if shown || moved then print ((← get).directory ++ "\n")
  return 0

def pwdCommand (args : List String) : Act Nat := do
  let (os, _) ← takeOptions "LP" "" args
  let s ← get
  if isPhysical os then
    if s.physical.isNone then settleDirectory (some s.directory) (some (physicalDirectory s))
    print ((← get).physical.getD "" ++ "\n")
  else print (s.directory ++ "\n")
  return 0

/-! ## Lines of input

How a script reads a line, and which variables take which of its fields. Unless the input is taken as it
is, a backslash quotes the byte behind it, and joins a line to the next.
-/

structure Line where
  parts : List Segment := []
  current : List Item := []
  size : Nat := 0
  ended : Bool := false

def Line.close (l : Line) : Line :=
  { l with parts := ⟨.atSeparators, l.current.reverse⟩ :: l.parts, current := [] }

def Line.segments (l : Line) : List Segment := l.close.parts.reverse

def Line.read (raw : Bool) : Bool → Line → Bytes → Line
  | _, l, [] => l
  | escaped, l, b :: bs =>
    let l := { l with size := l.size + 1 }
    let c := Char.ofNat b.toNat
    if b = 0 then read raw escaped l bs
    else if escaped then
      if c = '\n' then read raw false l.close bs
      else
        let l := l.close
        read raw false { l with parts := ⟨.nowhere, [.char c true]⟩ :: l.parts } bs
    else if c = '\\' && !raw then read raw true l bs
    else if c = '\n' then { l with ended := true }
    else read raw false { l with current := .char c false :: l.current } bs

def readLine (raw : Bool) : Act Line := do
  let s ← get
  match (s.fds.lookup 0).map fun id => (id, s.machine.unread id) with
  | some (id, .ok b) => do
    let l := Line.read raw false {} b
    set { s with machine := s.machine.advance id l.size }
    return l
  | _ => return {}

def readCommand (args : List String) : Act Nat := do
  let (os, names) ← takeOptions "r" "p" args
  if names.isEmpty then refuse "arg count"
  let l ← readLine (os.any (·.1 = 'r'))
  let fields := (fieldsOf (← get).separators.toList (some names.length) l.segments).map itemText
  names.zipIdx.forM fun (n, i) => setNamed n (fields.getD i "")
  return if l.ended then 0 else 1

/-! ## Commands by name -/

def printfCommand (args : List String) : Act Nat := do
  match ← operands args with
  | [] => refuse "usage: printf format [arg ...]"
  | format :: args => do
    let (text, faults) := formatted format args
    print text
    faults.forM fun f => if f.isFatal then refuse f.message else warn f.message
    return if faults.isEmpty then 0 else 1

def conditionCommand (args : List String) : Act Nat := do
  let s ← get
  match Test.answer ⟨s.machine, s.fds⟩ args with
  | .ok yes => return if yes then 0 else 1
  | .error f => refuse f.message

def bracketCommand (args : List String) : Act Nat :=
  if (args.getLast?.bind (·.toList.head?)) = some ']' then conditionCommand args.dropLast else refuse "missing ]"

def builtin (name : String) (args : List String) : Act Nat :=
  match name with
  | "false" => return 1
  | "echo" => do
    print (echoText args)
    return 0
  | "printf" => printfCommand args
  | "test" => conditionCommand args
  | "[" => bracketCommand args
  | "exit" => exitCommand args
  | "return" => returnCommand args
  | "break" => loopCommand .leave args
  | "continue" => loopCommand .again args
  | "export" => exportCommand args
  | "readonly" => readonlyCommand args
  | "local" => localCommand args
  | "unset" => unsetCommand args
  | "set" => setCommand args
  | "shift" => shiftCommand args
  | "getopts" => getoptsCommand args
  | "read" => readCommand args
  | "trap" => trapCommand args
  | "kill" => killCommand args
  | "type" => typeCommand args
  | "hash" => hashCommand args
  | "alias" => aliasCommand args
  | "unalias" => unaliasCommand args
  | "umask" => umaskCommand args
  | "ulimit" => ulimitCommand args
  | "cd" | "chdir" => cdCommand args
  | "pwd" => pwdCommand args
  | "wait" => waitCommand args
  | "jobs" => jobsCommand args
  | "fg" | "bg" => resumeCommand args
  | "times" => timesCommand
  | _ => return 0

end Casework.Shell
