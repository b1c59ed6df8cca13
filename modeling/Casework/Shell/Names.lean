import Casework.Shell.Grammar
import Casework.Shell.Job

/-!
# Names of commands

What a name stands for: a keyword, an alias, a function, a builtin or a program. Programs that have been
found are remembered.
-/

namespace Casework.Shell

open Text

def plainBuiltins : List String :=
  ["[", "alias", "bg", "cd", "chdir", "command", "echo", "false", "fg", "getopts", "hash", "jobs", "kill", "printf",
    "pwd", "read", "test", "true", "type", "ulimit", "umask", "unalias", "wait"]

def isSpecial (name : String) : Bool := specialBuiltins.contains name || name = "local"

def isBuiltin (name : String) : Bool := isSpecial name || plainBuiltins.contains name

/-! ## Programs -/

/-- The first candidate that may be executed. One that has been found before is not looked at again, and
neither are those before it, if they do not depend on the directory. -/
def firstProgram (t : FileTree) (known : Option String) (reason : OsError) : List String → Except OsError String
  | [] => .error reason
  | p :: ps =>
    if Path.isAbsolute p && known = some p then .ok p
    else if Path.isAbsolute p && known.any ps.contains then firstProgram t known reason ps
    else
      match t.lookup (pathOf p) with
      | .ok (_, n) => if FileTree.isExecutableNode n then .ok p else firstProgram t known .permissionDenied ps
      | .error .notFound | .error .notDirectory => firstProgram t known reason ps
      | .error e => firstProgram t known e ps

def programReason : OsError → String
  | .notFound | .notDirectory => "not found"
  | e => e.reason.1

def remember (name path : String) : Act Unit := modify fun s =>
  let f : Found := { name, path }
  { s with
    found :=
      if s.found.any (·.name = name) then s.found.map fun g => if g.name = name then f else g else s.found ++ [f] }

def forgetProgram (name : String) : Act Unit := modify fun s => { s with found := s.found.filter (·.name ≠ name) }

def Session.known? (s : Session) (name : String) : Option Found := s.found.find? (·.name = name)

/-- Looks a program up by its name, and remembers it. A program that was found before is not looked for
again unless the directory has changed. -/
def findProgram (name : String) : Act (Except OsError String) := do
  let s ← get
  let known := s.known? name
  match known.filter (!·.stale) with
  | some f => return .ok f.path
  | none =>
    match firstProgram s.machine.tree (known.map (·.path)) .notFound
        (Program.candidates s.searchEnvironment name) with
    | .ok p => do
      remember name p
      return .ok p
    | .error e => do
      forgetProgram name
      return .error e

def findAhead : Command → Act Unit
  | .simple _ _ (w :: _) _ => do
    match (plainText? w).filter isName with
    | some name => if !isBuiltin name && !(← get).functions.contains name then let _ ← findProgram name
    | none => return
  | _ => return

def findByDefault (name : String) : Act (Except OsError String) := do
  return firstProgram (← get).machine.tree none .notFound (Program.candidates {} name)

/-! ## Aliases -/

def inBuckets (count : Nat) (name : α → String) (entries : List α) : List α :=
  let bucket (e : α) : Nat :=
    let cs := (name e).toList.map Char.toNat
    ((cs.headD 0) * 16 + cs.foldl (· + ·) 0) % 32768 % count
  (List.range count).flatMap fun b => entries.filter fun e => bucket e = b

def aliasLine (name value : String) : String := name ++ "=" ++ singleQuoted value ++ "\n"

def listAliases (s : Session) : String :=
  "".intercalate ((inBuckets 39 (·.1) s.aliases.entries).map fun e => aliasLine e.1 e.2)

def aliasCommand (args : List String) : Act Nat := do
  if args.isEmpty then
    print (listAliases (← get))
    return 0
  else
    let results ← args.mapM fun a => do
      let cs := a.toList
      match (cs.drop 1).contains '=', (← get).aliases.find? a with
      | true, _ => do
        let n := cs.take 1 ++ (cs.drop 1).takeWhile (· ≠ '=')
        let name : String := .ofList n
        let value : String := .ofList (cs.drop (n.length + 1))
        modify fun s => { s with aliases := s.aliases.insert name value }
        return true
      | false, some v => do
        print (aliasLine a v)
        return true
      | false, none => do
        note ("alias: " ++ a ++ " not found")
        return false
    return if results.all id then 0 else 1

def unaliasCommand (args : List String) : Act Nat := do
  let (isAll, names) ← singleOption 'a' args
  if isAll then
    modify fun s => { s with aliases := {} }
    return 0
  else
    let results ← names.mapM fun n => do
      if (← get).aliases.contains n then
        modify fun s => { s with aliases := s.aliases.erase n }
        return true
      else
        note ("unalias: " ++ n ++ " not found")
        return false
    return if results.all id then 0 else 1

/-! ## Remembered programs -/

def foundBuckets : Nat := 31

def hashCommand (args : List String) : Act Nat := do
  let (isReset, names) ← singleOption 'r' args
  if isReset then
    modify fun s => { s with found := [] }
    return 0
  else if names.isEmpty then
    let line (f : Found) : String := f.path ++ (if f.stale then "*" else "") ++ "\n"
    print ("".intercalate ((inBuckets foundBuckets (·.name) (← get).found).map line))
    return 0
  else
    let results ← names.mapM fun n => do
      let s ← get
      if Program.hasSlash n || s.functions.contains n || isBuiltin n then return true
      else
        forgetProgram n
        match ← findProgram n with
        | .ok _ => return true
        | .error e => do
          warn (n ++ ": " ++ programReason e)
          return false
    return if results.all id then 0 else 1

/-! ## Telling what a name is -/

def describe (standard more : Bool) (name : String) : Act Nat := do
  let s ← get
  let say (word sentence : String) : Act Nat := do
    print (if more then name ++ sentence ++ "\n" else word ++ "\n")
    return 0
  if keywords.contains name then say name " is a shell keyword"
  else if let some v := s.aliases.find? name then
    if more then say "" (" is an alias for " ++ v)
    else
      print ("alias " ++ aliasLine name v)
      return 0
  else if s.functions.contains name then say name " is a shell function"
  else if isSpecial name then say name " is a special shell builtin"
  else if isBuiltin name then say name " is a shell builtin"
  else
    let tracked := !standard && (s.known? name).isSome
    let found : Except OsError String ←
      if Program.hasSlash name then pure ((s.machine.tree.lookup (pathOf name)).map fun _ => name)
      else if standard then findByDefault name
      else findProgram name
    match found with
    | .ok p => say p ((if tracked then " is a tracked alias for " else " is ") ++ p)
    | .error _ => do
      if more then print (name ++ ": not found\n")
      return 127

def typeCommand (names : List String) : Act Nat := do
  let results ← names.mapM (describe false true)
  return if results.all (· = 0) then 0 else 127

def commandOptions (args : List String) : Act (List (Char × String) × List String) := takeOptions "pvV" "" args

/-! ## Limits -/

structure Limit where
  letter : Char
  title : String
  factor : Nat
  soft : Option Nat := none
  hard : Option Nat := none

def limits : List Limit :=
  [⟨'t', "time(seconds)", 1, none, none⟩, ⟨'f', "file(blocks)", 512, none, none⟩,
    ⟨'d', "data(kbytes)", 1024, none, none⟩, ⟨'s', "stack(kbytes)", 1024, some 8388608, none⟩,
    ⟨'c', "coredump(blocks)", 512, some 0, none⟩, ⟨'m', "memory(kbytes)", 1024, none, none⟩,
    ⟨'l', "locked memory(kbytes)", 1024, some 8388608, some 8388608⟩, ⟨'p', "process", 1, none, none⟩,
    ⟨'n', "nofiles", 1, some 1024, some 524288⟩, ⟨'v', "vmemory(kbytes)", 1024, none, none⟩,
    ⟨'w', "locks", 1, none, none⟩, ⟨'r', "rtprio", 1, some 0, some 0⟩]

def Limit.now (l : Limit) (s : Session) : Limit :=
  (s.limits.lookup l.letter).elim l fun (soft, hard) => { l with soft, hard }

def Limit.text (l : Limit) (hard : Bool) : String :=
  ((if hard then l.hard else l.soft).elim "unlimited" fun n => toString (n / l.factor)) ++ "\n"

def isAbove : Option Nat → Option Nat → Bool
  | _, none => false
  | none, some _ => true
  | some m, some n => n < m

def setLimit (l : Limit) (soft hard : Bool) (v : String) : Act Unit := do
  if v ≠ "unlimited" && !v.toList.all Char.isDigit then refuse "bad number"
  let value := if v = "unlimited" then none else some (Arith.numberIn 10 v.toList * l.factor)
  let s := if soft then value else l.soft
  let h := if hard then value else l.hard
  if isAbove s h then refuse "error setting limit (Invalid argument)"
  if isAbove h l.hard then refuse "error setting limit (Operation not permitted)"
  modify fun t => { t with limits := (l.letter, s, h) :: t.limits.filter (·.1 ≠ l.letter) }

def ulimitCommand (args : List String) : Act Nat := do
  let (os, rest) ← takeOptions ("HSa" ++ .ofList (limits.map (·.letter))) "" args
  let s ← get
  let bound := ((os.map (·.1)).filter fun c => c = 'H' || c = 'S').getLast?
  let letters := (os.map (·.1)).filter fun c => c ≠ 'H' && c ≠ 'S'
  let all := letters.contains 'a'
  let letter := (letters.filter (· ≠ 'a')).getLast?.getD 'f'
  if 1 < rest.length || (all && !rest.isEmpty) then refuse "too many arguments"
  let line (l : Limit) : String :=
    l.title ++ .ofList (List.replicate (20 - l.title.length) ' ') ++ " " ++ l.text (bound = some 'H')
  if all then print ("".intercalate (limits.map fun l => line (l.now s)))
  else
    match (limits.find? (·.letter = letter)).map (·.now s), rest with
    | some l, [] => print (l.text (bound = some 'H'))
    | some l, v :: _ => setLimit l (bound ≠ some 'H') (bound ≠ some 'S') v
    | none, _ => pure ()
  return 0

def timesCommand : Act Nat := do
  print "0m0.000000s 0m0.000000s\n0m0.000000s 0m0.000000s\n"
  return 0

end Casework.Shell
