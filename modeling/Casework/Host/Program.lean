import Casework.Decimal.Binary64
import Casework.Host.Utility.Cat
import Casework.Host.Utility.Cut
import Casework.Host.Utility.Mkdir
import Casework.NameMap

/-!
# Programs as files

How a program is found by its name, what its file asks to be run by, and how a program ends. Names and
arguments are octets here, as the system takes them.
-/

namespace Casework

open Text

inductive Ending where
  | code (n : Nat)
  | signal (n : Nat)
  deriving DecidableEq, Repr, Inhabited

structure Launch where
  machine : Machine
  fds : Descriptors
  env : NameMap String
  args : List String
  process : Nat
  ancestors : List Nat := []
  ignored : List Nat := []

structure Ran where
  machine : Machine
  ending : Ending
  deriving Inhabited

namespace Program

/-! ## Looking up names -/

def defaultPath : String := "/usr/local/sbin:/usr/local/bin:/usr/sbin:/usr/bin:/sbin:/bin"

def searchPath (env : NameMap String) : List String := ((env.find? "PATH").getD defaultPath).splitOn ":"

def hasSlash (name : String) : Bool := name.toList.contains '/'

def candidates (env : NameMap String) (name : String) : List String :=
  (searchPath env).map fun d => if d.isEmpty then name else d ++ "/" ++ name

/-! ## Kinds of programs -/

inductive Kind where
  | utility (u : Utility)
  | interpreted (interpreter : String) (argument : Option String)
  | plain
  deriving DecidableEq, Repr

def isGap (b : UInt8) : Bool := b = 32 || b = 9

def headSize : Nat := 256

/-- The line behind the mark of an interpreted file. In a line that is longer than what is looked at, the
name of the interpreter has to end before. -/
def interpreterLine? (b : Bytes) : Option Bytes :=
  let head := b.take headSize ++ List.replicate (headSize - b.length) 0
  if head.take 2 ≠ [35, 33] then none
  else
    let rest := head.drop 2
    if rest.contains 10 then some (rest.takeWhile (· ≠ 10))
    else
      let rest := rest.take (headSize - 3)
      let name := rest.dropWhile isGap
      if name.any fun b => isGap b || b = 0 then some rest else none

def kindOf (b : Bytes) : Kind :=
  match interpreterLine? b with
  | none => .plain
  | some line =>
    let line := ((line.reverse.dropWhile isGap).reverse).dropWhile isGap
    let isEnd (b : UInt8) : Bool := isGap b || b = 0
    let name := line.takeWhile (!isEnd ·)
    let behind := line.drop name.length
    let arg := if behind.head?.any isGap then (behind.dropWhile isGap).takeWhile (· ≠ 0) else []
    if name.isEmpty then .plain
    else .interpreted (octets name) (if arg.isEmpty then none else some (octets arg))

def load (t : FileTree) (path : String) : Except OsError Kind := do
  let (_, n) ← t.lookup (pathOf path)
  match n with
  | .utility u => .ok (.utility u)
  | .file b _ => if FileTree.isExecutableNode n then .ok (kindOf b) else .error .permissionDenied
  | _ => .error .permissionDenied

def interpreterLimit : Nat := 5

/-- What a path is run by in the end, and the arguments that one gets, the name it is called by first. An
interpreter may be interpreted itself, `fuel` times. -/
def resolve (t : FileTree) : Nat → String → List String → Except OsError (Utility × List String)
  | fuel, path, args => do
    match ← load t path, fuel with
    | .utility u, _ => return (u, args)
    | .plain, _ => .error .execFormat
    | .interpreted i arg, fuel + 1 => resolve t fuel i (i :: arg.toList ++ path :: args.drop 1)
    | .interpreted i _, 0 => do
      let _ ← load t i
      .error .tooManyLinks

/-! ## Limits -/

def argumentLimit : Nat := pow2 17

def argumentsRoom : Nat := pow2 21

def roomOf (s : String) : Nat := s.length + 9

def fits (env : NameMap String) (path : String) (args : List String) : Bool :=
  let texts := path :: args ++ env.entries.map fun e => e.1 ++ "=" ++ e.2
  texts.all (fun s => s.length < argumentLimit) && texts.foldl (fun room s => room + roomOf s) 0 ≤ argumentsRoom

def start (t : FileTree) (env : NameMap String) (path : String) (args : List String) :
    Except OsError (Utility × List String) := do
  let r ← resolve t interpreterLimit path args
  if fits env path r.2 then .ok r else .error .argumentsTooLong

/-! ## Finding a program -/

def isPassable (e : OsError) : Bool :=
  match e with
  | .permissionDenied | .notFound | .notDirectory => true
  | _ => false

/-- The first candidate that can be started. A candidate that may not be executed is told of in the end. -/
def firstOf (start : String → Except OsError α) (denied : Bool) : List String → Except OsError α
  | [] => .error (if denied then .permissionDenied else .notFound)
  | p :: ps =>
    match start p with
    | .ok r => .ok r
    | .error e => if isPassable e then firstOf start (denied || e = .permissionDenied) ps else .error e

def launch (t : FileTree) (env : NameMap String) (name : String) (args : List String) :
    Except OsError (Utility × List String) :=
  if name.isEmpty then .error .notFound
  else if hasSlash name then start t env name args
  else if FileTree.nameLimit < name.length then .error .nameTooLong
  else firstOf (fun p => start t env p args) false (candidates env name)

end Program

end Casework
