import Casework.Host.Path
import Casework.Text.Utf8

/-!
# File trees

Files, directories and links under one root. A node is addressed by the names on the way to it, and
paths are resolved to such addresses as the system does, through links and dots.
-/

namespace Casework

inductive Utility where
  | sh
  | cat
  | cut
  | mkdir
  deriving DecidableEq, Repr

inductive Device where
  | null
  | full
  | terminal
  | descriptor (n : Nat)
  deriving DecidableEq, Repr

inductive FileNode where
  | file (content : Text.Bytes) (mode : Nat)
  | dir
  | link (target : String)
  | device (d : Device)
  | utility (u : Utility)
  deriving DecidableEq, Repr, Inhabited

inductive OsError where
  | notFound
  | permissionDenied
  | exists_
  | notDirectory
  | isDirectory
  | invalidArgument
  | nameTooLong
  | notEmpty
  | tooManyLinks
  | execFormat
  | argumentsTooLong
  | badDescriptor
  | noDevice
  | noSpace
  | brokenPipe
  | nulInPath
  | nulInArgument
  | invalidText
  deriving DecidableEq, Repr

def OsError.reason : OsError → String × Option Nat
  | notFound => ("No such file or directory", some 2)
  | permissionDenied => ("Permission denied", some 13)
  | exists_ => ("File exists", some 17)
  | notDirectory => ("Not a directory", some 20)
  | isDirectory => ("Is a directory", some 21)
  | invalidArgument => ("Invalid argument", some 22)
  | nameTooLong => ("File name too long", some 36)
  | notEmpty => ("Directory not empty", some 39)
  | tooManyLinks => ("Too many levels of symbolic links", some 40)
  | execFormat => ("Exec format error", some 8)
  | argumentsTooLong => ("Argument list too long", some 7)
  | badDescriptor => ("Bad file descriptor", some 9)
  | noDevice => ("No such device or address", some 6)
  | noSpace => ("No space left on device", some 28)
  | brokenPipe => ("Broken pipe", some 32)
  | nulInPath => ("file name contained an unexpected NUL byte", none)
  | nulInArgument => ("nul byte found in provided data", none)
  | invalidText => ("stream did not contain valid UTF-8", none)

def OsError.message (e : OsError) : String :=
  match e.reason with
  | (text, some n) => text ++ " (os error " ++ toString n ++ ")"
  | (text, none) => text

abbrev Address := List String

structure FileTree where
  nodes : List (Address × FileNode)
  cwd : String
  deriving Inhabited

namespace FileTree

variable (t : FileTree)

/-! ## Nodes -/

def node? (a : Address) : Option FileNode := if a = [] then some .dir else t.nodes.lookup a

def isDirAt (a : Address) : Bool := t.node? a == some .dir

def put (a : Address) (n : FileNode) : FileTree :=
  { t with nodes := if t.nodes.any (·.1 = a) then t.nodes.map fun e => if e.1 = a then (a, n) else e
    else t.nodes ++ [(a, n)] }

def drop (a : Address) : FileTree := { t with nodes := t.nodes.filter fun e => !a.isPrefixOf e.1 }

def childNames (a : Address) : List String :=
  t.nodes.filterMap fun e => if e.1.dropLast = a ∧ e.1 ≠ [] then e.1.getLast? else none

/-! ## Resolution -/

def linkLimit : Nat := 40

def nameLimit : Nat := 255

/-- Walks `segments` from the directory `at_`. Only the last name may be missing, and with a slash behind
it what is missing is a directory. With `follow` a link at the end is followed as well. `links` is how many
links may still be followed. -/
def walk (follow : Bool) : Nat → Nat → Address → List String → Except OsError Address
  | _, _, at_, [] => .ok at_
  | 0, _, _, _ :: _ => .error .tooManyLinks
  | fuel + 1, links, at_, s :: ss =>
    if !t.isDirAt at_ then .error (if (t.node? at_).isSome then .notDirectory else .notFound)
    else if Path.isIdle s then walk follow fuel links at_ ss
    else if s = ".." then walk follow fuel links at_.dropLast ss
    else if nameLimit < s.utf8ByteSize then .error .nameTooLong
    else
      let a := at_ ++ [s]
      match t.node? a with
      | some (.link target) =>
        if ss.isEmpty && !follow then .ok a
        else
          match links with
          | 0 => .error .tooManyLinks
          | links + 1 =>
            let start := if Path.isAbsolute target then [] else at_
            walk follow fuel links start (Path.segments target ++ ss)
      | some _ => walk follow fuel links a ss
      | none => if ss.isEmpty then .ok a else .error (if ss.all (· = "") then .isDirectory else .notFound)

def pathLimit : Nat := 4096

/-- The address a path leads to. A path with a NUL never reaches the system. -/
def resolve (follow : Bool) (path : String) : Except OsError Address :=
  if path.toList.contains '\x00' then .error .nulInPath
  else if path = "" then .error .notFound
  else if pathLimit ≤ path.utf8ByteSize then .error .nameTooLong
  else
    let full := Path.absolute t.cwd path
    do
      let a ← t.walk follow (full.utf8ByteSize + linkLimit * pathLimit) linkLimit [] (Path.segments full)
      if full.toList.getLast? = some '/' ∧ (t.node? a).isSome ∧ !t.isDirAt a then .error .notDirectory
      else .ok a

/-! ## Questions -/

def lookup (path : String) : Except OsError (Address × FileNode) := do
  let a ← (t.resolve true path).mapError fun e => if e = .isDirectory then .notFound else e
  match t.node? a with
  | some n => .ok (a, n)
  | none => .error .notFound

def get? (path : String) : Option FileNode := (t.lookup path).toOption.map (·.2)

def exists_ (path : String) : Bool := (t.get? path).isSome

def isDir (path : String) : Bool := t.get? path == some .dir

def isRegular : FileNode → Bool
  | .file .. | .utility _ => true
  | _ => false

def isFile (path : String) : Bool := (t.get? path).any isRegular

def isExecutableNode : FileNode → Bool
  | .file _ mode => mode &&& 0o111 ≠ 0
  | .utility _ => true
  | _ => false

def isExecutable (path : String) : Bool := (t.get? path).any isExecutableNode

def read (path : String) : Except OsError Text.Bytes := do
  match ← t.lookup path with
  | (_, .file b _) => .ok b
  | (_, .dir) => .error .isDirectory
  | _ => .ok []

def readText (path : String) : Except OsError String := do
  match Text.decode? (← t.read path) with
  | some s => .ok s
  | none => .error .invalidText

def list (path : String) : Except OsError (List String) := do
  match ← t.lookup path with
  | (a, .dir) => .ok ((t.childNames a).mergeSort fun a b => !(b < a))
  | _ => .error .notDirectory

/-! ## Changes -/

def fileAddress (path : String) : Except OsError Address := do
  let a ← t.resolve true path
  match t.node? a with
  | some .dir => .error .isDirectory
  | some _ => .ok a
  | none => if t.isDirAt a.dropLast then .ok a else .error .notFound

def newFileMode : Nat := 0o644

def modify (a : Address) (f : Text.Bytes → Text.Bytes) : FileTree :=
  match t.node? a with
  | some (.file b mode) => t.put a (.file (f b) mode)
  | none => t.put a (.file (f []) newFileMode)
  | some _ => t

def create (path : String) : Except OsError (FileTree × Address) := do
  let a ← t.fileAddress path
  return (t.modify a fun _ => [], a)

def openAppend (path : String) : Except OsError (FileTree × Address) := do
  let a ← t.fileAddress path
  return (t.modify a id, a)

def append (path : String) (b : Text.Bytes) : Except OsError FileTree := do
  let (t, a) ← t.openAppend path
  return t.modify a (· ++ b)

def write (path : String) (b : Text.Bytes) : Except OsError FileTree := do
  let (t, a) ← t.create path
  return t.modify a fun _ => b

def withoutSlashes (path : String) : String :=
  let cs := (path.toList.reverse.dropWhile (· = '/')).reverse
  if cs.isEmpty then path else .ofList cs

def makeDir (path : String) : Except OsError FileTree := do
  let a ← t.resolve false (withoutSlashes path)
  match t.node? a with
  | some _ => .error .exists_
  | none => if t.isDirAt a.dropLast then .ok (t.put a .dir) else .error .notFound

def makeLink (target path : String) : Except OsError FileTree := do
  let a ← t.resolve false path
  match t.node? a with
  | some _ => .error .exists_
  | none => if t.isDirAt a.dropLast then .ok (t.put a (.link target)) else .error .notFound

/-- Makes a directory with all that are missing above it. Those made before an error stay. The length
of the path bounds their number. -/
def makeDirsFrom : Nat → FileTree → String → FileTree × Option OsError
  | 0, t, _ => (t, some .notFound)
  | fuel + 1, t, path =>
    if path = "" then (t, none)
    else
      match t.makeDir path, Path.parent? path with
      | .ok t, _ => (t, none)
      | .error .notFound, some p =>
        match makeDirsFrom fuel t p with
        | (t, some e) => (t, some e)
        | (t, none) =>
          match t.makeDir path with
          | .ok t => (t, none)
          | .error e => (t, if t.isDir path then none else some e)
      | .error e, _ => (t, if t.isDir path then none else some e)

def makeDirs (path : String) : FileTree × Option OsError := makeDirsFrom (path.length + 1) t path

def remove (path : String) : Except OsError FileTree := do
  let a ← t.resolve false path
  match t.node? a with
  | some _ => .ok (t.drop a)
  | none => .error .notFound

def setMode (path : String) (mode : Nat) : FileTree :=
  match t.lookup path with
  | .ok (a, .file b _) => t.put a (.file b mode)
  | _ => t

end FileTree

end Casework
