import Casework.Host.Utility.Basic

/-!
# Making directories

One directory for each operand, with those above it if they are asked for.
-/

namespace Casework.Utility.Mkdir

open Text

def table : OptionTable where
  letters := [('m', .value), ('p', .nothing), ('v', .nothing), ('Z', .nothing)]
  words := [("context", 'Z', .nothing), ("mode", 'm', .value), ("parents", 'p', .nothing),
    ("verbose", 'v', .nothing), ("help", 'h', .nothing), ("version", 'V', .nothing)]

structure Choice where
  parents : Bool := false
  verbose : Bool := false
  mode : Option String := none

def Choice.set (c : Choice) (o : Char × String) : Choice :=
  match o.1 with
  | 'p' => { c with parents := true }
  | 'v' => { c with verbose := true }
  | 'm' => { c with mode := some o.2 }
  | _ => c

/-! ## Modes -/

def isOctal (c : Char) : Bool := '0' ≤ c && c ≤ '7'

def octalValue (cs : List Char) : Nat := cs.foldl (fun n c => n * 8 + (c.toNat - 48)) 0

/-- What follows an operator: a letter for those whose permissions are taken over, or letters of permissions,
or digits if nobody is named. What is left of the text. -/
def permissionsFrom (named : Bool) (cs : List Char) : List Char :=
  match cs with
  | c :: rest =>
    if "ugo".toList.contains c then rest
    else if !named && isOctal c then
      let behind := cs.dropWhile isOctal
      if octalValue (cs.takeWhile isOctal) < 0o10000 && behind.isEmpty then [] else cs
    else cs.dropWhile "rwxXst".toList.contains
  | [] => []

def isOperator (c : Char) : Bool := c = '+' || c = '-' || c = '='

def isOperations (named : Bool) : Nat → List Char → Bool
  | 0, _ => false
  | _, [] => true
  | fuel + 1, c :: cs => isOperator c && isOperations named fuel (permissionsFrom named cs)

def isChange (cs : List Char) : Bool :=
  let behind := cs.dropWhile fun c => "ugoa".toList.contains c
  !behind.isEmpty && isOperations (behind.length < cs.length) (behind.length + 1) behind

def isMode (mode : String) : Bool :=
  let cs := mode.toList
  if cs.head?.any Char.isDigit then cs.all isOctal && octalValue cs < 0o10000
  else (mode.splitOn ",").all fun m => isChange m.toList

/-! ## Paths -/

def beginnings (path : String) : List String :=
  let parts := path.splitOn "/"
  (List.range parts.length).map fun n => "/".intercalate (parts.take (n + 1))

def obstacle (t : FileTree) (path : String) : String :=
  ((beginnings path).find? fun p => t.exists_ (pathOf p) && !t.isDir (pathOf p)).getD path

def endsInName (p : String) : Bool :=
  match (p.splitOn "/").getLast? with
  | some s => s ≠ "" && s ≠ "." && s ≠ ".."
  | none => false

def missing (t : FileTree) (path : String) : List String :=
  let parts := (beginnings path).filter fun p => endsInName p && !t.exists_ (pathOf p)
  parts.map fun p => if p = FileTree.withoutSlashes path then path else p

def madeText (path : String) : String := "mkdir: created directory " ++ marked path ++ "\n"

def refusal (path : String) (e : OsError) : String :=
  "cannot create directory " ++ marked path ++ ": " ++ e.reason.1

def makeOne (c : Choice) (out : String) (w : Work) (path : String) : String × Work :=
  let t := w.machine.tree
  if c.parents then
    match t.makeDirs (pathOf path) with
    | (t', e) =>
      let made := (missing t path).filter fun p => t'.isDir (pathOf p)
      let out := if c.verbose then out ++ "".intercalate (made.map madeText) else out
      let w := { w with machine := w.machine.withTree t' }
      match if path.isEmpty then some .notFound else e with
      | none => (out, w)
      | some e => (out, w.warn (refusal (if e = .exists_ then path else obstacle t path) e))
  else
    match t.makeDir (pathOf path) with
    | .ok t => (if c.verbose then out ++ madeText path else out, { w with machine := w.machine.withTree t })
    | .error e => (out, w.warn (refusal path e))

def run (w : Work) (args : List String) : Work.End :=
  match table.follow (fun c o => .ok (c.set o)) ({} : Choice) args with
  | .error e => w.stop "[OPTION]... DIRECTORY..." e
  | .ok (c, operands) =>
    match c.mode.filter (!isMode ·), operands with
    | _, [] => .code (w.misuse "missing operand")
    | some m, _ => .code (w.warn ("invalid mode " ++ marked m))
    | none, ps =>
      let (out, w) := ps.foldl (fun (out, w) p => makeOne c out w p) ("", w)
      w.finish (ofOctets out)

end Casework.Utility.Mkdir
