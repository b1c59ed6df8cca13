import Casework.Host.Program
import Casework.Shell.Arithmetic
import Casework.Shell.Reader

/-!
# The state of a running shell

Variables, parameters and functions, what is open, and how commands leave the shell: going on, or on
the way out of a loop, a function or the whole. All texts are octets.
-/

namespace Casework.Shell

open Text

/-! ## What a shell knows -/

structure Var where
  value : Option String := none
  exported : Bool := false
  readonly : Bool := false
  fixed : Bool := false
  deriving DecidableEq, Repr, Inhabited

inductive Saved where
  | var (name : String) (old : Option Var)
  | options (letters : List Char)

structure Parameters where
  values : List String := []
  index : Nat := 1
  offset : Option Nat := none

structure Found where
  name : String
  path : String
  stale : Bool := false

structure Job where
  number : Nat
  processes : List Nat
  ending : Option Ending := none
  isOver : Bool := false
  isWaited : Bool := false

structure Unstarted where
  process : Nat
  /-- What it leaves, and how it ends if it has an end of its own. -/
  run : Machine → Machine × Option Ending

structure Session where
  machine : Machine
  fds : Descriptors
  vars : NameMap Var := {}
  frames : List (List Saved) := []
  params : Parameters := {}
  name : String := "sh"
  functions : NameMap Command := {}
  aliases : NameMap String := {}
  found : List Found := []
  documents : Array Word := #[]
  options : List Char := []
  traps : List (Nat × String) := []
  ignored : List Nat := []
  pending : List Nat := []
  mask : Nat := 18
  /-- Limits that have been set, by their letters: how far the shell and its children may go, and how far they
  may go on their own. -/
  limits : List (Char × Option Nat × Option Nat) := []
  status : Nat := 0
  result : Nat := 0
  substituted : Nat := 0
  settled : Option Nat := none
  line : Nat := 1
  reading : Nat := 1
  within : Option String := none
  loops : Nat := 0
  depth : Nat := 0
  directory : String := "/"
  physical : Option String := none
  root : Nat := 0
  self : Nat := 0
  ancestors : List Nat := []
  background : Option Nat := none
  jobs : List Job := []
  unstarted : List Unstarted := []
  buffer : List String := []
  tracing : Bool := false
  deriving Inhabited

inductive Flow where
  | leave (levels : Nat)
  | again (levels : Nat)
  | ret
  | error
  | exit
  | stop
  | gone (e : Ending)
  deriving Inhabited

abbrev Act := EStateM Flow Session

namespace Session

variable (s : Session)

def isOn (option : Char) : Bool := s.options.contains option

def withStatus (n : Nat) : Session := { s with status := n }

def withResult (n : Nat) : Session := { s with result := n }

/-! ## Output -/

def emit (fd : Nat) (text : String) : Session :=
  match (s.fds.lookup fd).map fun id => s.machine.write id (ofOctets text) with
  | some (.ok machine) => { s with machine }
  | _ => s

def complain (text : String) : Session :=
  s.emit 2 (s.name ++ ": " ++ toString s.line ++ ": " ++ (s.within.elim "" (· ++ ": ")) ++ text ++ "\n")

/-! ## Variables -/

def var? (n : String) : Option String := (s.vars.find? n).bind (·.value)

def putVar (n : String) (v : Var) : Session := { s with vars := s.vars.insert n v }

def isReadOnly (n : String) : Bool := (s.vars.find? n).any (·.readonly)

def environment : NameMap String :=
  .ofList (s.vars.entries.filterMap fun e => if e.2.exported then e.2.value.map (e.1, ·) else none)

def separators : String := (s.var? "IFS").getD " \t\n"

def searchEnvironment : NameMap String := .ofList ((s.var? "PATH").toList.map ("PATH", ·))

end Session

/-! ## Steps -/

def refuseWith {α : Type} (status : Nat) (text : String) : Act α := do
  modify fun s => (s.complain text).withStatus status
  throw .error

def refuse {α : Type} (text : String) : Act α := refuseWith 2 text

def illegalNumber {α : Type} (text : String) : Act α := refuse ("Illegal number: " ++ text)

def numberIn (text : String) : Act Nat :=
  match Arith.count? text with
  | some n => pure n
  | none => illegalNumber text

def print (text : String) : Act Unit := modify fun s => { s with buffer := text :: s.buffer }

def warn (text : String) : Act Unit := modify (·.complain text)

def note (text : String) : Act Unit := modify (·.emit 2 (text ++ "\n"))

def followVar (n : String) (value : String) : Act Unit :=
  if n = "OPTIND" then do
    let i ← numberIn value
    modify fun s => { s with params := { s.params with index := max i 1, offset := none } }
  else if n = "PATH" then modify fun s => { s with found := [] }
  else pure ()

def changeVar (n : String) (value : Option String) (f : Var → Var) : Act Unit := do
  let s ← get
  if s.isReadOnly n then refuse (n ++ ": is read only")
  if (s.vars.find? n).isSome then followVar n (value.getD "")
  modify fun s => s.putVar n (f ((s.vars.find? n).getD { }))

def nameAndValue (a : String) : String × Option String :=
  let cs := a.toList
  let n := cs.takeWhile (· ≠ '=')
  (.ofList n, if n.length < cs.length then some (.ofList (cs.drop (n.length + 1))) else none)

def checkName (n : String) : Act Unit := do
  if !isName n then refuse (n ++ ": bad variable name")

def setVar (n value : String) : Act Unit := do
  let all := (← get).isOn 'a'
  changeVar n (some value) fun v => { v with value := some value, exported := v.exported || all }

def setNamed (a value : String) : Act Unit := do
  let n := (nameAndValue a).1
  checkName n
  setVar n value

def exportVar (n value : String) : Act Unit :=
  changeVar n (some value) fun v => { v with value := some value, exported := true }

def unsetVar (n : String) : Act Unit := do
  changeVar n none fun v => { v with value := none }
  modify fun s => if (s.vars.find? n).any (·.fixed) then s else { s with vars := s.vars.erase n }

/-! ## Local variables -/

def save (x : Saved) : Act Unit := modify fun s =>
  match s.frames with
  | [] => s
  | f :: fs => { s with frames := (x :: f) :: fs }

def makeLocal (n : String) (value : Option String) (exported : Bool) : Act Unit := do
  let old := (← get).vars.find? n
  match old, value with
  | none, v => changeVar n v fun w => { w with value := v, exported := w.exported || exported, fixed := true }
  | some _, none => modify fun s => s.putVar n { ((s.vars.find? n).getD { }) with fixed := true }
  | some o, some v =>
    modify fun s => s.putVar n { o with fixed := true }
    changeVar n (some v) fun w => { w with value := some v, exported := w.exported || exported }
  save (.var n old)

def Saved.putBack (x : Saved) : Act Unit := do
  match x with
  | .options letters => modify fun s => { s with options := letters }
  | .var n none => do
    checkName n
    modify fun s => { s with vars := s.vars.erase n }
  | .var n (some v) =>
    followVar n (v.value.getD "")
    modify (·.putVar n v)

def Saved.keep (x : Saved) : Act Unit :=
  match x with
  | .options _ => pure ()
  | .var n old => modify fun s =>
    match s.vars.find? n with
    | none => s
    | some v =>
      let fixed := old.any (·.fixed)
      if !fixed && !v.exported && !v.readonly && v.value.isNone then { s with vars := s.vars.erase n }
      else s.putVar n { v with fixed }

def leaveFrame (keep : Bool) : Act Unit := do
  match (← get).frames with
  | [] => pure ()
  | f :: fs => do
    modify fun s => { s with frames := fs }
    f.forM fun x => if keep then x.keep else x.putBack

/-! ## Repetition -/

def exhausted {α : Type} (signal : Nat) : Act α := throw (.gone (.signal signal))

def iterate {σ : Type} (next : σ → Act (Option σ)) : Nat → σ → Act Unit
  | 0, _ => exhausted 9
  | rounds + 1, x => fun s =>
    match next x s with
    | .ok (some y) s => iterate next rounds y s
    | .ok none s => .ok () s
    | .error f s => .error f s

def tire : Act Unit := do
  let s ← get
  if s.machine.patience = 0 then exhausted 9
  set { s with machine := { s.machine with patience := s.machine.patience - 1 } }

/-! ## Options of builtins

Letters behind a dash, each with a value if it takes one. They end at the first argument that is not of
this kind, or behind two dashes.
-/

def letterOptions (takes : Char → Option Bool) :
    List Char → List String → Except String (List (Char × String) × List String)
  | [], args => .ok ([], args)
  | c :: cs, args =>
    match takes c with
    | none => .error ("Illegal option -" ++ .singleton c)
    | some false => do
      let (os, args) ← letterOptions takes cs args
      return ((c, "") :: os, args)
    | some true =>
      match cs, args with
      | [], [] => .error ("No arg for -" ++ .singleton c ++ " option")
      | [], v :: args => .ok ([(c, v)], args)
      | cs, args => .ok ([(c, .ofList cs)], args)

/-- Options up to the operands. Each argument is taken up once, so their number bounds the depth. -/
def optionsFrom (takes : Char → Option Bool) :
    Nat → List String → Except String (List (Char × String) × List String)
  | 0, args => .ok ([], args)
  | _, [] => .ok ([], [])
  | fuel + 1, a :: args =>
    match a.toList with
    | ['-', '-'] => .ok ([], args)
    | '-' :: c :: cs => do
      let (os, args) ← letterOptions takes (c :: cs) args
      let (ps, args) ← optionsFrom takes fuel args
      return (os ++ ps, args)
    | _ => .ok ([], a :: args)

def takeOptions (letters valued : String) (args : List String) : Act (List (Char × String) × List String) :=
  let takes (c : Char) : Option Bool :=
    if letters.toList.contains c then some false else if valued.toList.contains c then some true else none
  match optionsFrom takes args.length args with
  | .ok r => pure r
  | .error e => refuse e

def operands (args : List String) : Act (List String) := do return (← takeOptions "" "" args).2

def singleOption (letter : Char) (args : List String) : Act (Bool × List String) :=
  match args.head?.map String.toList with
  | some ['-', '-'] => pure (false, args.drop 1)
  | some ('-' :: c :: _) =>
    if c = letter then pure (true, []) else refuse ("Illegal option -" ++ .singleton c)
  | _ => pure (false, args)

end Casework.Shell
