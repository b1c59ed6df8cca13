import Casework.Shell.Expansion

/-!
# Redirections

What a command has open besides what the shell has. Targets are worked out first, and then opened one
after the other.
-/

namespace Casework.Shell

open Text

inductive Aim where
  | toward (fd : Nat) (direction : Direction) (target : String)
  | document (fd number : Nat)

section
variable (run : Command → Act String)

def isDescriptor (target : String) : Bool :=
  match target.toList with
  | [c] => c.isDigit || c = '-'
  | _ => false

def aimOf : Redirect → Act Aim
  | .document fd number => return .document fd number
  | .toward fd direction w => do
    let target ← expandText run w
    if direction = .duplicate && !isDescriptor target then
      modify fun s => { s with line := s.reading }
      refuse "Syntax error: Bad fd number"
    return .toward fd direction target

def setDescriptor (fd : Nat) (id : Option Nat) : Act Unit := modify fun s =>
  let others := s.fds.filter (·.1 ≠ fd)
  { s with fds := id.elim others fun i => (fd, i) :: others }

def openingOf (s : Session) (direction : Direction) (target : String) : Machine.Opening :=
  match direction with
  | .input => .read
  | .append => .append
  | .readWrite => .update
  | .output =>
    if s.isOn 'C' then
      match s.machine.tree.get? (pathOf target) with
      | none => { writes := true, creates := true, fresh := true }
      | some n =>
        if FileTree.isRegular n then { writes := true, creates := true, fresh := true } else { writes := true }
    else .overwrite
  | _ => .overwrite

def openReason (creates : Bool) : OsError → String
  | .notFound | .notDirectory => if creates then "Directory nonexistent" else "No such file"
  | e => e.reason.1

def openAim (keeps : Bool) : Aim → Act Unit
  | .document fd number => do
    let text ← expandDocument run ((← get).documents.getD number [])
    let (id, machine) := (← get).machine.add (.input (ofOctets text) true)
    modify fun s => { s with machine }
    setDescriptor fd (some id)
  | .toward fd .duplicate target =>
    match target.toNat? with
    | none => setDescriptor fd none
    | some n => do
      let id? := (← get).fds.lookup n
      if n = fd then pure ()
      else if id?.isNone then
        if keeps then setDescriptor fd none
        refuse (target ++ ": Bad file descriptor")
      else setDescriptor fd id?
  | .toward fd direction target => do
    let s ← get
    let o := openingOf s direction target
    match s.machine.openPath o s.fds (pathOf target) with
    | .ok (id, machine) => do
      set { s with machine }
      setDescriptor fd (some id)
    | .error e =>
      refuse ((if o.creates then "cannot create " else "cannot open ") ++ target ++ ": " ++ openReason o.creates e)

def Aim.moved? : Aim → Option Nat
  | .document fd _ => some fd
  | .toward fd .duplicate target => if target.toNat? = some fd then none else some fd
  | .toward fd _ _ => some fd

def openFrom (keeps : Bool) : List Nat → List Aim → Act Unit
  | _, [] => pure ()
  | moved, a :: as => do
    openAim run (keeps && a.moved?.all (!moved.contains ·)) a
    openFrom keeps (a.moved?.toList ++ moved) as

/-- Opens all targets; whether that went well. It `keeps` for later what was open before. -/
def openAll (keeps : Bool) (aims : List Aim) : Act Bool := fun s =>
  match openFrom run keeps [] aims s with
  | .ok _ s => .ok true s
  | .error .error s => .ok false s
  | .error f s => .error f s

end

def withDescriptors {α : Type} (act : Act α) : Act α := fun s =>
  match act s with
  | .ok a t => .ok a { t with fds := s.fds }
  | .error (.gone e) t => .error (.gone e) t
  | .error f t => .error f { t with fds := s.fds }

def keepDescriptors {α : Type} (act : Act α) : Act α := fun s =>
  match act s with
  | .error (.gone e) t => .error (.gone e) t
  | .error f t => .error f { t with fds := s.fds }
  | r => r

end Casework.Shell
