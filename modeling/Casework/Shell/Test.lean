import Casework.Host.Channel
import Casework.Shell.Arithmetic

/-!
# Conditions of the shell

The expressions of `test` and `[`: texts, integers and files, with negation, conjunction and
disjunction.
-/

namespace Casework.Shell.Test

open Text

structure Scene where
  machine : Machine
  fds : Descriptors

inductive Sight where
  | node (n : FileNode)
  | pipe
  deriving DecidableEq

namespace Scene

variable (v : Scene)

def channelSight : Channel → Sight
  | .file a .. => .node ((v.machine.tree.node? a).getD .dir)
  | .device d => .node (.device d)
  | .input _ piped => if piped then .pipe else .node (.device .null)
  | .output .. => .pipe

def sight? (path : String) : Option Sight :=
  match v.machine.tree.get? (pathOf path) with
  | some (.device (.descriptor n)) => ((v.fds.lookup n).bind v.machine.channel?).map v.channelSight
  | n => n.map .node

def isLink (path : String) : Bool :=
  match v.machine.tree.resolve false (pathOf path) with
  | .ok a =>
    match v.machine.tree.node? a with
    | some (.link _) | some (.device (.descriptor _)) => true
    | _ => false
  | .error _ => false

end Scene

def Sight.mode : Sight → Nat
  | .node (.file _ m) => m
  | .node (.utility _) => 0o755
  | _ => 0

def Sight.is (s : Sight) (op : Char) : Bool :=
  match op with
  | 'f' => match s with | .node n => FileTree.isRegular n | .pipe => false
  | 'd' => s = .node .dir
  | 'c' => match s with | .node (.device _) => true | _ => false
  | 'p' => s = .pipe
  | 'x' => s = .node .dir || s.mode &&& 0o111 ≠ 0
  | 's' => match s with
    | .node (.file b _) => !b.isEmpty
    | .node .dir | .node (.utility _) => true
    | _ => false
  | 'u' => s.mode &&& 0o4000 ≠ 0
  | 'g' => s.mode &&& 0o2000 ≠ 0
  | 'k' => s.mode &&& 0o1000 ≠ 0
  | 'b' | 'S' => false
  | _ => true

inductive Fault where
  | illegalNumber (text : String)
  | argumentExpected (operator : String)
  | unexpectedOperator (word : String)
  | unclosed
  deriving DecidableEq, Repr

def Fault.message : Fault → String
  | illegalNumber t => "Illegal number: " ++ t
  | argumentExpected o => o ++ ": argument expected"
  | unexpectedOperator w => (if w.isEmpty then "" else w ++ ": ") ++ "unexpected operator"
  | unclosed => "closing paren expected"

def compare? (op : String) : Option (Int → Int → Bool) :=
  match op with
  | "-eq" => some fun a b => a == b
  | "-ne" => some fun a b => a != b
  | "-lt" => some fun a b => a < b
  | "-le" => some fun a b => a ≤ b
  | "-gt" => some fun a b => b < a
  | "-ge" => some fun a b => b ≤ a
  | _ => none

def integer (s : String) : Except Fault Int :=
  match Arith.integer? Arith.decimal s.toList with
  | some i => .ok i
  | none => .error (.illegalNumber s)

section
variable (v : Scene)

def sameFile (a b : String) : Bool :=
  match v.machine.tree.lookup (pathOf a), v.machine.tree.lookup (pathOf b) with
  | .ok (x, _), .ok (y, _) => x = y
  | _, _ => false

def binaryOps : List String :=
  ["=", "!=", "<", ">", "-eq", "-ne", "-lt", "-le", "-gt", "-ge", "-nt", "-ot", "-ef"]

def binary (op a b : String) : Except Fault Bool :=
  match op with
  | "=" => .ok (a = b)
  | "!=" => .ok (a ≠ b)
  | "<" => .ok (a < b)
  | ">" => .ok (b < a)
  | "-ef" => .ok (sameFile v a b)
  | op =>
    match compare? op with
    | none => .ok false
    | some f => do return f (← integer a) (← integer b)

def unaryOps : List String :=
  ["-n", "-z", "-t", "-h", "-L", "-e", "-f", "-d", "-c", "-b", "-p", "-u", "-g", "-k", "-S", "-G", "-O", "-r", "-w",
    "-x", "-s"]

def unary (op a : String) : Except Fault Bool :=
  match op with
  | "-n" => .ok (!a.isEmpty)
  | "-z" => .ok a.isEmpty
  | "-t" => (integer a).map fun _ => false
  | "-h" | "-L" => .ok (v.isLink a)
  | op => .ok ((v.sight? a).any fun s => (op.toList[1]?).any s.is)

/-! ## Words by their place -/

inductive Role where
  | nothing
  | operand
  | unary
  | binary
  | not
  | and
  | or
  | opening
  | closing
  deriving DecidableEq

def role : List String → Role
  | [] => .nothing
  | w :: ws =>
    if w = "!" then .not
    else if w = "-a" then .and
    else if w = "-o" then .or
    else if w = ")" then .closing
    else if w = "(" then if ws.isEmpty then .operand else .opening
    else if binaryOps.contains w then .binary
    else if unaryOps.contains w then
      match ws with
      | [] => .operand
      | [_] => .unary
      | x :: _ => if binaryOps.contains x then .operand else .unary
    else .operand

/-! ## Expressions -/

abbrev Reading := Except Fault (Bool × List String)

mutual

def disjunction : Nat → List String → Reading
  | 0, ws => .ok (false, ws)
  | fuel + 1, ws => do
    let (x, ws) ← conjunction fuel ws
    if role (ws.drop 1) = .or then
      let (y, ws) ← disjunction fuel (ws.drop 2)
      return (x || y, ws)
    else return (x, ws)

def conjunction : Nat → List String → Reading
  | 0, ws => .ok (false, ws)
  | fuel + 1, ws => do
    let (x, ws) ← negation fuel ws
    if role (ws.drop 1) = .and then
      let (y, ws) ← conjunction fuel (ws.drop 2)
      return (x && y, ws)
    else return (x, ws)

def negation : Nat → List String → Reading
  | 0, ws => .ok (false, ws)
  | fuel + 1, ws =>
    if role ws = .not then
      if ws.length = 1 then .ok (true, ws)
      else do
        let (x, ws) ← negation fuel (ws.drop 1)
        return (!x, ws)
    else primary fuel ws

def primary : Nat → List String → Reading
  | 0, ws => .ok (false, ws)
  | fuel + 1, ws =>
    match role ws, ws with
    | .opening, _ :: ws =>
      if role ws = .closing then .ok (false, ws)
      else do
        let (x, ws) ← disjunction fuel ws
        if role (ws.drop 1) = .closing then return (x, ws.drop 1) else .error .unclosed
    | .unary, op :: a :: ws => do return (← unary v op a, a :: ws)
    | _, a :: ws =>
      if role ws = .binary then
        match ws with
        | op :: b :: ws => do return (← binary v op a b, b :: ws)
        | ws => .error (.argumentExpected (ws.headD ""))
      else .ok (!a.isEmpty, a :: ws)
    | _, [] => .ok (false, [])

end

def whole (ws : List String) : Except Fault Bool :=
  match disjunction v (6 * ws.length + 8) ws with
  | .error e => .error e
  | .ok (x, rest) => if rest.length ≤ 1 then .ok x else .error (.unexpectedOperator (rest.headD ""))

def three (a b c : String) : Bool × Except Fault Bool :=
  if binaryOps.contains b then (false, binary v b a c)
  else if a = "(" ∧ c = ")" then (false, whole v [b])
  else if a = "!" then (true, whole v [b, c])
  else (false, whole v [a, b, c])

/-- The answer. A negation before at most three words holds for all of them, and is made once. -/
def answer (ws : List String) : Except Fault Bool :=
  match ws with
  | [] => .ok false
  | [a, b, c] =>
    let (negated, x) := three v a b c
    x.map (· != negated)
  | [a, b, c, d] =>
    if a = "(" ∧ d = ")" then whole v [b, c]
    else if a = "!" then (three v b c d).2.map (!·)
    else whole v ws
  | ws => whole v ws

end

end Casework.Shell.Test
