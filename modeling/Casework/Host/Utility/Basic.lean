import Casework.Host.Channel

/-!
# Small programs at work

Their options, how they quote the names of files, what they have open, how they complain, and how they
end. Their arguments and messages are octets.
-/

namespace Casework.Utility

/-! ## Options

Letters behind one dash, which may stand together, and words behind two, of which a beginning is enough
if no other option begins so. Options may stand behind operands, up to an argument of two dashes.
-/

inductive Takes where
  | nothing
  | value
  deriving DecidableEq, Repr

structure OptionTable where
  letters : List (Char × Takes)
  words : List (String × Char × Takes)

inductive OptionFault where
  | unknownLetter (c : Char)
  | unknownWord (text : String)
  | ambiguous (text : String) (candidates : List String)
  | letterNeedsValue (c : Char)
  | wordNeedsValue (word : String)
  | wordTakesNone (word : String)
  deriving DecidableEq, Repr

def OptionFault.message : OptionFault → String
  | unknownLetter c => "invalid option -- '" ++ .singleton c ++ "'"
  | unknownWord w => "unrecognized option '--" ++ w ++ "'"
  | ambiguous w cs =>
    "option '--" ++ w ++ "' is ambiguous; possibilities: " ++ " ".intercalate (cs.map fun c => "'--" ++ c ++ "'")
  | letterNeedsValue c => "option requires an argument -- '" ++ .singleton c ++ "'"
  | wordNeedsValue w => "option '--" ++ w ++ "' requires an argument"
  | wordTakesNone w => "option '--" ++ w ++ "' doesn't allow an argument"

/-- The options of a command line in their order, each with its value, and the operands. What stands behind
a fault is not read. -/
structure CommandArgs where
  options : List (Char × String) := []
  operands : List String := []
  fault : Option OptionFault := none

inductive Stop where
  | misuse (text : String)
  | help
  | version
  deriving DecidableEq, Repr

namespace OptionTable

variable (t : OptionTable)

def word? (text w : String) : Except OptionFault (String × Char × Takes) :=
  match t.words.find? (·.1 = w), t.words.filter (w.toList.isPrefixOf ·.1.toList) with
  | some e, _ | none, [e] => .ok e
  | none, [] => .error (.unknownWord text)
  | none, es => .error (.ambiguous text (es.map (·.1)))

def readLetters : List Char → List String → List (Char × String) × Except OptionFault (List String)
  | [], args => ([], .ok args)
  | c :: cs, args =>
    match t.letters.lookup c with
    | none => ([], .error (.unknownLetter c))
    | some .nothing =>
      let (os, r) := readLetters cs args
      ((c, "") :: os, r)
    | some .value =>
      match cs, args with
      | [], [] => ([], .error (.letterNeedsValue c))
      | [], v :: args => ([(c, v)], .ok args)
      | cs, args => ([(c, .ofList cs)], .ok args)

def readWord (text : String) (args : List String) : Except OptionFault ((Char × String) × List String) :=
  let name : String := .ofList (text.toList.takeWhile (· ≠ '='))
  let value : Option String :=
    if text.toList.contains '=' then some (.ofList ((text.toList.dropWhile (· ≠ '=')).drop 1)) else none
  do
    let (full, c, takes) ← t.word? text name
    match takes, value, args with
    | .nothing, none, args => .ok ((c, ""), args)
    | .nothing, some _, _ => .error (.wordTakesNone full)
    | .value, some v, args => .ok ((c, v), args)
    | .value, none, v :: args => .ok ((c, v), args)
    | .value, none, [] => .error (.wordNeedsValue full)

def readFrom : Nat → List String → CommandArgs
  | 0, _ | _, [] => {}
  | fuel + 1, a :: args =>
    match a.toList with
    | ['-', '-'] => { operands := args }
    | '-' :: '-' :: text =>
      match t.readWord (.ofList text) args with
      | .error f => { fault := some f }
      | .ok (o, args) => let r := readFrom fuel args; { r with options := o :: r.options }
    | '-' :: c :: cs =>
      match t.readLetters (c :: cs) args with
      | (os, .error f) => { options := os, fault := some f }
      | (os, .ok args) => let r := readFrom fuel args; { r with options := os ++ r.options }
    | _ => let r := readFrom fuel args; { r with operands := a :: r.operands }

def read (args : List String) : CommandArgs := t.readFrom args.length args

/-- Follows the options one after the other, and gives back the operands. The letters `h` and `V` stand for
the words that ask for help and for the version. -/
def follow (set : σ → Char × String → Except String σ) (start : σ) (args : List String) :
    Except Stop (σ × List String) := do
  let a := t.read args
  let s ← a.options.foldlM (fun s o =>
    if o.1 = 'h' then .error .help
    else if o.1 = 'V' then .error .version
    else (set s o).mapError .misuse) start
  match a.fault with
  | some f => .error (.misuse f.message)
  | none => return (s, a.operands)

end OptionTable

/-! ## Names in messages

Two ways in which a name is quoted of which every character is a byte. A bare name is left alone where
a shell would read it as it is; a marked name always stands between quotes.
-/

def isPrintable (c : Char) : Bool := ' ' ≤ c && c ≤ '~'

def octalDigit (n : Nat) : Char := Char.ofNat (48 + n % 8)

def escapeOf (c : Char) : List Char :=
  match [('\x07', 'a'), ('\x08', 'b'), ('\x0c', 'f'), ('\n', 'n'), ('\r', 'r'), ('\t', 't'), ('\x0b', 'v')].lookup c with
  | some d => ['\\', d]
  | none => ['\\', octalDigit (c.toNat / 64), octalDigit (c.toNat / 8), octalDigit c.toNat]

/-! ## Marked names -/

def markedChar (c : Char) : List Char :=
  if c = '\'' || c = '\\' then ['\\', c] else if isPrintable c then [c] else escapeOf c

def marked (name : String) : String := "'" ++ .ofList (name.toList.flatMap markedChar) ++ "'"

/-! ## Bare names -/

def isShellSpecial (first : Bool) (c : Char) : Bool :=
  !isPrintable c || " !\"$&()*;<=>[^\x60|'?\\:".toList.contains c || (first && (c = '#' || c = '~'))

def isHarmless (name : List Char) : Bool :=
  match name with
  | [] => false
  | [c] => !isShellSpecial true c && c ≠ '\x7b' && c ≠ '\x7d'
  | c :: cs => !isShellSpecial true c && cs.all (!isShellSpecial false ·)

def isPlainInDouble (first : Bool) (c : Char) : Bool :=
  c.isAlphanum || "%+,-./:]_@ '".toList.contains c || (first && (c = '#' || c = '~'))

def isPlainDouble (name : List Char) : Bool :=
  name.contains '\'' &&
    match name with
    | [] => true
    | c :: cs => isPlainInDouble true c && cs.all (isPlainInDouble false)

def singleQuoted : Bool → List Char → List Char
  | _, [] => []
  | escaping, c :: cs =>
    if isPrintable c then
      (if escaping then ['\'', '\''] else []) ++ (if c = '\'' then ['\'', '\\', '\'', '\''] else [c]) ++
        singleQuoted false cs
    else (if escaping then [] else ['\'', '$', '\'']) ++ escapeOf c ++ singleQuoted true cs

def bare (name : String) : String :=
  let cs := name.toList
  if isHarmless cs then name
  else if isPlainDouble cs then "\"" ++ name ++ "\""
  else "'" ++ .ofList (singleQuoted false cs) ++ "'"

/-! ## Programs -/

open Text

structure Work where
  name : String
  machine : Machine
  fds : Descriptors
  code : Nat := 0

namespace Work

variable (w : Work)

def channel? (fd : Nat) : Option Nat := w.fds.lookup fd

def warn (text : String) : Work :=
  match (w.channel? 2).map fun id => w.machine.write id (ofOctets (w.name ++ ": " ++ text ++ "\n")) with
  | some (.ok machine) => { w with machine, code := 1 }
  | _ => { w with code := 1 }

def hint (text : String) : Work :=
  match (w.channel? 2).map fun id => w.machine.write id (ofOctets (text ++ "\n")) with
  | some (.ok machine) => { w with machine, code := 1 }
  | _ => { w with code := 1 }

def misuse (text : String) : Work := (w.warn text).hint ("Try '" ++ w.name ++ " --help' for more information.")

/-- Output is written when the program ends; a failure is its last message. -/
def print (b : Bytes) : Except OsError Work :=
  if b.isEmpty then .ok w
  else
    match w.channel? 1 with
    | none => .error .badDescriptor
    | some id => (w.machine.write id b).map fun machine => { w with machine }

inductive End where
  | code (w : Work)
  | unheard (w : Work)

def finish (b : Bytes) : End :=
  match w.print b with
  | .ok w => .code w
  | .error .brokenPipe => .unheard w
  | .error e => .code (w.warn ("write error: " ++ e.reason.1))

def stop (usage : String) (s : Stop) : End :=
  match s with
  | .misuse text => .code (w.misuse text)
  | .help => w.finish (ofOctets ("Usage: " ++ w.name ++ " " ++ usage ++ "\n"))
  | .version => w.finish (ofOctets (w.name ++ "\n"))

/-! ## Input -/

def contentOf (operand : String) : Except OsError (Bytes × Work) :=
  if operand = "-" then
    match w.channel? 0 with
    | none => .error .badDescriptor
    | some id => (w.machine.readAll id).map fun (b, machine) => (b, { w with machine })
  else do
    let (id, machine) ← w.machine.openPath .read w.fds (pathOf operand)
    let (b, machine) ← machine.readAll id
    return (b, { w with machine })

end Work

end Casework.Utility
