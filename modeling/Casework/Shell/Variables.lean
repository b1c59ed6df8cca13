import Casework.Shell.Job

/-!
# Variables and parameters

Builtins that change variables, parameters and options of the shell.
-/

namespace Casework.Shell

def listVars (lead : String) (f : Var → Bool) : Act Unit := do
  let line (e : String × Var) : String :=
    lead ++ e.1 ++ (e.2.value.elim "" fun v => "=" ++ singleQuoted v) ++ "\n"
  print ("".intercalate (((← get).vars.entries.filter (f ·.2)).map line))

/-! ## Marking variables -/

def markVar (mark : Var → Var) (a : String) : Act Unit := do
  let (n, value) := nameAndValue a
  let s ← get
  match value, s.vars.find? n with
  | none, some v => set (s.putVar n (mark v))
  | value, _ => do
    checkName n
    changeVar n value fun v => mark { v with value, exported := v.exported || s.isOn 'a' }

def markCommand (name : String) (marked : Var → Bool) (mark : Var → Var) (args : List String) : Act Nat := do
  let (isAsked, names) ← singleOption 'p' args
  if isAsked || names.isEmpty then listVars (name ++ " ") marked else names.forM (markVar mark)
  return 0

def exportCommand : List String → Act Nat :=
  markCommand "export" (·.exported) fun v => { v with exported := true }

def readonlyCommand : List String → Act Nat :=
  markCommand "readonly" (·.readonly) fun v => { v with readonly := true }

def localCommand (args : List String) : Act Nat := do
  if (← get).frames.isEmpty then refuse "not in a function"
  args.forM fun a => do
    if a = "-" then save (.options (← get).options)
    else
      let (n, value) := nameAndValue a
      if value.isNone && ((← get).vars.find? n).isNone then checkName n
      makeLocal n value false
  return 0

def unsetCommand (args : List String) : Act Nat := do
  let (os, names) ← takeOptions "fv" "" args
  if (os.map (·.1)).getLast? = some 'f' then
    modify fun s => { s with functions := names.foldl NameMap.erase s.functions }
  else
    names.forM fun a => do
      let n := (nameAndValue a).1
      checkName n
      if ((← get).vars.find? n).isSome then unsetVar n
  return 0

/-! ## Options of the shell -/

def optionNames : List (String × Char) :=
  [("errexit", 'e'), ("noglob", 'f'), ("ignoreeof", 'I'), ("interactive", 'i'), ("monitor", 'm'),
    ("noexec", 'n'), ("stdin", 's'), ("xtrace", 'x'), ("verbose", 'v'), ("vi", 'V'), ("emacs", 'E'),
    ("noclobber", 'C'), ("allexport", 'a'), ("notify", 'b'), ("nounset", 'u'), ("privileged", 'p'),
    ("nolog", '1'), ("debug", '2')]

def isOptionLetter (c : Char) : Bool := !c.isDigit && optionNames.any (·.2 = c)

def switch (on : Bool) (c : Char) : Act Unit := modify fun s =>
  let others := s.options.erase c
  let others := if on && c = 'V' then others.erase 'E' else if on && c = 'E' then others.erase 'V' else others
  { s with options := if on then c :: others else others }

def optionLine (on : Bool) (s : Session) (e : String × Char) : String :=
  if on then
    e.1 ++ .ofList (List.replicate (16 - e.1.length) ' ') ++ (if s.isOn e.2 then "on" else "off") ++ "\n"
  else "set " ++ (if s.isOn e.2 then "-o " else "+o ") ++ e.1 ++ "\n"

def switchNamed (on starting : Bool) : List String → Act (List String)
  | [] => do
    let s ← get
    let s := if starting then { s with options := optionNames.map (·.2) } else s
    print ((if on then "Current option settings\n" else "") ++
      "".intercalate (optionNames.map (optionLine on s)))
    return []
  | n :: args =>
    match optionNames.lookup n with
    | some c => do
      switch on c
      return args
    | none => refuse ("Illegal option -o " ++ n)

/-- Switches the options that letters stand for; the letter `o` takes a name from the arguments. Letters of
`more` mean something to the caller, who gets them. -/
def switchLetters (on : Bool) (more : List Char) : List Char → List String → Act (List Char × List String)
  | [], args => return ([], args)
  | c :: cs, args => do
    if more.contains c then
      let (ms, args) ← switchLetters on more cs args
      return (c :: ms, args)
    else if c = 'o' then switchLetters on more cs (← switchNamed on (!more.isEmpty) args)
    else if isOptionLetter c then
      switch on c
      switchLetters on more cs args
    else refuse ("Illegal option -" ++ .singleton c)

structure Settings where
  more : List Char := []
  dashes : Nat := 0
  rest : List String := []

def switchAll (more : List Char) : Nat → List String → Act Settings
  | 0, args => return { rest := args }
  | _, [] => return {}
  | fuel + 1, a :: args =>
    match a.toList with
    | ['-', '-'] => return { dashes := 2, rest := args }
    | ['-'] => return { dashes := 1, rest := args }
    | '-' :: cs => go fuel true cs args
    | '+' :: cs => go fuel false cs args
    | _ => return { rest := a :: args }
where
  go (fuel : Nat) (on : Bool) (cs : List Char) (args : List String) : Act Settings := do
    let (ms, args) ← switchLetters on more cs args
    let r ← switchAll more fuel args
    return { r with more := ms ++ r.more }

def setParameters (values : List String) : Act Unit := modify fun s => { s with params := { values } }

def settleOptions : Act Unit := do
  if (← get).isOn 'm' then
    warn "can't access tty; job control turned off"
    switch false 'm'

def setCommand (args : List String) : Act Nat := do
  if args.isEmpty then listVars "" (·.value.isSome)
  else
    let r ← switchAll [] args.length args
    if r.dashes = 1 then
      switch false 'x'
      switch false 'v'
    settleOptions
    if r.dashes = 2 || !r.rest.isEmpty then setParameters r.rest
  return 0

def shiftCommand (args : List String) : Act Nat := do
  let n ← args.head?.elim (pure 1) numberIn
  let values := (← get).params.values
  if values.length < n then refuse "can't shift that many"
  setParameters (values.drop n)
  return 0

/-! ## Options of a script -/

structure OptionFound where
  letter : Char := '?'
  value : Option String := none
  complaint : Option String := none
  index : Nat
  offset : Option Nat := none
  ended : Bool := false

def expects : List Char → Char → Option Bool
  | [], _ => none
  | d :: ':' :: ds, c => if c = d then some true else expects ds c
  | d :: ds, c => if c = d then some false else expects ds c

def optionLetter (expected : List Char) (args : List String) (index offset : Nat) (c : Char) (cs : List Char) :
    OptionFound :=
  let silent := expected.head? = some ':'
  let fault (letter : Char) (complaint : String) (index : Nat) (offset : Option Nat) : OptionFound :=
    if silent then { letter, value := some (.singleton c), index, offset }
    else { letter := '?', complaint := some complaint, index, offset }
  match expects expected c with
  | none => fault '?' ("Illegal option -" ++ .singleton c) index (some (offset + 1))
  | some false => { letter := c, value := some "", index, offset := some (offset + 1) }
  | some true =>
    match cs, args[index - 1]? with
    | [], none => fault ':' ("No arg for -" ++ .singleton c ++ " option") index none
    | [], some v => { letter := c, value := some v, index := index + 1 }
    | cs, _ => { letter := c, value := some (.ofList cs), index }

def nextOption (expected : List Char) (args : List String) (index : Nat) (offset : Option Nat) : OptionFound :=
  let left : Option (Nat × List Char) :=
    match offset, if index ≤ 1 then none else args[index - 2]? with
    | some k, some a => some (k, a.toList.drop k)
    | _, _ => none
  match left with
  | some (k, c :: cs) => optionLetter expected args index k c cs
  | _ =>
    match (args[index - 1]?).map String.toList with
    | some ['-', '-'] => { index := index + 1, ended := true }
    | some ('-' :: c :: cs) => optionLetter expected args (index + 1) 1 c cs
    | _ => { index, ended := true }

def getoptsCommand (args : List String) : Act Nat := do
  match args with
  | expected :: name :: own => do
    let p := (← get).params
    let from_ := if own.isEmpty then p.values else own
    let fresh := from_.length + 1 < p.index
    let r := nextOption expected.toList from_ (if fresh then 1 else p.index) (if fresh then none else p.offset)
    if !r.ended then
      match r.complaint with
      | some t => do
        note t
        if ((← get).vars.find? "OPTARG").isSome then unsetVar "OPTARG"
      | none => setVar "OPTARG" (r.value.getD "")
    changeVar' "OPTIND" (toString r.index)
    setNamed name (.singleton r.letter)
    modify fun s => { s with params := { s.params with index := r.index, offset := r.offset } }
    return if r.ended then 1 else 0
  | _ => refuse "Usage: getopts optstring var [arg...]"
where
  changeVar' (n value : String) : Act Unit := do
    let s ← get
    if s.isReadOnly n then refuse (n ++ ": is read only")
    set (s.putVar n { ((s.vars.find? n).getD { }) with value := some value })

/-! ## Ending and looping -/

def exitCommand (args : List String) : Act Nat := do
  if let a :: _ := args then
    let n ← numberIn a
    modify fun s => { s with settled := some n }
  throw .exit

def returnCommand (args : List String) : Act Nat := do
  if let a :: _ := args then
    let n ← numberIn a
    modify (·.withStatus n)
  throw .ret

def loopCommand (flow : Nat → Flow) (args : List String) : Act Nat := do
  let n ← args.head?.elim (pure 1) numberIn
  if n = 0 then illegalNumber (args.headD "")
  let loops := (← get).loops
  modify (·.withStatus 0)
  if loops = 0 then return 0 else throw (flow (min n loops - 1))

/-! ## The mask of new files -/

def octalText (width n : Nat) : String :=
  let ds := Nat.toDigits 8 n
  .ofList (List.replicate (width - ds.length) '0' ++ ds)

def permissionText (n : Nat) : String :=
  (if n &&& 4 ≠ 0 then "r" else "") ++ (if n &&& 2 ≠ 0 then "w" else "") ++ (if n &&& 1 ≠ 0 then "x" else "")

def symbolicMask (mask : Nat) : String :=
  "u=" ++ permissionText (7 - mask / 64 % 8) ++ ",g=" ++ permissionText (7 - mask / 8 % 8) ++ ",o=" ++
    permissionText (7 - mask % 8)

def permissionOf (own : Nat) (c : Char) : Option Nat :=
  [('r', 4), ('w', 2), ('x', 1), ('u', own / 64 % 8), ('g', own / 8 % 8), ('o', own % 8),
    ('X', if own &&& 0o111 ≠ 0 then 1 else 0), ('s', 0)].lookup c

def placesOf (c : Char) : Option Nat := [('a', 0o111), ('u', 0o100), ('g', 0o10), ('o', 0o1)].lookup c

def symbolicFrom (own : Nat) : Nat → Nat → Nat → List Char → Option Nat
  | 0, _, _, _ => none
  | fuel + 1, now, places, cs =>
    let places := (cs.takeWhile fun c => (placesOf c).isSome).foldl
      (fun n c => n ||| (placesOf c).getD 0) places
    let places := if places = 0 then 0o111 else places
    match cs.dropWhile fun c => (placesOf c).isSome with
    | [] => some now
    | op :: cs =>
      if op ≠ '=' && op ≠ '+' && op ≠ '-' then none
      else
        let letters := cs.takeWhile fun c => (permissionOf own c).isSome
        let value := (letters.foldl (fun n c => n ||| (permissionOf own c).getD 0) 0) * places
        let without (bits : Nat) : Nat := now &&& (0o777 ^^^ bits)
        let now := if op = '-' then without value else if op = '=' then value ||| without (places * 7) else now ||| value
        match cs.drop letters.length with
        | [] => some now
        | ',' :: cs => symbolicFrom own fuel now 0 cs
        | c :: cs => if c = '=' || c = '+' || c = '-' then symbolicFrom own fuel now places (c :: cs) else none

def umaskCommand (args : List String) : Act Nat := do
  let (os, rest) ← takeOptions "S" "" args
  let mask := (← get).mask
  match rest with
  | [] => print ((if os.isEmpty then octalText 4 mask else symbolicMask mask) ++ "\n")
  | a :: _ =>
    if a.toList.head?.any Char.isDigit then
      if a.toList.all Arith.isOctalDigit then
        modify fun s => { s with mask := Arith.numberIn 8 a.toList % 512 }
      else illegalNumber a
    else
      match symbolicFrom (0o777 - mask) (a.length + 1) (0o777 - mask) 0 a.toList with
      | some own => modify fun s => { s with mask := 0o777 - own }
      | none => refuse ("Illegal mode: " ++ a)
  return 0

end Casework.Shell
