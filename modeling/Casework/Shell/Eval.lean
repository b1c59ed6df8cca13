import Casework.Host.Program
import Casework.Shell.Builtin
import Casework.Shell.Redirection

/-!
# Running commands

Commands hold words and words hold commands, a shell runs programs and a program may be a shell, so the
functions here are defined together, by recursion on a bound for the depth of the calls.
-/

namespace Casework.Shell

open Text

structure Mode where
  tested : Bool := false
  last : Bool := false

def Mode.inner (m : Mode) : Mode := { tested := m.tested }

/-! ## Processes -/

def Session.forked (s : Session) : Session :=
  let process := s.machine.lastProcess + 1
  { s with
    machine := { s.machine with lastProcess := process }
    self := process
    ancestors := s.self :: s.ancestors
    traps := s.traps.filter (·.2.isEmpty)
    pending := []
    jobs := []
    unstarted := []
    buffer := [] }

def rejoin (before : Session) (machine : Machine) : Act Unit := do
  modify fun s => { s with machine := machine.withDirectory before.machine.tree.cwd }
  hearOfJobs
  receiveAll
  receive 17

def Session.launchOf (s : Session) (args : List String) : Launch where
  machine := s.machine
  fds := s.fds
  env := s.environment
  args := args
  process := s.self
  ancestors := s.ancestors
  ignored := (s.traps.filter (·.2.isEmpty)).map (·.1) ++ s.ignored

def startFirst (t : FileTree) (env : NameMap String) (args : List String) (reason : OsError) :
    List String → Except OsError (Utility × List String)
  | [] => .error reason
  | p :: ps =>
    match Program.start t env p args with
    | .ok r => .ok r
    | .error .execFormat => Program.start t env "/bin/sh" ("/bin/sh" :: p :: args.drop 1)
    | .error .notFound | .error .notDirectory => startFirst t env args reason ps
    | .error e => startFirst t env args e ps

def startStatus : OsError → Nat
  | .notFound | .notDirectory | .nameTooLong | .tooManyLinks => 127
  | _ => 126

/-! ## Output of builtins -/

def flush : Act Bool := do
  let s ← get
  if s.buffer.isEmpty then return true
  else
    set { s with buffer := [] }
    match (s.fds.lookup 1).map fun id => s.machine.write id (ofOctets ("".intercalate s.buffer.reverse)) with
    | some (.ok machine) => do
      modify fun s => { s with machine }
      return true
    | some (.error .brokenPipe) => do
      receive 13
      return false
    | _ => return false

def asBuiltin (name : String) (act : Act Nat) : Act Unit := fun s =>
  let done (t : Session) : Session := { t with within := s.within }
  match act { s with within := some name } with
  | .ok n t =>
    match flush t with
    | .ok true t => .ok () (done (t.withStatus n))
    | .ok false t => .ok () (done ((t.complain (name ++ ": I/O error")).withStatus (n ||| 1)))
    | .error f t => .error f (done t)
  | .error (.gone e) t => .error (.gone e) t
  | .error f t =>
    match flush t with
    | .ok _ t => .error f (done t)
    | .error f t => .error f (done t)

/-! ## Texts of scripts -/

def linesRead (text rest : List Char) : List Char :=
  let n := text.length - rest.length
  let read := text.take n
  if read.getLast? = some '\n' || rest.isEmpty then read else read ++ rest.takeWhile (· ≠ '\n') ++ ['\n']

def readNext (isShown : Bool) (lead : String) (r : Reader) : Act (Option (Option Command) × Reader) := fun s =>
  let shown (r' : Reader) (lines : Nat) (s : Session) : Session :=
    let s := if isShown then s.emit 2 (.ofList (linesRead r.text r'.text)) else s
    if lead.isEmpty then s else s.emit 2 ("".intercalate (List.replicate lines lead))
  match nextCommand { r with aliases := s.aliases, documents := s.documents } with
  | .ok c r' =>
    .ok (c, r') (shown r' (r'.line - r.line - 1) { s with documents := r'.documents, reading := r'.line })
  | .error e r' =>
    let s := { s with documents := r'.documents, reading := r'.line, line := e.line }
    refuse ("Syntax error: " ++ e.reason) (shown r' (r'.line - r.line) s)

def readText (text : String) : Act Word := fun s =>
  match wholeText { text := text.toList, documents := s.documents } with
  | .ok w r => .ok w { s with documents := r.documents }
  | .error _ _ => .ok (text.toList.map (.char · true)) s

def dropFinalNewlines (cs : List Char) : List Char := (cs.reverse.dropWhile (· = '\n')).reverse

def describeCommand (args : List String) : Act Nat := do
  let (os, names) ← commandOptions args
  let letters := os.map (·.1)
  match names with
  | [] => return 0
  | n :: _ =>
    if letters.contains 'v' || letters.contains 'V' then describe (letters.contains 'p') (letters.contains 'V') n
    else return 0

/-! ## Words of a simple command -/

structure Call where
  fields : List String := []
  shown : List String := []
  noFunctions : Bool := false
  standard : Bool := false
  special : Bool := false

inductive Meaning where
  | nothing
  | function (body : Command)
  | builtin
  | program

def Call.name (c : Call) : String := c.fields.headD ""

def Call.args (c : Call) : List String := c.fields.drop 1

def Session.meaning (s : Session) (c : Call) : Meaning :=
  match c.fields with
  | [] => .nothing
  | n :: _ =>
    match if c.noFunctions then none else s.functions.find? n with
    | some body => .function body
    | none => if isBuiltin n then .builtin else .program

def isDeclaring (name : String) : Bool := ["alias", "export", "local", "readonly"].contains name

section
variable (run : Command → Act String)

def firstFields : List Word → Act (List String × List Word)
  | [] => return ([], [])
  | w :: ws => do
    match ← expandFields run w with
    | [] => firstFields ws
    | fs => return (fs, ws)

/-- Fields behind options: whether programs are looked for where they are by default, and whether the options
have ended. Nothing if an option asks for something else. -/
def skipOptions : Bool → List String → Option (Bool × Bool × List String)
  | standard, [] => some (standard, false, [])
  | standard, f :: fs =>
    match f.toList with
    | ['-', '-'] => some (standard, true, fs)
    | '-' :: c :: cs => if (c :: cs).all (· = 'p') then skipOptions true fs else none
    | _ => some (standard, true, f :: fs)

def behindOptions (standard ended : Bool) (fs seen : List String) (ws : List Word) :
    Act (Option (Bool × List String) × List String × List Word) := do
  match if ended then some (standard, true, fs) else skipOptions standard fs with
  | none => return (none, seen, ws)
  | some (standard, _, f :: fs) => return (some (standard, f :: fs), seen, ws)
  | some (standard, ended, []) =>
    match ws with
    | [] => return (none, seen, [])
    | w :: ws => do
      let fs ← expandFields run w
      behindOptions standard ended fs (seen ++ fs) ws

def callFrom : Nat → Call → List Word → Act Call
  | 0, c, _ => return c
  | fuel + 1, c, ws => do
    let isFirst := !c.noFunctions
    match (← get).meaning c with
    | .builtin => do
      let c := if isFirst then { c with special := isSpecial c.name } else c
      if c.name = "command" then
        match ← behindOptions run c.standard false c.args [] ws with
        | (some (standard, fs), seen, ws) =>
          callFrom fuel { c with fields := fs, shown := c.shown ++ seen, noFunctions := true, standard } ws
        | (none, seen, ws) => rest { c with fields := c.fields ++ seen, shown := c.shown ++ seen } ws
      else rest c ws
    | _ => rest c ws
where
  rest (c : Call) (ws : List Word) : Act Call := do
    let expand := if isDeclaring c.name && isBuiltin c.name then expandDeclared run else expandFields run
    let fs := (← ws.mapM expand).flatten
    return { c with fields := c.fields ++ fs, shown := c.shown ++ fs }

def callOf (fuel : Nat) (words : List Word) : Act Call := do
  let (fs, ws) ← firstFields run words
  if fs.isEmpty then return {} else callFrom run fuel { fields := fs, shown := fs } ws

end

def leaveFrames (depth : Nat) : Nat → Act Unit
  | 0 => pure ()
  | n + 1 => do
    if depth < (← get).frames.length then
      leaveFrame false
      leaveFrames depth n

/-! ## Loops -/

/-- One round inside a loop: whether there is another one. A round that leaves more loops than this one goes
on to the next. -/
def round (act : Act Unit) : Act Bool := fun s =>
  match act s with
  | .ok _ s => .ok true s
  | .error (.leave 0) s => .ok false s
  | .error (.again 0) s => .ok true s
  | .error (.leave (n + 1)) s => .error (.leave n) s
  | .error (.again (n + 1)) s => .error (.again n) s
  | .error f s => .error f s

def asLoop (act : Act Unit) : Act Unit := fun s =>
  let done (t : Session) : Session := { t with loops := s.loops }
  match act { s with loops := s.loops + 1 } with
  | .ok _ t => .ok () (done t)
  | .error f t => .error f (done t)

/-! ## Files of scripts -/

def readScript (path : String) : Act String := do
  let s ← get
  match s.machine.openPath .read s.fds (pathOf path) with
  | .error e => refuse ("cannot open " ++ path ++ ": " ++ openReason false e)
  | .ok (id, machine) =>
    match machine.readAll id with
    | .error _ => return ""
    | .ok (b, machine) => do
      set { s with machine }
      return octets (b.filter (· ≠ 0))

def runUtility (u : Utility) (l : Launch) : Ran :=
  let work : Utility.Work := { name := l.args.headD "", machine := l.machine, fds := l.fds }
  let args := l.args.drop 1
  let ended : Utility.Work.End := match u with
    | .cat => Utility.Cat.run work args
    | .cut => Utility.Cut.run work args
    | .mkdir => Utility.Mkdir.run work args
    | .sh => .code work
  match ended with
  | .code w => ⟨w.machine, .code w.code⟩
  | .unheard w =>
    if l.ignored.contains 13 then ⟨(w.warn "write error: Broken pipe").machine, .code 1⟩
    else ⟨w.machine, .signal 13⟩

def pipeRoom : Nat := 65536

def largestRoom : Nat := 16777216

/-- How many rounds the loops of a command in the background may take before it is taken to have no end. -/
def backgroundPatience : Nat := 20000

def callLimit : Nat := 1000

def initialVars (l : Launch) : NameMap Var :=
  let given := (l.env.entries.filter (isName ·.1)).map fun e => (e.1, { value := some e.2, exported := true : Var })
  let own : List (String × String) :=
    [("PATH", Program.defaultPath), ("PS1", "# "), ("PS2", "> "), ("PS4", "+ ")].filter fun e =>
      !given.any (·.1 = e.1)
  let fixed : List (String × String) :=
    [("IFS", " \t\n"), ("OPTIND", "1"), ("PPID", toString (l.ancestors.headD 0))]
  let all := own ++ fixed
  let isExported (n : String) : Bool := given.any (·.1 = n)
  let isFixed (n : String) : Bool := n ≠ "PPID" && (all.any (·.1 = n) || n = "MAIL" || n = "MAILPATH")
  .ofList ((given.map fun e => (e.1, { e.2 with fixed := isFixed e.1 })) ++
    all.map fun e => (e.1, { value := some e.2, exported := isExported e.1, fixed := isFixed e.1 }))

def Session.ofLaunch (l : Launch) : Session :=
  let vars := initialVars l
  let cwd := ofPath l.machine.tree.cwd
  let here (p : String) : Bool :=
    Path.isAbsolute p && (l.machine.tree.resolve true (pathOf p)).toOption = (l.machine.tree.resolve true
      (pathOf cwd)).toOption
  let known := ((vars.find? "PWD").bind (·.value)).filter here
  let directory := known.getD cwd
  { machine := l.machine
    fds := l.fds
    vars := vars.insert "PWD" { value := some directory, exported := true }
    name := l.args.headD "sh"
    ignored := l.ignored
    line := 0
    directory
    physical := if known.isNone then some cwd else none
    root := l.process
    self := l.process
    ancestors := l.ancestors }

def isFatal (mode : Mode) (c : Command) (s : Session) : Bool :=
  s.isOn 'e' && !mode.tested && s.status ≠ 0 && !s.isOn 'n' &&
    match c with
    | .simple .. | .pipeline .. | .subshell .. | .background .. => true
    | _ => false

mutual

def eval : Nat → Mode → Command → Act Unit
  | 0, _, _ => exhausted 11
  | fuel + 1, mode, c => do
    if !(← get).isOn 'n' then
      attend fuel
      fun s =>
        match evalNow fuel mode c s with
        | .error .ret t => .error (if isFatal mode c t then .stop else .ret) t
        | r => r
    attend fuel
    if isFatal mode c (← get) then throw .stop

def evalNow : Nat → Mode → Command → Act Unit
  | 0, _, _ => exhausted 11
  | fuel + 1, mode, c => do
    match c with
    | .skip => pure ()
    | .simple line assigns words redirects => runSimple fuel mode line assigns words redirects
    | .pipeline cs => do
      let endings ← stages fuel mode.inner pipeRoom cs none
      endings.forM announceEnding
      modify (·.withStatus (endings.getLast?.elim 0 statusOf))
    | .not body => do
      eval fuel { tested := true } body
      modify fun s => s.withStatus (if s.status = 0 then 1 else 0)
    | .seq a b => do
      eval fuel mode.inner a
      eval fuel mode b
    | .andThen a b => do
      eval fuel { tested := true } a
      if (← get).status = 0 then eval fuel mode b
    | .orElse a b => do
      eval fuel { tested := true } a
      if (← get).status ≠ 0 then eval fuel mode b
    | .background body => background fuel body
    | .subshell line body rs => do
      modify fun s => { s with line }
      let aims ← rs.mapM (aimOf (substitute fuel))
      let act : Act Unit := do
        if ← openAll (substitute fuel) false aims then eval fuel { mode with last := true } body else throw .stop
      if mode.last && !(← get).hasTraps then act
      else
        let e ← apart fuel act
        announceEnding e
        modify (·.withStatus (statusOf e))
    | .redirected line body rs => do
      modify fun s => { s with line }
      let aims ← rs.mapM (aimOf (substitute fuel))
      withDescriptors do
        if ← openAll (substitute fuel) true aims then eval fuel mode.inner body
    | .branch c yes no => do
      eval fuel { tested := true } c
      if (← get).status = 0 then eval fuel mode yes
      else no.elim (modify (·.withStatus 0)) (eval fuel mode)
    | .loop until_ c body => loop fuel mode until_ c body
    | .forEach line name items body => do
      modify fun s => { s with line }
      let fields ← match items with
        | none => do pure (← get).params.values
        | some ws => List.flatten <$> ws.mapM (expandFields (substitute fuel))
      forEach fuel mode name fields body
    | .select line subject arms => do
      modify fun s => { s with line }
      let text ← expandText (substitute fuel) subject
      select fuel mode text.toList arms
    | .function name body => modify fun s =>
      { s with functions := s.functions.insert name body, found := s.found.filter (·.name ≠ name), status := 0 }

def loop : Nat → Mode → Bool → Command → Command → Act Unit
  | 0, _, _, _, _ => exhausted 11
  | fuel + 1, mode, until_, c, body =>
    let turn (status : Nat) : Act (Option Nat) := do
      tire
      let mut yes := false
      if ← round (eval fuel { tested := true } c) then
        yes := ((← get).status = 0) != until_
      else
        modify (·.withStatus status)
        return none
      if !yes then
        modify (·.withStatus status)
        return none
      else if ← round (eval fuel mode.inner body) then return some (← get).status
      else return none
    asLoop (do iterate turn ((← get).machine.patience + 1) 0)

def forEach : Nat → Mode → String → List String → Command → Act Unit
  | 0, _, _, _, _ => exhausted 11
  | fuel + 1, mode, name, fields, body =>
    let turn (fields : List String) : Act (Option (List String)) := do
      match fields with
      | [] => return none
      | v :: vs =>
        setVar name v
        return if ← round (eval fuel mode.inner body) then some vs else none
    if fields.isEmpty then modify (·.withStatus 0)
    else asLoop (iterate turn (fields.length + 1) fields)

def select : Nat → Mode → List Char → List (List Word × Command) → Act Unit
  | 0, _, _, _ => exhausted 11
  | _ + 1, _, _, [] => modify (·.withStatus 0)
  | fuel + 1, mode, text, (patterns, body) :: arms => do
    if ← fitsOne fuel text patterns then
      match body with
      | .skip => modify (·.withStatus 0)
      | body => eval fuel mode body
    else select fuel mode text arms

def fitsOne : Nat → List Char → List Word → Act Bool
  | 0, _, _ => exhausted 11
  | _ + 1, _, [] => return false
  | fuel + 1, text, w :: ws => do
    if accepts (← expandPattern (substitute fuel) w) text then return true else fitsOne fuel text ws

def apart : Nat → Act Unit → Act Ending
  | 0, _ => exhausted 11
  | fuel + 1, act => do
    startJobs
    let s ← get
    let (t, e) := conclude fuel act s.forked
    rejoin s t.machine
    return e

def conclude : Nat → Act Unit → Session → Session × Ending
  | 0, _, s => (s, .signal 11)
  | fuel + 1, act, s =>
    let code (n : Nat) : Ending := .code (n % 256)
    let atEnd (s : Session) (status : Nat) : Session × Ending :=
      match (s.traps.lookup 0).filter (!·.isEmpty) with
      | none => (s, code status)
      | some action =>
        let s := { s with traps := s.traps.filter (·.1 ≠ 0), settled := some status, status, loops := 0 }
        match runText fuel {} action s with
        | .error (.gone e) s => (s, e)
        | .error .error s | .error .stop s => (s, code s.status)
        | .ok _ s | .error _ s => (s, code (s.settled.getD status))
    let (s, e) := match act s with
      | .error (.gone e) s => (s, e)
      | .error .exit s => atEnd s (s.settled.getD s.status)
      | .ok _ s | .error _ s => atEnd s s.status
    match startJobs s with
    | .ok _ s | .error _ s => (s, e)

/-- The commands of a pipe, of which the first reads from `input`. One that writes more than a pipe holds is
given more room only if what follows reads all of it; otherwise it is cut off there. -/
def stages : Nat → Mode → Nat → List Command → Option Nat → Act (List Ending)
  | 0, _, _, _, _ => exhausted 11
  | _ + 1, _, _, [], _ => return []
  | fuel + 1, mode, room, c :: cs, input => do
    findAhead c
    startJobs
    let before ← get
    let act (output : Option Nat) : Act Unit := do
      if input.isSome then setDescriptor 0 input
      if output.isSome then setDescriptor 1 output
      eval fuel { mode with last := true } c
    if cs.isEmpty then return [← apart fuel (act none)]
    else
      let (id, machine) := before.machine.add (.output [] (some room))
      set { before with machine }
      let e ← apart fuel (act (some id))
      let isFull := match (← get).machine.channel? id with
        | some (.output _ (some 0)) => true
        | _ => false
      modify fun s => { s with machine := s.machine.setChannel id (.input (s.machine.collected id) true) }
      let es ← stages fuel mode pipeRoom cs (some id)
      let isRead := match (← get).machine.channel? id with
        | some (.input rest _) => rest.isEmpty
        | _ => true
      modify fun s => { s with machine := s.machine.setChannel id (.input [] true) }
      if isFull && isRead && room < largestRoom then
        set before
        stages fuel mode (room * 16) (c :: cs) input
      else return e :: es

/-- A command is put into the background. A signal that reaches it before it begins ends it as it would have
ended the shell. -/
def background : Nat → Command → Act Unit
  | 0, _ => exhausted 11
  | fuel + 1, body => do
    let s ← get
    let (null, machine) := s.machine.add (.device .null)
    let child := { s with machine }.forked
    let process := child.self
    let child := { child with
      ignored := 2 :: 3 :: child.ignored
      fds := (0, null) :: child.fds.filter (·.1 ≠ 0) }
    let run (m : Machine) : Machine × Option Ending :=
      match m.sent.reverse.find? fun x => x.1 = process && s.reaction x.2 = .die with
      | some x => (m, some (.signal x.2))
      | none =>
        let machine := { m.withDirectory s.machine.tree.cwd with patience := min m.patience backgroundPatience }
        let (t, e) := conclude fuel (eval fuel { last := true } body) { child with machine }
        if t.machine.patience = 0 && e = .signal 9 then ({ m with lastProcess := t.machine.lastProcess }, none)
        else ({ t.machine with patience := m.patience }, some e)
    let machine := { machine with lastProcess := process, unheard := process :: machine.unheard }
    let unstarted := s.unstarted ++ [{ process, run }]
    set { s with machine, unstarted, status := 0 }
    addJob [process]
    receiveAll

def substitute : Nat → Command → Act String
  | 0, _ => exhausted 11
  | fuel + 1, body => do
    let s ← get
    let (id, machine) := s.machine.add (.output [] none)
    set { s with machine }
    let e ← apart fuel do
      setDescriptor 1 (some id)
      eval fuel { last := true } body
    announceEnding e
    let b := (← get).machine.collected id
    modify fun s => { s with
      machine := s.machine.setChannel id (.output [] none)
      substituted := statusOf e }
    return .ofList (dropFinalNewlines (octets (b.filter (· ≠ 0))).toList)

def runText : Nat → Mode → String → Act Nat
  | 0, _, _ => exhausted 11
  | fuel + 1, mode, text => fun s =>
    let cs := text.toList
    let turn : Reader × Nat → Act (Option (Reader × Nat)) := fun (r, status) => do
      match ← readNext false "" r with
      | (none, _) => do
        modify (·.withResult status)
        return none
      | (some none, r') => return some (r', status)
      | (some (some c), r') => do
        eval fuel mode c
        return some (r', (← get).status)
    let done (t : Session) : Session := { t with reading := s.reading }
    match iterate turn (cs.length + 2) ({ text := cs }, 0) s with
    | .ok _ t => .ok t.result (done t)
    | .error f t => .error f (done t)

def leadOf : Nat → String → Act String
  | 0, _ => exhausted 11
  | fuel + 1, name => do expandDocument (substitute fuel) (← readText (((← get).var? name).getD ""))

/-- Runs the commands of a file, which are shown as they are read if that is asked for. The script of the shell
itself is at the `top`; there a shell that takes itself to be interactive asks for each command, and drops the
rest after an error. -/
def runFile : Nat → Bool → String → Act Nat
  | 0, _, _ => exhausted 11
  | fuel + 1, top, text => fun s =>
    let cs := text.toList
    let leave : Act Unit := do
      if top && (← get).isOn 'I' then
        modify (·.emit 2 ("".intercalate (List.replicate 50 "\nUse \"exit\" to leave shell.\n")))
      else if top && (← get).isOn 'i' then note ""
    let turn (x : Reader × Nat) : Act (Option (Reader × Nat)) := do
      let (r, status) := x
      let isAsking := top && (← get).isOn 'i'
      if isAsking then
        let lead ← leadOf fuel "PS1"
        modify (·.emit 2 lead)
      match ← readNext ((← get).isOn 'v') (← if isAsking then leadOf fuel "PS2" else pure "") r with
      | (none, _) => do
        leave
        modify (·.withResult status)
        return none
      | (some none, r') => return some (r', status)
      | (some (some c), r') => do
        eval fuel {} c
        return some (r', (← get).status)
    let recovering (x : Reader × Nat) : Act (Option (Reader × Nat)) := fun s =>
      match turn x s with
      | .error .error t =>
        if top && t.isOn 'i' then .ok (some ({ x.1 with text := [] }, t.status)) t else .error .error t
      | r => r
    let done (t : Session) : Session := { t with reading := s.reading }
    match iterate recovering (cs.length + 2) ({ text := cs }, 0) s with
    | .ok _ t => .ok t.result (done t)
    | .error .ret t => .ok t.status (done t)
    | .error f t => .error f (done t)

def attend : Nat → Act Unit
  | 0 => exhausted 11
  | fuel + 1 => do
    let s ← get
    if !s.pending.isEmpty then
      let status := s.settled.getD s.status
      set { s with pending := [], settled := some status }
      (s.pending.mergeSort (· ≤ ·)).forM fun n => do
        match (← get).reaction n with
        | .run action => do
          let _ ← runText fuel {} action
          modify (·.withStatus status)
        | _ => pure ()
      modify fun t => { t with settled := s.settled }

def runSimple : Nat → Mode → Nat → List (String × Word) → List Word → List Redirect → Act Unit
  | 0, _, _, _, _, _ => exhausted 11
  | fuel + 1, mode, line, assigns, words, redirects => do
    modify fun s => { s with line, substituted := 0 }
    let run := substitute fuel
    let call ← callOf run fuel words
    let before ← get
    let isLocal : Bool := match before.meaning call with
      | .nothing => false
      | .builtin => !call.special
      | _ => true
    let depth := before.frames.length
    if isLocal then modify fun s => { s with frames := [] :: s.frames }
    let aims ← redirects.mapM (aimOf run)
    let act : Act Unit := do
      if ← openAll run true aims then
        let exports := call.name = "exec" && 1 < call.fields.length
        let shown ← assigns.mapM fun a => do
          let v ← expandValue run a.2
          if isLocal then makeLocal a.1 (some v) true
          else if exports then exportVar a.1 v
          else setVar a.1 v
          return a.1 ++ "=" ++ v
        trace fuel before.fds (shown ++ call.shown)
        perform fuel mode call
      else if call.special then throw .error
    let keeps : Bool := match (← get).meaning call with
      | .builtin => call.name = "exec"
      | _ => false
    if keeps then keepDescriptors act else withDescriptors act
    leaveFrames depth ((← get).frames.length)

def trace : Nat → Descriptors → List String → Act Unit
  | 0, _, _ => exhausted 11
  | fuel + 1, fds, words => do
    let s ← get
    if s.isOn 'x' && !s.tracing then
      set { s with tracing := true }
      let lead ← leadOf fuel "PS4"
      modify fun t => { ({ t with fds }.emit 2 (lead ++ " ".intercalate words ++ "\n")) with
        fds := t.fds
        tracing := false }

def perform : Nat → Mode → Call → Act Unit
  | 0, _, _ => exhausted 11
  | fuel + 1, mode, call => do
    match (← get).meaning call with
    | .nothing => modify fun s => s.withStatus s.substituted
    | .function body => runFunction fuel mode body call.args
    | .builtin => fun s =>
      match asBuiltin call.name (runBuiltin fuel mode call) s with
      | .error .error t => if call.special then .error .error t else .ok () t
      | r => r
    | .program => runProgram fuel mode call

def runFunction : Nat → Mode → Command → List String → Act Unit
  | 0, _, _, _ => exhausted 11
  | fuel + 1, mode, body, args => fun s =>
    let t := { s with depth := s.depth + 1 }
    if callLimit < t.depth then
      refuse ("Maximum function recursion depth (" ++ toString callLimit ++ ") reached") t
    else
      let done (u : Session) : Session := { u with params := s.params, loops := s.loops, depth := u.depth - 1 }
      match eval fuel mode.inner body { t with params := { values := args }, loops := 0 } with
      | .ok _ u | .error .ret u => .ok () (done u)
      | .error f u => .error f (done u)

def runBuiltin : Nat → Mode → Call → Act Nat
  | 0, _, _ => exhausted 11
  | fuel + 1, mode, call => do
    match call.name, call.args with
    | "eval", args => runText fuel mode.inner (" ".intercalate args)
    | ".", args => do
      match ← operands args with
      | [] => return 0
      | name :: _ => source fuel name
    | "command", args => describeCommand args
    | "exec", args => do
      if args.isEmpty then return 0
      else
        let s ← get
        execute fuel args (if Program.hasSlash (args.headD "") then [args.headD ""]
          else Program.candidates s.searchEnvironment (args.headD ""))
    | name, args => builtin name args

def source : Nat → String → Act Nat
  | 0, _ => exhausted 11
  | fuel + 1, name => do
    let s ← get
    let isScript (p : String) : Bool := s.machine.tree.isFile (pathOf p)
    let found := if Program.hasSlash name then some name
      else (Program.candidates s.searchEnvironment name).find? isScript
    match found with
    | none => refuse (name ++ ": not found")
    | some p => do
      let text ← readScript p
      modify fun s => { s with within := some p }
      runFile fuel false text

def execute : Nat → List String → List String → Act Nat
  | 0, _, _ => exhausted 11
  | fuel + 1, args, paths => do
    startJobs
    let s ← get
    match startFirst s.machine.tree s.environment args .notFound paths with
    | .error e => do
      modify fun s => (s.complain (args.headD "" ++ ": " ++ programReason e)).withStatus (startStatus e)
      throw .stop
    | .ok (u, args) => do
      let ran := runLaunch fuel u (s.launchOf args)
      modify fun s => { s with machine := ran.machine }
      throw (.gone ran.ending)

def runProgram : Nat → Mode → Call → Act Unit
  | 0, _, _ => exhausted 11
  | fuel + 1, mode, call => do
    let name := call.name
    let paths? : Except OsError (List String) ←
      if Program.hasSlash name then pure (.ok [name])
      else do
        let s ← get
        let from_ (p : String) : List String :=
          (Program.candidates (if call.standard then {} else s.searchEnvironment) name).dropWhile (· ≠ p)
        let found ← if call.standard then findByDefault name else findProgram name
        pure (found.map from_)
    match paths? with
    | .error e => modify fun s => (s.complain (name ++ ": " ++ programReason e)).withStatus 127
    | .ok paths => do
      let act : Act Unit := do
        let _ ← execute fuel call.fields paths
      if mode.last && !(← get).hasTraps then act
      else
        let e ← apart fuel act
        announceEnding e
        modify (·.withStatus (statusOf e))

def runLaunch : Nat → Utility → Launch → Ran
  | 0, _, l => ⟨l.machine, .signal 11⟩
  | fuel + 1, u, l =>
    match u with
    | .sh =>
      let (s, e) := conclude fuel (shell fuel (l.args.drop 1)) (.ofLaunch l)
      ⟨s.machine, e⟩
    | u => runUtility u l

def shell : Nat → List String → Act Unit
  | 0, _ => exhausted 11
  | fuel + 1, args => do
    let r ← switchAll ['c', 'l'] args.length args
    let _ ← flush
    if r.more.contains 'c' && r.rest.isEmpty then refuse "-c requires an argument"
    let readsInput := r.rest.isEmpty || (← get).isOn 's'
    let text ← if r.more.contains 'c' || readsInput then pure "" else readScript (r.rest.headD "")
    let isSwitchedOff := (args.take (args.length - r.rest.length)).any fun a => a.startsWith "+" && a.toList.contains 'm'
    if (← get).isOn 'i' && !isSwitchedOff then switch true 'm'
    settleOptions
    if r.more.contains 'c' then
      modify fun s => { s with
        name := (r.rest.drop 1).headD s.name
        params := { values := r.rest.drop 2 } }
      let _ ← runText fuel {} (r.rest.headD "")
      if (← get).isOn 's' then input fuel
    else if readsInput then
      switch true 's'
      setParameters r.rest
      input fuel
    else
      modify fun s => { s with name := r.rest.headD "", params := { values := r.rest.drop 1 } }
      let _ ← runFile fuel true text

def input : Nat → Act Unit
  | 0 => exhausted 11
  | fuel + 1 => do
    let s ← get
    match (s.fds.lookup 0).map s.machine.readAll with
    | some (.ok (b, machine)) => do
      set { s with machine }
      let _ ← runFile fuel true (octets (b.filter (· ≠ 0)))
    | _ => pure ()

end

end Casework.Shell
