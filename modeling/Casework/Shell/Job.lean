import Casework.Shell.Session

/-!
# Jobs and signals

Commands that were put into the background, what is told of them and how they are waited for; and the
signals that scripts send and set something up for.
-/

namespace Casework.Shell

/-! ## Names of signals

What signals are called in commands, and what is said of a process that one has ended.
-/

def signalNames : List (Nat × String) :=
  [(0, "EXIT"), (1, "HUP"), (2, "INT"), (3, "QUIT"), (4, "ILL"), (5, "TRAP"), (6, "ABRT"), (7, "BUS"), (8, "FPE"),
    (9, "KILL"), (10, "USR1"), (11, "SEGV"), (12, "USR2"), (13, "PIPE"), (14, "ALRM"), (15, "TERM"), (17, "CHLD"),
    (18, "CONT"), (19, "STOP"), (20, "TSTP"), (21, "TTIN"), (22, "TTOU"), (23, "URG"), (24, "XCPU"), (25, "XFSZ"),
    (26, "VTALRM"), (27, "PROF"), (28, "WINCH"), (29, "IO"), (30, "PWR"), (31, "SYS")]

def firstRealTime : Nat := 34

def lastSignal : Nat := 64

def signalName (n : Nat) : String :=
  match signalNames.lookup n with
  | some name => name
  | none =>
    if n < firstRealTime || lastSignal < n then toString n
    else if n = firstRealTime then "RTMIN"
    else if n ≤ firstRealTime + 15 then "RTMIN+" ++ toString (n - firstRealTime)
    else if n < lastSignal then "RTMAX-" ++ toString (lastSignal - n)
    else "RTMAX"

def signalText? (n : Nat) : Option String :=
  if n = 2 || n = 13 then none
  else
    match [(1, "Hangup"), (3, "Quit"), (4, "Illegal instruction"), (5, "Trace/breakpoint trap"), (6, "Aborted"),
      (7, "Bus error"), (8, "Floating point exception"), (9, "Killed"), (10, "User defined signal 1"),
      (11, "Segmentation fault"), (12, "User defined signal 2"), (14, "Alarm clock"), (15, "Terminated"),
      (16, "Stack fault"), (24, "CPU time limit exceeded"), (25, "File size limit exceeded"),
      (26, "Virtual timer expired"), (27, "Profiling timer expired"), (29, "I/O possible"), (30, "Power failure"),
      (31, "Bad system call")].lookup n with
    | some t => some t
    | none =>
      some (if n < firstRealTime then "Unknown signal " ++ toString n
        else "Real-time signal " ++ toString (n - firstRealTime))

def isDigits (s : String) : Bool := !s.isEmpty && s.toList.all Char.isDigit

def signalOf? (least : Nat) (s : String) : Option Nat :=
  if isDigits s then s.toNat?.filter (· ≤ lastSignal)
  else
    let name : String := .ofList (s.toList.map Char.toUpper)
    (List.range (lastSignal + 1)).find? fun n => least ≤ n && signalName n = name

def isSignalNumber (s : String) : Bool := isDigits s && (signalOf? 0 s).isSome

/-! ## Jobs -/

def addJob (processes : List Nat) : Act Unit := modify fun s =>
  let jobs := s.jobs.filter fun j => !(j.isOver && j.isWaited)
  let number := ((List.range (jobs.length + 1)).find? fun n => !jobs.any (·.number = n + 1)).getD 0 + 1
  { s with jobs := { number, processes } :: jobs, background := processes.getLast? }

def jobOf (owned : Bool) (name : Option String) : Act Job := do
  let jobs := (← get).jobs
  let shown := name.getD "(null)"
  let found ← match (name.getD "%").toList with
    | ['%'] | ['%', '+'] | ['%', '%'] => jobs.head?.elim (refuse "No current job") pure
    | ['%', '-'] => (jobs.drop 1).head?.elim (refuse "No previous job") pure
    | '%' :: cs =>
      match jobs.find? fun j => (toString j.number).toList = cs with
      | some j => pure j
      | none => refuse ("No such job: " ++ shown)
    | _ => refuse ("No such job: " ++ shown)
  if owned then refuse ("job " ++ shown ++ " not created under job control")
  return found

def statusOf : Ending → Nat
  | .code n => n
  | .signal n => 128 + n

def announceEnding (e : Ending) : Act Unit :=
  match e with
  | .signal n => (signalText? n).forM note
  | .code _ => pure ()

def endingText : Ending → String
  | .code 0 => "Done"
  | .code n => "Done(" ++ toString n ++ ")"
  | .signal n => (signalText? n).getD ""

def jobLine (withProcess : Bool) (mark : Char) (j : Job) : String :=
  let text := "[" ++ toString j.number ++ "] " ++ .singleton mark ++ " " ++
    (if withProcess then toString (j.processes.headD 0) ++ " " else "") ++
    (if j.isOver then j.ending.elim "Running" endingText else "Running")
  text ++ .ofList (List.replicate (max 1 (33 - text.length)) ' ') ++
    "".intercalate (List.replicate (j.processes.length - 1) " | ") ++ "\n"

/-- Shows jobs from the last one on. One that is over is told of once, and the next takes its place. -/
def jobLines (withProcess : Bool) : Nat → List Job → List String
  | _, [] => []
  | place, j :: js =>
    jobLine withProcess (if place = 0 then '+' else if place = 1 then '-' else ' ') j ::
      jobLines withProcess (if j.isOver then place else place + 1) js

def jobsCommand (args : List String) : Act Nat := do
  let (os, names) ← takeOptions "lp" "" args
  let option := (os.map (·.1)).getLast?
  let shown ← if names.isEmpty then pure (← get).jobs else names.mapM fun n => jobOf false (some n)
  if option = some 'p' then
    print ("".intercalate (shown.map fun j => toString (j.processes.headD 0) ++ "\n"))
  else
    print ("".intercalate (jobLines (option = some 'l') 0 shown))
    modify fun s => { s with jobs := s.jobs.filter fun j => !(j.isOver && shown.any (·.number = j.number)) }
  return 0

def resumeCommand (args : List String) : Act Nat := do
  let names ← operands args
  let _ ← jobOf true names.head?
  return 0

/-! ## What a signal does -/

inductive Reaction where
  | nothing
  | run (action : String)
  | die
  deriving DecidableEq

def isQuiet (n : Nat) : Bool := [17, 18, 19, 20, 21, 22, 23, 28].contains n

def Session.reaction (s : Session) (n : Nat) : Reaction :=
  if n = 9 then .die
  else
    match s.traps.lookup n with
    | some "" => .nothing
    | some a => .run a
    | none => if s.ignored.contains n || isQuiet n then .nothing else .die

def Session.hasTraps (s : Session) : Bool := s.traps.any (!·.2.isEmpty)

def receive (n : Nat) : Act Unit := do
  match (← get).reaction n with
  | .nothing => pure ()
  | .run _ => modify fun s => if s.pending.contains n then s else { s with pending := n :: s.pending }
  | .die => throw (.gone (.signal n))

def receiveAll : Act Unit := do
  let s ← get
  if s.machine.sent.any (·.1 = s.self) then
    set { s with machine := { s.machine with sent := s.machine.sent.filter (·.1 ≠ s.self) } }
    (s.machine.sent.filter (·.1 = s.self)).reverse.forM fun m => receive m.2

/-! ## Sending -/

def killUsage : String :=
  "Usage: kill [-s sigspec | -signum | -sigspec] [pid | job]... or\nkill -l [exitstatus]"

def send (n : Nat) (target : String) : Act Nat := do
  let s ← get
  let isAlive (p : Nat) : Bool := p = s.self || s.ancestors.contains p || s.machine.unheard.contains p
  let process? ← match target.toList with
    | '%' :: _ => do
      let _ ← jobOf false (some target)
      pure none
    | '-' :: cs => do
      let _ ← numberIn (.ofList cs)
      pure none
    | _ => do pure (some (← numberIn target))
  match process?.filter isAlive with
  | none =>
    warn "No such process\n"
    return 1
  | some p =>
    if n ≠ 0 then
      modify fun s => { s with machine := { s.machine with sent := (p, n) :: s.machine.sent } }
      receiveAll
    return 0

def listSignals (args : List String) : Act Nat := do
  match args with
  | [] => do
    print ("0\n" ++ "".intercalate ((List.range lastSignal).map fun n => signalName (n + 1) ++ "\n"))
    return 0
  | a :: _ => do
    let n ← numberIn a
    let n := if 128 < n then n - 128 else n
    if n = 0 || lastSignal < n then refuse ("invalid signal number or exit status: " ++ a)
    print (signalName n ++ "\n")
    return 0

def killCommand (args : List String) : Act Nat := do
  let first := (args.headD "").toList
  let named? := if first.head? = some '-' then signalOf? 1 (.ofList (first.drop 1)) else none
  let (list, signal?, targets) ← match named?, first.head? with
    | some n, _ => pure (false, some n, args.drop 1)
    | none, some '-' => do
      let (os, rest) ← takeOptions "l" "s" args
      let signals ← (os.filter (·.1 = 's')).mapM fun o =>
        match signalOf? 1 o.2 with
        | some n => pure n
        | none => refuse ("invalid signal number or name: " ++ o.2)
      pure (os.any (·.1 = 'l'), signals.getLast?, rest)
    | none, _ => pure (false, none, args)
  if list then
    if signal?.isSome && !targets.isEmpty then refuse killUsage
    listSignals targets
  else if targets.isEmpty then refuse killUsage
  else
    let results ← targets.mapM (send (signal?.getD 15))
    return if results.all (· = 0) then 0 else 1

/-! ## Setting up -/

def singleQuotedFrom : Bool → List Char → List Char
  | double, [] => [if double then '"' else '\'']
  | double, c :: cs =>
    (if c = '\'' then if double then ['\''] else ['\'', '"', '\'']
      else if double then ['"', '\'', c] else [c]) ++ singleQuotedFrom (c = '\'') cs

def singleQuoted (text : String) : String := .ofList ('\'' :: singleQuotedFrom false text.toList)

def trapList (s : Session) : String :=
  "".intercalate ((List.range (lastSignal + 1)).filterMap fun n =>
    (s.traps.lookup n).map fun a => "trap -- " ++ singleQuoted a ++ " " ++ signalName n ++ "\n")

def setTraps (action : Option String) : List String → Act Nat
  | [] => return 0
  | name :: names => do
    match signalOf? 0 name with
    | none => do
      note ("trap: " ++ name ++ ": bad trap")
      return 1
    | some n => do
      modify fun s =>
        let others := s.traps.filter (·.1 ≠ n)
        { s with traps := action.elim others fun a => (n, a) :: others }
      setTraps action names

def trapCommand (args : List String) : Act Nat := do
  match ← operands args with
  | [] => do
    print (trapList (← get))
    return 0
  | [name] => setTraps none [name]
  | action :: names =>
    if isSignalNumber action then setTraps none (action :: names)
    else setTraps (if action = "-" then none else some action) names

/-! ## Waiting for jobs

A command in the background begins when the shell that has called it starts something else, waits or
ends, and then runs to its end, unless it has no end by itself. The shell hears of it when it next waits.
-/

def startJobs : Act Unit := do
  let s ← get
  if !s.unstarted.isEmpty then
    set { s with unstarted := [] }
    s.unstarted.forM fun u => modify fun s =>
      let (machine, ending) := u.run s.machine
      let jobs := s.jobs.map fun j => if j.processes.contains u.process then { j with ending } else j
      { s with jobs, machine := machine.withDirectory s.machine.tree.cwd }
    receiveAll

/-- How a job ends. One without an end of its own ends by the first signal that it was sent. -/
def Session.endingOf (s : Session) (j : Job) : Option Ending :=
  let signal? := s.machine.sent.reverse.find? fun m => j.processes.contains m.1 && !isQuiet m.2
  j.ending <|> signal?.map (.signal ·.2)

def hearOfJobs : Act Unit := do
  let s ← get
  let jobs := s.jobs.map fun j =>
    let ending := s.endingOf j
    { j with ending, isOver := j.isOver || ending.isSome }
  let isOver (p : Nat) : Bool := jobs.any fun j => j.isOver && j.processes.contains p
  set { s with jobs, machine := { s.machine with unheard := s.machine.unheard.filter (!isOver ·) } }

def endJob (number : Nat) : Act Ending := do
  let s ← get
  let ending := ((s.jobs.find? (·.number = number)).bind s.endingOf).getD (.signal 9)
  let jobs : List Job := s.jobs.map fun j =>
    if j.number = number then { j with ending := some ending, isOver := true, isWaited := true } else j
  set { s with jobs }
  return ending

/-- Starts what has not begun; what came of `act` then, unless a signal that the script minds has come first. -/
def unlessSignalled (act : Act Nat) : Act Nat := do
  let before ← get
  startJobs
  match (← get).pending.filter (!before.pending.contains ·) with
  | n :: _ => return 128 + n
  | [] => do
    let status ← act
    hearOfJobs
    if before.jobs.any (!·.isOver) then receive 17
    return status

def waitFor (name : String) : Act Nat := do
  let s ← get
  let job? ← match name.toList with
    | '%' :: _ => some <$> jobOf false (some name)
    | _ => do
      let p ← numberIn name
      pure (s.jobs.find? fun j => j.processes.getLast? = some p)
  match job? with
  | none => return 127
  | some j =>
    if j.isOver then return statusOf (← endJob j.number)
    else
      unlessSignalled do
        let ending ← endJob j.number
        announceEnding ending
        return statusOf ending

def waitCommand (args : List String) : Act Nat := do
  let names ← operands args
  if names.isEmpty then
    unlessSignalled do
      (← get).jobs.forM fun j => do
        let _ ← endJob j.number
      return 0
  else return (← names.mapM waitFor).getLast?.getD 0

end Casework.Shell
