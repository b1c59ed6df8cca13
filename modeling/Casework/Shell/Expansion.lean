import Casework.Shell.Fields
import Casework.Shell.Pattern
import Casework.Shell.Session

/-!
# Expansions

What a word comes to: tildes, parameters, arithmetic, and the output of commands. How commands are run is
given, so that all goes by recursion on the word.
-/

namespace Casework.Shell

open Text

structure Manner where
  full : Bool := false
  quoted : Bool := false
  word : Bool := false
  paths : Bool := false

structure Growth where
  done : List Segment := []
  /-- The word's own text that is being read, its last item first, and where it may be split. -/
  items : List Item := []
  splits : Splits := .nowhere
  quotes : Bool := false
  tilde : Bool := false
  dropped : Bool := false

namespace Growth

def close (g : Growth) : Growth :=
  if g.items.isEmpty then g else { g with done := ⟨g.splits, g.items.reverse⟩ :: g.done, items := [] }

def literal (g : Growth) (splits : Splits) (i : Item) : Growth :=
  if g.items.isEmpty || g.splits = splits then { g with items := i :: g.items, splits, tilde := false }
  else { g.close with items := [i], splits, tilde := false }

def append (g : Growth) (ss : List Segment) : Growth :=
  let g := g.close
  { g with done := ss.reverse ++ g.done, tilde := false }

def segments (g : Growth) : List Segment := g.close.done.reverse

end Growth

/-! ## Home directories -/

def accounts : List (String × String) :=
  [("root", "/root"), ("daemon", "/usr/sbin"), ("bin", "/bin"), ("sys", "/dev"), ("sync", "/bin"),
    ("games", "/usr/games"), ("man", "/var/cache/man"), ("lp", "/var/spool/lpd"), ("mail", "/var/mail"),
    ("news", "/var/spool/news"), ("uucp", "/var/spool/uucp"), ("proxy", "/bin"), ("www-data", "/var/www"),
    ("backup", "/var/backups"), ("list", "/var/list"), ("irc", "/run/ircd"), ("_apt", "/nonexistent"),
    ("nobody", "/nonexistent")]

def homeOf (s : Session) (name : String) : Option String :=
  if name.isEmpty then s.var? "HOME" else accounts.lookup name

def tildeName? (paths : Bool) : Word → Option String
  | [] => some ""
  | .char c false :: w =>
    if c = '/' || (paths && c = ':') then some "" else (tildeName? paths w).map (.singleton c ++ ·)
  | _ => none

/-! ## Parameters -/

def joined (between : List Item) (quoted : Bool) : List String → List Item
  | [] => []
  | [v] => charItems quoted v
  | v :: vs => charItems quoted v ++ between ++ joined between quoted vs

def between (s : Session) (quoted : Bool) : List Item :=
  match s.var? "IFS" with
  | none => [.char ' ' quoted]
  | some v => ((v.toList.head?).map (.char · quoted)).toList

def paramItems (s : Session) (m : Manner) (name : String) : Option (List Item) :=
  let text (t : String) : Option (List Item) := some (charItems m.quoted t)
  let all (apart : Bool) : Option (List Item) :=
    let apart := apart && (m.quoted || (s.var? "IFS").isSome)
    some (joined (if apart then [parting] else between s m.quoted) m.quoted s.params.values)
  match name with
  | "$" => text (toString s.root)
  | "?" => text (toString s.status)
  | "#" => text (toString s.params.values.length)
  | "!" => s.background.bind fun p => text (toString p)
  | "-" => text (.ofList ("pubaCEVvxsnmiIfe".toList.filter s.isOn))
  | "@" => all m.full
  | "*" => all (m.full && !m.quoted)
  | "0" => text s.name
  | n =>
    if n.toList.head?.any Char.isDigit then
      let k := Arith.numberIn 10 n.toList
      if k = 0 then text s.name else (s.params.values[k - 1]?).bind text
    else (s.var? n).bind text

def paramSplits (s : Session) (m : Manner) (name : String) : Splits :=
  if !m.quoted then .atSeparators
  else if name = "@" && !s.params.values.isEmpty then .atPartings
  else .nowhere

def valueSegments (m : Manner) (text : String) : List Segment :=
  [⟨if m.quoted then .nowhere else .atSeparators, charItems m.quoted text⟩]

def notSet (name : String) : Act Unit := refuse (name ++ ": parameter not set")

/-! ## Arithmetic -/

def arithmetic (text : String) : Act Int := do
  let s ← get
  let value (n : String) : Except Arith.Fault Int :=
    match s.var? n with
    | none => .ok 0
    | some v => (Arith.value? v.toList).elim (.error (.illegalNumber v)) .ok
  let (r, sets) := Arith.run { value, isReadOnly := s.isReadOnly } text.toList
  sets.forM fun e => setVar e.1 (toString e.2)
  let fault (reason : String) : Act Int := refuse ("arithmetic expression: " ++ reason ++ ": \"" ++ text ++ "\"")
  match r with
  | .ok i => return i
  | .error (.expecting what) => fault ("expecting " ++ what)
  | .error .divisionByZero => fault "division by zero"
  | .error .overflow => throw (.gone (.signal 8))
  | .error (.illegalNumber v) => illegalNumber v
  | .error (.readOnly n) => refuse (n ++ ": is read only")

/-! ## Words -/

section
variable (run : Command → Act String)

mutual

def expandPiece (m : Manner) : Piece → Act (List Segment × Bool)
  | .char c q => return ([⟨.nowhere, [.char c q]⟩], false)
  | .mark => return ([⟨.nowhere, [.mark]⟩], false)
  | .command body => do return (valueSegments m (← run body), false)
  | .arith text => do
    let g ← expandPieces {} {} 0 text
    return (valueSegments m (toString (← arithmetic (segmentText g.segments))), false)
  | .param name use colon word => do
    let s ← get
    let found := paramItems s { m with full := m.full && use ≠ .length && use ≠ .ifSet } name
    let value? := found.filter fun is => !(colon && is.isEmpty)
    let own (is : List Item) : List Segment := [⟨paramSplits s m name, is⟩]
    match use with
    | .value => do
      if found.isNone && s.isOn 'u' then notSet name
      let ss := own (found.getD [])
      if colon then
        let g ← expandPieces m {} 0 word
        return (ss ++ g.segments, true)
      else return (ss, false)
    | .length => do
      if found.isNone && s.isOn 'u' then notSet name
      return (valueSegments m (toString (found.getD []).length), false)
    | .orElse =>
      match value? with
      | some is => return (own is, false)
      | none => do
        let g ← expandPieces { m with word := true } { tilde := true } 0 word
        return (g.segments, false)
    | .ifSet =>
      match value? with
      | none => return ([], false)
      | some _ => do
        let g ← expandPieces { m with word := true } { tilde := true } 0 word
        return (g.segments, false)
    | .orAssign =>
      match value? with
      | some is => return (own is, false)
      | none => do
        let g ← expandPieces {} { tilde := true } 0 word
        if !isName name then refuse (name ++ ": bad variable name")
        setVar name (segmentText g.segments)
        return (own ((paramItems (← get) m name).getD []), false)
    | .orFail =>
      match value? with
      | some is => return (own is, false)
      | none => do
        let g ← expandPieces {} { tilde := true } 0 word
        refuse (name ++ ": " ++
          if word.isEmpty then "parameter not set" ++ (if colon then " or null" else "") else segmentText g.segments)
    | .trim suffix longest => do
      match found with
      | none => do
        if s.isOn 'u' then notSet name
        return ([], false)
      | some is => do
        let g ← expandPieces {} { tilde := true } 0 word
        let kept := stripped suffix longest (segmentPattern g.segments) ((markedText is).map (·.1))
        return (own (kept.map fun c => if c = '\x00' then parting else .char c m.quoted), false)
    | .bad => refuse "Bad substitution"

/-- The pieces of a word in their order; the first `skip` of them have been dealt with. -/
def expandPieces (m : Manner) (g : Growth) (skip : Nat) : List Piece → Act Growth
  | [] => return g
  | p :: ps =>
    if g.dropped then return g
    else
      match skip with
      | skip + 1 => expandPieces m g skip ps
      | 0 =>
        match p with
        | .char c q => do
          let s ← get
          let home? := if c = '~' && !q && g.tilde then
              (tildeName? m.paths ps).bind fun n => (homeOf s n).map (n, ·)
            else none
          match home? with
          | some (n, home) => expandPieces m (g.append [⟨.nowhere, charItems true home⟩]) n.length ps
          | none =>
            let splits : Splits := if m.word && !m.quoted && !g.quotes && !q then .atSeparators else .nowhere
            let g := g.literal splits (.char c q)
            expandPieces m { g with tilde := m.paths && c = ':' && !q } 0 ps
        | .mark =>
          match !g.quotes, ps with
          | true, .param "@" .value false [] :: .mark :: _ => do
            let s ← get
            let quoted := { m with quoted := true }
            let is := (paramItems s quoted "@").getD []
            expandPieces m (g.append [⟨paramSplits s quoted "@", is⟩]) 2 ps
          | _, _ => expandPieces m { g.literal .nowhere .mark with quotes := !g.quotes } 0 ps
        | p => do
          let (ss, dropped) ← expandPiece { m with quoted := m.quoted || g.quotes } p
          expandPieces m { g.append ss with dropped } 0 ps

end

def expandText (w : Word) : Act String := do
  return segmentText (← expandPieces run {} { tilde := true } 0 w).segments

def expandValue (w : Word) : Act String := do
  return segmentText (← expandPieces run { paths := true } { tilde := true } 0 w).segments

def expandPattern (w : Word) : Act (List Char) := do
  return segmentPattern (← expandPieces run {} { tilde := true } 0 w).segments

def expandDocument (w : Word) : Act String := do
  return segmentText (← expandPieces run { quoted := true } {} 0 w).segments

def expandFields (w : Word) : Act (List String) := do
  let g ← expandPieces run { full := true } { tilde := true } 0 w
  let s ← get
  return (fieldsOf s.separators.toList none g.segments).flatMap fun f =>
    match if s.isOn 'f' then [] else pathnames s.machine.tree (patternText (markedText f)) with
    | [] => [itemText f]
    | ps => ps

def expandDeclared (w : Word) : Act (List String) :=
  match assignment? w with
  | some (n, v) => do return [n ++ "=" ++ (← expandValue run v)]
  | none => expandFields run w

end

end Casework.Shell
