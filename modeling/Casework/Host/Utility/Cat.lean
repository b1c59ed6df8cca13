import Casework.Host.Utility.Basic

/-!
# Printing files

Files one after the other, with lines numbered or squeezed and bytes made visible as asked. The style
goes on from file to file, so a line may begin in one and end in the next.
-/

namespace Casework.Utility.Cat

open Text

structure Style where
  number : Bool := false
  nonblank : Bool := false
  squeeze : Bool := false
  ends : Bool := false
  tabs : Bool := false
  visible : Bool := false
  deriving DecidableEq

def Style.isPlain (s : Style) : Bool := s = {}

def table : OptionTable where
  letters := "AbeEnstTuv".toList.map (·, .nothing)
  words := [("number-nonblank", 'b', .nothing), ("number", 'n', .nothing), ("squeeze-blank", 's', .nothing),
    ("show-nonprinting", 'v', .nothing), ("show-ends", 'E', .nothing), ("show-tabs", 'T', .nothing),
    ("show-all", 'A', .nothing), ("help", 'h', .nothing), ("version", 'V', .nothing)]

def Style.set (s : Style) (o : Char × String) : Style :=
  match o.1 with
  | 'A' => { s with visible := true, ends := true, tabs := true }
  | 'b' => { s with number := true, nonblank := true }
  | 'e' => { s with visible := true, ends := true }
  | 'E' => { s with ends := true }
  | 'n' => { s with number := true }
  | 's' => { s with squeeze := true }
  | 't' => { s with visible := true, tabs := true }
  | 'T' => { s with tabs := true }
  | 'v' => { s with visible := true }
  | _ => s

/-! ## Styled output -/

def visibleByte (b : UInt8) : Bytes :=
  let low (b : UInt8) : Bytes := if b < 32 then [94, b + 64] else if b < 127 then [b] else [94, 63]
  if b < 128 then low b else [77, 45] ++ low (b - 128)

def byteText (s : Style) (b : UInt8) : Bytes :=
  if b = 9 then if s.tabs then [94, 73] else [9] else if s.visible then visibleByte b else [b]

structure Place where
  inside : Bool := false
  breaks : Nat := 0
  lines : Nat := 0

def numberText (n : Nat) : Bytes :=
  let ds := Nat.toDigits 10 n
  encode (.ofList (List.replicate (6 - ds.length) ' ' ++ ds ++ ['\t']))

def shown (s : Style) (p : Place) (b : UInt8) (next : Option UInt8) : Bytes × Place :=
  if b = 10 then
    let breaks := if p.inside then 0 else p.breaks + 1
    if s.squeeze && 2 ≤ breaks then ([], { p with breaks := 2 })
    else
      let numbered := 1 ≤ breaks && s.number && !s.nonblank
      ((if numbered then numberText (p.lines + 1) else []) ++ (if s.ends then [36] else []) ++ [10],
        { inside := false, breaks := min breaks 2, lines := if numbered then p.lines + 1 else p.lines })
  else
    let numbered := !p.inside && s.number
    ((if numbered then numberText (p.lines + 1) else []) ++
        (if s.ends && b = 13 && next = some 10 then [94, 77] else byteText s b),
      { p with inside := true, lines := if numbered then p.lines + 1 else p.lines })

def styled (s : Style) : Place → Bytes → Bytes
  | _, [] => []
  | p, b :: bs =>
    let (t, p) := shown s p b bs.head?
    t ++ styled s p bs

/-! ## The program -/

def feedsItself (w : Work) (operand : String) : Bool :=
  let input := if operand = "-" then (w.channel? 0).bind w.machine.channel?
    else
      match w.machine.openPath .read w.fds (pathOf operand) with
      | .ok (id, m) => m.channel? id
      | .error _ => none
  match input, (w.channel? 1).bind w.machine.channel? with
  | some (.file a n ..), some (.file b ..) => a = b && n < w.machine.fileSize a
  | _, _ => false

def shownName (operand : String) : String := if operand = "-" then "-" else bare operand

/-- The content of the operands; each is written before the next one is read unless there is a style. -/
def gather (plain : Bool) : Work → Bytes → List String → Except (OsError × Work) (Bytes × Work)
  | w, b, [] => .ok (b, w)
  | w, b, o :: os =>
    if feedsItself w o then gather plain (w.warn (shownName o ++ ": input file is output file")) b os
    else
      match w.contentOf o with
      | .error e => gather plain (w.warn (shownName o ++ ": " ++ e.reason.1)) b os
      | .ok (c, w) =>
        if plain then
          match w.print c with
          | .ok w => gather plain w b os
          | .error e => .error (e, w)
        else gather plain w (b ++ c) os

def run (w : Work) (args : List String) : Work.End :=
  match table.follow (fun s o => .ok (s.set o)) {} args with
  | .error e => w.stop "[OPTION]... [FILE]..." e
  | .ok (style, operands) =>
    let operands := if operands.isEmpty then ["-"] else operands
    if (w.channel? 1).isNone then .code (w.warn "standard output: Bad file descriptor")
    else
      match gather style.isPlain w [] operands with
      | .error (.brokenPipe, w) => .unheard w
      | .error (e, w) => .code (w.warn ("write error: " ++ e.reason.1))
      | .ok (b, w) =>
        match w.finish (styled style {} b) with
        | .code w =>
          .code (if operands.contains "-" && (w.channel? 0).isNone then
            w.warn "closing standard input: Bad file descriptor" else w)
        | e => e

end Casework.Utility.Cat
