import Casework.CommandLine.Help
import Casework.Render

/-!
# Arguments of the command line

Options, flags and plain words in any order. The value of an option is attached to it by `=` or is the
next word. The first plain word is the command; the settings file may be named on both sides of it, and
then the name behind it counts.
-/

namespace Casework.CommandLine

inductive ValueKind where
  | flag
  | path
  | text
  | natural
  | format
  deriving DecidableEq, Repr

inductive Stop where
  | usage
  | shown (text : String)
  deriving DecidableEq, Repr

structure Words where
  values : List (String × String) := []
  plain : List String := []
  deriving Repr

namespace Words

def value? (w : Words) (option : String) : Option String := w.values.lookup option

def has (w : Words) (option : String) : Bool := (w.value? option).isSome

end Words

/-! ## Values -/

def naturalLimit : Nat := pow2 64

def natural? (s : String) : Option Nat :=
  let digits := match s.toList with
    | '+' :: ds => ds
    | ds => ds
  if digits.isEmpty || !digits.all Char.isDigit then none
  else
    let n := digits.foldl (fun n d => n * 10 + (d.toNat - '0'.toNat)) 0
    if n < naturalLimit then some n else none

def ValueKind.accepts (v : String) : ValueKind → Bool
  | .flag => false
  | .path => v ≠ ""
  | .text => true
  | .natural => (natural? v).isSome
  | .format => (OutputFormat.ofName? v).isSome

/-! ## Reading words -/

abbrev Options := List (String × ValueKind)

/-- A word that can be no value: everything with a hyphen in front but the hyphen alone. -/
def isOptionLike (word : String) : Bool := word.startsWith "-" && word ≠ "-"

def splitAssign (cs : List Char) : String × Option String :=
  let name := cs.takeWhile (· ≠ '=')
  (.ofList name, if name.length = cs.length then none else some (.ofList (cs.drop (name.length + 1))))

def give (w : Words) (name value : String) (kind : ValueKind) : Except Stop Words :=
  if w.has name || !(kind.accepts value || kind = .flag) then .error .usage
  else .ok { w with values := (name, value) :: w.values }

structure Form where
  page : HelpPage
  options : Options
  takes : Nat → String → Bool

def Form.givePlain (f : Form) (w : Words) (word : String) : Except Stop Words :=
  if f.takes w.plain.length word then .ok { w with plain := w.plain ++ [word] } else .error .usage

def versionText : String := "evidenceflow 0.1.0\n"

/-- Reads words up to the first plain one if `toCommand`, and else all; gives back those behind. -/
def read (form : Form) (toCommand : Bool) : Words → List String → Except Stop (Words × List String)
  | w, [] => .ok (w, [])
  | w, a :: as =>
    match a.toList with
    | ['-', '-'] =>
      if toCommand then .error .usage else do return (← as.foldlM form.givePlain w, [])
    | '-' :: '-' :: cs =>
      match splitAssign cs with
      | ("help", none) => .error (.shown (form.page.text true))
      | ("version", none) => .error (if toCommand then .shown versionText else .usage)
      | (name, attached) =>
        match form.options.lookup name, attached, as with
        | some .flag, none, as => do read form toCommand (← give w name "" .flag) as
        | some .flag, some _, _ => .error .usage
        | some k, some v, as => do read form toCommand (← give w name v k) as
        | some k, none, v :: as =>
          if isOptionLike v then .error .usage else do read form toCommand (← give w name v k) as
        | some _, none, [] => .error .usage
        | none, _, _ => .error .usage
    | '-' :: 'h' :: _ => .error (.shown (form.page.text false))
    | '-' :: 'V' :: _ => .error (if toCommand then .shown versionText else .usage)
    | '-' :: _ :: _ => .error .usage
    | _ =>
      if toCommand then .ok (w, a :: as) else do read form toCommand (← form.givePlain w a) as

/-! ## Commands -/

structure RunOptions where
  workflow : String
  stores : List String
  pluginDir : Option String := none
  scriptsDir : Option String := none
  dockerfilesDir : Option String := none
  engine : Option String := none
  dockerHost : Option String := none
  maxParallel : Option Nat := none
  format : OutputFormat := default
  report : Option String := none
  deriving Repr

inductive Command where
  | run (o : RunOptions)
  | graph (workflow : String) (levels : Bool)
  | plugins (pluginDir : Option String)
  deriving Repr

structure Request where
  config : Option String
  command : Command
  deriving Repr

def globalOptions : Options := [("config", .path)]

def overviewForm : Form where
  page := .overview
  options := globalOptions
  takes _ _ := true

def runForm : Form where
  page := .run
  options :=
    globalOptions ++ [("plugin-dir", .path), ("scripts-dir", .path), ("dockerfiles-dir", .path),
      ("engine", .text), ("docker-host", .text), ("max-parallel", .natural), ("format", .format),
      ("report", .path)]
  takes place word := place ≠ 0 || word ≠ ""

def graphForm : Form where
  page := .graph
  options := globalOptions ++ [("levels", .flag)]
  takes place word := place = 0 && word ≠ ""

def pluginsForm : Form where
  page := .plugins
  options := globalOptions ++ [("plugin-dir", .path)]
  takes _ _ := false

def runOf (w : Words) : Except Stop Command :=
  match w.plain with
  | workflow :: store :: stores =>
    .ok (.run {
      workflow, stores := store :: stores
      pluginDir := w.value? "plugin-dir"
      scriptsDir := w.value? "scripts-dir"
      dockerfilesDir := w.value? "dockerfiles-dir"
      engine := w.value? "engine"
      dockerHost := w.value? "docker-host"
      maxParallel := (w.value? "max-parallel").bind natural?
      format := ((w.value? "format").bind OutputFormat.ofName?).getD default
      report := w.value? "report" })
  | _ => .error .usage

def graphOf (w : Words) : Except Stop Command :=
  match w.plain with
  | workflow :: _ => .ok (.graph workflow (w.has "levels"))
  | [] => .error .usage

def pluginsOf (w : Words) : Except Stop Command := .ok (.plugins (w.value? "plugin-dir"))

def pageOf? : String → Option HelpPage
  | "run" => some .run
  | "graph" => some .graph
  | "plugins" => some .plugins
  | "help" => some .help
  | _ => none

def helpOf : List String → Stop
  | [] => .shown (HelpPage.overview.text true)
  | [c] => (pageOf? c).elim .usage fun p => .shown (p.text true)
  | _ => .usage

def parse (args : List String) : Except Stop Request := do
  let (globals, rest) ← read overviewForm true {} args
  let inner (form : Form) (f : Words → Except Stop Command) (as : List String) : Except Stop Request := do
    let (w, _) ← read form false {} as
    return ⟨(w.value? "config").or (globals.value? "config"), ← f w⟩
  match rest with
  | "run" :: as => inner runForm runOf as
  | "graph" :: as => inner graphForm graphOf as
  | "plugins" :: as => inner pluginsForm pluginsOf as
  | "help" :: as => .error (helpOf as)
  | _ => .error .usage

end Casework.CommandLine
