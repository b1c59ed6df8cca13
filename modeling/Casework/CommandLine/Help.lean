/-!
# Help on commands

A page names what a command takes, in two columns, or with `long` a paragraph for each thing. Only a
page that explains the values of an option has a long form.
-/

namespace Casework.CommandLine

structure OptionHelp where
  name : String
  letter : Option Char := none
  about : String := ""
  default? : Option String := none
  values : List (String × String) := []

structure HelpPage where
  about : String
  usage : String
  commands : List (String × String) := []
  arguments : List (String × String) := []
  options : List OptionHelp := []

def padded (width : Nat) (s : String) : String := s ++ .ofList (List.replicate (width - s.length) ' ')

def setIn (n : Nat) (s : String) : String := .ofList (List.replicate n ' ') ++ s

namespace OptionHelp

def lead (o : OptionHelp) : String := o.letter.elim "    " fun c => "-" ++ .singleton c ++ ", "

def shown (o : OptionHelp) : String := o.lead ++ o.name

def defaultNote (o : OptionHelp) : List String := o.default?.toList.map fun d => "[default: " ++ d ++ "]"

def valuesNote (o : OptionHelp) : List String :=
  if o.values.isEmpty then []
  else ["[possible values: " ++ ", ".intercalate (o.values.map (·.1)) ++ "]"]

def note (o : OptionHelp) : String :=
  " ".intercalate ((if o.about.isEmpty then [] else [o.about]) ++ o.defaultNote ++ o.valuesNote)

def valueLines (o : OptionHelp) : List String :=
  let width := (o.values.map (·.1.length)).foldl max 0 + 2
  "Possible values:" :: o.values.map fun v => "- " ++ padded width (v.1 ++ ":") ++ v.2

def paragraph (o : OptionHelp) : List String :=
  let head := "\n          \n          ".intercalate
    ((if o.about.isEmpty then [] else [o.about]) ++ o.defaultNote)
  if o.values.isEmpty then [head]
  else (if head.isEmpty then [] else [head ++ "\n"]) ++ o.valueLines

end OptionHelp

namespace HelpPage

def isLong (p : HelpPage) : Bool := p.options.any fun o => !o.values.isEmpty

def helpOption (long hasLong : Bool) : OptionHelp :=
  { name := "--help", letter := some 'h'
    about := if !hasLong then "Print help"
      else if long then "Print help (see a summary with '-h')"
      else "Print help (see more with '--help')" }

def columns (rows : List (String × String)) : List String :=
  let width := (rows.map (·.1.length)).foldl max 0 + 2
  rows.map fun r => setIn 2 (padded width r.1 ++ r.2)

def paragraphs (rows : List (String × List String)) : List String :=
  ["\n\n".intercalate (rows.map fun r => "\n".intercalate (setIn 2 r.1 :: r.2.map (setIn 10)))]

def sectionText (title : String) (lines : List String) : List String :=
  if lines.isEmpty then [] else ["\n".intercalate ((title ++ ":") :: lines)]

def text (p : HelpPage) (wanted : Bool) : String :=
  let long := wanted && p.isLong
  let options := p.options.filter (·.letter.isNone) ++
    helpOption long p.isLong :: p.options.filter (·.letter.isSome)
  let rows (short : List (String × String)) (full : List (String × List String)) : List String :=
    if long && !full.isEmpty then paragraphs full else columns short
  "\n\n".intercalate ([p.about, "Usage: " ++ p.usage] ++
    sectionText "Commands" (columns p.commands) ++
    sectionText "Arguments" (rows p.arguments (p.arguments.map fun a => (a.1, [a.2]))) ++
    sectionText "Options" (rows (options.map fun o => (o.shown, o.note))
      (options.map fun o => (o.shown, o.paragraph)))) ++ "\n"

/-! ## The pages -/

def configOption : OptionHelp :=
  { name := "--config <CONFIG>", about := "Config file (defaults to the per-user config directory)" }

def pluginDirOption : OptionHelp := { name := "--plugin-dir <PLUGIN_DIR>" }

def runAbout : String := "Run a workflow against one or more stores"

def graphAbout : String := "Validate a workflow and print its execution order"

def pluginsAbout : String := "List built-in plugins and those found in the plugin directory"

def helpAbout : String := "Print this message or the help of the given subcommand(s)"

def overview : HelpPage where
  about := "Run forensic processing workflows against evidence stores"
  usage := "evidenceflow [OPTIONS] <COMMAND>"
  commands := [("run", runAbout), ("graph", graphAbout), ("plugins", pluginsAbout), ("help", helpAbout)]
  options := [configOption, { name := "--version", letter := some 'V', about := "Print version" }]

def run : HelpPage where
  about := runAbout
  usage := "evidenceflow run [OPTIONS] <WORKFLOW> <STORES>..."
  arguments := [("<WORKFLOW>", "Workflow definition (YAML)"),
    ("<STORES>...", "Store locations, processed one after another")]
  options := [configOption, pluginDirOption,
    { name := "--scripts-dir <SCRIPTS_DIR>" },
    { name := "--dockerfiles-dir <DOCKERFILES_DIR>" },
    { name := "--engine <ENGINE>", about := "docker-compatible engine CLI" },
    { name := "--docker-host <DOCKER_HOST>" },
    { name := "--max-parallel <MAX_PARALLEL>", about := "Maximum number of tasks running at once" },
    { name := "--format <FORMAT>", default? := some "json"
      values := [("json", "One pretty-printed JSON array of all records"),
        ("jsonl", "One compact JSON record per line"), ("raw", "Output exactly as the task wrote it")] },
    { name := "--report <REPORT>", about := "Write a JSON run report here" }]

def graph : HelpPage where
  about := graphAbout
  usage := "evidenceflow graph [OPTIONS] <WORKFLOW>"
  arguments := [("<WORKFLOW>", "")]
  options := [configOption, { name := "--levels", about := "Group tasks that may run side by side" }]

def plugins : HelpPage where
  about := pluginsAbout
  usage := "evidenceflow plugins [OPTIONS]"
  options := [configOption, pluginDirOption]

def help : HelpPage where
  about := helpAbout
  usage := "evidenceflow help [COMMAND]..."
  arguments := [("[COMMAND]...", "Print help for the subcommand(s)")]

end HelpPage

end Casework.CommandLine
