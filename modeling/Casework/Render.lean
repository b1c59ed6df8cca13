import Casework.Json.Reader
import Casework.Text.Blank

/-!
# Rendering of task output

An output is read as one record a line. Lines that are not JSON are kept as their trimmed text.
-/

namespace Casework

inductive OutputFormat where
  | json
  | jsonl
  | raw
  deriving DecidableEq, Repr

instance : Inhabited OutputFormat := ⟨.json⟩

namespace OutputFormat

def ofName? : String → Option OutputFormat
  | "json" => some .json
  | "jsonl" => some .jsonl
  | "raw" => some .raw
  | _ => none

end OutputFormat

def records (s : List Char) : List (List Char) :=
  ((Text.lines s).map Text.trim).filter (!·.isEmpty)

def recordLine (r : List Char) : List Char :=
  match Json.read? r with
  | some j => j.compactChars ++ ['\n']
  | none => r ++ ['\n']

def recordValue (r : List Char) : Json := (Json.read? r).getD (.str (.ofList r))

def render (s : String) : OutputFormat → String
  | .raw => s
  | .jsonl => .ofList ((records s.toList).flatMap recordLine)
  | .json => .ofList (Json.prettyChars 0 (.arr ((records s.toList).map recordValue)) ++ ['\n'])

end Casework
