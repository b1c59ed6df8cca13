import Casework.Yaml.Node
import Casework.Yaml.Plain

/-!
# Reading typed data from a document

Readers of texts, lists, mappings and values from nodes. Aliases are followed as they are met, and
how often that may happen in one document is limited; so is the depth of collections.
-/

namespace Casework.Yaml

/-- The state is the number of aliases that may still be followed. -/
abbrev Decode := StateT Nat Option

namespace Document

variable (d : Document)

def depthLimit : Nat := 128

def aliasLimit : Nat := 100 * d.eventCount

def follow (n : Node) : Decode Node :=
  match n with
  | .alias id => do
    match ← get with
    | 0 => failure
    | k + 1 =>
      set k
      (d.anchors.lookup id : Option Node)
  | n => pure n

def isVoid : Node → Bool
  | .scalar _ text .plain => text.isEmpty
  | _ => false

/-! ## Scalars -/

def text (n : Node) : Decode String := do
  match ← d.follow n with
  | .scalar _ s _ => pure s
  | _ => failure

def optional (n : Node) : Decode (Option Node) := do
  let n ← d.follow n
  match n with
  | .scalar tag s .plain =>
    match tag with
    | none => pure (if s.isEmpty || isNullWord s then none else some n)
    | some t =>
      if t = coreTag "null" then if isNullWord s then pure none else failure else pure (some n)
  | n => pure (some n)

def optionalText (n : Node) : Decode (Option String) := do
  match ← d.optional n with
  | none => pure none
  | some n => some <$> d.text n

def natural (n : Node) : Decode Nat := do
  match ← d.follow n with
  | .scalar tag s style =>
    if style = .plain || (style = .literal && tag = some (coreTag "int")) then
      ((natural? s).filter (· < pow2 64) : Option Nat)
    else failure
  | _ => failure

def optionalNatural (n : Node) : Decode (Option Nat) := do
  match ← d.optional n with
  | none => pure none
  | some n => some <$> d.natural n

/-! ## Collections -/

def deeper : Nat → Decode Nat
  | 0 => failure
  | k + 1 => pure k

def items (depth : Nat) (n : Node) : Decode (List Node) := do
  match ← d.follow n with
  | .seq _ ns => do
    let _ ← deeper depth
    pure ns
  | n => if isVoid n then pure [] else failure

def texts (depth : Nat) (n : Node) : Decode (List String) := do (← d.items depth n).mapM d.text

def entries (depth : Nat) (n : Node) : Decode (List (String × Node)) := do
  match ← d.follow n with
  | .map _ es => do
    let _ ← deeper depth
    es.mapM fun e => do return (← d.text e.1, e.2)
  | n => if isVoid n then pure [] else failure

def rootEntries : Decode (List (String × Node)) :=
  match d.root with
  | none => pure []
  | some n => d.entries depthLimit n

/-! ## Values -/

def mapping? : List (Value × Value) → Option (List (Value × Value))
  | [] => some []
  | (k, v) :: es => do
    let es ← mapping? es
    if Value.hasKey k es then none else some ((k, v) :: es)

def valueBy (inner : Option (Node → Decode Value)) (n : Node) : Decode Value := do
  match ← d.follow n with
  | .alias _ => failure
  | .scalar tag s style => (scalarValue? tag s (style = .plain) : Option Value)
  | .seq tag ns =>
    match inner with
    | none => failure
    | some f => if tag.any isLocalTag then failure else return .seq (← ns.mapM f)
  | .map tag es =>
    match inner with
    | none => failure
    | some f =>
      if tag.any isLocalTag then failure
      else
        let es ← es.mapM fun e => do return (← f e.1, ← f e.2)
        return .map (← (mapping? es : Option (List (Value × Value))))

def value : Nat → Node → Decode Value
  | 0 => d.valueBy none
  | k + 1 => d.valueBy (some (value k))

/-! ## Records -/

def single (es : List (String × Node)) (k : String) : Decode (Option Node) :=
  match es.filter (·.1 = k) with
  | [] => pure none
  | [e] => pure (some e.2)
  | _ => failure

def field (es : List (String × Node)) (k : String) (read : Node → Decode α) (absent : α) : Decode α := do
  match ← single es k with
  | none => pure absent
  | some n => read n

def decode? (f : Decode α) : Option α := (f.run d.aliasLimit).map (·.1)

end Document

end Casework.Yaml
