import Casework.Yaml.Cursor

/-!
# Events of a YAML document

The nodes of a document in the order of their beginnings, collections with a beginning and an end.
The reader of tokens is a machine with a stack of the places where collections go on.
-/

namespace Casework.Yaml

structure Props where
  anchor : Option String := none
  tag : Option String := none
  deriving DecidableEq, Repr, Inhabited

inductive Event where
  | alias (name : String)
  | scalar (props : Props) (text : String) (style : ScalarStyle)
  | sequenceStart (props : Props)
  | sequenceEnd
  | mappingStart (props : Props)
  | mappingEnd
  deriving DecidableEq, Repr, Inhabited

def Event.empty (props : Props) : Event := .scalar props "" .plain

inductive Place where
  | content
  | documentEnd
  | blockEntry (first : Bool)
  | indentlessEntry
  | blockKey (first : Bool)
  | blockValue
  | flowEntry (first : Bool)
  | pairKey
  | pairValue
  | pairEnd
  | flowKey (first : Bool)
  | flowValue (empty : Bool)
  deriving DecidableEq

structure Reading where
  tokens : List Token
  place : Place
  stack : List Place
  handles : List (String × String)

abbrev Progress := Event × Reading

namespace Reading

variable (r : Reading)

def next : Reading := { r with tokens := r.tokens.drop 1 }

def goto (p : Place) : Reading := { r with place := p }

def pushed (p : Place) : Reading := { r with stack := p :: r.stack }

def popped : Reading := { r with place := r.stack.headD .documentEnd, stack := r.stack.drop 1 }

def sees (t : Token) : Bool := r.tokens.head? == some t

def seesAny (ts : List Token) : Bool := r.tokens.head?.any ts.contains

/-! ## Nodes -/

def resolveTag (handle suffix : String) : Option String :=
  if handle.isEmpty then some suffix else (r.handles.lookup handle).map (· ++ suffix)

def props : Option (Props × Reading) :=
  match r.tokens with
  | .anchor a :: .tag h s :: ts => (r.resolveTag h s).map fun t => (⟨some a, some t⟩, { r with tokens := ts })
  | .tag h s :: .anchor a :: ts => (r.resolveTag h s).map fun t => (⟨some a, some t⟩, { r with tokens := ts })
  | .anchor a :: ts => some (⟨some a, none⟩, { r with tokens := ts })
  | .tag h s :: ts => (r.resolveTag h s).map fun t => (⟨none, some t⟩, { r with tokens := ts })
  | _ => some ({}, r)

def bare (r : Reading) (p : Props) : Option Progress :=
  if p.anchor.isSome || p.tag.isSome then some (.empty p, r.popped) else none

/-- A node. Block collections may begin only in a block context, and a sequence without its own
indentation only as a value of a block mapping. -/
def node (block indentless : Bool) : Option Progress := do
  match r.tokens with
  | .alias a :: _ => some (.alias a, r.next.popped)
  | _ =>
    let (p, r) ← r.props
    match r.tokens with
    | .blockEntry :: _ =>
      if indentless then some (.sequenceStart p, r.goto .indentlessEntry) else r.bare p
    | .scalar text style :: _ => some (.scalar p text style, r.next.popped)
    | .flowSequenceStart :: _ => some (.sequenceStart p, r.next.goto (.flowEntry true))
    | .flowMappingStart :: _ => some (.mappingStart p, r.next.goto (.flowKey true))
    | .blockSequenceStart :: _ =>
      if block then some (.sequenceStart p, r.next.goto (.blockEntry true)) else r.bare p
    | .blockMappingStart :: _ =>
      if block then some (.mappingStart p, r.next.goto (.blockKey true)) else r.bare p
    | _ => r.bare p

def absent (p : Place) : Option Progress := some (.empty {}, r.goto p)

def nodeUnless (stops : List Token) (p : Place) (block indentless : Bool) : Option Progress :=
  if r.seesAny stops then r.absent p else (r.pushed p).node block indentless

/-! ## Steps -/

def blockEntryStep (r : Reading) : Option Progress :=
  if r.sees .blockEntry then
    r.next.nodeUnless [.blockEntry, .blockEnd] (.blockEntry false) true false
  else if r.sees .blockEnd then some (.sequenceEnd, r.next.popped)
  else none

def indentlessStep (r : Reading) : Option Progress :=
  if r.sees .blockEntry then
    r.next.nodeUnless [.blockEntry, .key, .value, .blockEnd] .indentlessEntry true false
  else some (.sequenceEnd, r.popped)

def blockKeyStep (r : Reading) : Option Progress :=
  if r.sees .key then r.next.nodeUnless [.key, .value, .blockEnd] .blockValue true true
  else if r.sees .blockEnd then some (.mappingEnd, r.next.popped)
  else none

def blockValueStep (r : Reading) : Option Progress :=
  if r.sees .value then r.next.nodeUnless [.key, .value, .blockEnd] (.blockKey false) true true
  else r.absent (.blockKey false)

def separated (r : Reading) (first : Bool) (ending : Token) : Option Reading :=
  if first || r.sees ending then some r
  else if r.sees .flowEntry then some r.next
  else none

def flowEntryStep (r : Reading) (first : Bool) : Option Progress := do
  let r ← r.separated first .flowSequenceEnd
  if r.sees .key then some (.mappingStart {}, r.next.goto .pairKey)
  else if r.sees .flowSequenceEnd then some (.sequenceEnd, r.next.popped)
  else (r.pushed (.flowEntry false)).node false false

/-- A pair in a sequence. Where its key is absent the token in its place is passed over. -/
def pairKeyStep (r : Reading) : Option Progress :=
  if r.seesAny [.value, .flowEntry, .flowSequenceEnd] then r.next.absent .pairValue
  else (r.pushed .pairValue).node false false

def pairValueStep (r : Reading) : Option Progress :=
  if r.sees .value then r.next.nodeUnless [.flowEntry, .flowSequenceEnd] .pairEnd false false
  else r.absent .pairEnd

def flowKeyStep (r : Reading) (first : Bool) : Option Progress := do
  let r ← r.separated first .flowMappingEnd
  if r.sees .key then
    r.next.nodeUnless [.value, .flowEntry, .flowMappingEnd] (.flowValue false) false false
  else if r.sees .flowMappingEnd then some (.mappingEnd, r.next.popped)
  else (r.pushed (.flowValue true)).node false false

def flowValueStep (r : Reading) (empty : Bool) : Option Progress :=
  if !empty && r.sees .value then
    r.next.nodeUnless [.flowEntry, .flowMappingEnd] (.flowKey false) false false
  else r.absent (.flowKey false)

def step (r : Reading) : Option Progress :=
  match r.place with
  | .content => (r.pushed .documentEnd).node true false
  | .documentEnd => none
  | .blockEntry _ => r.blockEntryStep
  | .indentlessEntry => r.indentlessStep
  | .blockKey _ => r.blockKeyStep
  | .blockValue => r.blockValueStep
  | .flowEntry first => r.flowEntryStep first
  | .pairKey => r.pairKeyStep
  | .pairValue => r.pairValueStep
  | .pairEnd => some (.mappingEnd, r.goto (.flowEntry false))
  | .flowKey first => r.flowKeyStep first
  | .flowValue empty => r.flowValueStep empty

def run : Nat → Reading → Option (List Event × List Token)
  | 0, _ => none
  | fuel + 1, r =>
    if r.place = .documentEnd then some ([], r.tokens)
    else do
      let (e, r) ← r.step
      let (es, ts) ← run fuel r
      return (e :: es, ts)

end Reading

/-! ## Documents -/

def defaultHandles : List (String × String) := [("!", "!"), ("!!", "tag:yaml.org,2002:")]

def directives : Bool → List (String × String) → List Token → Option (List (String × String) × List Token)
  | version, handles, .versionDirective major minor :: ts =>
    if version || major ≠ 1 || (minor ≠ 1 && minor ≠ 2) then none else directives true handles ts
  | version, handles, .tagDirective h u :: ts =>
    if (handles.lookup h).isSome then none else directives version (handles ++ [(h, u)]) ts
  | _, handles, ts => some (handles ++ defaultHandles, ts)

def isDirective : Token → Bool
  | .versionDirective .. | .tagDirective .. => true
  | _ => false

/-- Every token makes at most four events, and so does the document as a whole. -/
def readDocument (place : Place) (handles : List (String × String)) (ts : List Token) :
    Option (List Event × List Token) :=
  Reading.run (4 * ts.length + 4) ⟨ts, place, [], handles⟩

def events? (ts : List Token) : Option (List Event) := do
  if ts.isEmpty then some []
  else
    let (es, rest) ←
      if ts.head?.any isDirective || ts.head? = some .documentStart then do
        let (handles, ts) ← directives false [] ts
        match ts with
        | .documentStart :: ts =>
          if ts.isEmpty || ts.head?.any isDirective || ts.head? = some .documentStart ||
              ts.head? = some .documentEnd then some ([Event.empty {}], ts)
          else readDocument .content handles ts
        | _ => none
      else readDocument .content defaultHandles ts
    if rest.all (· == .documentEnd) then some es else none

end Casework.Yaml
