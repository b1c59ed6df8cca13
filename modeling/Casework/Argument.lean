import Casework.Json.Basic

/-!
# Arguments of tasks

What a task argument may be: scalars, sequences, mappings in the order in which they were written,
and values under a tag. A mapping holds no two keys that are the same. `flags key value` is what a
value adds to a command line.
-/

namespace Casework

inductive Value where
  | null
  | bool (b : Bool)
  | int (i : Int)
  | float (x : Binary64)
  | str (s : String)
  | seq (items : List Value)
  | map (entries : List (Value × Value))
  | tagged (tag : String) (value : Value)
  deriving Inhabited, Repr

namespace Value

def numberLayout : Layout := ⟨-5, 16, "", ".nan", ".inf"⟩

mutual

/-- Equality of values, under which all NaNs are one value and so are both zeros. -/
def same : Value → Value → Bool
  | .null, .null => true
  | .bool a, .bool b => a == b
  | .int a, .int b => a == b
  | .float a, .float b => a.same b
  | .str a, .str b => a == b
  | .seq a, .seq b => sameItems a b
  | .map a, .map b => sameEntries a b && a.length == b.length
  | .tagged t a, .tagged u b => t == u && same a b
  | _, _ => false

def sameItems : List Value → List Value → Bool
  | [], [] => true
  | a :: as, b :: bs => same a b && sameItems as bs
  | _, _ => false

def sameEntries : List (Value × Value) → List (Value × Value) → Bool
  | [], _ => true
  | (k, v) :: es, fs => (fs.any fun (k', v') => same k k' && same v v') && sameEntries es fs

end

def putEntry (k v : Value) : List (Value × Value) → List (Value × Value)
  | [] => [(k, v)]
  | (k', v') :: es => if same k k' then (k', v) :: es else (k', v') :: putEntry k v es

def hasKey (k : Value) (es : List (Value × Value)) : Bool := es.any fun e => same k e.1

def mapOf (es : List (Value × Value)) : Value :=
  .map (es.foldl (fun done e => putEntry e.1 e.2 done) [])

def bareTag (tag : String) : String :=
  match tag.toList with
  | '!' :: c :: cs => .ofList (c :: cs)
  | _ => tag

def tagText (tag : String) : String := "!" ++ tag

/-! ## As JSON -/

def keyText? : Value → Option String
  | .bool b => some (toString b)
  | .int i => some (toString i)
  | .float x => if x.isFinite then some (Json.numberLayout.text x) else none
  | .str s => some s
  | _ => none

mutual

/-- Nothing when some mapping has a key that is no text. -/
def toJson? : Value → Option Json
  | .null => some .null
  | .bool b => some (.bool b)
  | .int i => some (.int i)
  | .float x => some (.float x)
  | .str s => some (.str s)
  | .seq items => (itemsToJson? items).map .arr
  | .map entries => (entriesToJson? entries).map .obj
  | .tagged t v => v.toJson?.map fun j => .obj [(tagText t, j)]

def itemsToJson? : List Value → Option (List Json)
  | [] => some []
  | v :: vs => do return (← v.toJson?) :: (← itemsToJson? vs)

def entriesToJson? : List (Value × Value) → Option (List (String × Json))
  | [] => some []
  | (k, v) :: es => do return (← k.keyText?, ← v.toJson?) :: (← entriesToJson? es)

end

end Value

end Casework

namespace Casework.Value

/-! ## As command line flags

Sequences repeat the flag, mappings become `k=v` pairs joined by commas, `true` is a bare flag, and
`false` and null add nothing.
-/

mutual

def flagText? : Value → Option String
  | .str s => some s
  | .int i => some (toString i)
  | .float x => some (numberLayout.text x)
  | .bool b => some (toString b)
  | .map es => some (",".intercalate (pairTexts es))
  | .tagged _ v => v.flagText?
  | .null | .seq _ => none

def pairTexts : List (Value × Value) → List String
  | [] => []
  | (k, v) :: es =>
    match k.flagText?, v.flagText? with
    | some a, some b => (a ++ "=" ++ b) :: pairTexts es
    | _, _ => pairTexts es

end

mutual

def flags (key : String) : Value → List String
  | .null => []
  | .bool b => if b then ["--" ++ key] else []
  | .seq vs => flagsOfItems key vs
  | .tagged _ v => flags key v
  | v => (flagText? v).toList.map fun t => "--" ++ key ++ "=" ++ t

def flagsOfItems (key : String) : List Value → List String
  | [] => []
  | v :: vs => flags key v ++ flagsOfItems key vs

end

end Casework.Value
