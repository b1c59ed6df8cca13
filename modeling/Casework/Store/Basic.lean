import Casework.Host.FileTree
import Casework.Json.Reader
import Casework.Text.Blank

/-!
# Evidence stores

A store is a directory with one record a line in `items.jsonl`, each a JSON object with a textual
`type`, and the exported files under `files`.
-/

namespace Casework

inductive StoreError where
  | io (e : OsError)
  | json
  | missingType
  deriving DecidableEq, Repr

namespace StoreError

def message : StoreError → String
  | io e => "store I/O error: " ++ e.message
  | json => "invalid record: not JSON"
  | missingType => "record has no 'type' field"

def chain : StoreError → List String
  | io e => [(io e).message, e.message]
  | json => [json.message, "not JSON"]
  | missingType => [missingType.message]

end StoreError

structure Store where
  root : String
  deriving DecidableEq, Repr

namespace Store

def itemsFile : String := "items.jsonl"

def filesDir : String := "files"

def itemsPath (s : Store) : String := Path.join s.root itemsFile

def openAt (t : FileTree) (location : String) : FileTree × Except StoreError Store :=
  match t.makeDirs (Path.join location filesDir) with
  | (t, none) => (t, .ok ⟨location⟩)
  | (t, some e) => (t, .error (.io e))

/-! ## Records -/

def typeOf? (record : Json) : Option String :=
  match record.field? "type" with
  | some (.str s) => some s
  | _ => none

/-- A record with an identifier; one that it brings along stays. -/
def withId (record : Json) (id : String) : Json :=
  match record with
  | .obj fs => if (fs.lookup "id").isSome then record else .obj (Json.putField "id" (.str id) fs)
  | j => j

def lineOf (record : Json) : Text.Bytes := Text.encode record.compact ++ [10]

/-- The identifier of a record and what is to be written of it. `unique` makes the identifier; a value that JSON
cannot write is `none`. -/
def prepare (unique : String) : Option Json → Except StoreError (String × Json)
  | none => .error .json
  | some record =>
    match typeOf? record with
    | none => .error .missingType
    | some type => .ok (type ++ "--" ++ unique, withId record (type ++ "--" ++ unique))

def insert (s : Store) (t : FileTree) (unique : String) (record : Json) :
    Except StoreError (FileTree × String) :=
  match prepare unique (some record) with
  | .error e => .error e
  | .ok (id, record) =>
    match t.append s.itemsPath (lineOf record) with
    | .ok t => .ok (t, id)
    | .error e => .error (.io e)

/-- The records of some lines, up to the first that is no text or no JSON. Blank lines count for
nothing. -/
def recordsOf : List Text.Bytes → Except StoreError (List Json)
  | [] => .ok []
  | l :: ls =>
    match Text.decode? l with
    | none => .error (.io .invalidText)
    | some s =>
      if Text.allBlank s then recordsOf ls
      else
        match Json.parse? s with
        | none => .error .json
        | some j => (recordsOf ls).map (j :: ·)

def lines (s : Store) (t : FileTree) : Except StoreError (List Text.Bytes) :=
  if t.exists_ s.itemsPath then
    match t.read s.itemsPath with
    | .ok b => .ok (Text.byteLines b)
    | .error e => .error (.io e)
  else .ok []

def all (s : Store) (t : FileTree) : Except StoreError (List Json) := do recordsOf (← s.lines t)

def select (s : Store) (t : FileTree) (type : String) : Except StoreError (List Json) :=
  (s.all t).map fun js => js.filter fun j => typeOf? j = some type

/-! ## Exported files -/

def numbered (name : String) (n : Nat) : String := if n = 0 then name else toString n ++ "_" ++ name

def candidate (name : String) (n : Nat) : String := Path.join filesDir (numbered name n)

def freeFrom (s : Store) (t : FileTree) (name : String) : Nat → Nat → Nat
  | 0, n => n
  | fuel + 1, n =>
    if t.exists_ (Path.join s.root (candidate name n)) then freeFrom s t name fuel (n + 1) else n

def exportName (path : String) : String := (Path.fileName? path).getD "file"

/-- Makes a file for an export, and says where it is below the root. The tree holds fewer names than
there are attempts. -/
def storeFile (s : Store) (t : FileTree) (path : String) : Except StoreError (FileTree × String) :=
  let name := exportName path
  let relative := candidate name (s.freeFrom t name (t.nodes.length + 1) 0)
  match t.create (Path.join s.root relative) with
  | .ok (t, _) => .ok (t, relative)
  | .error e => .error (.io e)

end Store

end Casework
