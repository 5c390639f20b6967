import CodeAtlas.Json.Reader

/-!
# CodeAtlas.Service.Request

What the service is asked, one JSON value on a line.

1. the field `intent` names the kind of request; other fields that the kind does not
   know count for nothing;
2. a request may also be a list, of the kind and the values of its fields in order;
3. no field that counts may stand twice, and each must have a value of its type, if it is
   there; some may be left out.
-/

namespace CodeAtlas

inductive Request where
  | definition (target : String)
  | callers (target : String)
  | callees (target : String)
  | imports (module : String)
  | contains (target : String)
  | search (pattern : String) (limit : Nat)
  | stats
  /-- Indexes a directory in the background. -/
  | index (path : String) (isDependency : Bool)
  /-- Indexes a file of the watched tree, whether or not it has changed. -/
  | reindexPath (path : String)
  | jobStatus (id : String)
  | status
  | listRepositories
deriving DecidableEq, Inhabited, Repr

namespace Request

/-- The number of nodes that a search lists unless another one is given. -/
def defaultLimit : Nat := 20

/-! ## Fields -/

/-- Finds the value of a field of a request, by its name and its place. -/
abbrev Lookup := (name : String) → (place : Nat) → Option Json

def text? (find : Lookup) (name : String) (place : Nat) : Option String :=
  match find name place with
  | some (.text s) => some s
  | _ => none

/-- A number without a sign of 64 bits, or a default. -/
def natOr? (otherwise : Nat) (find : Lookup) (name : String) (place : Nat) : Option Nat :=
  match find name place with
  | none => some otherwise
  | some (.integer n) => if 0 ≤ n then some n.toNat else none
  | some _ => none

/-- A truth value, false unless it is there. -/
def flag? (find : Lookup) (name : String) (place : Nat) : Option Bool :=
  match find name place with
  | none => some false
  | some (.bool b) => some b
  | some _ => none

/-! ## Kinds -/

/-- A kind of request: its name, the names of its fields in order, and how it is made
from them. -/
structure Kind where
  name : String
  fields : List String
  make? : Lookup → Option Request

/-- A kind with one text. -/
def textKind (name field : String) (make : String → Request) : Kind :=
  ⟨name, [field], fun find => (text? find field 0).map make⟩

/-- A kind without fields. -/
def plainKind (name : String) (r : Request) : Kind := ⟨name, [], fun _ => some r⟩

def kinds : List Kind := [
  textKind "definition" "target" .definition,
  textKind "callers" "target" .callers,
  textKind "callees" "target" .callees,
  textKind "imports" "module" .imports,
  textKind "contains" "target" .contains,
  ⟨"search", ["pattern", "limit"], fun find => do
    return .search (← text? find "pattern" 0) (← natOr? defaultLimit find "limit" 1)⟩,
  plainKind "stats" .stats,
  ⟨"index", ["path", "is_dependency"], fun find => do
    return .index (← text? find "path" 0) (← flag? find "is_dependency" 1)⟩,
  textKind "reindex_path" "path" .reindexPath,
  textKind "job_status" "job_id" .jobStatus,
  plainKind "status" .status,
  plainKind "list_repositories" .listRepositories]

def kind? (name : String) : Option Kind := kinds.find? (·.name == name)

/-! ## Reading -/

/-- The field that names the kind. -/
def kindField : String := "intent"

/-- Whether some names stand at most once. -/
def standOnce (names : List String) (fields : List (String × Json)) : Bool :=
  names.all fun n => fields.countP (·.1 == n) ≤ 1

/-- The request of an object. -/
def ofFields? (fields : List (String × Json)) : Option Request :=
  match Json.field? fields kindField with
  | some (.text name) => do
    let k ← kind? name
    if standOnce (kindField :: k.fields) fields then
      k.make? fun field _ => Json.field? fields field
    else none
  | _ => none

/-- The request of a list. -/
def ofItems? : List Json → Option Request
  | .text name :: items => do
    let k ← kind? name
    if items.length ≤ k.fields.length then k.make? fun _ place => items[place]? else none
  | _ => none

/-- The request on a line. -/
def ofLine? (line : String) : Option Request :=
  match Json.ofText? line with
  | some (.object fields) => ofFields? fields
  | some (.array items) => ofItems? items
  | _ => none

end Request

end CodeAtlas
