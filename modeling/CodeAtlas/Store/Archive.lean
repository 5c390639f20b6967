import CodeAtlas.Files.Tree
import CodeAtlas.Json.Reader
import CodeAtlas.Store.Basic

/-!
# CodeAtlas.Store.Archive

A store as a text, and as a file.

1. a row is written as the list of its values, in the order in which the type names
   them;
2. a file that is not there, or is empty, is an empty store; it is written, with the
   directories above it, when it is opened;
3. a file that was not written for a store cannot be opened, and neither can a
   directory.
-/

namespace CodeAtlas

namespace Archive

/-! ## Writing -/

def span (s : Span) : Json :=
  .array [.nat s.startLine, .nat s.startCol, .nat s.endLine, .nat s.endCol]

def node (n : Node) : Json :=
  .array [.text n.id, .text n.kind.name, .text n.name, .text n.qualifiedName, .text n.file,
    .text n.language, span n.span, .textOrNull n.signature]

def edge (e : Edge) : Json :=
  .array [.text e.id, .text e.source, .textOrNull e.target, .text e.relationship.name,
    .text e.confidence.name, .text e.targetRef, .text e.file, span e.span]

def record (r : FileRecord) : Json :=
  .array [.text r.path, .text r.language, .text r.fingerprint, .integer r.indexedAt,
    .texts r.contributions]

def repository (r : Repository) : Json :=
  .array [.text r.path, .text r.name, .bool r.isDependency, .integer r.indexedAt]

/-- The value for a store. -/
def ofStore (s : Store) : Json :=
  .array [
    .array (s.nodes.toList.map node), .array (s.edges.toList.map edge),
    .array (s.records.toList.map record), .array (s.repositories.toList.map repository)]

/-! ## Reading -/

def nat? : Json → Option Nat
  | .integer n => if 0 ≤ n then some n.toNat else none
  | _ => none

def text? : Json → Option String
  | .text s => some s
  | _ => none

def optional? : Json → Option (Option String)
  | .null => some none
  | .text s => some (some s)
  | _ => none

def list? {α : Type} (read? : Json → Option α) : Json → Option (List α)
  | .array vs => vs.mapM read?
  | _ => none

def span? : Json → Option Span
  | .array [a, b, c, d] => do return ⟨← nat? a, ← nat? b, ← nat? c, ← nat? d⟩
  | _ => none

def node? : Json → Option Node
  | .array [id, kind, name, qualifiedName, file, language, s, signature] => do
    return ⟨← text? id, ← (NodeKind.ofText? (← text? kind)).toOption, ← text? name,
      ← text? qualifiedName, ← text? file, ← text? language, ← span? s, ← optional? signature⟩
  | _ => none

def edge? : Json → Option Edge
  | .array [id, source, target, relationship, confidence, targetRef, file, s] => do
    return ⟨← text? id, ← text? source, ← optional? target,
      ← (Relationship.ofText? (← text? relationship)).toOption,
      ← (Confidence.ofText? (← text? confidence)).toOption,
      ← text? targetRef, ← text? file, ← span? s⟩
  | _ => none

def record? : Json → Option FileRecord
  | .array [path, language, digest, .integer indexedAt, contributions] => do
    return ⟨← text? path, ← text? language, ← text? digest, indexedAt,
      ← list? text? contributions⟩
  | _ => none

def repository? : Json → Option Repository
  | .array [path, name, .bool isDependency, .integer indexedAt] => do
    return ⟨← text? path, ← text? name, isDependency, indexedAt⟩
  | _ => none

/-- The store of a value. -/
def toStore? : Json → Option Store
  | .array [nodes, edges, records, repositories] => do
    return {
      nodes := Rows.putAll {} (← list? node? nodes)
      edges := Rows.putAll {} (← list? edge? edges)
      records := Rows.putAll {} (← list? record? records)
      repositories := Rows.putAll {} (← list? repository? repositories) }
  | _ => none

end Archive

/-! ## Texts -/

/-- The text of a store. -/
def Store.toText (s : Store) : String := (Archive.ofStore s).compact ++ "\n"

/-- The store of a text. -/
def Store.ofText? (text : String) : Option Store :=
  if text == "" then some .empty else (Json.ofText? text).bind Archive.toStore?

/-! ## Files -/

namespace FileTree

/-- Makes the directories that a path leads through, unless a file is in the way. -/
def makeDirectories (t : FileTree) (path : String) : Except ReadFailure FileTree :=
  let location := t.placeOf path
  let inTheWay := (List.range location.length).any fun n =>
    (t.entry? (location.take (n + 1))).any (·.content.isSome)
  if inTheWay then .error .notADirectory else .ok (t.makeDirectory location)

/-- The path above a path, if it names one. -/
def parentPath (path : String) : String :=
  FilePath.ofComponents (FilePath.components path).dropLast

/-- Writes a store to its file. -/
def writeStore (t : FileTree) (path : String) (s : Store) : FileTree :=
  t.write path s.toText.toUTF8

/-- The store of a file, and the files after it was opened. -/
def openStore (t : FileTree) (path : String) : Except Error (Store × FileTree) :=
  let unavailable (path message : String) : Except Error (Store × FileTree) :=
    .error (.storeUnavailable (path ++ ": " ++ message))
  match t.makeDirectories (parentPath path) with
  | .error e => unavailable (parentPath path) e.message
  | .ok t =>
    match t.read path with
    | .error .missing => .ok (.empty, t.writeStore path .empty)
    | .error e => unavailable path e.message
    | .ok content =>
      match (String.fromUTF8? content).bind Store.ofText? with
      | some s => .ok (s, t)
      | none => unavailable path "file is not a database"

end FileTree

end CodeAtlas
