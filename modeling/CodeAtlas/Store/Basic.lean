import CodeAtlas.Graph.Node
import CodeAtlas.Graph.Record
import CodeAtlas.Store.Rows

/-!
# CodeAtlas.Store.Basic

A code graph with the records of the files that it comes from.

1. nodes and edges are found by id, records and source trees by path;
2. merging tells whether anything changed; a row that is already there as given is
   not written again;
3. times are kept in whole seconds.
-/

namespace CodeAtlas

structure Store where
  nodes : Rows Node Node.id
  edges : Rows Edge Edge.id
  records : Rows FileRecord FileRecord.path
  repositories : Rows Repository Repository.path
deriving Inhabited

/-- What merging a row did. -/
inductive Merge where
  | created
  | updated
  | unchanged
deriving DecidableEq, Inhabited, Repr

namespace Store

def empty : Store := ⟨{}, {}, {}, {}⟩

/-- What merging a row does to rows. -/
def mergeOf {α : Type} {key : α → String} [DecidableEq α] (rows : Rows α key) (a : α) : Merge :=
  match rows.get? (key a) with
  | none => .created
  | some old => if old = a then .unchanged else .updated

/-- Writes a node unless it is there as given. -/
def mergeNode (s : Store) (n : Node) : Merge × Store :=
  match mergeOf s.nodes n with
  | .unchanged => (.unchanged, s)
  | m => (m, { s with nodes := s.nodes.put n })

/-- Writes an edge unless it is there as given. -/
def mergeEdge (s : Store) (e : Edge) : Merge × Store :=
  match mergeOf s.edges e with
  | .unchanged => (.unchanged, s)
  | m => (m, { s with edges := s.edges.put e })

/-- Drops a node; tells whether it was there. -/
def deleteNode (s : Store) (id : String) : Bool × Store :=
  (s.nodes.contains id, { s with nodes := s.nodes.erase id })

/-- Drops an edge; tells whether it was there. -/
def deleteEdge (s : Store) (id : String) : Bool × Store :=
  (s.edges.contains id, { s with edges := s.edges.erase id })

/-- Writes the record of a file in the place of an earlier one. -/
def putRecord (s : Store) (r : FileRecord) : Store :=
  { s with records := s.records.put { r with
      indexedAt := wholeSeconds r.indexedAt, contributions := sortedSet r.contributions } }

/-- Drops the record of a file; tells whether it was there. -/
def deleteRecord (s : Store) (path : String) : Bool × Store :=
  (s.records.contains path, { s with records := s.records.erase path })

/-- The files other than one whose contributions hold an id, in ascending order. -/
def otherClaimants (s : Store) (id except : String) : List String :=
  ((s.records.toList.filter fun r => r.path != except && r.contributions.contains id).map
    (·.path)).mergeSort (· ≤ ·)

/-- All records by path. -/
def fileRecords (s : Store) : List FileRecord :=
  s.records.toList.mergeSort (fun a b => a.path ≤ b.path)

/-- Registers a source tree, or registers it anew. -/
def register (s : Store) (r : Repository) : Store :=
  { s with repositories := s.repositories.put { r with indexedAt := wholeSeconds r.indexedAt } }

/-- All registered source trees by path. -/
def repositoryList (s : Store) : List Repository :=
  s.repositories.toList.mergeSort (fun a b => a.path ≤ b.path)

end Store

/-! ## Figures -/

/-- Numbers of what is stored. Kinds and relationships that do not occur are left
out. -/
structure Stats where
  nodeCount : Nat
  edgeCount : Nat
  unresolvedEdgeCount : Nat
  fileCount : Nat
  nodeKinds : List (NodeKind × Nat)
  relationships : List (Relationship × Nat)
deriving DecidableEq, Inhabited, Repr

def Store.stats (s : Store) : Stats where
  nodeCount := s.nodes.size
  edgeCount := s.edges.size
  unresolvedEdgeCount := s.edges.toList.countP (·.target.isNone)
  fileCount := s.records.size
  nodeKinds := (NodeKind.all.map fun k => (k, s.nodes.toList.countP (·.kind == k))).filter
    (0 < ·.2)
  relationships := (Relationship.all.map fun r =>
    (r, s.edges.toList.countP (·.relationship == r))).filter (0 < ·.2)

end CodeAtlas
