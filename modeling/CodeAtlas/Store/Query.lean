import CodeAtlas.Store.Basic
import CodeAtlas.Store.Search

/-!
# CodeAtlas.Store.Query

What can be asked of a store.

1. nodes and edges are listed by file, line, column and id; texts are ordered by
   their characters, and lines and columns as signed 64-bit numbers;
2. a search lists no more nodes than asked for, and fails if its pattern is too long
   to be looked for in any node.
-/

namespace CodeAtlas

/-! ## Order -/

/-- A number read as a signed one of 64 bits. -/
def signed64 (n : Nat) : Int := Int.bmod n (0x10000000000000000)

/-- Where a node or edge stands in a list. -/
structure Place where
  file : String
  line : Int
  column : Int
  id : String
deriving DecidableEq, Inhabited, Repr

/-- Whether one place stands before another, or is the same. -/
def Place.le (a b : Place) : Bool :=
  a.file < b.file || (a.file == b.file &&
    (a.line < b.line || (a.line == b.line &&
      (a.column < b.column || (a.column == b.column && a.id ≤ b.id)))))

def Node.place (n : Node) : Place :=
  ⟨n.file, signed64 n.span.startLine, signed64 n.span.startCol, n.id⟩

def Edge.place (e : Edge) : Place :=
  ⟨e.file, signed64 e.span.startLine, signed64 e.span.startCol, e.id⟩

namespace Store

/-! ## Nodes -/

/-- The nodes with a property, in order. -/
def nodesWhere (s : Store) (p : Node → Bool) : List Node :=
  (s.nodes.toList.filter p).mergeSort fun a b => a.place.le b.place

def nodesNamed (s : Store) (name : String) : List Node := s.nodesWhere (·.name == name)

def nodesQualified (s : Store) (name : String) : List Node :=
  s.nodesWhere (·.qualifiedName == name)

def nodesInFile (s : Store) (file : String) : List Node := s.nodesWhere (·.file == file)

def allNodes (s : Store) : List Node := s.nodesWhere fun _ => true

/-- The first nodes that have a pattern in their name or qualified name. -/
def search (s : Store) (pattern : String) (limit : Nat) : Except Error (List Node) :=
  let wildcard := Search.wildcard pattern
  if Search.maxSize < wildcard.utf8ByteSize && limit != 0 && s.nodes.size != 0 then
    .error (.storage "LIKE or GLOB pattern too complex")
  else
    .ok ((s.nodesWhere fun n =>
      Search.like wildcard n.name || Search.like wildcard n.qualifiedName).take limit)

/-! ## Edges -/

/-- The edges with a property, in order. -/
def edgesWhere (s : Store) (p : Edge → Bool) : List Edge :=
  (s.edges.toList.filter p).mergeSort fun a b => a.place.le b.place

/-- Whether an edge is of a kind that is asked for. -/
def ofKind (relationship : Option Relationship) (e : Edge) : Bool :=
  relationship.all (· == e.relationship)

def edgesFrom (s : Store) (id : String) (relationship : Option Relationship) : List Edge :=
  s.edgesWhere fun e => e.source == id && ofKind relationship e

def edgesTo (s : Store) (id : String) (relationship : Option Relationship) : List Edge :=
  s.edgesWhere fun e => e.target == some id && ofKind relationship e

def edgesInFile (s : Store) (file : String) : List Edge := s.edgesWhere (·.file == file)

def unresolved (s : Store) : List Edge := s.edgesWhere (·.target.isNone)

/-- The edges that wait for a target of the given name. -/
def unresolvedFor (s : Store) (targetRef : String) : List Edge :=
  s.edgesWhere fun e => e.target.isNone && e.targetRef == targetRef

end Store

/-! ## Questions as data -/

inductive Query where
  | nodeById (id : String)
  | nodesByQualifiedName (name : String)
  | nodesByName (name : String)
  | nodesInFile (file : String)
  | searchNodes (pattern : String) (limit : Nat)
  | edgeById (id : String)
  | edgesFrom (id : String) (relationship : Option Relationship)
  | edgesTo (id : String) (relationship : Option Relationship)
  | edgesInFile (file : String)
  | unresolvedEdges
  | unresolvedEdgesFor (targetRef : String)
  | allNodes
deriving DecidableEq, Inhabited, Repr

/-- One row of an answer. -/
inductive Row where
  | node (n : Node)
  | edge (e : Edge)
deriving DecidableEq, Inhabited, Repr

/-- Answers a question. -/
def Store.run (s : Store) : Query → Except Error (List Row)
  | .nodeById id => .ok ((s.nodes.get? id).toList.map .node)
  | .nodesByQualifiedName n => .ok ((s.nodesQualified n).map .node)
  | .nodesByName n => .ok ((s.nodesNamed n).map .node)
  | .nodesInFile f => .ok ((s.nodesInFile f).map .node)
  | .searchNodes p limit => (s.search p limit).map (·.map .node)
  | .edgeById id => .ok ((s.edges.get? id).toList.map .edge)
  | .edgesFrom id r => .ok ((s.edgesFrom id r).map .edge)
  | .edgesTo id r => .ok ((s.edgesTo id r).map .edge)
  | .edgesInFile f => .ok ((s.edgesInFile f).map .edge)
  | .unresolvedEdges => .ok (s.unresolved.map .edge)
  | .unresolvedEdgesFor t => .ok ((s.unresolvedFor t).map .edge)
  | .allNodes => .ok (s.allNodes.map .node)

end CodeAtlas
