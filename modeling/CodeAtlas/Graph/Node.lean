import CodeAtlas.Graph.Kind
import CodeAtlas.Graph.Span
import CodeAtlas.Text.Segments

/-!
# CodeAtlas.Graph.Node

Nodes and edges of a code graph, and their ids.

1. a node's id is its kind and its qualified name, so it does not depend on the
   file that declares it;
2. an edge's id is its relationship, source, written target and file, so it does
   not depend on whether the target is known;
3. the ids of edges start with an upper-case word for a relationship, and the ids of
   nodes with a lower-case word for a kind, which tells them apart.
-/

namespace CodeAtlas

/-! ## Nodes -/

structure Node where
  id : String
  kind : NodeKind
  name : String
  qualifiedName : String
  /-- The file that declares the node. -/
  file : String
  language : String
  span : Span
  signature : Option String
deriving DecidableEq, Inhabited, Repr

/-- The id of the node with a kind and a qualified name. -/
def Node.idOf (kind : NodeKind) (qualifiedName : String) : String :=
  kind.name ++ ":" ++ qualifiedName

/-! ## Edges -/

structure Edge where
  id : String
  source : String
  /-- The id of the target node; none while the edge waits for it. -/
  target : Option String
  relationship : Relationship
  confidence : Confidence
  /-- The name of the target, absolute where the file says so. -/
  targetRef : String
  /-- The file that the edge comes from. -/
  file : String
  span : Span
deriving DecidableEq, Inhabited, Repr

namespace Edge

/-- The id of an edge. -/
def idOf (relationship : Relationship) (source targetRef file : String) : String :=
  relationship.name ++ ":" ++ source ++ "->" ++ targetRef ++ "@" ++ file

/-- Whether an id starts with the word for a relationship, in upper case, and a
colon. -/
def isId (id : String) : Bool :=
  match Text.cut? ":" id with
  | some (word, _) =>
    word == Text.Case.upper word && (Relationship.ofText? word).toOption.isSome
  | none => false

def isResolved (e : Edge) : Bool := e.target.isSome

/-- The edge without its target. -/
def unlink (e : Edge) : Edge := { e with target := none, confidence := .unresolved }

/-- The edge with a target. -/
def link (e : Edge) (target : String) (confidence : Confidence) : Edge :=
  { e with target := some target, confidence }

end Edge

end CodeAtlas
