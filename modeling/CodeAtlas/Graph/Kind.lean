import CodeAtlas.Error
import CodeAtlas.Text.Case

/-!
# CodeAtlas.Graph.Kind

What nodes and edges of a code graph stand for.

1. every kind has one word that it is written as; words are read without regard to
   case, by the full case mappings;
2. an edge only accepts targets that can be what it says: what is called must be
   callable, what is inherited from must be a class, and a module is never merely
   referred to.
-/

namespace CodeAtlas

open CodeAtlas.Text

/-! ## Nodes -/

/-- What a node stands for. -/
inductive NodeKind where
  /-- The module of a source file, or one written inside of it. -/
  | module
  /-- A class, struct, enum, union or trait. -/
  | classLike
  /-- A function outside of classes. -/
  | function
  /-- A function directly inside a class, impl block or trait. -/
  | method
  /-- A constant or static. -/
  | variable
deriving DecidableEq, Inhabited, Repr, Hashable

namespace NodeKind

/-- All kinds, in order. -/
def all : List NodeKind := [module, .classLike, function, method, .variable]

/-- The word for the kind, as it starts a node's id. -/
def name : NodeKind → String
  | module => "module"
  | .classLike => "class"
  | function => "function"
  | method => "method"
  | .variable => "variable"

/-- The place in the order of kinds. -/
def rank : NodeKind → Nat
  | module => 0
  | .classLike => 1
  | function => 2
  | method => 3
  | .variable => 4

/-- The kind that a word stands for. -/
def ofText? (s : String) : Except Error NodeKind :=
  let word := Case.lower s
  match all.find? fun k => k.name == word with
  | some k => .ok k
  | none => .error (.invalidNodeKind s)

end NodeKind

/-! ## Edges -/

/-- What an edge says of its two nodes. -/
inductive Relationship where
  | calls
  | imports
  | inherits
  | contains
  | references
deriving DecidableEq, Inhabited, Repr, Hashable

namespace Relationship

def all : List Relationship := [calls, imports, inherits, contains, references]

/-- The word for the relationship, as it starts an edge's id. -/
def name : Relationship → String
  | calls => "CALLS"
  | imports => "IMPORTS"
  | inherits => "INHERITS"
  | contains => "CONTAINS"
  | references => "REFERENCES"

/-- The relationship that a word stands for. -/
def ofText? (s : String) : Except Error Relationship :=
  let word := Case.upper s
  match all.find? fun r => r.name == word with
  | some r => .ok r
  | none => .error (.invalidRelationship s)

/-- Whether a node of a kind can be the target. -/
def accepts : Relationship → NodeKind → Bool
  | imports, _ => true
  | contains, _ => true
  | calls, k => k == .function || k == .method || k == .classLike
  | inherits, k => k == .classLike
  | references, k => k != .module

end Relationship

/-- How the target of an edge was found. -/
inductive Confidence where
  /-- Through a scope or an import. -/
  | resolved
  /-- As the only node with that name. -/
  | heuristic
  /-- Not yet; the edge waits for its target. -/
  | unresolved
deriving DecidableEq, Inhabited, Repr, Hashable

namespace Confidence

def all : List Confidence := [resolved, heuristic, unresolved]

def name : Confidence → String
  | resolved => "resolved"
  | heuristic => "heuristic"
  | unresolved => "unresolved"

/-- The confidence that a word stands for. -/
def ofText? (s : String) : Except Error Confidence :=
  let word := Case.lower s
  match all.find? fun c => c.name == word with
  | some c => .ok c
  | none => .error (.invalidConfidence s)

end Confidence

end CodeAtlas
