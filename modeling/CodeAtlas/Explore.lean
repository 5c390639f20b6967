import CodeAtlas.Store.Transaction

/-!
# CodeAtlas.Explore

Questions about a stored graph.

1. a node is asked for by its id, its qualified name or, if there is none with that,
   its simple name;
2. only edges with a target relate nodes; answers are listed by the related node's
   file, line, column and id, and then by the place of the edge;
3. the imports of a module reach every module that declares something imported, and
   go on from there: the modules found and the arcs between them are a graph, which is
   then walked breadth first.
-/

namespace CodeAtlas

/-! ## Order -/

/-- Whether the first node comes no later: by file, line, column and id. -/
def Node.comesBy (a b : Node) : Bool :=
  a.file < b.file || (a.file == b.file &&
    (a.span.startLine < b.span.startLine || (a.span.startLine == b.span.startLine &&
      (a.span.startCol < b.span.startCol || (a.span.startCol == b.span.startCol &&
        a.id ≤ b.id)))))

/-- Whether the first span comes no later. -/
def Span.comesBy (a b : Span) : Bool :=
  a.startLine < b.startLine || (a.startLine == b.startLine &&
    (a.startCol < b.startCol || (a.startCol == b.startCol &&
      (a.endLine < b.endLine || (a.endLine == b.endLine && a.endCol ≤ b.endCol)))))

/-- A node with the edge that relates it. -/
structure Relation where
  node : Node
  edge : Edge
deriving DecidableEq, Inhabited, Repr

/-- Whether the first relation comes no later. -/
def Relation.comesBy (a b : Relation) : Bool :=
  if a.node.comesBy b.node && b.node.comesBy a.node then a.edge.span.comesBy b.edge.span
  else a.node.comesBy b.node

/-- What a module imports. -/
structure ImportGraph where
  module : Node
  /-- Imported nodes, whatever their kind. -/
  direct : List Node
  /-- Other modules that are reached by imports. -/
  transitive : List Node
deriving DecidableEq, Inhabited, Repr

/-! ## Searching -/

/-- How far a search is: what it found, in the order in which it was found, and what of
that waits to be gone on from. -/
structure Frontier (α : Type) where
  found : List α
  waiting : List α
deriving DecidableEq, Inhabited, Repr

namespace Frontier

variable {α : Type}

/-- A search that begins with one thing. -/
def start (a : α) : Frontier α := ⟨[a], [a]⟩

/-- Takes something up, unless something with its key was found before. -/
def take (key : α → String) (q : Frontier α) (a : α) : Frontier α :=
  if q.found.any (key · == key a) then q else ⟨q.found ++ [a], q.waiting ++ [a]⟩

/-- Goes on from what has waited longest, until nothing waits or the steps are used up. -/
def run (key : α → String) (next : α → List α) : (steps : Nat) → Frontier α → Frontier α
  | 0, q => q
  | steps + 1, q =>
    match q.waiting with
    | [] => q
    | a :: waiting => run key next steps ((next a).foldl (take key) { q with waiting })

end Frontier

/-- The first one of those with the same key, in order. -/
def firstOfEach {α : Type} (key : α → String) (xs : List α) : List α :=
  (xs.foldl (Frontier.take key) ⟨[], []⟩).found

/-! ## Targets -/

/-- Whether a text can be a node's id: a word for a kind, a colon, and no other colon
after it. -/
def looksLikeNodeId (s : String) : Bool :=
  match Text.cut? ":" s with
  | some (word, rest) =>
    (Text.strip? ":" rest).isNone && (NodeKind.ofText? word).toOption.isSome
  | none => false

namespace Store

/-! ## Nodes -/

/-- The nodes that a text asks for. -/
def definition (s : Store) (target : String) : List Node :=
  let byId := if looksLikeNodeId target then (s.nodes.get? target).toList else []
  match byId with
  | n :: _ => [n]
  | [] =>
    let qualified := s.nodesQualified target
    (if qualified.isEmpty then s.nodesNamed target else qualified).mergeSort Node.comesBy

/-! ## Relations -/

/-- The sources of the calls of a target. -/
def callers (s : Store) (target : String) : List Relation :=
  ((s.definition target).flatMap fun n =>
    (s.edgesTo n.id (some .calls)).filterMap fun e =>
      (s.nodes.get? e.source).map fun source => ⟨source, e⟩).mergeSort Relation.comesBy

/-- The edges of one relationship that lead from a target to anything, each once. -/
def edgesOut (s : Store) (target : String) (r : Relationship) : List Edge :=
  firstOfEach Edge.id ((s.definition target).flatMap fun n =>
    (s.edgesFrom n.id (some r)).filter (·.target.isSome))

/-- The targets of the edges of one relationship that start at a target. -/
def outgoing (s : Store) (target : String) (r : Relationship) : List Relation :=
  ((s.edgesOut target r).filterMap fun e =>
    (e.target.bind s.nodes.get?).map fun found => ⟨found, e⟩).mergeSort Relation.comesBy

/-- What a target calls. -/
def callees (s : Store) (target : String) : List Relation := s.outgoing target .calls

/-- What stands directly in a module or class. -/
def members (s : Store) (target : String) : List Relation := s.outgoing target .contains

/-! ## Imports -/

/-- The stored targets of a module's imports. -/
def imported (s : Store) (id : String) : List Node :=
  (s.edgesFrom id (some .imports)).filterMap fun e => e.target.bind s.nodes.get?

/-- The module of the file that declares a node; a module declares itself. -/
def declaringModule? (s : Store) (n : Node) : Option Node :=
  if n.kind == .module then some n else (s.nodesInFile n.file).find? (·.kind == .module)

/-- The modules that one import leads to. -/
def importedModules (s : Store) (id : String) : List Node :=
  (s.imported id).filterMap s.declaringModule?

/-- The search for the modules that imports lead to. No more modules are found than
there are nodes. -/
def moduleSearch (s : Store) (m : Node) : Frontier Node :=
  Frontier.run Node.id (fun a => s.importedModules a.id) (s.nodes.size + 1) (.start m)

/-- Drops nodes that follow one with the same id. -/
def dropSame : List Node → List Node
  | a :: b :: rest => if a.id = b.id then dropSame (a :: rest) else a :: dropSame (b :: rest)
  | rest => rest

end Store

/-- Modules with arcs between them. -/
structure ModuleGraph where
  modules : List Node
  /-- The ids of a module and of one that an import in it leads to. -/
  arcs : List (String × String)
deriving DecidableEq, Inhabited, Repr

namespace ModuleGraph

/-- The ids that arcs lead to from an id. -/
def successors (g : ModuleGraph) (id : String) : List String :=
  (g.arcs.filter (·.1 == id)).map (·.2)

/-- The walk along the arcs, breadth first. -/
def walk (g : ModuleGraph) (origin : String) : Frontier String :=
  Frontier.run id g.successors g.modules.length (.start origin)

end ModuleGraph

namespace Store

/-- The modules that imports lead to, with an arc for each import that leads from one to
another. -/
def moduleGraph (s : Store) (m : Node) : ModuleGraph :=
  let modules := (s.moduleSearch m).found
  let arcs := modules.flatMap fun a => (s.importedModules a.id).map fun b => (a.id, b.id)
  ⟨modules, arcs.eraseDups⟩

/-- What a module imports. -/
def importGraph (s : Store) (m : Node) : ImportGraph :=
  let g := s.moduleGraph m
  let others := (g.walk m.id).found.filter (· != m.id)
  { module := m
    direct := dropSame ((s.imported m.id).mergeSort Node.comesBy)
    transitive :=
      (others.filterMap fun id => g.modules.find? (·.id == id)).mergeSort Node.comesBy }

/-- What a module imports, by its name. -/
def imports (s : Store) (target : String) : Except Error ImportGraph :=
  match (s.definition target).find? (·.kind == .module) with
  | some m => .ok (s.importGraph m)
  | none => .error (.notFound ("Module " ++ target))

end Store

end CodeAtlas
