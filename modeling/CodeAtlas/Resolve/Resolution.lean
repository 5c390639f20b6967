import CodeAtlas.Graph.Record
import CodeAtlas.Resolve.Reference

/-!
# CodeAtlas.Resolve.Resolution

The nodes and edges that the facts of a file stand for.

1. the module comes first, then the definitions in source order, each id once; a
   definition is contained in the innermost definition around it;
2. imports are edges of the module, calls and references are edges of the innermost
   definition around them, and bases are edges of the class that has them, also if
   that class is imported;
3. each edge id comes once, with the first of its places.
-/

namespace CodeAtlas

/-- What a file contributes to the graph. -/
structure Resolution where
  module : Node
  /-- The module and the definitions of the file. -/
  nodes : List Node
  edges : List Edge
  /-- Names that edges without a target wait for. -/
  unresolved : List String
  /-- Names that several nodes have. -/
  ambiguous : List String
deriving DecidableEq, Inhabited, Repr

namespace Resolution

/-- The ids of all nodes and edges. -/
def contributions (r : Resolution) : List String :=
  sortedSet (r.nodes.map (·.id) ++ r.edges.map (·.id))

/-- The ambiguous names as they are reported. -/
def ambiguities (r : Resolution) : List Error := r.ambiguous.map .ambiguous

end Resolution

namespace Resolve

/-! ## Definitions -/

/-- The node of the module, which starts where the file starts. -/
def moduleNode (f : SourceFile) (c : FileScope) : Node where
  id := c.moduleId
  kind := .module
  name := c.module.name
  qualifiedName := c.module.qualifiedName
  file := f.filePath
  language := f.language
  span := { f.span with startLine := 0, startCol := 0 }
  signature := none

/-- The node of a definition. -/
def definitionNode (f : SourceFile) (c : FileScope) (kind : NodeKind) (fact : Fact) : Node :=
  let qualifiedName := c.qualify (FileScope.relative c.separator fact.scope fact.name)
  { id := Node.idOf kind qualifiedName, kind, name := fact.name, qualifiedName
    file := f.filePath, language := f.language, span := fact.span, signature := fact.signature }

/-- An edge of the file. -/
def edgeTo (f : SourceFile) (r : Relationship) (source : String) (t : Target) (span : Span) :
    Edge where
  id := Edge.idOf r source t.targetRef f.filePath
  source := source
  target := t.id
  relationship := r
  confidence := t.confidence
  targetRef := t.targetRef
  file := f.filePath
  span := span

/-- Adds an edge unless its id is there. -/
def addEdge (edges : List Edge) (e : Edge) : List Edge :=
  if edges.any (·.id == e.id) then edges else edges ++ [e]

/-- Adds the node of a definition and its place in the definition around it. -/
def addDefinition (f : SourceFile) (c : FileScope) (r : Resolution) (fact : Fact) : Resolution :=
  match fact.definitionKind? with
  | none => r
  | some kind =>
    let n := definitionNode f c kind fact
    if r.nodes.any (·.id == n.id) then r
    else { r with
      nodes := r.nodes ++ [n]
      edges := addEdge r.edges
        (edgeTo f .contains (c.enclosing fact.scope) (.resolved n.qualifiedName n.id) fact.span) }

/-! ## References -/

/-- The class that a base belongs to, if it is known here. -/
def subclass? (c : FileScope) (scope : List String) : Option String :=
  let path := FileScope.pathOf c.separator scope
  (c.local? path .inherits) <|> (c.homes.lookup path).map (Node.idOf .classLike)

/-- What a fact refers to: relationship, source and target. -/
def reference? (c : FileScope) (index : SymbolIndex) (fact : Fact) :
    Except Error (Option (Relationship × String × Target)) := do
  match fact.kind with
  | .imported =>
    match fact.target with
    | none => return none
    | some path =>
      return some (.imports, c.moduleId, ← c.qualified index (c.module.absolutize path) .imports)
  | .call =>
    return some (.calls, c.enclosing fact.scope, ← c.target index fact.name fact.scope .calls)
  | .reference =>
    return some (.references, c.enclosing fact.scope,
      ← c.target index fact.name fact.scope .references)
  | .base =>
    match subclass? c fact.scope with
    | none => return none
    | some source =>
      return some (.inherits, source, ← c.target index fact.name fact.scope.dropLast .inherits)
  | .definition _ => return none
  | .syntaxError => return none

/-- Adds the edge of a reference. -/
def addReference (f : SourceFile) (r : Resolution) (span : Span) :
    Relationship × String × Target → Resolution
  | (relationship, source, t) =>
    let e := edgeTo f relationship source t span
    if r.edges.any (·.id == e.id) then r
    else { r with
      edges := r.edges ++ [e]
      ambiguous := if t.ambiguous then r.ambiguous ++ [t.targetRef] else r.ambiguous
      unresolved := if t.id.isNone then r.unresolved ++ [t.targetRef] else r.unresolved }

/-- Adds the edges of all references. -/
def addReferences (f : SourceFile) (c : FileScope) (index : SymbolIndex) (r : Resolution) :
    List Fact → Except Error Resolution
  | [] => return r
  | fact :: facts => do
    match ← reference? c index fact with
    | none => addReferences f c index r facts
    | some found => addReferences f c index (addReference f r fact.span found) facts

/-- The nodes and edges of a file. -/
def resolve (index : SymbolIndex) (f : SourceFile) : Except Error Resolution :=
  let c := FileScope.ofFile f
  let module := moduleNode f c
  let defined := f.facts.foldl (addDefinition f c) ⟨module, [module], [], [], []⟩
  addReferences f c index defined f.facts

end Resolve

end CodeAtlas
