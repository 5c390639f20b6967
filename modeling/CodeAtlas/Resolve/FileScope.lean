import CodeAtlas.ModulePath
import CodeAtlas.Resolve.Symbol
import CodeAtlas.SourceFile

/-!
# CodeAtlas.Resolve.FileScope

What names mean inside of one file.

1. a definition is known by its path below the module: the names of the definitions
   around it and its own;
2. an import binds a name to an absolute path; the last one counts. Imports of all
   names are kept in the order in which they are written;
3. what stands in an impl block of an imported type belongs to that type and not to
   the module.
-/

namespace CodeAtlas.Resolve

open CodeAtlas.Text

/-- A definition of the file. -/
structure LocalDefinition where
  /-- Path below the module. -/
  path : String
  kind : NodeKind
  id : String
deriving DecidableEq, Inhabited, Repr

/-- Names inside of one file. -/
structure FileScope where
  file : String
  module : ModulePath
  /-- Definitions in source order. -/
  definitions : List LocalDefinition
  /-- Bound names with what they stand for, the last binding first. -/
  aliases : List (String × String)
  /-- Modules of which all names are imported. -/
  globs : List String
  /-- Paths of imported types that have impl blocks here, in ascending order, with
  the types' qualified names. -/
  homes : List (String × String)
deriving Inhabited

namespace FileScope

/-! ## Paths -/

def separator (c : FileScope) : String := c.module.separator

/-- The path of a scope. -/
def pathOf (separator : String) (scope : List String) : String := separator.intercalate scope

/-- The path of a name in a scope. -/
def relative (separator : String) (scope : List String) (name : String) : String :=
  join separator (pathOf separator scope) name

/-- A path below another one, if it is that. -/
def below? (separator base path : String) : Option String :=
  (strip? base path).bind (strip? separator)

/-- The qualified name of a path of the file, by the homes of imported types. -/
def qualifyIn (module : ModulePath) (path : String) : List (String × String) → String
  | [] => module.child path
  | (target, home) :: homes =>
    if path == target then home
    else
      match below? module.separator target path with
      | some rest => join module.separator home rest
      | none => qualifyIn module path homes

/-- The qualified name of a path of the file. -/
def qualify (c : FileScope) (path : String) : String := qualifyIn c.module path c.homes

/-! ## Reading a file -/

/-- The paths that the file defines. -/
def definedPaths (separator : String) (facts : List Fact) : List String :=
  facts.filterMap fun f =>
    match f.definitionKind? with
    | some _ => some (relative separator f.scope f.name)
    | none => none

/-- Imports with their absolute targets. -/
def imports (module : ModulePath) (facts : List Fact) : List (String × String) :=
  facts.filterMap fun f =>
    if f.kind == .imported then f.target.map fun t => (f.name, module.absolutize t) else none

/-- Each text once, in order. -/
def distinct (xs : List String) : List String :=
  xs.foldl (fun acc x => if acc.contains x then acc else acc ++ [x]) []

/-- The outermost part of a scope that the file does not define: its path and its
last name. -/
def undefined? (separator : String) (defined : List String) (scope : List String) :
    Option (String × String) :=
  (List.range scope.length).findSome? fun i =>
    let part := scope.take (i + 1)
    if defined.contains (pathOf separator part) then none
    else (part.getLast?).map fun name => (pathOf separator part, name)

/-- Adds the home of an imported type that a scope belongs to. -/
def addHome (separator : String) (defined : List String) (aliases homes : List (String × String))
    (scope : List String) : List (String × String) :=
  match undefined? separator defined scope with
  | none => homes
  | some (path, name) =>
    if homes.any (·.1 == path) then homes
    else
      match aliases.lookup name with
      | some home => homes ++ [(path, home)]
      | none => homes

/-- The homes of imported types. -/
def findHomes (separator : String) (defined : List String) (aliases : List (String × String))
    (facts : List Fact) : List (String × String) :=
  (facts.foldl (fun homes f => addHome separator defined aliases homes f.scope) []).mergeSort
    fun a b => a.1 ≤ b.1

/-- The definitions of the file, each id once per path. -/
def findDefinitions (module : ModulePath) (homes : List (String × String)) (facts : List Fact) :
    List LocalDefinition :=
  facts.foldl (fun acc f =>
    match f.definitionKind? with
    | none => acc
    | some kind =>
      let path := relative module.separator f.scope f.name
      let d : LocalDefinition := ⟨path, kind, Node.idOf kind (qualifyIn module path homes)⟩
      if acc.any fun o => o.path == path && o.id == d.id then acc else acc ++ [d]) []

/-- What names mean inside of a file. -/
def ofFile (f : SourceFile) : FileScope :=
  let module := ModulePath.ofFile f.relativePath f.language
  let bound := imports module f.facts
  let aliases := (bound.filter (·.1 != "*")).reverse
  let homes := if module.separator == "::" then
      findHomes "::" (definedPaths "::" f.facts) aliases f.facts
    else []
  { file := f.filePath, module, aliases, homes
    globs := distinct ((bound.filter (·.1 == "*")).map (·.2))
    definitions := findDefinitions module homes f.facts }

/-! ## Looking names up -/

/-- The definitions at a path. -/
def definitionsAt (c : FileScope) (path : String) : List LocalDefinition :=
  c.definitions.filter (·.path == path)

/-- Whether the first definition comes before the second one, by kind and id. -/
def comesFirst (a b : LocalDefinition) : Bool :=
  a.kind.rank < b.kind.rank || (a.kind.rank == b.kind.rank && a.id ≤ b.id)

/-- The first one of some definitions. -/
def first? : List LocalDefinition → Option LocalDefinition
  | [] => none
  | d :: ds =>
    match first? ds with
    | none => some d
    | some e => if comesFirst d e then some d else some e

/-- The definition at a path that a relationship accepts as its target. -/
def local? (c : FileScope) (path : String) (r : Relationship) : Option String :=
  (first? ((c.definitionsAt path).filter fun d => r.accepts d.kind)).map (·.id)

/-- The parts of a scope from its start, longest first, without the empty one. -/
def outerScopes (scope : List String) : List (List String) :=
  ((List.range scope.length).map fun i => scope.take (i + 1)).reverse

def moduleId (c : FileScope) : String := Node.idOf .module c.module.qualifiedName

/-- The innermost definition around a scope, or else the module. -/
def enclosing (c : FileScope) (scope : List String) : String :=
  ((outerScopes scope).findSome? fun part =>
    (first? (c.definitionsAt (pathOf c.separator part))).map (·.id)).getD c.moduleId

/-- Whether a scope is the body of a class. -/
def isClass (c : FileScope) (scope : List String) : Bool :=
  (c.definitionsAt (pathOf c.separator scope)).any (·.kind == .classLike)

/-- The innermost class around a scope; a scope that the file does not define is
that of a type from elsewhere. -/
def enclosingClass? (c : FileScope) (scope : List String) : Option (List String) :=
  (outerScopes scope).find? fun part =>
    (c.definitionsAt (pathOf c.separator part)).isEmpty || c.isClass part

/-- A qualified name below the module. -/
def belowModule? (c : FileScope) (qualified : String) : Option String :=
  if c.module.qualifiedName == "" then some qualified
  else below? c.separator c.module.qualifiedName qualified

/-- The paths at which the file may define a qualified name. -/
def pathsOf (c : FileScope) (qualified : String) : List String :=
  (c.belowModule? qualified).toList ++ c.homes.filterMap fun (target, home) =>
    if qualified == home then some target
    else (below? c.separator home qualified).map (join c.separator target)

end FileScope

end CodeAtlas.Resolve
