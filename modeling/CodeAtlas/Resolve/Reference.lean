import CodeAtlas.Resolve.FileScope

/-!
# CodeAtlas.Resolve.Reference

What a written reference means.

1. a name is looked for in the scopes around it, innermost first, then among the
   imports, the longest bound part first, then in modules of which all names are
   imported, and at last as the only node of that name elsewhere;
2. the body of a class is no scope for the functions in it, only for what stands in
   it directly;
3. a member of the own object is looked for in the class around; a member of any
   other object is known by its name alone;
4. a path that starts at the crate or a module means what it says and nothing else;
5. what has no target waits for the name that it means.
-/

namespace CodeAtlas.Resolve

open CodeAtlas.Text

/-! ## Written names -/

/-- How a reference was written. -/
inductive Written where
  /-- Names with separators between them. -/
  | path (segments : List String)
  /-- A member of the own object or type. -/
  | onSelf (member : String)
  /-- A member of an unknown object. -/
  | dynamic (member : String)
deriving DecidableEq, Inhabited, Repr

/-- Reads a name that Rust code writes: methods follow a point, paths do not. -/
def Written.ofRust (written : String) : Written :=
  match cutLast? "." written with
  | some (receiver, method) => if receiver == "self" then .onSelf method else .dynamic method
  | none =>
    match strip? "Self::" written with
    | some member => .onSelf member
    | none => .path (split "::" written)

/-- Reads a name that Python code writes. -/
def Written.ofPython (written : String) : Written :=
  match (strip? "self." written) <|> (strip? "cls." written) with
  | some member =>
    if occurs "." member then .dynamic (lastSegment "." member) else .onSelf member
  | none => .path (split "." written)

/-- Reads a written name. -/
def Written.read (written separator : String) : Written :=
  match strip? "_." written with
  | some member => .dynamic (lastSegment "." member)
  | none => if separator == "::" then .ofRust written else .ofPython written

/-! ## Targets -/

/-- What a reference means. -/
structure Target where
  targetRef : String
  id : Option String
  confidence : Confidence
  /-- Whether there are several nodes that it may mean. -/
  ambiguous : Bool
deriving DecidableEq, Inhabited, Repr

namespace Target

def resolved (targetRef id : String) : Target := ⟨targetRef, some id, .resolved, false⟩

def heuristic (targetRef id : String) : Target := ⟨targetRef, some id, .heuristic, false⟩

def unresolved (targetRef : String) : Target := ⟨targetRef, none, .unresolved, false⟩

def ambiguousAt (targetRef : String) : Target := ⟨targetRef, none, .unresolved, true⟩

end Target

/-- Whether the first symbol is preferred, by kind and id. -/
def preferred (a b : Symbol) : Bool :=
  a.kind.rank < b.kind.rank || (a.kind.rank == b.kind.rank && a.id ≤ b.id)

/-- The preferred one of some symbols. -/
def best? : List Symbol → Option Symbol
  | [] => none
  | s :: ss =>
    match best? ss with
    | none => some s
    | some t => if preferred s t then some s else some t

namespace FileScope

/-- The best of some symbols with one qualified name; of the file's own ones only
its module counts. -/
def pick (c : FileScope) (candidates : List Symbol) (r : Relationship) : Option Symbol :=
  best? (candidates.filter fun s => (s.file != c.file || s.kind == .module) && r.accepts s.kind)

/-- The target with a name, if it is the only one in other files. -/
def global (c : FileScope) (index : SymbolIndex) (name : String) (r : Relationship) :
    Except Error Target := do
  let candidates := (← index.byName name).filter fun s =>
    s.file != c.file && s.kind != .module && r.accepts s.kind
  match candidates with
  | [] => return .unresolved name
  | [s] => return .heuristic name s.id
  | _ => return .ambiguousAt name

/-- The target with a qualified name. -/
def qualified (c : FileScope) (index : SymbolIndex) (name : String) (r : Relationship) :
    Except Error Target := do
  match (c.pathsOf name).findSome? fun path => c.local? path r with
  | some id => return .resolved name id
  | none =>
    if name == c.module.qualifiedName && r == .imports then return .resolved name c.moduleId
    match c.pick (← index.byQualifiedName name) r with
    | some s => return .resolved name s.id
    | none => return .unresolved name

/-- Whether a part of a scope is the body of a class around a function. -/
def hidesNames (c : FileScope) (scope part : List String) : Bool :=
  !part.isEmpty && part.length < scope.length && c.isClass part

/-- The target of a path in the scopes around it. -/
def inScope? (c : FileScope) (path : String) (scope : List String) (r : Relationship) :
    Option Target :=
  (outerScopes scope ++ [[]]).findSome? fun part =>
    if c.hidesNames scope part then none
    else
      let path := relative c.separator part path
      (c.local? path r).map fun id => .resolved (c.qualify path) id

/-- The absolute name of a path whose first part an import binds. -/
def imported? (c : FileScope) (segments : List String) : Option String :=
  ((List.range segments.length).map (· + 1)).reverse.findSome? fun n =>
    (c.aliases.lookup (pathOf c.separator (segments.take n))).map fun home =>
      join c.separator home (pathOf c.separator (segments.drop n))

/-- The target of a path in modules of which all names are imported. -/
def inGlobs? (c : FileScope) (index : SymbolIndex) (path : String) (r : Relationship) :
    List String → Except Error (Option Target)
  | [] => return none
  | glob :: globs => do
    let candidate := join c.separator glob path
    match c.pick (← index.byQualifiedName candidate) r with
    | some s => return some (.resolved candidate s.id)
    | none => inGlobs? c index path r globs

/-- The target of a path. -/
def ofPath (c : FileScope) (index : SymbolIndex) (segments scope : List String)
    (r : Relationship) : Except Error Target := do
  let path := pathOf c.separator segments
  if c.separator == "::" && ["crate", "super", "self"].contains (segments.headD "") then
    c.qualified index (c.module.absolutize path) r
  else
    match c.inScope? path scope r with
    | some t => return t
    | none =>
      match c.imported? segments with
      | some name => c.qualified index name r
      | none =>
        match ← c.inGlobs? index path r c.globs with
        | some t => return t
        | none =>
          match segments with
          | [_] => c.global index path r
          | _ =>
            if c.separator == "." then c.global index (segments.getLastD "") r
            else c.qualified index path r

/-- The target of a member of the own object. -/
def ofMember (c : FileScope) (index : SymbolIndex) (member : String) (scope : List String)
    (r : Relationship) : Except Error Target :=
  match c.enclosingClass? scope with
  | none => c.global index member r
  | some part =>
    let path := relative c.separator part member
    match c.local? path r with
    | some id => return .resolved (c.qualify path) id
    | none => c.global index member r

/-- The target of a name as written in a scope. -/
def target (c : FileScope) (index : SymbolIndex) (written : String) (scope : List String)
    (r : Relationship) : Except Error Target :=
  match Written.read written c.separator with
  | .path segments => c.ofPath index segments scope r
  | .onSelf member => c.ofMember index member scope r
  | .dynamic member => c.global index member r

end FileScope

end CodeAtlas.Resolve
