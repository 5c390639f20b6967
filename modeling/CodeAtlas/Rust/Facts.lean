import CodeAtlas.Fact
import CodeAtlas.Parsing.Tree
import CodeAtlas.Rust.Path
import CodeAtlas.Text.Words

/-!
# CodeAtlas.Rust.Facts

What a Rust tree says.

1. what an impl block or a trait holds directly belongs to the type or trait, and
   functions there are methods; an impl block itself defines nothing;
2. only the body of a function belongs to its scope, and nothing else of a
   function is looked at;
3. a module defines something only where its body is written;
4. a use declaration binds one name per leaf of its tree;
5. the contents of macro calls and attributes say nothing.
-/

namespace CodeAtlas.Rust

open CodeAtlas.Parsing
open CodeAtlas.Text

/-! ## Names -/

/-- The path that a node writes. -/
def pathText (t : Tree) (src : Source) : String := Path.written (t.text src)

/-- A callee as written; a method of anything but `self` is written after `_.`. -/
def calleeName (src : Source) (function : Tree) : Option String :=
  if function.kind == "identifier" || function.kind == "scoped_identifier" then
    some (pathText function src)
  else if function.kind == "generic_function" then
    match h : function.field? "function" with
    | some f =>
      have := Tree.sizeOf_lt_of_field? h
      calleeName src f
    | none => none
  else if function.kind == "field_expression" then
    match function.field? "field", function.field? "value" with
    | some name, some receiver =>
      some ((if receiver.kind == "self" then "self." else "_.") ++ name.text src)
    | _, _ => none
  else none
termination_by sizeOf function

/-- The last name of a type, without references and type arguments. -/
def typeName (src : Source) (t : Tree) : Option String :=
  if t.kind == "type_identifier" || t.kind == "primitive_type" then some (t.text src)
  else if t.kind == "generic_type" || t.kind == "reference_type" || t.kind == "pointer_type" then
    match h : t.field? "type" with
    | some u =>
      have := Tree.sizeOf_lt_of_field? h
      typeName src u
    | none => none
  else if t.kind == "scoped_type_identifier" then (t.field? "name").map (·.text src)
  else none
termination_by sizeOf t

/-- The path of a type or trait, without type arguments. -/
def typePath (src : Source) (t : Tree) : Option String :=
  if t.kind == "type_identifier" || t.kind == "scoped_type_identifier" then some (pathText t src)
  else if t.kind == "generic_type" then
    match h : t.field? "type" with
    | some u =>
      have := Tree.sizeOf_lt_of_field? h
      typePath src u
    | none => none
  else none
termination_by sizeOf t

/-! ## Signatures -/

/-- The text without the given character at its end. -/
def dropAtEnd (c : Char) (s : String) : String :=
  String.ofList (s.toList.reverse.dropWhile (· == c)).reverse

/-- An item up to its body. -/
def header (t : Tree) (src : Source) : String :=
  let stop := ((t.field? "body").map (·.info.start)).getD t.info.stop
  collapse (dropAtEnd ';' (src.slice t.info.start stop))

/-- A constant up to its value. -/
def constantHeader (t : Tree) (src : Source) : String :=
  let declared := match t.field? "value" with
    | some v => dropAtEnd '=' (trimEnd (src.slice t.info.start v.info.start))
    | none => t.text src
  collapse (dropAtEnd ';' declared)

/-! ## Use declarations -/

/-- The names that a use tree binds below a path. -/
def useFacts (src : Source) (scope : List String) (above : String) (t : Tree) : List Fact :=
  let span := t.span src
  if t.kind == "identifier" || t.kind == "crate" || t.kind == "self" || t.kind == "super" then
    let name := t.text src
    if name == "self" && above != "" then [.imported (Path.last above) above scope span]
    else [.imported name (Path.join above name) scope span]
  else if t.kind == "scoped_identifier" then
    let path := Path.withoutSelf (Path.join above (pathText t src))
    [.imported (Path.last path) path scope span]
  else if t.kind == "use_as_clause" then
    match t.field? "path", t.field? "alias" with
    | some path, some name =>
      [.imported (name.text src) (Path.join above (pathText path src)) scope span]
    | _, _ => []
  else if t.kind == "scoped_use_list" then
    let above := match t.field? "path" with
      | some path => Path.join above (pathText path src)
      | none => above
    match h : t.field? "list" with
    | some list =>
      have := Tree.sizeOf_lt_of_field? h
      useFacts src scope above list
    | none => []
  else if t.kind == "use_list" then
    t.namedChildren.attach.flatMap fun c =>
      have := Tree.sizeOf_lt_of_mem_namedChildren c.2
      useFacts src scope above c.1
  else if t.kind == "use_wildcard" then
    [.imported "*" (Path.join above (Path.beforeStar (pathText t src))) scope span]
  else []
termination_by sizeOf t

/-! ## The walk -/

/-- The facts of a node. `inBody` says that it stands directly in the body of an
impl block or a trait. -/
def walk (src : Source) (scope : List String) (inBody : Bool) (t : Tree) : List Fact :=
  let kind := t.kind
  let below : Unit → List Fact := fun _ =>
    t.namedChildren.attach.flatMap fun c =>
      have := Tree.sizeOf_lt_of_mem_namedChildren c.2
      walk src scope false c.1
  -- the facts of what stands directly in the body
  let body (scope : List String) (inBody : Bool) : List Fact :=
    match h : t.field? "body" with
    | some b => b.namedChildren.attach.flatMap fun c =>
      have := Tree.sizeOf_lt_of_field? h
      have := Tree.sizeOf_lt_of_mem_namedChildren c.2
      walk src scope inBody c.1
    | none => []
  let define (kind : NodeKind) (name : Tree) (signature : String) : Fact :=
    .definition kind (name.text src) scope (t.span src) signature
  if kind == "function_item" || kind == "function_signature_item" then
    match t.field? "name" with
    | none => below ()
    | some name =>
      define (if inBody then .method else .function) name (header t src) ::
        match h : t.field? "body" with
        | some b =>
          have := Tree.sizeOf_lt_of_field? h
          walk src (scope ++ [name.text src]) false b
        | none => []
  else if kind == "struct_item" || kind == "enum_item" || kind == "union_item" then
    match t.field? "name" with
    | none => below ()
    | some name => [define .classLike name (header t src)]
  else if kind == "trait_item" then
    match t.field? "name" with
    | none => below ()
    | some name =>
      let inner := scope ++ [name.text src]
      let bounds := match t.field? "bounds" with
        | some bs => bs.namedChildren.filterMap fun b =>
          (typePath src b).map fun path => .base path inner (b.span src)
        | none => []
      define .classLike name (header t src) :: bounds ++ body inner true
  else if kind == "impl_item" then
    match (t.field? "type").bind (typeName src) with
    | none => below ()
    | some self =>
      let inner := scope ++ [self]
      let base := match t.field? "trait" with
        | some b => ((typePath src b).map fun path => Fact.base path inner (b.span src)).toList
        | none => []
      base ++ body inner true
  else if kind == "mod_item" then
    match t.field? "name", t.field? "body" with
    | some name, some _ =>
      define .module name ("mod " ++ name.text src) :: body (scope ++ [name.text src]) false
    | _, _ => []
  else if kind == "const_item" || kind == "static_item" then
    match t.field? "name" with
    | none => below ()
    | some name =>
      define .variable name (constantHeader t src) ::
        match h : t.field? "value" with
        | some v =>
          have := Tree.sizeOf_lt_of_field? h
          walk src scope false v
        | none => []
  else if kind == "use_declaration" then
    match t.field? "argument" with
    | some argument => useFacts src scope "" argument
    | none => []
  else if kind == "call_expression" then
    (match (t.field? "function").bind (calleeName src) with
      | some callee => [Fact.call callee scope (t.span src)]
      | none => []) ++ below ()
  else if kind == "macro_invocation" || kind == "macro_definition" || kind == "attribute_item" ||
      kind == "inner_attribute_item" then []
  else below ()
termination_by sizeOf t

/-- The facts of a Rust file. -/
def facts (src : Source) (root : Tree) : List Fact := walk src [] false root

end CodeAtlas.Rust
