import CodeAtlas.Fact
import CodeAtlas.Parsing.Tree
import CodeAtlas.Text.Words

/-!
# CodeAtlas.Python.Facts

What a Python tree says.

1. a function is a method if it stands directly in the body of a class;
2. what a function's header evaluates belongs to the scope around the function,
   its body to the function; a class's bases belong to the scope around it;
3. a decorator that is a name, or a call of one, is a use of that name by the
   definition below it; any other decorator is an expression of the scope;
4. an assignment at the top of the file to an upper-case name defines a variable;
5. an import binds the first name that it writes, or the name after `as`.
-/

namespace CodeAtlas.Python

open CodeAtlas.Parsing
open CodeAtlas.Text

/-! ## Names -/

/-- Whether an expression is names with dots between them. -/
def isDottedPath (t : Tree) : Bool :=
  if t.kind == "identifier" || t.kind == "dotted_name" then true
  else if t.kind == "attribute" then
    match h : t.field? "object" with
    | some o =>
      have := Tree.sizeOf_lt_of_field? h
      isDottedPath o
    | none => false
  else false
termination_by sizeOf t

/-- The text of a path without its blanks. -/
def dottedText (t : Tree) (src : Source) : String := withoutBlanks (t.text src)

/-- A callee as written; an attribute of anything but a path is written after `_.`. -/
def calleeName (function : Tree) (src : Source) : Option String :=
  if function.kind == "identifier" then some (function.text src)
  else if function.kind == "attribute" then
    if isDottedPath function then some (dottedText function src)
    else (function.field? "attribute").map fun a => "_." ++ a.text src
  else none

/-- Upper-case names of two or more characters, digits and underscores allowed
after the first. -/
def isConstantName (name : String) : Bool :=
  2 ≤ name.utf8ByteSize && name.toList.any Char.isUpper &&
    name.toList.all (fun c => c.isUpper || c == '_' || c.isDigit) &&
    name.toList.head? != some '_'

/-- An imported name after the module that it comes from. -/
def joinModule (module name : String) : String :=
  if module.toList.getLast? == some '.' then module ++ name else module ++ "." ++ name

/-- The header of a definition, up to the end of a node in it. -/
def header (t last : Tree) (src : Source) : String :=
  collapse (src.slice t.info.start last.info.stop)

/-! ## Statements -/

def importFacts (t : Tree) (src : Source) (scope : List String) : List Fact :=
  t.namedChildren.filterMap fun c =>
    if c.kind == "dotted_name" then
      let path := dottedText c src
      some (.imported path path scope (c.span src))
    else if c.kind == "aliased_import" then
      match c.field? "name", c.field? "alias" with
      | some name, some as => some (.imported (as.text src) (dottedText name src) scope (c.span src))
      | _, _ => none
    else none

def importFromFacts (t : Tree) (src : Source) (scope : List String) : List Fact :=
  match t.field? "module_name" with
  | none => []
  | some m =>
    let module := dottedText m src
    if t.children.any fun (_, c) => c.kind == "wildcard_import" then
      [.imported "*" module scope (t.span src)]
    else
      (t.fields "name").filterMap fun c =>
        if c.kind == "dotted_name" then
          let name := dottedText c src
          some (.imported name (joinModule module name) scope (c.span src))
        else if c.kind == "aliased_import" then
          match c.field? "name", c.field? "alias" with
          | some name, some as =>
            some (.imported (as.text src) (joinModule module (dottedText name src)) scope (c.span src))
          | _, _ => none
        else none

/-- The variable that an assignment at the top of a file defines. -/
def constantFact (t : Tree) (src : Source) : List Fact :=
  match t.namedChildren.head? with
  | some a =>
    if a.kind == "assignment" then
      match a.field? "left" with
      | some left =>
        let name := left.text src
        if left.kind == "identifier" && isConstantName name then
          [.definition .variable name [] (a.span src) (trim (firstLine (a.text src)))]
        else []
      | none => []
    else []
  | none => []

/-! ## The walk -/

/-- The facts of a node. `inClass` says that it stands directly in the body of a
class. -/
def walk (src : Source) (scope : List String) (inClass : Bool) (t : Tree) : List Fact :=
  let below : Unit → List Fact := fun _ =>
    t.namedChildren.attach.flatMap fun c =>
      have := Tree.sizeOf_lt_of_mem_namedChildren c.2
      walk src scope inClass c.1
  if t.kind == "function_definition" then
    match t.field? "name" with
    | none => below ()
    | some name =>
      let last := ((t.field? "return_type").orElse fun _ => t.field? "parameters").getD name
      let own := Fact.definition (if inClass then .method else .function) (name.text src) scope
        (t.span src) (header t last src)
      let parameters := match h : t.field? "parameters" with
        | some p =>
          have := Tree.sizeOf_lt_of_field? h
          walk src scope false p
        | none => []
      let body := match h : t.field? "body" with
        | some b => b.namedChildren.attach.flatMap fun c =>
          have := Tree.sizeOf_lt_of_field? h
          have := Tree.sizeOf_lt_of_mem_namedChildren c.2
          walk src (scope ++ [name.text src]) false c.1
        | none => []
      own :: parameters ++ body
  else if t.kind == "class_definition" then
    match t.field? "name" with
    | none => below ()
    | some name =>
      let inner := scope ++ [name.text src]
      let last := (t.field? "superclasses").getD name
      let own := Fact.definition .classLike (name.text src) scope (t.span src) (header t last src)
      let bases := match h : t.field? "superclasses" with
        | some bs => bs.namedChildren.attach.flatMap fun b =>
          have := Tree.sizeOf_lt_of_field? h
          have := Tree.sizeOf_lt_of_mem_namedChildren b.2
          let path := if b.1.kind == "identifier" || b.1.kind == "attribute" then some b.1
            else if b.1.kind == "subscript" then b.1.field? "value" else none
          let base := match path with
            | some p => if isDottedPath p then [Fact.base (dottedText p src) inner (p.span src)] else []
            | none => []
          base ++ walk src scope false b.1
        | none => []
      let body := match h : t.field? "body" with
        | some b => b.namedChildren.attach.flatMap fun c =>
          have := Tree.sizeOf_lt_of_field? h
          have := Tree.sizeOf_lt_of_mem_namedChildren c.2
          walk src inner true c.1
        | none => []
      own :: bases ++ body
  else if t.kind == "decorated_definition" then
    let name := ((t.field? "definition").bind (·.field? "name")).map (·.text src)
    let decorators := t.namedChildren.attach.flatMap fun d =>
      have := Tree.sizeOf_lt_of_mem_namedChildren d.2
      if d.1.kind == "decorator" then
        match he : d.1.namedChildren.head? with
        | none => []
        | some e =>
          have := Tree.sizeOf_lt_of_mem_namedChildren (List.mem_of_mem_head? he)
          let target := (if e.kind == "call" then e.field? "function" else some e).filter
            (isDottedPath ·)
          let use := match target, name with
            | some p, some n => [Fact.reference (dottedText p src) (scope ++ [n]) (p.span src)]
            | _, _ => walk src scope inClass e
          let arguments := if e.kind == "call" then
              match h : e.field? "arguments" with
              | some a =>
                have := Tree.sizeOf_lt_of_field? h
                walk src scope inClass a
              | none => []
            else []
          use ++ arguments
      else []
    let definition := match h : t.field? "definition" with
      | some d =>
        have := Tree.sizeOf_lt_of_field? h
        walk src scope inClass d
      | none => []
    decorators ++ definition
  else if t.kind == "import_statement" then importFacts t src scope
  else if t.kind == "import_from_statement" then importFromFacts t src scope
  else if t.kind == "expression_statement" then
    (if scope.isEmpty && !inClass then constantFact t src else []) ++ below ()
  else if t.kind == "call" then
    (match (t.field? "function").bind (calleeName · src) with
      | some callee => [Fact.call callee scope (t.span src)]
      | none => []) ++ below ()
  else below ()
termination_by sizeOf t

/-- The facts of a Python file. -/
def facts (src : Source) (root : Tree) : List Fact := walk src [] false root

end CodeAtlas.Python
