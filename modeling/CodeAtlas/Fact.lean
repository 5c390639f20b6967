import CodeAtlas.Graph.Kind
import CodeAtlas.Graph.Span

/-!
# CodeAtlas.Fact

What is found in one source file: definitions, calls, imports, bases, other uses
of names, and the first syntax error.
-/

namespace CodeAtlas

inductive FactKind where
  /-- A named definition. -/
  | definition (kind : NodeKind)
  /-- A call; the name is the callee as written, after `_.` if the receiver is
  not a name. -/
  | call
  /-- A name that an import binds (`*` for all names); the target is the path as
  written. -/
  | imported
  /-- A base class or trait; the scope ends with the class that has it. -/
  | base
  /-- Another use of a name, such as a decorator. -/
  | reference
  /-- The first place that could not be read. -/
  | syntaxError
deriving DecidableEq, Inhabited, Repr

/-- One thing found in a source file. -/
structure Fact where
  kind : FactKind
  name : String
  /-- Names of the definitions around it, outermost first. -/
  scope : List String
  span : Span
  target : Option String
  signature : Option String
deriving DecidableEq, Inhabited, Repr

namespace Fact

def definition (kind : NodeKind) (name : String) (scope : List String) (span : Span)
    (signature : String) : Fact :=
  ⟨.definition kind, name, scope, span, none, some signature⟩

def call (name : String) (scope : List String) (span : Span) : Fact :=
  ⟨.call, name, scope, span, none, none⟩

def imported (name target : String) (scope : List String) (span : Span) : Fact :=
  ⟨.imported, name, scope, span, some target, none⟩

def base (name : String) (scope : List String) (span : Span) : Fact :=
  ⟨.base, name, scope, span, none, none⟩

def reference (name : String) (scope : List String) (span : Span) : Fact :=
  ⟨.reference, name, scope, span, none, none⟩

def syntaxError (message : String) (span : Span) : Fact :=
  ⟨.syntaxError, message, [], span, none, none⟩

/-- The kind of node that the fact defines, if it defines one. -/
def definitionKind? (f : Fact) : Option NodeKind :=
  match f.kind with
  | .definition k => some k
  | _ => none

end Fact

end CodeAtlas
