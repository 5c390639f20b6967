import CodeAtlas.Error
import CodeAtlas.FilePath
import CodeAtlas.Python.Facts
import CodeAtlas.Python.Grammar
import CodeAtlas.Python.Layout
import CodeAtlas.Rust.Facts
import CodeAtlas.Rust.Grammar
import CodeAtlas.Rust.Scanner
import CodeAtlas.Text.Quoted

/-!
# CodeAtlas.SourceFile

Source files and what is found in them.

1. the extension of a file tells its language;
2. a file with syntax errors still yields the facts of what could be read, and one
   fact for the first error, which stands before the facts that start after it; its
   place among them is found by halving;
3. a file that is not UTF-8 yields nothing but an error.
-/

namespace CodeAtlas

open CodeAtlas.Parsing
open CodeAtlas.Grammar

/-! ## Languages -/

inductive Lang where
  | python
  | rust
deriving DecidableEq, Inhabited, Repr

namespace Lang

def all : List Lang := [python, rust]

def name : Lang → String
  | python => "python"
  | rust => "rust"

def extensions : Lang → List String
  | python => ["py", "pyi"]
  | rust => ["rs"]

/-- What stands between the segments of a qualified name. -/
def separator : Lang → String
  | python => "."
  | rust => "::"

/-- The language with a name. -/
def ofName? (name : String) : Option Lang := all.find? (·.name == name)

/-- The first of some languages that has an extension. -/
def ofExtension? (languages : List Lang) (extension : String) : Option Lang :=
  languages.find? (·.extensions.contains extension)

/-- The first of some languages that a file can be written in. -/
def ofPath? (languages : List Lang) (path : String) : Option Lang :=
  (FilePath.extension? path).bind (ofExtension? languages)

end Lang

/-! ## Languages in use -/

/-- The languages with the given names, in their own order. -/
def Lang.select (names : List String) : Except Error (List Lang) :=
  match Lang.all.filter fun l => names.contains l.name with
  | [] => .error (.config ("no language adapters match [" ++
      ", ".intercalate (names.map Text.quoted) ++ "]"))
  | ls => .ok ls

/-! ## Reading -/

/-- What was found in a source file. -/
structure SourceFile where
  /-- Path below the root of the tree; it names the module. -/
  relativePath : String
  /-- Path under which the file's contribution is stored. -/
  filePath : String
  language : String
  separator : String
  /-- Facts in source order. -/
  facts : List Fact
  span : Span
deriving DecidableEq, Inhabited, Repr

namespace SourceFile

/-- The fact for the first syntax error. -/
def syntaxError? (f : SourceFile) : Option Fact := f.facts.find? (·.kind == .syntaxError)

/-- What reading a file may come to. -/
inductive Outcome where
  | unsupported
  | failed (e : Error)
  | parsed (file : SourceFile)
deriving DecidableEq

/-- Whether a span starts no later than another one. -/
def startsBy (a b : Span) : Bool :=
  a.startLine < b.startLine || (a.startLine == b.startLine && a.startCol ≤ b.startCol)

/-- The place up to which a test holds, looked for among some facts from one on; half
of them are left out at each step. -/
def endOf (test : Fact → Bool) (facts : List Fact) (start count : Nat) : Nat :=
  if 1 < count then
    let middle := start + count / 2
    endOf test facts (if facts[middle]?.any test then middle else start) (count - count / 2)
  else if facts[start]?.any test then start + 1
  else start
termination_by count

/-- Places a fact before the first fact that starts after it. -/
def insertFact (fact : Fact) (facts : List Fact) : List Fact :=
  let place := endOf (fun f => startsBy f.span fact.span) facts 0 facts.length
  facts.take place ++ fact :: facts.drop place

/-- The fact for the first syntax error of a tree. -/
def errorFact? (src : Source) (root : Tree) : Option Fact :=
  root.firstError.map fun e =>
    .syntaxError (if e.isMissing then "missing " ++ e.kind else "unexpected syntax") (e.span src)

end SourceFile

/-- The tables for all languages, which take some time to build. -/
structure Readers where
  python : Reader Python.Layout
  rust : Reader Rust.OpenRaw

namespace Readers

/-- The tables for all languages. -/
def build (_ : Unit) : Readers where
  python := ⟨Table.ofGrammar Python.grammar, Python.Layout.scanner⟩
  rust := ⟨Table.ofGrammar Rust.grammar, Rust.scanner⟩

/-- The tree of a text in a language. -/
def tree (readers : Readers) (language : Lang) (src : Source) : Option Tree :=
  match language with
  | .python => readers.python.tree src
  | .rust => readers.rust.tree src

/-- The facts that a tree shows. -/
def facts (language : Lang) (src : Source) (root : Tree) : List Fact :=
  match language with
  | .python => Python.facts src root
  | .rust => Rust.facts src root

/-- The facts that a tree shows, with one for its first syntax error. -/
def found (language : Lang) (src : Source) (root : Tree) : List Fact :=
  match SourceFile.errorFact? src root with
  | some e => SourceFile.insertFact e (facts language src root)
  | none => facts language src root

/-- Reads a file, if it is written in one of the languages. -/
def read (readers : Readers) (languages : List Lang) (path : String) (content : ByteArray) :
    SourceFile.Outcome :=
  match Lang.ofPath? languages path with
  | none => .unsupported
  | some language =>
    match String.fromUTF8? content with
    | none => .failed (.parse (path ++ ": content is not valid UTF-8"))
    | some text =>
      let src := Source.ofString text
      match readers.tree language src with
      | none => .failed (.parse (path ++ ": parser produced no tree"))
      | some root =>
        .parsed {
          relativePath := path, filePath := path, language := language.name
          separator := language.separator, span := root.span src
          facts := found language src root }

end Readers

end CodeAtlas
