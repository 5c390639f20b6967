import CodeAtlas.Command.Line
import CodeAtlas.Service.Request

/-!
# CodeAtlas.Command.Program

The commands of the program, and what is asked for by them.
-/

namespace CodeAtlas.Command

/-! ## The commands -/

def configOption : OptionSpec :=
  ⟨"config", none, some .path, "Config file (defaults to ~/.codegraph/config.toml)", none⟩

def dbOption : OptionSpec :=
  ⟨"db", none, some .path, "Database path (overrides the config file)", none⟩

def workersOption : OptionSpec :=
  ⟨"workers", some 'w', some .number, "Worker threads (overrides the config file)", none⟩

def dependencyOption : OptionSpec :=
  ⟨"dependency", none, none,
    "Record the tree as a dependency rather than a first-party repository", none⟩

def serveOption : OptionSpec :=
  ⟨"serve", none, none, "Also answer JSON context requests on stdin", none⟩

def limitOption : OptionSpec :=
  ⟨"limit", some 'l', some .number, "Maximum number of results",
    some (toString Request.defaultLimit)⟩

/-- A command that asks for something by its name. -/
def questionCommand (name argument about : String) : CommandSpec :=
  .mk name about [] [⟨argument, .text, true, ""⟩] []

/-- A command without options and arguments of its own. -/
def plainCommand (name about : String) : CommandSpec := .mk name about [] [] []

def queryCommand : CommandSpec := .mk "query" "Query the graph" [] [] [
  questionCommand "definition" "target"
    "Where a symbol is defined (qualified name, simple name or node id)",
  questionCommand "callers" "target" "Functions and methods calling a symbol",
  questionCommand "callees" "target" "What a function or method calls",
  questionCommand "imports" "module" "Direct and transitive imports of a module",
  questionCommand "contains" "target" "Members of a module or class",
  .mk "search" "Substring search over symbol names" [limitOption]
    [⟨"pattern", .text, true, ""⟩] []]

def program : Program where
  version := "0.3.0"
  globals := [configOption, dbOption]
  command := .mk "codegraph" "Incremental code graph indexer for Python and Rust source trees"
    [] [] [
      .mk "index" "Index a source tree (incremental on re-runs)"
        [workersOption, dependencyOption]
        [⟨"path", .path, false, "Root to index (defaults to current directory)"⟩] [],
      .mk "watch" "Index a source tree, then keep the graph in step with file changes"
        [serveOption]
        [⟨"path", .path, false, "Root to watch (defaults to current directory)"⟩] [],
      queryCommand,
      plainCommand "status" "Show graph statistics and store health",
      plainCommand "repos" "List indexed repositories",
      plainCommand "serve" "Answer newline-delimited JSON context requests on stdin",
      plainCommand "doctor" "Check configuration and store health",
      plainCommand "config" "Print the effective configuration as TOML"]

/-! ## What is asked for -/

/-- What the program is to do. -/
inductive Action where
  | index (path : Option String) (workers : Option Nat) (isDependency : Bool)
  | watch (path : Option String) (serves : Bool)
  | query (r : Request)
  | serve
  | doctor
  | showConfig
deriving DecidableEq, Inhabited, Repr

/-- An action with the options of all commands. -/
structure Order where
  config : Option String
  db : Option String
  action : Action
deriving DecidableEq, Inhabited, Repr

namespace Invocation

def option? (i : Invocation) (o : OptionSpec) : Option String :=
  (i.options.find? (·.1 == o.long)).map (·.2)

def flag (i : Invocation) (o : OptionSpec) : Bool := (i.option? o).isSome

def number? (i : Invocation) (o : OptionSpec) : Option Nat := (i.option? o).bind Command.number?

/-- The only argument of a question. -/
def subject (i : Invocation) : String := i.arguments.headD ""

/-- The action that the commands and their options and arguments ask for. -/
def action? (i : Invocation) : Option Action :=
  match i.names.tail with
  | ["index"] =>
    some (.index i.arguments.head? (i.number? workersOption) (i.flag dependencyOption))
  | ["watch"] => some (.watch i.arguments.head? (i.flag serveOption))
  | ["query", "definition"] => some (.query (.definition i.subject))
  | ["query", "callers"] => some (.query (.callers i.subject))
  | ["query", "callees"] => some (.query (.callees i.subject))
  | ["query", "imports"] => some (.query (.imports i.subject))
  | ["query", "contains"] => some (.query (.contains i.subject))
  | ["query", "search"] =>
    some (.query (.search i.subject ((i.number? limitOption).getD Request.defaultLimit)))
  | ["status"] => some (.query .status)
  | ["repos"] => some (.query .listRepositories)
  | ["serve"] => some .serve
  | ["doctor"] => some .doctor
  | ["config"] => some .showConfig
  | _ => none

end Invocation

end CodeAtlas.Command
