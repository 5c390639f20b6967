import CodeAtlas.Command.Program
import CodeAtlas.Service.Answer
import CodeAtlas.Store.Archive

/-!
# CodeAtlas.Command.Run

Does what a command line asks for.

1. the settings are read first, from a file and from the environment; without usable
   settings nothing else is done, but a check of the settings reports that and succeeds;
2. results are lines on the standard output; a failure is a message, and a code other
   than zero: 2 for a command line that was not understood and 1 for anything else;
3. a tree is registered after it was indexed, also if some of its files failed.
-/

namespace CodeAtlas.Command

open CodeAtlas (Json)

/-! ## Surroundings -/

/-- What a command finds when it starts. -/
structure Surroundings where
  readers : Readers
  files : FileTree
  home : String
  environment : String → Option String
  now : Int

/-- What a command leaves. -/
structure Result where
  exitCode : Nat
  /-- Lines on the standard output. -/
  output : List String
  /-- The message of a failure. -/
  message : Option String
  files : FileTree
  /-- The file of the store, if it was opened. -/
  storePath : Option String

/-- What leads to a failure: its message, and what was written before. -/
structure Failure where
  message : String
  output : List String
  files : FileTree
  storePath : Option String

/-- A step of a command. -/
abbrev Step := Except Failure

namespace Surroundings

/-- A failure before anything was written. -/
def fail {α : Type} (s : Surroundings) (message : String) : Step α :=
  .error ⟨message, [], s.files, none⟩

/-- A result that leaves the files as they are. -/
def told (s : Surroundings) (output : List String) : Result := ⟨0, output, none, s.files, none⟩

/-! ## Settings -/

/-- The text of a file of settings. -/
def readText (s : Surroundings) (path : String) : Except Error String :=
  match s.files.read path with
  | .error e => .error (.io e.message)
  | .ok content =>
    match String.fromUTF8? content with
    | some text => .ok text
    | none => .error (.io "stream did not contain valid UTF-8")

/-- The settings of a named file, or of the user. -/
def readConfig (s : Surroundings) : Option String → Except Error Config
  | some path => do Config.load s.home (some (← s.readText path)) s.environment
  | none => do
    let path := defaultConfigPath s.home
    if s.files.contains path then Config.load s.home (some (← s.readText path)) s.environment
    else Config.load s.home none s.environment

/-- The settings with the options of the command line, if they can be used. -/
def settings (s : Surroundings) (o : Order) : Except Error Config := do
  let c ← s.readConfig o.config
  let c := match o.db with
    | some path => { c with storage := { c.storage with dbPath := path } }
    | none => c
  match c.invalid? with
  | some e => .error e
  | none => .ok c

/-! ## The store -/

/-- Opens the store of some settings, and gives what can be worked on then. -/
def openSite (s : Surroundings) (c : Config) : Except Error Site := do
  let (store, files) ← s.files.openStore c.storage.dbPath
  return ⟨files, { Backend.new with store }, s.now⟩

/-- The files after work on a store. -/
def saved (site : Site) (c : Config) : FileTree :=
  site.files.writeStore c.storage.dbPath site.backend.store

/-- What work on a store leaves. -/
def finished (site : Site) (c : Config) (output : List String) (message : Option String) :
    Result :=
  ⟨if message.isSome then 1 else 0, output, message, saved site c, some c.storage.dbPath⟩

/-- Makes an error of the program a failure. -/
def orFail {α : Type} (s : Surroundings) : Except Error α → Step α
  | .ok a => .ok a
  | .error e => s.fail e.message

/-! ## Indexing -/

/-- The canonical path of the tree that is asked for. -/
def rootOf (s : Surroundings) (path : Option String) : Step String :=
  let path := path.getD (Location.path s.files.workingDirectory)
  if !s.files.isDirectory path then s.fail ("Not a directory: " ++ path)
  else
    match s.files.canonical? path with
    | .ok p => .ok p
    | .error e => s.fail e.message

/-- A number that fills up to some width. -/
def padded (width : Nat) (s : String) : String :=
  s ++ String.ofList (List.replicate (width - s.length) ' ')

/-- What is told of a graph after it was indexed. -/
def summary (stats : Stats) (failed : Nat) : List String :=
  let kinds := (stats.nodeKinds.map fun (k, n) => (k.name, n)).mergeSort fun a b => a.1 ≤ b.1
  ["Indexing complete:",
    "  Files:       " ++ toString stats.fileCount,
    "  Nodes:       " ++ toString stats.nodeCount,
    "  Edges:       " ++ toString stats.edgeCount ++ " (" ++
      toString stats.unresolvedEdgeCount ++ " unresolved)"] ++
    kinds.map (fun (k, n) => "    " ++ padded 10 k ++ " " ++ toString n) ++
    (if failed == 0 then [] else ["  Failed:      " ++ toString failed])

/-- The settings with another number of workers. -/
def withWorkers (s : Surroundings) (c : Config) : Option Nat → Step Config
  | none => .ok c
  | some workers =>
    let c := { c with index := { c.index with workers } }
    match c.invalid? with
    | some e => s.fail e.message
    | none => .ok c

/-- Indexes a tree and registers it. -/
def index (s : Surroundings) (c : Config) (path : Option String) (workers : Option Nat)
    (isDependency : Bool) : Step Result := do
  let root ← s.rootOf path
  let c ← s.withWorkers c workers
  let site ← s.orFail (s.openSite c)
  let indexer ← s.orFail (Indexer.ofConfig s.readers site.files root c.index)
  let tracker ← s.orFail (indexer.tracker site.backend)
  let (reconciled, scheduler) := (Scheduler.start indexer tracker c.retry).reconcile site.files
  let _ ← s.orFail reconciled
  let (scheduler, site) := scheduler.run false site
  let (registered, backend) := site.backend.register
    ⟨root, Task.repositoryName root, isDependency, s.now⟩
  let _ ← s.orFail registered
  let failed := scheduler.status.failed.length
  return finished { site with backend } c (summary backend.store.stats failed)
    (if failed == 0 then none else some (toString failed ++ " files failed to index"))

/-! ## Questions -/

/-- The lines of a text. -/
def linesOf (text : String) : List String := Text.split "\n" text

/-- Answers one request. -/
def query (s : Surroundings) (c : Config) (r : Request) : Step Result := do
  let site ← s.orFail (s.openSite c)
  match Service.respond r ⟨Service.new s.readers c 1, none, site⟩ with
  | (.ok v, state) => return finished state.site c (linesOf v.pretty) none
  | (.error e, state) => return finished state.site c [] (some e)

/-- Answers a line of the standard input, and lets the jobs that it started work. A blank
line has no answer. -/
def serveLine (state : ServiceState) (line : String) : List String × ServiceState :=
  if Text.trim line == "" then ([], state)
  else
    let (r, state) := Service.respondLine line state
    let (service, site) := state.service.run false state.site
    ([r.report.compact], { state with service, site })

/-- Answers the lines of the standard input, one after the other. -/
def serveLines : ServiceState → List String → List String × ServiceState
  | state, [] => ([], state)
  | state, line :: lines =>
    let (answer, state) := serveLine state line
    let (answers, state) := serveLines state lines
    (answer ++ answers, state)

/-- The service of some settings. -/
def openService (s : Surroundings) (c : Config) : Except Error ServiceState := do
  return ⟨Service.new s.readers c 1, none, ← s.openSite c⟩

/-- The lines of the standard input; nothing follows its last line end. -/
def inputLines (input : String) : List String :=
  let lines := (linesOf input).map fun l => (Text.stripEnd? "\r" l).getD l
  if lines.getLast? == some "" then lines.dropLast else lines

def serve (s : Surroundings) (c : Config) (input : String) : Step Result := do
  let state ← s.orFail (s.openService c)
  let (output, state) := serveLines state (inputLines input)
  return finished state.site c output none

/-! ## Checks -/

/-- One line of a report. -/
def checkLine (name : String) (isFine : Bool) (detail : String) : String :=
  "  [" ++ (if isFine then "OK" else "FAIL") ++ "] " ++ name ++
    (if detail == "" then "" else ": " ++ detail)

/-- The numbers of a graph on one line. -/
def graphLine (stats : Stats) : String :=
  toString stats.fileCount ++ " files, " ++ toString stats.nodeCount ++ " nodes, " ++
    toString stats.edgeCount ++ " edges (" ++ toString stats.unresolvedEdgeCount ++
    " unresolved)"

/-- Checks settings that can be used, and the store. -/
def checkStore (s : Surroundings) (c : Config) (detail : String) : Result :=
  let invalid := c.storage.invalid? s.files.isDirectory
  let settingsLine := match invalid with
    | some e => checkLine "Store settings" false e.message
    | none => checkLine "Store settings" true c.storage.dbPath
  let site := s.openSite c
  let storeLines := match site with
    | .ok site => [
        checkLine "Store connection" true ("backend " ++ Service.backendName),
        checkLine "Graph" true (graphLine site.backend.store.stats)]
    | .error e => [checkLine "Store connection" false e.message]
  let isFine := invalid.isNone && site.toBool
  let output := ["codegraph doctor", "", checkLine "Configuration" true detail, settingsLine] ++
    storeLines ++
    [checkLine "Languages" true (", ".intercalate c.index.languages), "",
      if isFine then "All checks passed!" else "Some checks failed. See above for details."]
  match site with
  | .ok site => finished site c output none
  | .error _ => s.told output

/-- Checks the settings and the store. -/
def doctor (s : Surroundings) (o : Order) : Result :=
  let path := o.config.getD (defaultConfigPath s.home)
  match s.settings o with
  | .error e => s.told ["codegraph doctor", "", checkLine "Configuration" false e.message, "",
      "Fix the configuration first."]
  | .ok c =>
    s.checkStore c (if s.files.contains path then path else "using defaults (no config.toml)")

/-! ## All commands -/

/-- Does what is asked for with usable settings. -/
def act (s : Surroundings) (c : Config) (input : String) : Action → Step Result
  | .index path workers isDependency => s.index c path workers isDependency
  | .watch path _ => s.index c path none false
  | .query r => s.query c r
  | .serve => s.serve c input
  | .doctor => .ok (s.told [])
  | .showConfig =>
    match c.save with
    | .ok text => .ok (s.told (inputLines text))
    | .error e => s.fail e.message

/-- Does what is asked for. -/
def obey (s : Surroundings) (o : Order) (input : String) : Result :=
  match o.action with
  | .doctor => s.doctor o
  | action =>
    let step := do
      let c ← s.orFail (s.settings o)
      s.act c input action
    match step with
    | .ok r => r
    | .error f => ⟨1, f.output, some f.message, f.files, f.storePath⟩

end Surroundings

/-- What the words of a command line ask for, or the result that ends the matter. -/
def orderOf (s : Surroundings) (words : List String) : Except Result Order :=
  match program.read words with
  | .told lines => .error (s.told lines)
  | .wrong message => .error ⟨2, [], some message, s.files, none⟩
  | .invoked i =>
    match i.action? with
    | some action => .ok ⟨i.option? configOption, i.option? dbOption, action⟩
    | none => .error ⟨2, [], some "no such command", s.files, none⟩

/-- Runs a command line on some input. -/
def run (s : Surroundings) (words : List String) (input : String) : Result :=
  match orderOf s words with
  | .error r => r
  | .ok o => s.obey o input

end CodeAtlas.Command
