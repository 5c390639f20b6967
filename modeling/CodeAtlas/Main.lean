import CodeAtlas.Command.Run

/-!
# CodeAtlas.Main

The program: reads the files that a command needs, runs the command, and writes what it
leaves.
-/

open CodeAtlas CodeAtlas.Command

namespace CodeAtlas.Main

/-! ## Files -/

/-- Whether the content of a file may be needed, by its name. -/
def isNeeded (name : String) : Bool :=
  (Lang.ofPath? Lang.all name).isSome || name == ".ignore" || name == ".gitignore" ||
    name == "exclude"

/-- Adds a file under its canonical path. -/
def addFile (t : FileTree) (path : String) : IO FileTree := do
  return t.write path (← IO.FS.readBinFile path)

/-- Adds what is below a directory, under its canonical path. -/
partial def addBelow (t : FileTree) (path : String) : IO FileTree := do
  let t := t.makeDirectory (t.placeOf path)
  let entries ← (← IO.FS.realPath path).readDir
  entries.foldlM (fun t e => do
    let inner := FilePath.push path e.fileName
    if ← e.path.isDir then addBelow t inner
    else if isNeeded e.fileName then
      try addFile t inner catch _ => return t.write inner .empty
    else return t) t

/-- Adds a file, or a directory with all that is below it, if it is there. -/
def addPath (t : FileTree) (path : String) : IO FileTree := do
  try
    let real ← IO.FS.realPath path
    if ← real.isDir then addBelow t real.toString else addFile t real.toString
  catch _ => return t

/-- Adds a file alone, or a directory without what is below it, if it is there. -/
def addShallow (t : FileTree) (path : String) : IO FileTree := do
  try
    let real ← IO.FS.realPath path
    if ← real.isDir then return t.makeDirectory (t.placeOf real.toString)
    else addFile t real.toString
  catch _ => return t

/-- The time in milliseconds, as the file system shows it. -/
def now : IO Int :=
  IO.FS.withTempFile fun _ path => do
    let t := (← path.metadata).modified
    return t.sec * 1000 + (t.nsec.toNat / 1000000 : Nat)

/-- Writes the store of a command to its file. -/
def writeStore (files : FileTree) (path : Option String) : IO Unit := do
  match path with
  | none => pure ()
  | some path =>
    match files.read path with
    | .ok content =>
      let parent := FileTree.parentPath path
      if parent != "" then IO.FS.createDirAll parent
      IO.FS.writeBinFile path content
    | .error _ => pure ()

/-! ## Variables -/

/-- The variables that settings are taken from. -/
def variableNames : List String :=
  ["CODEGRAPH_DB_PATH", "CODEGRAPH_WORKERS", "CODEGRAPH_LANGUAGES"]

def readVariables : IO (String → Option String) := do
  let values ← variableNames.mapM fun n => do return (n, ← IO.getEnv n)
  return fun name => (values.find? (·.1 == name)).bind (·.2)

/-! ## Commands -/

/-- What a command finds: the file of settings, the file of the store and the tree. -/
def surroundings (o : Order) : IO Surroundings := do
  let home := (← IO.getEnv "HOME").getD ""
  let here := (← IO.currentDir).toString
  let start := FileTree.empty.makeDirectory (FileTree.empty.placeOf here)
  let start := { start with workingDirectory := start.placeOf here }
  let files ← addShallow start (o.config.getD (defaultConfigPath home))
  let s : Surroundings := ⟨Readers.build (), files, home, ← readVariables, ← now⟩
  let files ← match s.settings o with
    | .ok c => addShallow files c.storage.dbPath
    | .error _ => pure files
  let files ← match o.action with
    | .index path _ _ => addPath files (path.getD here)
    | .watch path _ => addPath files (path.getD here)
    | _ => pure files
  return { s with files }

/-- Prints what a command leaves, and writes its store. -/
def leave (r : Result) : IO UInt32 := do
  for line in r.output do IO.println line
  match r.message with
  | some message => IO.eprintln ("Error: " ++ message)
  | none => pure ()
  writeStore r.files r.storePath
  return r.exitCode.toUInt32

/-- Adds the directory that a line asks to be indexed. -/
def addAsked (files : FileTree) (line : String) : IO FileTree :=
  match Request.ofLine? line with
  | some (.index path _) => addPath files path
  | _ => return files

/-- Answers the lines of the standard input until it ends. -/
partial def serveInput (c : Config) (state : ServiceState) : IO Unit := do
  let line ← (← IO.getStdin).getLine
  if line.isEmpty then return
  let files ← addAsked state.site.files line
  let site := { state.site with files, now := ← now }
  let (answers, state) := Surroundings.serveLine { state with site } (Text.trim line)
  for answer in answers do IO.println answer
  (← IO.getStdout).flush
  writeStore (Surroundings.saved state.site c) (some c.storage.dbPath)
  serveInput c state

/-- Answers requests as long as there are any. -/
def serve (s : Surroundings) (o : Order) : IO UInt32 := do
  let opened := do
    let c ← s.settings o
    return (c, ← s.openService c)
  match opened with
  | .error e =>
    IO.eprintln ("Error: " ++ e.message)
    return 1
  | .ok (c, state) =>
    serveInput c state
    return 0

/-- Indexes a tree again and again, until that fails or the program is stopped. -/
partial def watch (o : Order) : IO UInt32 := do
  let s ← surroundings o
  let r := s.obey o ""
  if r.exitCode != 0 then leave r
  else
    writeStore r.files r.storePath
    IO.sleep 1000
    watch o

/-- Does what is asked for. -/
def obey (o : Order) : IO UInt32 := do
  match o.action with
  | .serve => serve (← surroundings o) o
  | .watch _ _ => watch o
  | _ => leave ((← surroundings o).obey o "")

end CodeAtlas.Main

def main (words : List String) : IO UInt32 := do
  match program.read words with
  | .told lines =>
    for line in lines do IO.println line
    return 0
  | .wrong message =>
    IO.eprintln ("error: " ++ message)
    return 2
  | .invoked i =>
    match i.action? with
    | some action => CodeAtlas.Main.obey ⟨i.option? configOption, i.option? dbOption, action⟩
    | none => return 2
