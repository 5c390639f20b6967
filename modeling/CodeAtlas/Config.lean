import CodeAtlas.Error
import CodeAtlas.FilePath
import CodeAtlas.Retry
import CodeAtlas.Text.Case
import CodeAtlas.Text.Words
import CodeAtlas.Toml.Reader
import CodeAtlas.Toml.Writer

/-!
# CodeAtlas.Config

Settings of the indexer.

1. what a document does not set keeps its default, and unknown keys count for
   nothing;
2. a section is a table, or a list of its values in order;
3. variables of the environment override the document;
4. some settings can be read but not used; the first of them is reported.
-/

namespace CodeAtlas

open CodeAtlas.Text

/-! ## Sections -/

/-- Where the graph is kept. -/
structure StorageConfig where
  dbPath : String
  cacheSizeMb : Nat
  busyTimeoutSecs : Nat
deriving DecidableEq, Inhabited, Repr

/-- What is indexed, and by how many workers. -/
structure IndexConfig where
  languages : List String
  workers : Nat
  maxFileBytes : Nat
  ignoreDirs : List String
deriving DecidableEq, Inhabited, Repr

/-- When changes are followed up. -/
structure WatchConfig where
  debounceMs : Nat
  relinkIntervalSecs : Nat
deriving DecidableEq, Inhabited, Repr

structure Config where
  storage : StorageConfig
  index : IndexConfig
  retry : Retry
  watch : WatchConfig
deriving DecidableEq, Inhabited, Repr

/-! ## Defaults -/

/-- The languages that files can be read in. -/
def supportedLanguages : List String := ["python", "rust"]

/-- The directory for what belongs to a user. -/
def userDirectory (home : String) : String := FilePath.push home ".codegraph"

/-- The file that settings are read from unless another one is named. -/
def defaultConfigPath (home : String) : String :=
  FilePath.push (userDirectory home) "config.toml"

def StorageConfig.default (home : String) : StorageConfig :=
  ⟨FilePath.push (userDirectory home) "codegraph.db", 64, 5⟩

def IndexConfig.default : IndexConfig := ⟨supportedLanguages, 4, 2 * 1024 * 1024, []⟩

def WatchConfig.default : WatchConfig := ⟨50, 30⟩

def Config.default (home : String) : Config :=
  ⟨.default home, .default, .default, .default⟩

/-! ## Reading -/

namespace Config

/-- A number of so many bits without a sign. -/
def natOf? (bits : Nat) : Toml → Option Nat
  | .integer n => if 0 ≤ n && n.toNat < 1 <<< bits then some n.toNat else none
  | _ => none

def textOf? : Toml → Option String
  | .text s => some s
  | _ => none

def textsOf? : Toml → Option (List String)
  | .array vs => vs.mapM textOf?
  | .tables _ => none
  | _ => none

/-- The value of a key of a section, or its place in a list of values. -/
def settingOf (keys : List String) (part : Toml) (key : String) : Option (Option Toml) :=
  match part with
  | .table _ entries => some (Toml.find? entries key)
  | .array vs => some (vs[keys.idxOf key]?)
  | .tables rows => some ((rows.reverse.map fun r => Toml.table .header r)[keys.idxOf key]?)
  | _ => none

/-- Reads a setting, which keeps its default if it is not there. -/
def setting {α : Type} (keys : List String) (part : Toml) (key : String)
    (read? : Toml → Option α) (otherwise : α) : Option α :=
  match settingOf keys part key with
  | none => none
  | some none => some otherwise
  | some (some v) => read? v

def storageKeys : List String := ["db_path", "cache_size_mb", "busy_timeout_secs"]

def readStorage? (d : StorageConfig) (t : Toml) : Option StorageConfig := do
  return { dbPath := ← setting storageKeys t "db_path" textOf? d.dbPath
           cacheSizeMb := ← setting storageKeys t "cache_size_mb" (natOf? 32) d.cacheSizeMb
           busyTimeoutSecs :=
             ← setting storageKeys t "busy_timeout_secs" (natOf? 64) d.busyTimeoutSecs }

def indexKeys : List String := ["languages", "workers", "max_file_bytes", "ignore_dirs"]

def readIndex? (d : IndexConfig) (t : Toml) : Option IndexConfig := do
  return { languages := ← setting indexKeys t "languages" textsOf? d.languages
           workers := ← setting indexKeys t "workers" (natOf? 64) d.workers
           maxFileBytes := ← setting indexKeys t "max_file_bytes" (natOf? 64) d.maxFileBytes
           ignoreDirs := ← setting indexKeys t "ignore_dirs" textsOf? d.ignoreDirs }

def retryKeys : List String := ["max_attempts", "base_backoff_ms", "max_backoff_ms"]

def readRetry? (d : Retry) (t : Toml) : Option Retry := do
  return { maxAttempts := ← setting retryKeys t "max_attempts" (natOf? 32) d.maxAttempts
           baseBackoffMs := ← setting retryKeys t "base_backoff_ms" (natOf? 64) d.baseBackoffMs
           maxBackoffMs := ← setting retryKeys t "max_backoff_ms" (natOf? 64) d.maxBackoffMs }

def watchKeys : List String := ["debounce_ms", "relink_interval_secs"]

def readWatch? (d : WatchConfig) (t : Toml) : Option WatchConfig := do
  return { debounceMs := ← setting watchKeys t "debounce_ms" (natOf? 64) d.debounceMs
           relinkIntervalSecs :=
             ← setting watchKeys t "relink_interval_secs" (natOf? 64) d.relinkIntervalSecs }

/-- Reads a section, which keeps its defaults if it is not there. -/
def sectionOf {α : Type} (entries : Toml.Entries) (key : String) (d : α)
    (read? : α → Toml → Option α) : Option α :=
  match Toml.find? entries key with
  | none => some d
  | some t => read? d t

/-- The settings of a document. -/
def ofEntries? (d : Config) (entries : Toml.Entries) : Option Config := do
  return { storage := ← sectionOf entries "storage" d.storage readStorage?
           index := ← sectionOf entries "index" d.index readIndex?
           retry := ← sectionOf entries "retry" d.retry readRetry?
           watch := ← sectionOf entries "watch" d.watch readWatch? }

/-- Reads the text of a document over the defaults of a user. -/
def ofText (home text : String) : Except Error Config :=
  match (Toml.read? text).bind (ofEntries? (.default home)) with
  | some c => .ok c
  | none => .error (.config "the document cannot be read")

/-! ## Writing -/

/-- One line of a section. -/
def numberLine (key : String) (n : Nat) : String := key ++ " = " ++ toString n ++ "\n"

/-- The document with all settings. -/
def toText (c : Config) : String :=
  "[storage]\n" ++
  "db_path = " ++ Toml.Writer.text c.storage.dbPath ++ "\n" ++
  numberLine "cache_size_mb" c.storage.cacheSizeMb ++
  numberLine "busy_timeout_secs" c.storage.busyTimeoutSecs ++
  "\n[index]\n" ++
  "languages = " ++ Toml.Writer.texts c.index.languages ++ "\n" ++
  numberLine "workers" c.index.workers ++
  numberLine "max_file_bytes" c.index.maxFileBytes ++
  "ignore_dirs = " ++ Toml.Writer.texts c.index.ignoreDirs ++ "\n" ++
  "\n[retry]\n" ++
  numberLine "max_attempts" c.retry.maxAttempts ++
  numberLine "base_backoff_ms" c.retry.baseBackoffMs ++
  numberLine "max_backoff_ms" c.retry.maxBackoffMs ++
  "\n[watch]\n" ++
  numberLine "debounce_ms" c.watch.debounceMs ++
  numberLine "relink_interval_secs" c.watch.relinkIntervalSecs

/-- Numbers that a document can hold. -/
def numbers (c : Config) : List Nat := [c.storage.busyTimeoutSecs, c.index.workers,
  c.index.maxFileBytes, c.retry.baseBackoffMs, c.retry.maxBackoffMs, c.watch.debounceMs,
  c.watch.relinkIntervalSecs]

/-- The document with all settings; a number beyond 63 bits cannot be written. -/
def save (c : Config) : Except Error String :=
  if c.numbers.all (· < 0x8000000000000000) then .ok c.toText
  else .error (.config "a number is too large to be written")

/-! ## Overrides -/

/-- A number without a sign of 64 bits; a plus may stand before it. -/
def wordOf? (s : String) : Option Nat :=
  let ds := match s.toList with
    | '+' :: ds => ds
    | ds => ds
  if ds.isEmpty || !ds.all Char.isDigit then none
  else
    let n := ds.foldl (fun n c => 10 * n + (c.toNat - '0'.toNat)) 0
    if n < 0x10000000000000000 then some n else none

/-- The path of the graph by its variable, unless that is empty. -/
def overridePath (c : Config) : Option String → Config
  | none => c
  | some path => if path == "" then c else { c with storage := { c.storage with dbPath := path } }

/-- The number of workers by its variable. -/
def overrideWorkers (c : Config) : Option String → Except Error Config
  | none => .ok c
  | some text =>
    match wordOf? (trim text) with
    | some n => .ok { c with index := { c.index with workers := n } }
    | none => .error (.config ("CODEGRAPH_WORKERS must be a number, got '" ++ text ++ "'"))

/-- The languages by their variable: names between commas. -/
def overrideLanguages (c : Config) : Option String → Config
  | none => c
  | some text =>
    let names := ((split "," text).map fun l => Case.lower (trim l)).filter (· != "")
    { c with index := { c.index with languages := names } }

/-- Applies the variables of an environment; the settings up to a failure stay
applied. -/
def applyOverrides (c : Config) (lookup : String → Option String) : Config × Option Error :=
  let c := c.overridePath (lookup "CODEGRAPH_DB_PATH")
  match c.overrideWorkers (lookup "CODEGRAPH_WORKERS") with
  | .error e => (c, some e)
  | .ok c => (c.overrideLanguages (lookup "CODEGRAPH_LANGUAGES"), none)

/-- The settings of a user: the default document if it is there, then the
environment. -/
def load (home : String) (document : Option String) (lookup : String → Option String) :
    Except Error Config := do
  let c ← match document with
    | some text => ofText home text
    | none => .ok (.default home)
  match c.applyOverrides lookup with
  | (c, none) => .ok c
  | (_, some e) => .error e

/-! ## Checks -/

/-- The first setting that cannot be used. -/
def invalid? (c : Config) : Option Error :=
  if c.index.languages.isEmpty then some (.config "no language adapters enabled")
  else
    match c.index.languages.find? fun l => !supportedLanguages.contains l with
    | some l => some (.config ("unsupported language '" ++ l ++ "' (supported: " ++
        ", ".intercalate supportedLanguages ++ ")"))
    | none =>
      if c.index.workers == 0 then some (.config "index.workers must be at least 1")
      else if c.retry.maxAttempts == 0 then some (.config "retry.max_attempts must be at least 1")
      else if c.storage.dbPath == "" then some (.config "storage.db_path is not set")
      else none

end Config

/-- Why a graph cannot be kept as configured; `isDirectory` knows the directories
that there are. -/
def StorageConfig.invalid? (c : StorageConfig) (isDirectory : String → Bool) : Option Error :=
  if trim c.dbPath == "" then some (.config "storage.db_path is empty")
  else if c.cacheSizeMb == 0 then some (.config "storage.cache_size_mb must be positive")
  else if isDirectory c.dbPath then
    some (.config ("storage.db_path " ++ c.dbPath ++ " is a directory"))
  else none

end CodeAtlas
