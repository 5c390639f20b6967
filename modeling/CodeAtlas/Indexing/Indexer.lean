import CodeAtlas.Config
import CodeAtlas.Files.Ignore
import CodeAtlas.Resolve.Symbol
import CodeAtlas.SourceFile
import CodeAtlas.Store.Transaction
import CodeAtlas.Tracker
import CodeAtlas.Watch

/-!
# CodeAtlas.Indexing.Indexer

Source trees that are indexed into a store.

1. a store may hold several trees, so what a file contributes is stored under the
   path of the tree's root and the file's path below it;
2. a tree has the source files below its root that are not passed over, in the
   languages that are enabled;
3. of the records in a store those below the root belong to the tree, and the
   fingerprints in them are what is known of its files.
-/

namespace CodeAtlas

/-- What an indexer works on: the files, the store, and the time in milliseconds. -/
structure Site where
  files : FileTree
  backend : Backend
  now : Int
deriving Inhabited

/-- How a source tree is indexed. -/
structure Indexer where
  readers : Readers
  root : String
  /-- The one path of the root, without a slash at its end. -/
  scope : String
  languages : List Lang
  filter : WatchFilter
  maxFileBytes : Nat

/-! ## Records -/

namespace Backend

/-- The records of all files, by path. -/
def fileRecords (b : Backend) : Except Error (List FileRecord) := b.contents.map (·.fileRecords)

/-- All registered source trees, by path. -/
def repositories (b : Backend) : Except Error (List Repository) :=
  b.contents.map (·.repositoryList)

/-- The published nodes as symbols. -/
def symbols (b : Backend) : SymbolIndex where
  byName name := (b.nodes (.nodesByName name)).map (·.map Node.symbol)
  byQualifiedName name := (b.nodes (.nodesByQualifiedName name)).map (·.map Node.symbol)

end Backend

namespace Indexer

/-- A text without the slashes at its end. -/
def trimSlashes (s : String) : String :=
  String.ofList (s.toList.reverse.dropWhile (· == '/')).reverse

/-- The path under which a root is stored. -/
def scopeOf (files : FileTree) (root : String) : String :=
  let path := match files.canonical? root with
    | .ok p => p
    | .error _ => root
  trimSlashes (path.replace "\\" "/")

/-- An indexer for the tree below a root. -/
def ofConfig (readers : Readers) (files : FileTree) (root : String) (config : IndexConfig) :
    Except Error Indexer := do
  let languages ← Lang.select config.languages
  return {
    readers, root, languages
    scope := scopeOf files root
    filter := WatchFilter.of (languages.flatMap (·.extensions)) config.ignoreDirs
    maxFileBytes := config.maxFileBytes }

/-! ## Paths -/

/-- The path under which a file is stored. -/
def storePath (i : Indexer) (relative : String) : String := i.scope ++ "/" ++ relative

/-- The path below the root that a stored path has, unless it belongs to another root. -/
def relativeStorePath? (i : Indexer) (path : String) : Option String :=
  (Text.strip? i.scope path).bind (Text.strip? "/")

/-- The steps after those of a root. -/
def stepsBelow : (root : List FilePath.Component) → List FilePath.Component →
    Option (List FilePath.Component)
  | [], steps => some steps
  | r :: root, s :: steps => if r = s then stepsBelow root steps else none
  | _ :: _, [] => none

/-- The path of a file below the root; none for the root and for what is outside. A
path that is not absolute is one below the root. -/
def relativePath? (i : Indexer) (path : String) : Option String :=
  let steps := FilePath.components path
  let below := if FilePath.isAbsolute path then stepsBelow (FilePath.components i.root) steps
    else some steps
  match (below.getD []).filterMap fun
    | .name n => some n
    | _ => none with
  | [] => none
  | names => some ("/".intercalate names)

/-! ## Files -/

/-- The path of a file that is found below the root, of the names from there on that are text. -/
def foundPath? (i : Indexer) (names : Location) : Option String :=
  i.relativePath? (FilePath.push i.root ("/".intercalate names))

/-- The source files of the tree, in ascending order.  A file is listed more than once if others
are found under the same path. -/
def walk (i : Indexer) (files : FileTree) : List String :=
  match files.locate i.root with
  | .ok root =>
    (((files.reached root).filterMap i.foundPath?).filter i.filter.accepts).mergeSort (· ≤ ·)
  | .error _ => []

/-- What the records in a store tell of the files of the tree. -/
def trackerOf (i : Indexer) (records : List FileRecord) : Tracker :=
  Tracker.ofRecords (records.filterMap fun r =>
    (i.relativeStorePath? r.path).map fun path => { r with path })

/-- What a store tells of the files of the tree. -/
def tracker (i : Indexer) (b : Backend) : Except Error Tracker :=
  b.fileRecords.map i.trackerOf

end Indexer

end CodeAtlas
