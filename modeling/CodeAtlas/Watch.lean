import CodeAtlas.FilePath

/-!
# CodeAtlas.Watch

Which files of a source tree count, and what happened to them.

1. a file counts if its extension is one of those looked for and no component of its
   path is the name of a directory to be passed over;
2. a file that exists is created if it was not known, and modified if it was; paths
   are known by their components.
-/

namespace CodeAtlas

open FilePath

/-- Directories that hold no sources of their own. -/
def ignoredDirectories : List String := ["target", ".git", "__pycache__", ".venv", "venv",
  ".mypy_cache", ".pytest_cache", ".tox", "dist", "build", "node_modules", ".cargo"]

/-- Which files count. -/
structure WatchFilter where
  extensions : List String
  ignored : List String
deriving DecidableEq, Inhabited, Repr

namespace WatchFilter

/-- The filter for some extensions that passes over some more directories. -/
def of (extensions ignored : List String) : WatchFilter :=
  ⟨extensions, ignoredDirectories ++ ignored⟩

/-- Whether a file has one of the extensions. -/
def isWatchable (f : WatchFilter) (path : String) : Bool :=
  match extension? path with
  | some e => f.extensions.contains e
  | none => false

/-- Whether a path leads through a directory to be passed over. -/
def shouldIgnore (f : WatchFilter) (path : String) : Bool :=
  (components path).any fun
    | .name n => f.ignored.contains n
    | _ => false

def accepts (f : WatchFilter) (path : String) : Bool := f.isWatchable path && !f.shouldIgnore path

end WatchFilter

/-! ## Changes -/

inductive ChangeKind where
  | created
  | modified
  | deleted
deriving DecidableEq, Inhabited, Repr

/-- What happened to a path, given whether it exists now and which paths were known
before; also gives the paths that are known then. -/
def classify (path : String) (isThere : Bool) (known : List (List Component)) :
    ChangeKind × List (List Component) :=
  let p := components path
  if !isThere then (.deleted, known.filter (· != p))
  else if known.contains p then (.modified, known)
  else (.created, known ++ [p])

end CodeAtlas
