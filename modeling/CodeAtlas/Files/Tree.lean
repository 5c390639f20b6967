import CodeAtlas.FilePath
import CodeAtlas.Store.Rows

/-!
# CodeAtlas.Files.Tree

Files and directories, as they are found under their paths.

1. a path is followed segment by segment; a segment can only be followed in a
   directory, `..` leads back and the empty segment stays, so that a slash at the end
   asks for a directory;
2. the place that a path leads to is a list of names without `.` and `..`, and has one
   text;
3. a name need not be text; then no path leads to what is there or below it, but it is
   found when the files are walked through;
4. a file is written together with the directories above it, and what is removed goes
   with all that is below it.
-/

namespace CodeAtlas

/-! ## Locations -/

/-- The names that lead to a file or directory, from the root on. -/
abbrev Location := List String

/-- The path of a place. -/
def Location.path (p : Location) : String := "/" ++ "/".intercalate p

/-- What stands at a place. -/
structure Entry where
  place : Location
  /-- The bytes of a file; a directory has none. -/
  content : Option ByteArray

def Entry.path (e : Entry) : String := Location.path e.place

/-- Why a path leads nowhere, or to nothing that can be read. -/
inductive ReadFailure where
  | missing
  /-- A file stands where a directory is needed. -/
  | notADirectory
  /-- A directory stands where a file is needed. -/
  | aDirectory
  | nameTooLong
  /-- A name with a character of code point zero. -/
  | badName
deriving DecidableEq, Inhabited, Repr

def ReadFailure.message : ReadFailure → String
  | missing => "No such file or directory (os error 2)"
  | notADirectory => "Not a directory (os error 20)"
  | aDirectory => "Is a directory (os error 21)"
  | nameTooLong => "File name too long (os error 36)"
  | badName => "file name contained an unexpected NUL byte"

/-! ## Trees -/

/-- Files and directories, and the directory that relative paths start from. -/
structure FileTree where
  entries : Rows Entry Entry.path
  workingDirectory : Location
  /-- The other files that are found when the tree is walked through, each by the names that
  lead to it from the root on: a name that is not text is none. -/
  strays : List (List (Option String))
deriving Inhabited

namespace FileTree

def empty : FileTree := ⟨{}, [], []⟩

def entry? (t : FileTree) (p : Location) : Option Entry := t.entries.get? (Location.path p)

def isDirectoryAt (t : FileTree) (p : Location) : Bool :=
  p.isEmpty || (t.entry? p).any (·.content.isNone)

/-- The largest number of bytes in a name. -/
def maxName : Nat := 255

/-- The largest number of bytes in a path. -/
def maxPath : Nat := 4095

/-- Where the segments of a path lead to from a place. -/
def follow (t : FileTree) (p : Location) : List String → Except ReadFailure Location
  | [] => .ok p
  | s :: rest =>
    if !t.isDirectoryAt p then .error .notADirectory
    else if s == "" || s == "." then t.follow p rest
    else if s == ".." then t.follow p.dropLast rest
    else if maxName < s.utf8ByteSize then .error .nameTooLong
    else if (t.entry? (p ++ [s])).isNone then .error .missing
    else t.follow (p ++ [s]) rest

/-- Where a path leads to. -/
def locate (t : FileTree) (path : String) : Except ReadFailure Location :=
  if path == "" then .error .missing
  else if path.contains '\x00' then .error .badName
  else if maxPath < path.utf8ByteSize then .error .nameTooLong
  else
    t.follow (if FilePath.isAbsolute path then [] else t.workingDirectory) (Text.split "/" path)

/-- The content of the file under a path. -/
def read (t : FileTree) (path : String) : Except ReadFailure ByteArray := do
  match t.entry? (← t.locate path) with
  | some ⟨_, some content⟩ => .ok content
  | _ => .error .aDirectory

/-- Whether a path leads to a directory. -/
def isDirectory (t : FileTree) (path : String) : Bool :=
  match t.locate path with
  | .ok p => t.isDirectoryAt p
  | .error _ => false

/-- Whether a path leads anywhere. -/
def contains (t : FileTree) (path : String) : Bool := (t.locate path).toBool

/-- The one path that leads to the same place without detours. -/
def canonical? (t : FileTree) (path : String) : Except ReadFailure String :=
  (t.locate path).map Location.path

/-! ## Changes -/

/-- The place that a path names, whatever is there. -/
def placeOf (t : FileTree) (path : String) : Location :=
  (FilePath.components path).foldl (fun p c => match c with
    | .root => []
    | .current => p
    | .parent => p.dropLast
    | .name n => p ++ [n]) (if FilePath.isAbsolute path then [] else t.workingDirectory)

/-- Makes a directory and those above it; what stands in the way stays. -/
def makeDirectory (t : FileTree) (p : Location) : FileTree :=
  (List.range p.length).foldl (fun t n =>
    let q := p.take (n + 1)
    if (t.entry? q).isSome then t else { t with entries := t.entries.put ⟨q, none⟩ }) t

/-- Writes a file. -/
def write (t : FileTree) (path : String) (content : ByteArray) : FileTree :=
  let p := t.placeOf path
  let t := t.makeDirectory p.dropLast
  { t with entries := t.entries.put ⟨p, some content⟩ }

/-- Removes a file or directory with all that is below it; tells whether it was
there. -/
def remove (t : FileTree) (path : String) : Bool × FileTree :=
  match t.locate path with
  | .ok p => (true, { t with
      entries := t.entries.filter fun e => !p.isPrefixOf e.place
      strays := t.strays.filter fun names => !(p.map some).isPrefixOf names })
  | .error _ => (false, t)

/-! ## Contents -/

/-- The files below a directory, each by its names from there on. -/
def filesBelow (t : FileTree) (directory : Location) : List Location :=
  t.entries.toList.filterMap fun e =>
    if e.content.isSome && directory.isPrefixOf e.place && directory.length < e.place.length then
      some (e.place.drop directory.length)
    else none

/-- The other files below a directory, each by those names from there on that are text. -/
def straysBelow (t : FileTree) (directory : Location) : List Location :=
  t.strays.filterMap fun names =>
    if (directory.map some).isPrefixOf names then
      some ((names.drop directory.length).filterMap id)
    else none

/-- The text of the file at a place, if it is one. -/
def textAt? (t : FileTree) (p : Location) : Option String :=
  (t.entry? p).bind fun e => e.content.bind String.fromUTF8?

end FileTree

end CodeAtlas
