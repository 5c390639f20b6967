import CodeAtlas.Text.Segments

/-!
# CodeAtlas.FilePath

Paths of files, as names with `/` between them.

1. repeated and trailing slashes count for nothing, and neither does a component
   `.` unless a relative path starts with it;
2. a component `..` is kept, because what it leads to depends on the directories;
3. the extension of a file stands after the last point of its name, which must not
   be the first character.
-/

namespace CodeAtlas

namespace FilePath

/-- A step of a path. -/
inductive Component where
  | root
  | current
  | parent
  | name (n : String)
deriving DecidableEq, Inhabited, Repr

/-- The steps of a path. -/
def components (path : String) : List Component :=
  let segments := Text.split "/" path
  let start : List Component :=
    if (Text.strip? "/" path).isSome then [.root]
    else if segments.head? == some "." then [.current]
    else []
  start ++ segments.filterMap fun s =>
    if s == "" || s == "." then none
    else if s == ".." then some .parent
    else some (.name s)

def Component.text : Component → String
  | root => "/"
  | current => "."
  | parent => ".."
  | name n => n

/-- A path of the given steps. -/
def ofComponents : List Component → String
  | [] => ""
  | [c] => c.text
  | .root :: cs => "/" ++ ofComponents cs
  | c :: cs => c.text ++ "/" ++ ofComponents cs

def isAbsolute (path : String) : Bool := (Text.strip? "/" path).isSome

/-- One path below another; an absolute path stands for itself. -/
def push (base path : String) : String :=
  if isAbsolute path then path
  else if base == "" || (Text.stripEnd? "/" base).isSome then base ++ path
  else base ++ "/" ++ path

/-- The last component, if it is a name. -/
def fileName? (path : String) : Option String :=
  match (components path).getLast? with
  | some (.name n) => some n
  | _ => none

/-- The extension of a file's name, without the point. -/
def extension? (path : String) : Option String := do
  let name ← fileName? path
  let (stem, extension) ← Text.cutLast? "." name
  if stem == "" then none else some extension

end FilePath

end CodeAtlas
