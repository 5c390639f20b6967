import CodeAtlas.Text.Segments

/-!
# CodeAtlas.ModulePath

The module that a source file defines, and what paths mean inside of it.

1. a Python module is named by the directories and the file above it; a file
   `__init__` stands for its directory;
2. a Rust module is named from the source directory on; what stands before that
   directory is the crate, and `lib` and `main` stand for the crate itself;
3. a Python path with points before it starts in the package, and one level higher
   for each point after the first;
4. a Rust path that starts with `crate`, `self` or `super` starts in the crate, the
   module or the module above it; every other path is taken as it is.
-/

namespace CodeAtlas

open CodeAtlas.Text

structure ModulePath where
  qualifiedName : String
  /-- The crate, or the outermost package. -/
  root : String
  /-- The package that relative paths start in. -/
  package : String
  separator : String
deriving DecidableEq, Inhabited, Repr

namespace ModulePath

/-! ## From files -/

/-- The path without its extension. -/
def withoutExtension (path : String) : String :=
  match cutLast? "." path with
  | some (stem, extension) => if occurs "/" extension then path else stem
  | none => path

/-- The module of a Python file. -/
def ofPython (path : String) : ModulePath :=
  let segments := (split "/" (withoutExtension path)).filter fun s => s != "" && s != "."
  let isPackage := segments.getLast? == some "__init__" && 1 < segments.length
  let segments := if isPackage then segments.dropLast else segments
  let qualifiedName := ".".intercalate segments
  { qualifiedName
    root := segments.headD ""
    package := if isPackage then qualifiedName else parentOf "." qualifiedName
    separator := "." }

/-- A crate's name as it is written in paths. -/
def crateName (directory : String) : String :=
  String.ofList (directory.toList.map fun c => if c == '-' then '_' else c)

/-- The crate of a file and the segments below it: the last directory `src` belongs
to the crate that its parent directory names. -/
def crateOf (segments : List String) : String × List String :=
  match segments.reverse.span (· != "src") with
  | (below, _ :: directory :: _) => (crateName directory, below.reverse)
  | (below, [_]) => ("crate", below.reverse)
  | (_, []) => ("crate", segments)

/-- The module of a Rust file. -/
def ofRust (path : String) : ModulePath :=
  let segments := (split "/" ((stripEnd? ".rs" path).getD path)).filter (· != "")
  let (root, rest) := crateOf segments
  let rest := if rest.getLast? == some "mod" then rest.dropLast else rest
  let rest := if rest == ["lib"] || rest == ["main"] then [] else rest
  let qualifiedName := "::".intercalate (root :: rest)
  { qualifiedName, root, package := parentOf "::" qualifiedName, separator := "::" }

/-- The module of a file of a language, by its path below the root of the tree. -/
def ofFile (path language : String) : ModulePath :=
  let path := String.ofList (path.toList.map fun c => if c == '\\' then '/' else c)
  if language == "rust" then ofRust path else ofPython path

/-! ## Names inside -/

/-- The last segment of the module's name. -/
def name (m : ModulePath) : String := lastSegment m.separator m.qualifiedName

/-- The qualified name of something inside the module. -/
def child (m : ModulePath) (relative : String) : String :=
  join m.separator m.qualifiedName relative

/-- The name some levels further up. -/
def ancestor (separator name : String) : Nat → String
  | 0 => name
  | levels + 1 => ancestor separator (parentOf separator name) levels

/-- What a Python path means in the module. -/
def absolutizePython (m : ModulePath) (target : String) : String :=
  let cs := target.toList
  match cs.takeWhile (· == '.') with
  | [] => target
  | _ :: points =>
    join "." (ancestor "." m.package points.length)
      (String.ofList (cs.dropWhile (· == '.')))

/-- What a Rust path means in the module. -/
def absolutizeRust (m : ModulePath) (target : String) : String :=
  let below (base : String) (rest : List String) := join "::" base ("::".intercalate rest)
  let segments := split "::" target
  match segments with
  | "crate" :: rest => below m.root rest
  | "self" :: rest => below m.qualifiedName rest
  | "super" :: _ =>
    let levels := (segments.takeWhile (· == "super")).length
    below (ancestor "::" m.qualifiedName levels) (segments.dropWhile (· == "super"))
  | _ => target

/-- The absolute name that a path written in the module stands for. -/
def absolutize (m : ModulePath) (target : String) : String :=
  if m.separator == "::" then m.absolutizeRust target else m.absolutizePython target

end ModulePath

end CodeAtlas
