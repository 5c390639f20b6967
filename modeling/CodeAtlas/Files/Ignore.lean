import CodeAtlas.Files.Glob
import CodeAtlas.Files.Tree
import CodeAtlas.Text.Words

/-!
# CodeAtlas.Files.Ignore

Which files of a tree are passed over.

1. a directory may hold lists of patterns, in `.ignore`, `.gitignore` and
   `.git/info/exclude`; they speak of everything below the directory;
2. of the patterns in one list the last one that fits decides, and of the lists of one
   name the list of the nearest directory that decides at all; `.ignore` comes before
   `.gitignore`;
3. a pattern with `!` before it keeps what it fits, even if its name starts with a
   point; whatever else has such a name is passed over;
4. what is below a directory that is passed over is passed over too.
-/

namespace CodeAtlas

open CodeAtlas.Text

/-! ## Rules -/

/-- A line of a list of patterns. -/
structure IgnoreRule where
  pattern : Glob
  /-- Keeps what the pattern fits. -/
  keeps : Bool
  directoriesOnly : Bool
deriving Inhabited

namespace IgnoreRule

/-- Drops a slash at the end; tells whether there was one. -/
def dropSlash (s : String) : String × Bool :=
  match stripEnd? "/" s with
  | some rest => ((stripEnd? "\\" rest).getD rest, true)
  | none => (s, false)

/-- A pattern that is not bound to the start of the path may stand below any
directories, unless it has a slash within. -/
def anywhere (bound : Bool) (s : String) : String :=
  if bound || s.contains '/' || s == "**" then s else "**/" ++ s

/-- A pattern for what is inside a directory does not fit the directory. -/
def strictlyInside (s : String) : String :=
  if (stripEnd? "/**" s).isSome then s ++ "/*" else s

/-- What a line says after its marks: whether it keeps, whether it is bound to the
start, and the pattern. -/
def marks (line : String) : Bool × Bool × String :=
  if (strip? "\\!" line).isSome || (strip? "\\#" line).isSome then
    (false, false, (strip? "\\" line).getD line)
  else
    let (keeps, line) := match strip? "!" line with
      | some rest => (true, rest)
      | none => (false, line)
    match strip? "/" line with
    | some rest => (keeps, true, rest)
    | none => (keeps, false, line)

/-- Reads a line; comments, empty lines and faulty patterns are no rules. -/
def ofLine? (line : String) : Option IgnoreRule :=
  if (strip? "#" line).isSome then none
  else
    let line := if (stripEnd? "\\ " line).isSome then line else trimEnd line
    if line == "" then none
    else
      let (keeps, bound, text) := marks line
      let (text, directoriesOnly) := dropSlash text
      (Glob.ofText? (strictlyInside (anywhere bound text))).map fun pattern =>
        { pattern, keeps, directoriesOnly }

/-- Whether a rule speaks of a path. -/
def fits (r : IgnoreRule) (path : String) (isDirectory : Bool) : Bool :=
  (!r.directoriesOnly || isDirectory) && r.pattern.accepts path

/-- The rules of a list, in order. A byte order mark at its start counts for nothing. -/
def ofText (text : String) : List IgnoreRule :=
  ((split "\n" ((strip? "\uFEFF" text).getD text)).map fun l => (stripEnd? "\r" l).getD l).filterMap
    ofLine?

end IgnoreRule

/-! ## Verdicts -/

/-- What the lists of patterns say about a path. -/
inductive Verdict where
  | ignored
  | kept
deriving DecidableEq, Inhabited, Repr

/-- The lists that a directory may hold, each by its names from there on. -/
def ignoreLists : List Location := [[".ignore"], [".gitignore"], [".git", "info", "exclude"]]

namespace FileTree

/-- What the list of a directory says about a path from there on. -/
def listVerdict (t : FileTree) (list directory path : Location) (isDirectory : Bool) :
    Option Verdict :=
  let rules := IgnoreRule.ofText ((t.textAt? (directory ++ list)).getD "")
  (rules.reverse.find? (·.fits ("/".intercalate path) isDirectory)).map fun r =>
    if r.keeps then .kept else .ignored

/-- What the lists of one name say, from the nearest directory up; `above` counts the
directories that are looked at. -/
def verdictFrom (t : FileTree) (list : Location) (p : Location) (isDirectory : Bool) :
    (above : Nat) → Option Verdict
  | 0 => none
  | above + 1 =>
    match t.listVerdict list (p.take above) (p.drop above) isDirectory with
    | some v => some v
    | none => t.verdictFrom list p isDirectory above

/-- What the lists of all directories above a place say about it. -/
def verdict (t : FileTree) (p : Location) (isDirectory : Bool) : Option Verdict :=
  ignoreLists.findSome? fun list => t.verdictFrom list p isDirectory p.length

/-- Whether a name is hidden by a point before it. -/
def isHidden (p : Location) : Bool := (p.getLast?.bind (strip? ".")).isSome

/-- Whether a file or directory is passed over, on its own account. -/
def passedOver (t : FileTree) (p : Location) (isDirectory : Bool) : Bool :=
  match t.verdict p isDirectory with
  | some .ignored => true
  | some .kept => false
  | none => isHidden p

/-- Whether a file below a root is reached: neither it nor a directory on the way is
passed over. `names` lead from the place on. -/
def isReached (t : FileTree) (p : Location) : (names : List String) → Bool
  | [] => true
  | n :: names =>
    !t.passedOver (p ++ [n]) (!names.isEmpty) && t.isReached (p ++ [n]) names

/-- The files below a directory that a walk comes to, each by those names from there on that are
text. -/
def reached (t : FileTree) (root : Location) : List Location :=
  (t.filesBelow root).filter (t.isReached root) ++ t.straysBelow root

end FileTree

end CodeAtlas
