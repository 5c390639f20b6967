/-!
# CodeAtlas.Toml.Basic

Documents of the configuration format TOML.

1. a table is opened by a header, by a dotted key, by a header of a table inside of
   it, or it is written in braces;
2. every key is given once: a table that a header opened is not opened again, and
   one written in braces is closed;
3. a dotted key adds only to tables that dotted keys opened.
-/

namespace CodeAtlas

/-- How a table came about. -/
inductive Toml.Origin where
  /-- By a header of its own. -/
  | header
  /-- By the header of a table inside of it. -/
  | implied
  /-- By a dotted key. -/
  | dotted
  /-- In braces. -/
  | inline
deriving DecidableEq, Inhabited, Repr

/-- A value of a document. Numbers with a point and times keep no content, because
nothing here is written as one. -/
inductive Toml where
  | text (s : String)
  | integer (n : Int)
  | float
  | boolean (b : Bool)
  | time
  | array (items : List Toml)
  | table (origin : Toml.Origin) (entries : List (String × Toml))
  /-- Tables under one header in double brackets, last one first. -/
  | tables (rows : List (List (String × Toml)))
deriving Inhabited

namespace Toml

abbrev Entries := List (String × Toml)

/-- The value of a key. -/
def find? (entries : Entries) (key : String) : Option Toml := entries.lookup key

/-- Puts a value in the place of a key, or adds it at the end. -/
def set (entries : Entries) (key : String) (v : Toml) : Entries :=
  if entries.any (·.1 == key) then entries.map fun e => if e.1 == key then (key, v) else e
  else entries ++ [(key, v)]

/-- Adds a value under a key that is not there. -/
def addNew (entries : Entries) (key : String) (v : Toml) : Option Entries :=
  if entries.any (·.1 == key) then none else some (entries ++ [(key, v)])

/-- Adds a value under a dotted key. `open?` says whether the table may be added to:
one that dotted keys opened if the key has a part before this one. -/
def addDotted (canAdd : Bool) (key : String) (v : Toml) : (path : List String) → Entries →
    Option Entries
  | [], entries => if canAdd then addNew entries key v else none
  | p :: path, entries =>
    match find? entries p with
    | none => (addDotted true key v path []).map fun es => set entries p (.table .dotted es)
    | some (.table .dotted es) =>
      (addDotted true key v path es).map fun es => set entries p (.table .dotted es)
    | some (.table .implied es) =>
      (addDotted false key v path es).map fun es => set entries p (.table .implied es)
    | some (.tables (row :: rows)) =>
      (addDotted false key v path row).map fun es => set entries p (.tables (es :: rows))
    | some _ => none

/-- Changes the table at a path of headers, opening what is missing on the way. -/
def atHeader (change : Entries → Option Entries) : (path : List String) → Entries →
    Option Entries
  | [], entries => change entries
  | p :: path, entries =>
    match find? entries p with
    | none => (atHeader change path []).map fun es => set entries p (.table .implied es)
    | some (.table .inline _) => none
    | some (.table o es) => (atHeader change path es).map fun es => set entries p (.table o es)
    | some (.tables (row :: rows)) =>
      (atHeader change path row).map fun es => set entries p (.tables (es :: rows))
    | some _ => none

/-- Opens a table by its header. -/
def openTable (key : String) (entries : Entries) : Option Entries :=
  match find? entries key with
  | none => some (set entries key (.table .header []))
  | some (.table .implied es) => some (set entries key (.table .header es))
  | some _ => none

/-- Opens one more table under a header in double brackets. -/
def openRow (key : String) (entries : Entries) : Option Entries :=
  match find? entries key with
  | none => some (set entries key (.tables [[]]))
  | some (.tables rows) => some (set entries key (.tables ([] :: rows)))
  | some _ => none

end Toml

end CodeAtlas
