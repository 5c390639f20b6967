import CodeAtlas.Graph.Record
import CodeAtlas.Store.Rows

/-!
# CodeAtlas.Tracker

What is known of the files of a source tree.

1. a fingerprint is known only of a file whose contribution was committed with it, so
   a file that failed is still seen as changed;
2. a file must be indexed if its fingerprint differs from the known one, or if it
   changed or failed before;
3. a file that failed for good stays failed until it is indexed, forced or deleted.
-/

namespace CodeAtlas

/-! ## Known fingerprints -/

/-- Fingerprints by path. -/
abbrev Fingerprints := Dict String

namespace Fingerprints

/-- Whether a file is new or differs from what is known. -/
def isChanged (d : Fingerprints) (path fingerprint : String) : Bool :=
  d.value? path != some fingerprint

/-- Notes several fingerprints. -/
def seed (d : Fingerprints) (entries : List (String × String)) : Fingerprints := d.putAll entries

end Fingerprints

/-! ## States -/

inductive FileState where
  | unseen
  | indexing
  | indexed
  | changed
  | deleted
  /-- Changed, and not tried any more. -/
  | failed
deriving DecidableEq, Inhabited, Repr

namespace FileState

def all : List FileState := [unseen, indexing, indexed, changed, deleted, failed]

def name : FileState → String
  | unseen => "unseen"
  | indexing => "indexing"
  | indexed => "indexed"
  | changed => "changed"
  | deleted => "deleted"
  | failed => "failed"

end FileState

/-! ## The tracker -/

structure Tracker where
  fingerprints : Fingerprints
  states : Dict FileState
  errors : Dict String
deriving Inhabited

namespace Tracker

def empty : Tracker := ⟨{}, {}, {}⟩

/-- The state of files with records. -/
def ofRecords (records : List FileRecord) : Tracker where
  fingerprints := Fingerprints.seed {} (records.map fun r => (r.path, r.fingerprint))
  states := Rows.putAll {} (records.map fun r => (r.path, .indexed))
  errors := {}

def state (t : Tracker) (path : String) : FileState := (t.states.value? path).getD .unseen

/-- Whether a committed fingerprint is known. -/
def isKnown (t : Tracker) (path : String) : Bool := t.fingerprints.contains path

def setState (t : Tracker) (path : String) (s : FileState) : Tracker :=
  { t with states := t.states.insert path s }

/-- Notes the fingerprint of a file; tells whether the file must be indexed. -/
def observe (t : Tracker) (path fingerprint : String) : Bool × Tracker :=
  let changed := t.fingerprints.isChanged path fingerprint
  let before := t.state path
  let t :=
    if changed then
      if before == .failed then t else t.setState path .changed
    else if before == .unseen || before == .deleted then t.setState path .indexed
    else t
  (changed || before == .changed || before == .failed, t)

/-- Forces a file to be indexed when it is seen next. -/
def invalidate (t : Tracker) (path : String) : Tracker :=
  { t with fingerprints := t.fingerprints.erase path }.setState path .changed

/-- Work on a file starts. -/
def begin (t : Tracker) (path : String) : Tracker := t.setState path .indexing

/-- The contribution of a file was committed. -/
def committed (t : Tracker) (path fingerprint : String) : Tracker :=
  { t with
    fingerprints := t.fingerprints.insert path fingerprint
    errors := t.errors.erase path }.setState path .indexed

/-- Work on a file failed; `exhausted` says that it is not tried again. -/
def failed (t : Tracker) (path error : String) (exhausted : Bool) : Tracker :=
  { t with errors := t.errors.insert path error }.setState path
    (if exhausted then .failed else .changed)

/-- The contribution of a file was retracted. -/
def deleted (t : Tracker) (path : String) : Tracker :=
  { t with
    fingerprints := t.fingerprints.erase path
    errors := t.errors.erase path }.setState path .deleted

/-! ## Reports -/

/-- Paths with a known fingerprint, in ascending order. -/
def knownPaths (t : Tracker) : List String := t.fingerprints.keys

/-- Paths in some states, in ascending order. -/
def pathsIn (t : Tracker) (states : List FileState) : List String :=
  ((t.states.toList.filter fun (_, s) => states.contains s).map (·.1)).mergeSort (· ≤ ·)

/-- Files that are to be indexed. -/
def pending (t : Tracker) : List String := t.pathsIn [.changed, .indexing]

/-- Files that failed for good, each with its error. -/
def failures (t : Tracker) : List (String × String) :=
  (t.pathsIn [.failed]).map fun path => (path, (t.errors.value? path).getD "")

/-- Numbers of files by state; states without files are left out. -/
def counts (t : Tracker) : List (FileState × Nat) :=
  (FileState.all.map fun s => (s, t.states.toList.countP (·.2 == s))).filter (0 < ·.2)

end Tracker

end CodeAtlas
