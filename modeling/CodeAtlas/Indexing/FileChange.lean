import CodeAtlas.Fingerprint
import CodeAtlas.Indexing.Indexer
import CodeAtlas.Resolve.Resolution
import CodeAtlas.Upsert

/-!
# CodeAtlas.Indexing.FileChange

Brings the store up to date for one file.

1. first it is decided what is to be done, from the file and what is known of it; then
   it is done, in one transaction;
2. a file that is missing or cannot be indexed is retracted; the fingerprint of a file
   is known only when its contribution is stored;
3. files that took over shared nodes are indexed again, so that the nodes carry their
   own spans and signatures; a failure there is noted for that file alone.
-/

namespace CodeAtlas

/-! ## Outcomes -/

/-- Why a file is not indexed. -/
inductive SkipReason where
  | unsupported
  | tooLarge
deriving DecidableEq, Inhabited, Repr

def SkipReason.text : SkipReason → String
  | unsupported => "unsupported language"
  | tooLarge => "file too large"

/-- What happened to a file. -/
inductive FileOutcome where
  | indexed (commit : Commit)
  /-- The content is the one that was indexed last. -/
  | unchanged
  /-- The file is gone. -/
  | deleted (commit : Commit)
  | skipped (reason : SkipReason)
deriving DecidableEq, Inhabited, Repr

/-- What is to be done in the store for a file. -/
inductive FileChange where
  | replace (relative : String) (record : FileRecord) (nodes : List Node) (edges : List Edge)
  | retract (relative : String)
  | skip (relative : String) (reason : SkipReason)
deriving Inhabited

/-- What was decided for a file. -/
inductive Decision where
  | done (outcome : FileOutcome)
  | change (c : FileChange)
deriving Inhabited

/-! ## Work on files -/

structure IndexState where
  site : Site
  tracker : Tracker
deriving Inhabited

/-- Work on the files of a tree. What it did before a failure stays. -/
abbrev Indexing := ExceptT Error (StateM IndexState)

namespace Indexing

def onTracker (f : Tracker → Tracker) : Indexing Unit :=
  modify fun s => { s with tracker := f s.tracker }

/-- Work on the store. -/
def onStore {α : Type} (f : Backend → Except Error α × Backend) : Indexing α := do
  let s ← get
  let (result, backend) := f s.site.backend
  set { s with site := { s.site with backend } }
  match result with
  | .ok a => return a
  | .error e => throw e

/-- Work whose failure is a result. -/
def attempt {α : Type} (w : Indexing α) : Indexing (Except Error α) := fun s =>
  match w.run s with
  | (result, s) => (.ok result, s)

end Indexing

namespace Indexer

open Indexing

/-! ## Deciding -/

/-- What is to be done for a file of some content in a language. -/
def decideContent (i : Indexer) (relative : String) (language : Lang) (content : ByteArray) :
    Indexing Decision := do
  let digest := fingerprint content
  let s ← get
  let (needed, tracker) := s.tracker.observe relative digest
  set { s with tracker }
  if !needed then return .done .unchanged
  onTracker (·.begin relative)
  match i.readers.read i.languages relative content with
  | .unsupported => return .change (.skip relative .unsupported)
  | .failed e => throw e
  | .parsed file =>
    let path := i.storePath relative
    let found ← Resolve.resolve s.site.backend.symbols { file with filePath := path }
    let record : FileRecord :=
      { path, language := language.name, fingerprint := digest, indexedAt := s.site.now
        contributions := [] }
    return .change (.replace relative record found.nodes found.edges)

/-- What is to be done for a file. -/
def decide (i : Indexer) (relative : String) : Indexing Decision := do
  match Lang.ofPath? i.languages relative with
  | none => return .change (.skip relative .unsupported)
  | some language =>
    match (← get).site.files.read (FilePath.push i.root relative) with
    | .error .missing => return .change (.retract relative)
    | .error e => throw (.io e.message)
    | .ok content =>
      if i.maxFileBytes < content.size then return .change (.skip relative .tooLarge)
      else i.decideContent relative language content

/-! ## Doing -/

/-- Does what is to be done in the store; `refresh` is for the files that took over
shared nodes. -/
def settle (i : Indexer) (refresh : List String → Indexing Unit) :
    FileChange → Indexing FileOutcome
  | .replace relative record nodes edges => do
    let commit ← onStore (·.apply record nodes edges)
    onTracker (·.committed relative record.fingerprint)
    refresh commit.heirs
    return .indexed commit
  | .retract relative => do
    let commit ← onStore (·.deleteFile (i.storePath relative))
    onTracker (·.deleted relative)
    refresh commit.heirs
    return .deleted commit
  | .skip relative reason => do
    let commit ← onStore (·.deleteFile (i.storePath relative))
    if commit.recordWritten then
      onTracker (·.deleted relative)
      refresh commit.heirs
    return .skipped reason

/-- Indexes files of the tree again that took over shared nodes. -/
def refreshEach (i : Indexer) (index : String → Indexing FileOutcome) :
    List String → Indexing Unit
  | [] => return
  | heir :: heirs => do
    match i.relativeStorePath? heir with
    | none => pure ()
    | some relative =>
      onTracker (·.invalidate relative)
      match ← attempt (index relative) with
      | .ok _ => pure ()
      | .error e => onTracker (·.failed relative e.message false)
    i.refreshEach index heirs

/-- Indexes a file, and the files that take over nodes from it, and so on up to some
depth. -/
def indexTo (i : Indexer) : (depth : Nat) → String → Indexing FileOutcome
  | 0, relative => do
    match ← i.decide relative with
    | .done outcome => return outcome
    | .change c => i.settle (fun _ => pure ()) c
  | depth + 1, relative => do
    match ← i.decide relative with
    | .done outcome => return outcome
    | .change c => i.settle (i.refreshEach (i.indexTo depth)) c

/-- A depth that is never reached: a file hands nodes on only once before its record
agrees with its content. -/
def enoughDepth : Indexing Nat := return (← get).site.backend.store.records.size + 1

/-- Does what is to be done in the store for a file. -/
def complete (i : Indexer) (c : FileChange) : Indexing FileOutcome := do
  i.settle (i.refreshEach (i.indexTo (← enoughDepth))) c

/-- Brings the store up to date for a file. -/
def indexFile (i : Indexer) (relative : String) : Indexing FileOutcome := do
  match ← i.decide relative with
  | .done outcome => return outcome
  | .change c => i.complete c

/-- Retracts a file. -/
def removeFile (i : Indexer) (relative : String) : Indexing FileOutcome :=
  i.complete (.retract relative)

end Indexer

end CodeAtlas
