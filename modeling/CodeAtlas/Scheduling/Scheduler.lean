import CodeAtlas.Indexing.FileChange
import CodeAtlas.Scheduling.Queue

/-!
# CodeAtlas.Scheduling.Scheduler

Indexes the files of a tree one after the other, as they are asked for.

1. a file is tried again after a failure that may pass; in the end it is reported as
   failed, and the next file is taken;
2. the worker may have to wait for the store; meanwhile its file counts as being
   indexed, and what it has decided for the file stays;
3. a reconciliation queues every file of the tree, and every file that is known and no
   longer there.
-/

namespace CodeAtlas

structure Scheduler where
  indexer : Indexer
  tracker : Tracker
  retry : Retry
  queue : Queue
  /-- The file whose change waits for the store. -/
  stalled : Option (String × FileChange)
  /-- Number of files that were worked on. -/
  processed : Nat
  isStopping : Bool

/-- What a reconciliation found. -/
structure Reconciliation where
  scanned : Nat
  queued : Nat
  deletions : Nat
deriving DecidableEq, Inhabited, Repr

/-- How far a scheduler has got. -/
structure SchedulerStatus where
  queued : Nat
  inFlight : Nat
  processed : Nat
  pending : List String
  /-- Files that failed for good, each with its error. -/
  failed : List (String × String)
  states : List (FileState × Nat)
deriving DecidableEq, Inhabited, Repr

namespace Scheduler

/-- A scheduler that has nothing to do yet. -/
def start (indexer : Indexer) (tracker : Tracker) (retry : Retry) : Scheduler :=
  ⟨indexer, tracker, retry, .new, none, 0, false⟩

/-! ## Callers -/

/-- Queues a file. -/
def enqueue (s : Scheduler) (relative : String) : Except Error Bool × Scheduler :=
  match s.queue.enqueue relative with
  | (result, queue) => (result, { s with queue })

/-- Queues a file under its path, if it counts. -/
def enqueuePath (s : Scheduler) (path : String) : Except Error Bool × Scheduler :=
  match s.indexer.relativePath? path with
  | some relative => if s.indexer.filter.accepts relative then s.enqueue relative else (.ok false, s)
  | none => (.ok false, s)

/-- Queues a file, to be indexed even if it has not changed. -/
def reindex (s : Scheduler) (relative : String) : Except Error Bool × Scheduler :=
  { s with tracker := s.tracker.invalidate relative }.enqueue relative

/-- Queues the files of the tree, and those that are known and gone. -/
def reconcile (s : Scheduler) (files : FileTree) : Except Error Reconciliation × Scheduler :=
  let found := s.indexer.walk files
  match s.queue.enqueueAll found with
  | (.error e, queue) => (.error e, { s with queue })
  | (.ok queued, queue) =>
    match queue.enqueueAll (s.tracker.knownPaths.filter fun p => !found.contains p) with
    | (.error e, queue) => (.error e, { s with queue })
    | (.ok deletions, queue) => (.ok ⟨found.length, queued, deletions⟩, { s with queue })

def status (s : Scheduler) : SchedulerStatus where
  queued := s.queue.waiting
  inFlight := s.queue.inFlight.length
  processed := s.processed
  pending := s.tracker.pending
  failed := s.tracker.failures
  states := s.tracker.counts

/-- Accepts nothing from now on, and lets the worker stop. -/
def shutDown (s : Scheduler) : Scheduler :=
  { s with queue := s.queue.shut, isStopping := true }

/-! ## The worker -/

/-- Notes the failure of a file. -/
def note (relative : String) (e : Error) (last : Bool) (state : IndexState) : IndexState :=
  { state with tracker := state.tracker.failed relative e.message last }

/-- Goes on with a file after the first attempt. -/
def trial (s : Scheduler) (relative : String) (first : Except Error FileOutcome × IndexState) :
    Trial FileOutcome IndexState :=
  s.retry.afterFirst s.isStopping (fun state => (s.indexer.indexFile relative).run.run state)
    (note relative) first

/-- Goes on with a file after the first attempt until it is done. -/
def finish (s : Scheduler) (relative : String) (first : Except Error FileOutcome × IndexState) :
    Scheduler × Site :=
  let state := (s.trial relative first).state
  ({ s with
      tracker := state.tracker
      processed := s.processed + 1
      stalled := none
      queue := s.queue.finish relative }, state.site)

/-- Does in the store what was decided for a file. -/
def resume (s : Scheduler) (site : Site) (relative : String) (c : FileChange) :
    Scheduler × Site :=
  s.finish relative ((s.indexer.complete c).run.run ⟨site, s.tracker⟩)

/-- Works on the next file, if there is one; `held` says that the store cannot be
written now. -/
def step? (s : Scheduler) (held : Bool) (site : Site) : Option (Scheduler × Site) :=
  match s.stalled with
  | some (relative, c) => if held then none else some (s.resume site relative c)
  | none =>
    if s.isStopping then none
    else
      match s.queue.take? with
      | none => none
      | some (relative, queue) =>
        let s := { s with queue := queue.start relative }
        match (s.indexer.decide relative).run.run ⟨site, s.tracker⟩ with
        | (.error e, state) => some (s.finish relative (.error e, state))
        | (.ok (.done outcome), state) => some (s.finish relative (.ok outcome, state))
        | (.ok (.change c), state) =>
          let s := { s with tracker := state.tracker }
          if held then some ({ s with stalled := some (relative, c) }, state.site)
          else some (s.resume state.site relative c)

/-- Works on so many files at most. -/
def steps (held : Bool) : Nat → Scheduler × Site → Scheduler × Site
  | 0, state => state
  | n + 1, (s, site) =>
    match s.step? held site with
    | none => (s, site)
    | some state => steps held n state

/-- Works until nothing is left to do, or the store must be waited for. Each message and
each file to be done again is worked on once, and one file may be stalled. -/
def run (s : Scheduler) (held : Bool) (site : Site) : Scheduler × Site :=
  steps held (s.queue.messages.length + s.queue.rerun.length + 1) (s, site)

end Scheduler

end CodeAtlas
