import CodeAtlas.Scheduling.Scheduler

/-!
# CodeAtlas.Service.Job

Indexes a source tree in the background.

1. a job is pending until it begins, then running, and in the end completed or failed;
   after that it does not change;
2. a job is completed when its files were worked on and its tree is registered; files
   that failed are listed in it;
3. no more files are processed than the job has in all.
-/

namespace CodeAtlas

inductive JobState where
  | pending
  | running
  | completed
  | failed
deriving DecidableEq, Inhabited, Repr

namespace JobState

def name : JobState → String
  | pending => "pending"
  | running => "running"
  | completed => "completed"
  | failed => "failed"

/-- Whether a job in this state is not over. -/
def isActive : JobState → Bool
  | pending => true
  | running => true
  | completed => false
  | failed => false

end JobState

/-- What is told of a job. -/
structure Job where
  id : String
  path : String
  state : JobState
  processedFiles : Nat
  totalFiles : Nat
  estimatedSeconds : Nat
  errors : List String
  startedAt : Int
  finishedAt : Option Int
deriving DecidableEq, Inhabited, Repr

/-- A job with what it works on. -/
structure Task where
  job : Job
  isDependency : Bool
  scheduler : Scheduler

namespace Task

/-- Milliseconds that a file is expected to take. -/
def estimatedMsPerFile : Nat := 15

/-- Seconds that some files are expected to take, rounded up. -/
def estimate (files : Nat) : Nat := (files * estimatedMsPerFile + 999) / 1000

/-- A job for a tree that has not begun. -/
def new (id path : String) (isDependency : Bool) (scheduler : Scheduler) (files : Nat)
    (now : Int) : Task where
  job := ⟨id, path, .pending, 0, files, estimate files, [], now, none⟩
  isDependency := isDependency
  scheduler := scheduler

/-- The last name of a path, or the path itself. -/
def repositoryName (path : String) : String := (FilePath.fileName? path).getD path

/-- How a job ends. -/
def conclude (t : Task) (state : JobState) (errors : List String) (now : Int) : Task :=
  { t with
    scheduler := t.scheduler.shutDown
    job := { t.job with state, errors, finishedAt := some now } }

/-- Begins: queues the files of the tree. -/
def begin (t : Task) (site : Site) : Task :=
  match t.scheduler.reconcile site.files with
  | (.error e, scheduler) =>
    { t with scheduler }.conclude .failed (t.job.errors ++ [e.message]) site.now
  | (.ok r, scheduler) =>
    { t with
      scheduler
      job := { t.job with
        state := .running
        totalFiles := max t.job.totalFiles (r.queued + r.deletions) } }

/-- Takes the number of processed files over into what is told. -/
def report (t : Task) : Task :=
  { t with job := { t.job with processedFiles := t.scheduler.processed } }

/-- The files that failed, each with its error. -/
def failures (t : Task) : List String :=
  t.scheduler.tracker.failures.map fun (path, e) => path ++ ": " ++ e

/-- Ends: registers the tree. -/
def finish (t : Task) (site : Site) : Task × Site :=
  let t := t.report
  let path := t.job.path
  match site.backend.register ⟨path, repositoryName path, t.isDependency, site.now⟩ with
  | (.ok _, backend) => (t.conclude .completed t.failures site.now, { site with backend })
  | (.error e, backend) =>
    (t.conclude .failed (t.job.errors ++ [e.message]) site.now, { site with backend })

/-- The next step of a job, if there is one now; `held` says that the store cannot be
written. -/
def step? (t : Task) (held : Bool) (site : Site) : Option (Task × Site) :=
  match t.job.state with
  | .pending => some (t.begin site, site)
  | .running =>
    match t.scheduler.step? held site with
    | some (scheduler, site) => some ({ t with scheduler }, site)
    | none => if t.scheduler.queue.isIdle then some (t.finish site) else none
  | .completed => none
  | .failed => none

/-- So many steps of a job at most. -/
def steps (held : Bool) : Nat → Task × Site → Task × Site
  | 0, state => state
  | n + 1, (t, site) =>
    match t.step? held site with
    | none => (t, site)
    | some state => steps held n state

/-- Carries a job on as far as it goes. It begins and ends once, and works in between on
the files that it has queued. -/
def run (t : Task) (held : Bool) (site : Site) : Task × Site :=
  let (t, site) := steps held 1 (t, site)
  steps held (t.scheduler.queue.messages.length + t.scheduler.queue.rerun.length + 2) (t, site)

end Task

end CodeAtlas
