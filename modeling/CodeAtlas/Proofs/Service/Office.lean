import CodeAtlas.Proofs.Scheduling.Notifications
import CodeAtlas.Proofs.Upsert.Calls
import CodeAtlas.Service.Answer
import Mathlib.Logic.Relation

/-!
# CodeAtlas.Proofs.Service.Office

Requests to index and the jobs that they start, as they get in each other's way.

A service answers any number of requests at a time while its jobs are at work.  A job has a
thread of its own, which queues files and tells how far it has come, and workers, which take
these files from the queue.  All of them share the table of jobs, the store and the files
(`Office`).  A step of an office is one thing that one of them does, and anything may come
between two steps of one of them (`Office.Step`):

* a request looks at files and store first, then gets hold of the table, and keeps it while it
  looks at files and store again, until it has entered its job (`Inquiry`, `Admission`);
* a thread tells of its job only while no request has hold of the table (`Errand.Tells`); all
  else it does at any time, and so do the workers (`Errand.Works`);
* files and store change at any time, be it by workers or by somebody else (`Site.Turns`).

A service that answers one request after the other, with one job at work at a time, is among
these (`ServiceState.Served.reached`).
-/

namespace CodeAtlas

/-! ## Surroundings -/

/-- What may come about at any time: somebody changes what is stored of a tree, or registers
one, or something else changes, but what is stored. -/
inductive Site.Turns (site : Site) : Site → Prop
  | calls (c : Call) : Turns site { site with backend := (site.backend.perform c).2 }
  | registers (r : Repository) : Turns site { site with backend := (site.backend.register r).2 }
  | drifts {site' : Site} : site'.backend.store = site.backend.store → Turns site site'

/-! ## Requests -/

/-- How far a request has got without hold of the table. -/
inductive Inquiry where
  /-- It has looked at nothing yet. -/
  | asked (path : String) (isDependency : Bool)
  /-- Its path leads to a directory. -/
  | directory (path : String) (isDependency : Bool)
  /-- It knows the one path of that directory. -/
  | located (key : String) (isDependency : Bool)
  /-- No tree is registered under that path. -/
  | unregistered (key : String) (isDependency : Bool)

/-- A request looks at files or store; it is answered, or knows more. -/
inductive Inquiry.Looks (site : Site) : Inquiry → Option Inquiry → Prop
  | noDirectory {path : String} {isDependency : Bool} :
      site.files.isDirectory path = false → Looks site (.asked path isDependency) none
  | directory {path : String} {isDependency : Bool} :
      site.files.isDirectory path = true →
      Looks site (.asked path isDependency) (some (.directory path isDependency))
  | lost {path : String} {isDependency : Bool} {e : ReadFailure} :
      site.files.canonical? path = .error e → Looks site (.directory path isDependency) none
  | located {path key : String} {isDependency : Bool} :
      site.files.canonical? path = .ok key →
      Looks site (.directory path isDependency) (some (.located key isDependency))
  | unanswered {key : String} {isDependency : Bool} {e : Error} :
      site.backend.repositories = .error e → Looks site (.located key isDependency) none
  | registered {key : String} {isDependency : Bool} {rs : List Repository} :
      site.backend.repositories = .ok rs → rs.any (·.path == key) = true →
      Looks site (.located key isDependency) none
  | unregistered {key : String} {isDependency : Bool} {rs : List Repository} :
      site.backend.repositories = .ok rs → rs.any (·.path == key) = false →
      Looks site (.located key isDependency) (some (.unregistered key isDependency))

/-- How far a request has got that has hold of the table, in which no job was at work on its
tree. -/
inductive Admission where
  | admitted (key : String) (isDependency : Bool)
  | surveyed (key : String) (isDependency : Bool) (indexer : Indexer)
  | prepared (key : String) (isDependency : Bool) (indexer : Indexer) (tracker : Tracker)

/-- The tree that a request is about. -/
def Admission.key : Admission → String
  | admitted key _ => key
  | surveyed key _ _ => key
  | prepared key _ _ _ => key

/-! ## Jobs -/

/-- What the thread of a job is at. -/
inductive Stage where
  /-- It has not begun. -/
  | due
  | begun
  /-- It queues the files that it has found, and these are left; so many were queued by now. -/
  | listing (left : List String) (queued : Nat)
  /-- It queues the files that are gone. -/
  | dropping (left : List String) (queued : Nat)
  | counted (queued : Nat)
  /-- It waits for the queue to be idle. -/
  | waiting
  /-- It has waited for long enough, and looks how far the workers have come. -/
  | polling
  | noticed (processed : Nat)
  | idle
  | noted (processed : Nat) (failures : List String)
  | registering (failures : List String)
  /-- It knows how the job ends. -/
  | closing (outcome : Except Error (List String))
  | closed (outcome : Except Error (List String))
  | ended

/-- Whether the thread may fail where it is. -/
def Stage.mayBreak : Stage → Bool
  | listing .. => true
  | dropping .. => true
  | waiting => true
  | polling => true
  | idle => true
  | _ => false

/-- A job with its thread and its workers. -/
structure Errand where
  task : Task
  stage : Stage
  workers : List Duty
  /-- The files that are being indexed and count as processed already. -/
  counted : List String
  /-- The files that its thread has found, in the order in which it queues them. -/
  found : List String
  /-- How often its thread asked for a file that was being indexed. -/
  again : Nat

namespace Errand

abbrev job (e : Errand) : Job := e.task.job

abbrev queue (e : Errand) : Queue := e.task.scheduler.queue

/-- The queue with the workers that share it. -/
def crew (e : Errand) : Crew := ⟨e.queue, e.workers⟩

/-- The errand of a task that has not begun. -/
def new (task : Task) : Errand := ⟨task, .due, [], [], [], 0⟩

def withScheduler (e : Errand) (scheduler : Scheduler) : Errand :=
  { e with task := { e.task with scheduler } }

def withQueue (e : Errand) (queue : Queue) : Errand :=
  e.withScheduler { e.task.scheduler with queue }

/-- The thread has asked for a file, and leaves the queue like that. -/
def asking (e : Errand) (path : String) (queue : Queue) : Errand :=
  { e.withQueue queue with again := if path ∈ e.queue.inFlight then e.again + 1 else e.again }

/-- The thread has come to a stage. -/
def moveTo (e : Errand) (stage : Stage) : Errand := { e with stage }

/-- What is told of the job changes, and the thread comes to a stage. -/
def tell (e : Errand) (job : Job) (stage : Stage) : Errand :=
  { e with task := { e.task with job }, stage }

/-- What the thread of a job does, or one of its workers, without touching the table. -/
inductive Works (site : Site) (e : Errand) : Errand → Site → Prop
  | walks : e.stage = .begun →
      Works site e { e with
        stage := .listing (e.task.scheduler.indexer.walk site.files) 0
        found := e.task.scheduler.indexer.walk site.files } site
  | lists {left : List String} {path : String} {n : Nat} {b : Bool} {queue : Queue} :
      e.stage = .listing (path :: left) n → e.queue.enqueue path = (.ok b, queue) →
      Works site e ((e.asking path queue).moveTo (.listing left (n + b.toNat))) site
  | compares {n : Nat} : e.stage = .listing [] n →
      Works site e (e.moveTo (.dropping (e.task.scheduler.tracker.knownPaths.filter fun p =>
        !e.found.contains p) n)) site
  | drops {left : List String} {path : String} {n : Nat} {b : Bool} {queue : Queue} :
      e.stage = .dropping (path :: left) n → e.queue.enqueue path = (.ok b, queue) →
      Works site e ((e.asking path queue).moveTo (.dropping left (n + b.toNat))) site
  | sums {n : Nat} : e.stage = .dropping [] n → Works site e (e.moveTo (.counted n)) site
  | waits : e.stage = .waiting → e.queue.isIdle = false → Works site e (e.moveTo .polling) site
  | polls : e.stage = .polling →
      Works site e (e.moveTo (.noticed e.task.scheduler.processed)) site
  | settles : e.stage = .waiting → e.queue.isIdle = true → Works site e (e.moveTo .idle) site
  | notes : e.stage = .idle →
      Works site e (e.moveTo (.noted e.task.scheduler.processed e.task.failures)) site
  | registers {failures : List String} {result : Except Error Unit} {backend : Backend} :
      e.stage = .registering failures →
      site.backend.register ⟨e.job.path, Task.repositoryName e.job.path, e.task.isDependency,
        site.now⟩ = (result, backend) →
      Works site e (e.moveTo (.closing (result.map fun _ => failures))) { site with backend }
  | breaks {error : Error} : e.stage.mayBreak = true →
      Works site e (e.moveTo (.closing (.error error))) site
  | closes {outcome : Except Error (List String)} : e.stage = .closing outcome →
      Works site e ((e.withScheduler e.task.scheduler.shutDown).moveTo (.closed outcome)) site
  | takes {before after : List Duty} {path : String} {queue : Queue} :
      e.workers = before ++ .free :: after → e.queue.take? = some (path, queue) →
      Works site e { e.withQueue queue with workers := before ++ .took path :: after } site
  | starts {before after : List Duty} {path : String} :
      e.workers = before ++ .took path :: after →
      Works site e { e.withQueue (e.queue.start path) with
        workers := before ++ .works path :: after } site
  /-- What is known of a file changes, or what is to be done for it. -/
  | learns {tracker : Tracker} {stalled : Option (String × FileChange)} :
      Works site e (e.withScheduler { e.task.scheduler with tracker, stalled }) site
  | counts {path : String} : .works path ∈ e.workers → path ∉ e.counted →
      Works site e { e.withScheduler { e.task.scheduler with
        processed := e.task.scheduler.processed + 1 } with counted := path :: e.counted } site
  | finishes {before after : List Duty} {path : String} :
      e.workers = before ++ .works path :: after → path ∈ e.counted →
      Works site e { e.withQueue (e.queue.finish path) with
        workers := before ++ .free :: after, counted := e.counted.erase path } site

/-- What the table is told of a job, for the most part by its thread; `now` is the time. -/
inductive Tells (now : Int) (e : Errand) : Errand → Prop
  /-- The thread begins, and starts so many workers. -/
  | begins (n : Nat) : e.stage = .due →
      Tells now e { e.tell { e.job with state := .running } .begun with
        workers := List.replicate n .free }
  /-- There is to be no thread. -/
  | unspawned (message : String) : e.stage = .due →
      Tells now e (e.tell { e.job with
        state := .failed
        errors := e.job.errors ++ [message] } .ended)
  | totals {n : Nat} : e.stage = .counted n →
      Tells now e (e.tell { e.job with totalFiles := max e.job.totalFiles n } .waiting)
  | reports {n : Nat} : e.stage = .noticed n →
      Tells now e (e.tell { e.job with processedFiles := n } .waiting)
  | leaves {n : Nat} {failures : List String} : e.stage = .noted n failures →
      Tells now e (e.tell { e.job with processedFiles := n } (.registering failures))
  | completes {failures : List String} : e.stage = .closed (.ok failures) →
      Tells now e ({ e with task := e.task.conclude .completed failures now }.moveTo .ended)
  | fails {error : Error} : e.stage = .closed (.error error) →
      Tells now e ({ e with
        task := e.task.conclude .failed (e.job.errors ++ [error.message]) now }.moveTo .ended)

end Errand

/-! ## All together -/

/-- A service with the requests that it is answering and the threads of its jobs. -/
structure Office where
  readers : Readers
  config : Config
  /-- The jobs in the order in which they were entered. -/
  errands : List Errand
  /-- The number of the next job. -/
  nextJob : Nat
  /-- The requests without hold of the table. -/
  requests : List Inquiry
  /-- The request with hold of the table, if there is one. -/
  holder : Option Admission
  site : Site

namespace Office

/-- What the table of jobs looks like to requests. -/
def service (o : Office) : Service := ⟨o.readers, o.config, o.errands.map (·.task), o.nextJob⟩

/-- The job that a request enters. -/
def entry (o : Office) (key : String) (isDependency : Bool) (indexer : Indexer)
    (tracker : Tracker) : Errand :=
  .new (.new (Service.jobId o.nextJob) key isDependency
    (.start indexer tracker o.config.retry) (indexer.walk o.site.files).length o.site.now)

/-- One thing that is done.  Any request, thread or worker may be the next one to do something. -/
inductive Step (o : Office) : Office → Prop
  | asks (path : String) (isDependency : Bool) :
      Step o { o with requests := o.requests ++ [.asked path isDependency] }
  | looks {before after : List Inquiry} {r : Inquiry} {r' : Option Inquiry} :
      o.requests = before ++ r :: after → r.Looks o.site r' →
      Step o { o with requests := before ++ r'.toList ++ after }
  /-- A job is at work on the tree of a request already. -/
  | turnsAway {before after : List Inquiry} {key : String} {isDependency : Bool} {j : Job} :
      o.requests = before ++ .unregistered key isDependency :: after → o.holder = none →
      o.service.activeJob? key = some j →
      Step o { o with requests := before ++ after }
  /-- A request gets hold of the table. -/
  | admits {before after : List Inquiry} {key : String} {isDependency : Bool} :
      o.requests = before ++ .unregistered key isDependency :: after → o.holder = none →
      o.service.activeJob? key = none →
      Step o { o with
        requests := before ++ after, holder := some (.admitted key isDependency) }
  | surveys {key : String} {isDependency : Bool} {indexer : Indexer} :
      o.holder = some (.admitted key isDependency) →
      Indexer.ofConfig o.readers o.site.files key o.config.index = .ok indexer →
      Step o { o with holder := some (.surveyed key isDependency indexer) }
  | prepares {key : String} {isDependency : Bool} {indexer : Indexer} {tracker : Tracker} :
      o.holder = some (.surveyed key isDependency indexer) →
      indexer.tracker o.site.backend = .ok tracker →
      Step o { o with holder := some (.prepared key isDependency indexer tracker) }
  /-- A request with hold of the table fails. -/
  | releases {key : String} {isDependency : Bool} {e : Error} :
      (o.holder = some (.admitted key isDependency) ∧
        Indexer.ofConfig o.readers o.site.files key o.config.index = .error e) ∨
      (∃ indexer, o.holder = some (.surveyed key isDependency indexer) ∧
        indexer.tracker o.site.backend = .error e) →
      Step o { o with holder := none }
  | enters {key : String} {isDependency : Bool} {indexer : Indexer} {tracker : Tracker} :
      o.holder = some (.prepared key isDependency indexer tracker) →
      Step o { o with
        errands := o.errands ++ [o.entry key isDependency indexer tracker]
        nextJob := o.nextJob + 1
        holder := none }
  | works {before after : List Errand} {e e' : Errand} {site : Site} :
      o.errands = before ++ e :: after → e.Works o.site e' site →
      Step o { o with errands := before ++ e' :: after, site }
  | tells {before after : List Errand} {e e' : Errand} :
      o.errands = before ++ e :: after → o.holder = none → e.Tells o.site.now e' →
      Step o { o with errands := before ++ e' :: after }
  | turns {site : Site} : o.site.Turns site → Step o { o with site }

/-- What steps lead to, one after the other. -/
def Leads : Office → Office → Prop := Relation.ReflTransGen Step

/-- The offices that can be come by: there was no job and no request to begin with. -/
def Reached (o : Office) : Prop :=
  ∃ readers config nextJob site, Leads ⟨readers, config, [], nextJob, [], none, site⟩ o

end Office

/-! ## One job among others -/

/-- What happens to a job, or around it. -/
inductive Errand.Goes : Errand × Site → Errand × Site → Prop
  | works {e e' : Errand} {site site' : Site} : e.Works site e' site' → Goes (e, site) (e', site')
  | tells {e e' : Errand} {site : Site} : e.Tells site.now e' → Goes (e, site) (e', site)
  | turns {e : Errand} {site site' : Site} : site.Turns site' → Goes (e, site) (e, site')

/-- What becomes of a job and what is around it. -/
def Errand.Leads : Errand × Site → Errand × Site → Prop := Relation.ReflTransGen Errand.Goes

/-- What happens to one job happens in the office, while no request has hold of the table. -/
theorem Errand.Leads.office {e e' : Errand} {site site' : Site} {o : Office}
    (hholder : o.holder = none) {before after : List Errand} (h : Leads (e, site) (e', site')) :
    Office.Leads { o with errands := before ++ e :: after, site }
      { o with errands := before ++ e' :: after, site := site' } := by
  refine Relation.ReflTransGen.lift
    (fun x : Errand × Site => { o with errands := before ++ x.1 :: after, site := x.2 })
    (fun x y hgoes => ?_) _ _ h
  cases hgoes with
  | works hworks => exact .works rfl hworks
  | tells htells => exact .tells rfl hholder htells
  | turns hturns => exact .turns hturns

end CodeAtlas
