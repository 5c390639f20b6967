import CodeAtlas.Service.Report
import CodeAtlas.Service.Request

/-!
# CodeAtlas.Service.Answer

Answers requests about a stored graph, and starts jobs that index source trees.

1. a tree is indexed by a job only if it is not registered and no job is at work on it;
   two paths that lead to the same directory are the same tree;
2. a single file is indexed again through the scheduler of a watched tree, if there is
   one;
3. every failure is an answer too.
-/

namespace CodeAtlas

/-- An answer: a result, or the message of a failure. -/
abbrev Response := Except String Json

structure Service where
  readers : Readers
  config : Config
  /-- Jobs in the order in which they were started. -/
  tasks : List Task
  /-- The number of the next job. -/
  nextJob : Nat

/-- What the service can reach: its jobs, the scheduler of a watched tree if there is
one, and what they work on. -/
structure ServiceState where
  service : Service
  scheduler : Option Scheduler
  site : Site

namespace Response

/-- An answer as a JSON value. -/
def report : Response → Json
  | .ok result => .object [("ok", .bool true), ("result", result)]
  | .error message => .object [("ok", .bool false), ("error", .text message)]

end Response

namespace Service

/-- A service without jobs, whose first job has a given number. -/
def new (readers : Readers) (config : Config) (firstJob : Nat) : Service :=
  ⟨readers, config, [], firstJob⟩

/-- The name of the store's kind. -/
def backendName : String := "sqlite"

/-- The id of a job, by its number. -/
def jobId (n : Nat) : String := "00000000-0000-4000-8000-" ++ Clock.padded 12 n

def jobs (s : Service) : List Job := s.tasks.map (·.job)

/-- The job that is at work on a tree. -/
def activeJob? (s : Service) (path : String) : Option Job :=
  s.jobs.find? fun j => j.path == path && j.state.isActive

def job? (s : Service) (id : String) : Option Job := s.jobs.find? (·.id == id)

/-- Whether one job is listed no later than another: by the time of its start, and by its
id. -/
def listedBy (a b : Job) : Bool :=
  a.startedAt < b.startedAt || (a.startedAt == b.startedAt && a.id ≤ b.id)

/-- Work that answers a request. -/
abbrev Answering := ExceptT Error (StateM ServiceState)

namespace Answering

/-- What the store holds. -/
def contents : Answering Store := do
  match (← get).site.backend.contents with
  | .ok s => return s
  | .error e => throw e

/-- The result of a step that may fail. -/
def result {α : Type} : Except Error α → Answering α
  | .ok a => return a
  | .error e => throw e

end Answering

open Answering

/-! ## Jobs -/

/-- Starts a job for a tree that is not registered. -/
def startJob (path : String) (isDependency : Bool) : Answering Json := do
  let s ← get
  match s.service.activeJob? path with
  | some j => return .object [
      ("job_id", .text j.id), ("path", .text path), ("status", .text "already_indexing")]
  | none =>
    let config := s.service.config
    let indexer ← result (Indexer.ofConfig s.service.readers s.site.files path config.index)
    let tracker ← result (indexer.tracker s.site.backend)
    let files := (indexer.walk s.site.files).length
    let id := jobId s.service.nextJob
    let task := Task.new id path isDependency (.start indexer tracker config.retry) files
      s.site.now
    set { s with service := { s.service with
      tasks := s.service.tasks ++ [task], nextJob := s.service.nextJob + 1 } }
    return .object [
      ("estimated_seconds", .nat task.job.estimatedSeconds),
      ("job_id", .text id),
      ("path", .text path),
      ("status", .text "started"),
      ("total_files", .nat files)]

/-- Indexes a directory in the background, unless that was done before. -/
def index (path : String) (isDependency : Bool) : Answering Json := do
  let s ← get
  if !s.site.files.isDirectory path then
    return .object [("path", .text path), ("status", .text "path_not_found")]
  match s.site.files.canonical? path with
  | .error e => throw (.io e.message)
  | .ok key =>
    let registered ← result s.site.backend.repositories
    if registered.any (·.path == key) then
      return .object [
        ("message",
          .text (key ++ " is already indexed; use reindex_path for individual files")),
        ("path", .text key),
        ("status", .text "already_indexed")]
    else startJob key isDependency

/-! ## The watched tree -/

/-- Indexes one file of the watched tree again. -/
def reindexPath (path : String) : Answering Json := do
  let s ← get
  match s.scheduler with
  | none => throw (.notFound "no live index; run the watcher or use the index intent")
  | some scheduler =>
    match scheduler.indexer.relativePath? path with
    | none => throw (.notFound (path ++ " is outside the watched root"))
    | some relative =>
      let (queued, scheduler) := scheduler.reindex relative
      set { s with scheduler := some scheduler }
      let queued ← result queued
      return .object [
        ("path", .text relative),
        ("status", .text (if queued then "queued" else "coalesced"))]

/-! ## Requests -/

/-- The state of the store, of the scheduler and of the jobs. -/
def status : Answering Json := do
  let s ← get
  let stored ← contents
  return .object [
    ("backend", .text backendName),
    ("connected", .bool s.site.backend.isOpen),
    ("jobs", .array ((s.service.jobs.mergeSort listedBy).map Report.job)),
    ("scheduler", match s.scheduler with
      | some scheduler => Report.scheduler scheduler.status
      | none => .null),
    ("stats", Report.stats stored.stats)]

def answer : Request → Answering Json
  | .definition target => do return Report.nodes ((← contents).definition target)
  | .callers target => do return Report.relations ((← contents).callers target)
  | .callees target => do return Report.relations ((← contents).callees target)
  | .imports module => do return Report.importGraph (← result ((← contents).imports module))
  | .contains target => do return Report.relations ((← contents).members target)
  | .search pattern limit => do
    return Report.nodes (← result ((← contents).search pattern limit))
  | .stats => do return Report.stats (← contents).stats
  | .index path isDependency => index path isDependency
  | .reindexPath path => reindexPath path
  | .jobStatus id => do
    match (← get).service.job? id with
    | some j => return Report.job j
    | none => throw (.notFound ("Job " ++ id))
  | .status => status
  | .listRepositories => do
    return .array ((← result (← get).site.backend.repositories).map Report.repository)

/-- The answer to a request. -/
def respond (r : Request) (s : ServiceState) : Response × ServiceState :=
  match (answer r).run.run s with
  | (.ok v, s) => (.ok v, s)
  | (.error e, s) => (.error e.message, s)

/-- The answer to a line that is no request. -/
def invalidRequest : Response := .error "Invalid request: the line is no known request"

/-- The answer to a line. -/
def respondLine (line : String) (s : ServiceState) : Response × ServiceState :=
  match Request.ofLine? line with
  | some r => respond r s
  | none => (invalidRequest, s)

/-! ## Background work -/

/-- Carries jobs on as far as they go, one after the other. -/
def runTasks (held : Bool) : List Task → Site → List Task × Site
  | [], site => ([], site)
  | t :: ts, site =>
    let (t, site) := t.run held site
    let (ts, site) := runTasks held ts site
    (t :: ts, site)

/-- Carries all jobs on as far as they go. -/
def run (s : Service) (held : Bool) (site : Site) : Service × Site :=
  let (tasks, site) := runTasks held s.tasks site
  ({ s with tasks }, site)

end Service

end CodeAtlas
