import CodeAtlas.Proofs.Service.Answer
import CodeAtlas.Proofs.Service.Task

/-!
# CodeAtlas.Proofs.Service.Alone

A service that does one thing at a time.

`Service.respond` answers one request, and `Service.run` carries the jobs on, one after the other
and each with one worker.  That is one of the ways in which an office may go on
(`Service.respond_leads`, `Service.run_leads`), so what holds in every office holds of every
service that is used like this (`ServiceState.Served.jobs_sound`).
-/

namespace CodeAtlas

/-! ## All jobs -/

/-- The office of a service that does one thing at a time; each job comes with the files that its
thread has found. -/
def ServiceState.office (s : ServiceState) (jobs : List (Task × List String)) : Office where
  readers := s.service.readers
  config := s.service.config
  errands := jobs.map fun j => j.1.errand j.2
  nextJob := s.service.nextJob
  requests := []
  holder := none
  site := s.site

theorem ServiceState.office_service {s : ServiceState} {jobs : List (Task × List String)}
    (hjobs : jobs.map Prod.fst = s.service.tasks) : (s.office jobs).service = s.service := by
  have htasks : (jobs.map fun j => j.1.errand j.2).map (·.task) = s.service.tasks := by
    rw [← hjobs, List.map_map]
    exact List.map_congr_left fun j _ => j.1.errand_task j.2
  rw [Office.service, office, htasks]

/-- Whether an office is that of a service, where nothing is being indexed for a job that has not
begun. -/
def ServiceState.Shows (s : ServiceState) (o : Office) : Prop :=
  (∀ t ∈ s.service.tasks, t.Calm) ∧
    ∃ jobs : List (Task × List String), jobs.map Prod.fst = s.service.tasks ∧ o = s.office jobs

namespace Service

/-- To carry jobs on one after the other is one course of the office. -/
theorem runTasks_leads {o : Office} (hholder : o.holder = none) (held : Bool)
    (before : List Errand) (jobs : List (Task × List String)) (site : Site)
    (hcalm : ∀ t ∈ jobs.map Prod.fst, t.Calm) :
    (∀ t ∈ (runTasks held (jobs.map Prod.fst) site).1, t.Calm) ∧
      ∃ jobs' : List (Task × List String),
        jobs'.map Prod.fst = (runTasks held (jobs.map Prod.fst) site).1 ∧
        Office.Leads { o with errands := before ++ jobs.map fun j => j.1.errand j.2, site }
          { o with
            errands := before ++ jobs'.map fun j => j.1.errand j.2
            site := (runTasks held (jobs.map Prod.fst) site).2 } := by
  -- On the jobs that are still to be carried on; those before them stay as they are.
  induction jobs generalizing before site with
  | nil => exact ⟨hcalm, [], rfl, .refl⟩
  | cons j jobs ih =>
      obtain ⟨t, found⟩ := j
      obtain ⟨hone, found', hfirst⟩ := t.run_leads held site (hcalm t List.mem_cons_self) found
      obtain ⟨hall, jobs', hjobs, hrest⟩ := ih (before ++ [(t.run held site).1.errand found'])
        (t.run held site).2 fun u hu => hcalm u (List.mem_cons_of_mem _ hu)
      rw [List.map_cons, runTasks]
      refine ⟨List.forall_mem_cons.2 ⟨hone, hall⟩, ((t.run held site).1, found') :: jobs', ?_, ?_⟩
      · exact congrArg (List.cons _) hjobs
      · simp only [List.append_assoc, List.singleton_append] at hrest
        exact (Errand.Leads.office (o := o) hholder hfirst).trans hrest

/-- To carry all jobs on is one course of the office of a service. -/
theorem run_leads {s : ServiceState} {o : Office} (h : s.Shows o) (held : Bool) :
    ∃ o', ServiceState.Shows { s with
      service := (s.service.run held s.site).1, site := (s.service.run held s.site).2 } o' ∧
      o.Leads o' := by
  obtain ⟨hcalm, jobs, hjobs, rfl⟩ := h
  rw [← hjobs] at hcalm
  obtain ⟨hall, jobs', hjobs', hleads⟩ :=
    runTasks_leads (o := s.office jobs) rfl held [] jobs s.site hcalm
  rw [hjobs] at hall hjobs' hleads
  exact ⟨_, ⟨hall, jobs', hjobs', rfl⟩, hleads⟩

/-- A request to index is one of an office. -/
theorem index_leads {s : ServiceState} {o : Office} (h : s.Shows o) (path : String)
    (isDependency : Bool) :
    ∃ o', ((index path isDependency).run.run s).2.Shows o' ∧ o.Leads o' := by
  rcases index_state path isDependency s with hsame | ⟨key, rs, hdirectory, hkey, hrs, hany, hstart⟩
  · rw [hsame]
    exact ⟨o, h, .refl⟩
  rw [hstart]
  rcases startJob_state key isDependency s with hsame |
    ⟨indexer, tracker, hactive, hindexer, htracker, hstate⟩
  · rw [hsame]
    exact ⟨o, h, .refl⟩
  rw [hstate]
  obtain ⟨hcalm, jobs, hjobs, rfl⟩ := h
  let task : Task := .new (jobId s.service.nextJob) key isDependency
    (.start indexer tracker s.service.config.retry) (indexer.walk s.site.files).length s.site.now
  refine ⟨{ s.office jobs with
    errands := (s.office jobs).errands ++ [(s.office jobs).entry key isDependency indexer tracker]
    nextJob := (s.office jobs).nextJob + 1 }, ⟨fun t ht => ?_, jobs ++ [(task, [])], ?_, ?_⟩, ?_⟩
  · rcases List.mem_append.1 ht with ht | ht
    · exact hcalm t ht
    · rw [List.mem_singleton.1 ht]
      exact fun _ => ⟨rfl, rfl⟩
  · rw [List.map_append, hjobs]
    rfl
  · simp only [ServiceState.office, List.map_append]
    rfl
  · have hnone : (s.office jobs).service.activeJob? key = none := by
      rwa [ServiceState.office_service hjobs]
    refine .head (.asks path isDependency) ?_
    refine .head (@Office.Step.looks _ [] [] _ _ rfl (.directory hdirectory)) ?_
    refine .head (@Office.Step.looks _ [] [] _ _ rfl (.located hkey)) ?_
    refine .head (@Office.Step.looks _ [] [] _ _ rfl (.unregistered hrs hany)) ?_
    refine .head (@Office.Step.admits _ [] [] _ _ rfl rfl hnone) ?_
    refine .head (.surveys rfl hindexer) (.head (.prepares rfl htracker) ?_)
    exact .single (.enters rfl)

/-- An answer to a request is one that an office gives. -/
theorem respond_leads {s : ServiceState} {o : Office} (h : s.Shows o) (r : Request) :
    ∃ o', (respond r s).2.Shows o' ∧ o.Leads o' := by
  have hstate : (respond r s).2 = ((answer r).run.run s).2 := by
    rw [respond]
    split
    · next h => rw [h]
    · next h => rw [h]
  rw [hstate]
  by_cases hindex : ∃ path isDependency, r = .index path isDependency
  · obtain ⟨path, isDependency, rfl⟩ := hindex
    exact index_leads h path isDependency
  · obtain ⟨scheduler, hkeeps⟩ := answer_keeps (fun path isDependency h =>
      hindex ⟨path, isDependency, h⟩) s
    rw [hkeeps]
    exact ⟨o, h, .refl⟩

end Service

/-! ## A service in use -/

/-- The states of a service that answers requests and carries its jobs on, while other things
happen to its surroundings. -/
inductive ServiceState.Served : ServiceState → Prop
  | starts (readers : Readers) (config : Config) (firstJob : Nat) (scheduler : Option Scheduler)
      (site : Site) : Served ⟨.new readers config firstJob, scheduler, site⟩
  | responds {s : ServiceState} (r : Request) : Served s → Served (Service.respond r s).2
  | runs {s : ServiceState} (held : Bool) : Served s → Served { s with
      service := (s.service.run held s.site).1, site := (s.service.run held s.site).2 }
  | turns {s : ServiceState} {site : Site} : Served s → s.site.Turns site → Served { s with site }

namespace ServiceState.Served

variable {s : ServiceState}

/-- Such a service is come by in an office. -/
theorem reached (h : s.Served) : ∃ o, s.Shows o ∧ o.Reached := by
  induction h with
  | starts readers config firstJob scheduler site =>
      exact ⟨_, ⟨fun _ ht => absurd ht List.not_mem_nil, [], rfl, rfl⟩,
        readers, config, firstJob, site, .refl⟩
  | responds r _ ih =>
      obtain ⟨o, hshows, readers, config, nextJob, site, hreached⟩ := ih
      obtain ⟨o', hshows', hleads⟩ := Service.respond_leads hshows r
      exact ⟨o', hshows', readers, config, nextJob, site, hreached.trans hleads⟩
  | runs held _ ih =>
      obtain ⟨o, hshows, readers, config, nextJob, site, hreached⟩ := ih
      obtain ⟨o', hshows', hleads⟩ := Service.run_leads hshows held
      exact ⟨o', hshows', readers, config, nextJob, site, hreached.trans hleads⟩
  | turns _ hturns ih =>
      obtain ⟨o, ⟨hcalm, jobs, hjobs, rfl⟩, readers, config, nextJob, site, hreached⟩ := ih
      exact ⟨_, ⟨hcalm, jobs, hjobs, rfl⟩, readers, config, nextJob, site,
        hreached.tail (.turns hturns)⟩

/-- No two jobs of a service are at work on one tree, and all keep to what is told of them: as no
worker is at work while a thread queues its files, no more of them are processed than there are in
all. -/
theorem jobs_sound (h : s.Served) : (s.service.jobs.Pairwise fun a b => ¬ a.Collides b) ∧
    ∀ j ∈ s.service.jobs, j.processedFiles ≤ j.totalFiles ∧
      (j.state = .completed → s.site.backend.store.Registers j.path) := by
  obtain ⟨o, ⟨-, jobs, hjobs, rfl⟩, hreached⟩ := h.reached
  have hsound := hreached.sound
  have hall : s.service.jobs = (s.office jobs).errands.map (·.job) := by
    rw [Service.jobs, ← hjobs, ServiceState.office, List.map_map, List.map_map]
    exact List.map_congr_left fun j _ => congrArg Task.job (j.1.errand_task j.2).symm
  rw [hall, List.pairwise_map, List.forall_mem_map]
  refine ⟨hsound.apart, fun e he => ?_⟩
  have hjob := hsound.errands e he
  obtain ⟨j, -, rfl⟩ := List.mem_map.1 he
  have hbounded := hjob.bounded
  rw [j.1.errand_again] at hbounded
  exact ⟨hbounded, fun hcompleted => hjob.registered (.inr hcompleted)⟩

end ServiceState.Served

end CodeAtlas
