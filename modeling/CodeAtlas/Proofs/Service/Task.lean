import CodeAtlas.Proofs.Indexing.Reached
import CodeAtlas.Proofs.Service.Jobs

/-!
# CodeAtlas.Proofs.Service.Task

A job that is carried on by itself.

`Task.step?` does at once what the thread of a job and its worker do in several steps, while
nobody else does anything: a job begins with all its files queued, its worker indexes one file
after the other, and in the end its tree is registered.  Such a step is one course that the job
may take among others (`Task.step?_leads`), and so is a whole run (`Task.run_leads`).
-/

namespace CodeAtlas

open Indexing

/-! ## Files and store -/

/-- What may come about in the course of time. -/
def Site.Comes : Site → Site → Prop := Relation.ReflTransGen Site.Turns

/-- Whether such a store comes about. -/
def Site.Stores (site : Site) (s : Store) : Prop :=
  ∃ site', site.Comes site' ∧ site'.backend.store = s

namespace Site.Stores

variable {site site' : Site}

/-- Only the store matters. -/
theorem comes (h : site.Stores site'.backend.store) : site.Comes site' := by
  obtain ⟨s, hcomes, hstore⟩ := h
  exact hcomes.tail (.drifts hstore.symm)

theorem performs {b : Backend} (h : site.Stores b.store) (c : Call) :
    site.Stores (b.perform c).2.store := by
  obtain ⟨s, hcomes, hstore⟩ := h
  have hdrift : s.Turns { s with backend := b } := .drifts hstore.symm
  exact ⟨_, (hcomes.tail hdrift).tail (.calls c), rfl⟩

end Site.Stores

namespace Indexer

variable {site : Site} {t : IndexState}

/-- Whatever indexers do comes about through calls. -/
theorem indexFile_comes (i : Indexer) (relative : String) (h : site.Comes t.site) :
    site.Comes ((i.indexFile relative).run t).2.site :=
  Site.Stores.comes ((i.indexFile_keeps (fun _ c hb _ => hb.performs c) relative).run ⟨_, h, rfl⟩)

theorem complete_comes (i : Indexer) (c : FileChange) (h : site.Comes t.site) :
    site.Comes ((i.complete c).run t).2.site := by
  have hperforms : ∀ (b : Backend) (c : Call), site.Stores b.store →
      site.Stores (b.perform c).2.store := fun _ c hb => hb.performs c
  have hkeeps : Keeps site.Stores (i.complete c) :=
    .bind enoughDepth_leads fun depth => settle_leads
      (fun _ record nodes edges _ => Keeps.onStore fun b => hperforms b (.apply record nodes edges))
      (fun path => Keeps.onStore fun b => hperforms b (.delete path)) (fun _ _ hs => hs)
      (i.refreshEach_keeps (i.indexTo_keeps (fun b c hb _ => hperforms b c hb) depth))
      fun _ _ hs _ => hs
  exact Site.Stores.comes (hkeeps.run ⟨_, h, rfl⟩)

end Indexer

/-- To queue a file starts none. -/
theorem Queue.enqueue_inFlight (q : Queue) (path : String) :
    (q.enqueue path).2.inFlight = q.inFlight := by
  rw [enqueue]
  split
  · rfl
  · split
    · rfl
    · split <;> rfl

theorem Queue.enqueueAll_inFlight (q : Queue) (paths : List String) :
    (q.enqueueAll paths).2.inFlight = q.inFlight := by
  induction paths generalizing q with
  | nil => rfl
  | cons path paths ih =>
      have hone := q.enqueue_inFlight path
      have hrest := ih (q.enqueue path).2
      rw [enqueueAll]
      split
      · next h => rwa [h] at hone
      · next h =>
        rw [h] at hone hrest
        split
        · next h => rwa [h, hone] at hrest
        · next h => rwa [h, hone] at hrest

/-- Where a file cannot be queued, nothing is. -/
theorem Queue.enqueue_error {q q' : Queue} {path : String} {e : Error}
    (h : q.enqueue path = (.error e, q')) : q' = q := by
  rw [enqueue] at h
  split at h
  · cases h
  · split at h
    · cases h
    · split at h
      · cases h
      · cases h
        rfl

/-! ## One job -/

theorem Errand.Leads.comes {e : Errand} {site site' : Site} (h : site.Comes site') :
    Leads (e, site) (e, site') := by
  induction h with
  | refl => exact .refl
  | tail _ hturns ih => exact ih.tail (.turns hturns)

namespace Task

/-- A job between two steps of a service that does one thing at a time, where its thread found
such files. -/
def errand (t : Task) (found : List String) : Errand :=
  match t.job.state with
  | .pending => .new t
  | .running => ⟨t, .waiting, t.scheduler.crew.workers, [], found, 0⟩
  | .completed => ⟨t, .ended, t.scheduler.crew.workers, [], found, 0⟩
  | .failed => ⟨t, .ended, t.scheduler.crew.workers, [], found, 0⟩

theorem errand_task (t : Task) (found : List String) : (t.errand found).task = t := by
  rw [errand]
  split <;> rfl

/-- Where no worker is at work meanwhile, nothing is asked for again. -/
theorem errand_again (t : Task) (found : List String) : (t.errand found).again = 0 := by
  rw [errand]
  split <;> rfl

variable {t t' : Task} {site site' : Site} {stage : Stage} {found : List String} {held : Bool}

theorem errand_running (h : t.job.state = .running) :
    t.errand found = ⟨t, .waiting, t.scheduler.crew.workers, [], found, 0⟩ := by
  rw [errand, h]

/-- A job that has begun, with one worker and such a queue. -/
def underWay (t : Task) (stage : Stage) (queue : Queue) (found : List String) : Errand where
  task := { t with
    scheduler := { t.scheduler with queue }
    job := { t.job with state := .running } }
  stage
  workers := [.free]
  counted := []
  found
  again := 0

/-- A file is asked for while none is being indexed. -/
theorem underWay_asking {stage stage' : Stage} {queue queue' : Queue}
    (hflight : queue.inFlight = []) (path : String) :
    ((t.underWay stage queue found).asking path queue').moveTo stage' =
      t.underWay stage' queue' found := by
  have hnot : path ∉ (t.underWay stage queue found).queue.inFlight := by
    change path ∉ queue.inFlight
    simp [hflight]
  rw [Errand.asking, if_neg hnot]
  rfl

/-- A worker that has come to the end of a file tells so, and is free. -/
theorem finish_leads {s : Scheduler} {relative : String}
    {first : Except Error FileOutcome × IndexState} (hfirst : site.Comes first.2.site) :
    Errand.Leads (⟨{ t with scheduler := s }, stage, [.works relative], [], found, 0⟩, site)
      (⟨{ t with scheduler := (s.finish relative first).1 }, stage, [.free], [], found, 0⟩,
        (s.finish relative first).2) := by
  -- No attempt touches the store but by calls, nor does the note of a failure.
  have htrial : site.Comes (s.trial relative first).state.site :=
    (Scheduler.trial_ends (I := fun u => site.Comes u.site) (Q := fun u => site.Comes u.site)
      (fun u hu => ⟨s.indexer.indexFile_comes relative hu,
        fun _ _ => s.indexer.indexFile_comes relative hu⟩)
      (fun _ _ _ hu => hu) (fun _ _ hu => hu) ⟨hfirst, fun _ _ => hfirst⟩).1
  have hlearns := @Errand.Works.learns (s.trial relative first).state.site
    ⟨{ t with scheduler := s }, stage, [.works relative], [], found, 0⟩
    (s.trial relative first).state.tracker none
  refine ((Errand.Leads.comes htrial).tail (.works hlearns)).trans ?_
  refine .head (.works (.counts (List.mem_singleton.2 rfl) List.not_mem_nil)) ?_
  have hfinishes := @Errand.Works.finishes (s.trial relative first).state.site
    ⟨{ t with scheduler := { s with
        tracker := (s.trial relative first).state.tracker, stalled := none,
        processed := s.processed + 1 } }, stage, [.works relative], [relative], found, 0⟩
    [] [] relative rfl List.mem_cons_self
  rw [List.erase_cons_head] at hfinishes
  exact .single (.works hfinishes)

/-- A step of the worker is one of steps. -/
theorem stepped_leads {next : Scheduler × Site} (h : t.scheduler.Stepped site next) :
    Errand.Leads (⟨t, stage, t.scheduler.crew.workers, [], found, 0⟩, site)
      (⟨{ t with scheduler := next.1 }, stage, next.1.crew.workers, [], found, 0⟩, next.2) := by
  have hstarts : ∀ {relative rest}, t.scheduler.stalled = none →
      t.scheduler.queue.messages = relative :: rest →
      Errand.Leads (⟨t, stage, t.scheduler.crew.workers, [], found, 0⟩, site)
        (⟨{ t with scheduler := t.scheduler.takes relative rest }, stage, [.works relative], [],
          found, 0⟩, site) := by
    intro relative rest hstalled hmessages
    rw [Scheduler.crew_free hstalled]
    refine .head (.works (@Errand.Works.takes _ _ [] [] _ _ rfl (Queue.take?_cons hmessages))) ?_
    exact .single (.works (@Errand.Works.starts _ _ [] [] _ rfl))
  cases h with
  | @resumed relative c hstalled =>
      have hcrew : t.scheduler.crew.workers = [.works relative] := by
        simp [Scheduler.crew, hstalled]
      rw [hcrew]
      exact finish_leads (t.scheduler.indexer.complete_comes c .refl)
  | @waits relative rest c u hstalled hmessages hdecide =>
      have huntouched := (t.scheduler.indexer.decide_decided relative ⟨site, t.scheduler.tracker⟩)
        _ (.refl _)
      rw [hdecide] at huntouched
      rw [huntouched.1.1]
      exact (hstarts hstalled hmessages).tail (.works .learns)
  | indexed hstalled hmessages =>
      exact (hstarts hstalled hmessages).trans
        (finish_leads (t.scheduler.indexer.indexFile_comes _ .refl))

/-- A thread that cannot queue its files tells so. -/
theorem underWay_breaks {error : Error} {queue : Queue} (hcalm : t.scheduler.stalled = none) :
    Errand.Leads (t.underWay (.closing (.error error)) queue found, site)
      ((conclude { t with scheduler := { t.scheduler with queue } } .failed
        (t.job.errors ++ [error.message]) site.now).errand found, site) := by
  refine .head (.works (.closes rfl)) (.head (.tells (.fails rfl)) ?_)
  have hworkers : (conclude { t with scheduler := { t.scheduler with queue } } .failed
      (t.job.errors ++ [error.message]) site.now).scheduler.crew.workers = [.free] := by
    simp [Scheduler.crew, conclude, Scheduler.shutDown, hcalm]
  rw [errand, hworkers]
  exact .refl

/-- To queue files together is to queue one after the other, unless one of them cannot be
queued. -/
theorem underWay_queues {stage : List String → Nat → Stage}
    (hnext : ∀ {e : Errand} {path left n b queue}, e.stage = stage (path :: left) n →
      e.queue.enqueue path = (.ok b, queue) →
      e.Works site ((e.asking path queue).moveTo (stage left (n + b.toNat))) site)
    (hbreak : ∀ left n, (stage left n).mayBreak = true) (paths : List String) (n : Nat)
    (queue : Queue) (hflight : queue.inFlight = []) :
    Errand.Leads (t.underWay (stage paths n) queue found, site)
      (match queue.enqueueAll paths with
        | (.ok m, queue) => t.underWay (stage [] (n + m)) queue found
        | (.error error, queue) => t.underWay (.closing (.error error)) queue found, site) := by
  -- On the files, for any queue and any number of files before them.
  induction paths generalizing queue n with
  | nil => exact .refl
  | cons path paths ih =>
      rw [Queue.enqueueAll]
      cases hqueue : queue.enqueue path with
      | mk result mid =>
        have hmid : mid.inFlight = [] := by
          rw [← hflight, ← queue.enqueue_inFlight path, hqueue]
        cases result with
        | error error =>
            rw [Queue.enqueue_error hqueue]
            exact .single (.works (.breaks (hbreak _ _)))
        | ok b =>
            have hone := Errand.Goes.works
              (hnext (e := t.underWay (stage (path :: paths) n) queue found) rfl hqueue)
            rw [underWay_asking hflight] at hone
            have hrest := ih (n + b.toNat) mid hmid
            cases hall : mid.enqueueAll paths with
            | mk result last =>
              rw [hall] at hrest
              cases result with
              | error error => simpa only [hall] using .head hone hrest
              | ok m =>
                  have hsum : n + (m + b.toNat) = n + b.toNat + m := by omega
                  simp only [hall, hsum]
                  exact .head hone hrest

/-- A thread queues its files before it waits for them. -/
theorem begin_leads (hstate : t.job.state = .pending) (hcalm : t.scheduler.stalled = none)
    (hflight : t.scheduler.queue.inFlight = []) (found : List String) :
    ∃ found', Errand.Leads (t.errand found, site) ((t.begin site).errand found', site) := by
  have hnew : t.errand found = .new t := by rw [errand, hstate]
  refine ⟨t.scheduler.indexer.walk site.files, ?_⟩
  rw [hnew]
  -- First the files of the tree, then those that are gone; either may break off.
  refine .head (.tells (.begins 1 rfl)) (.head (.works (.walks rfl)) ?_)
  have hfound := @underWay_queues t site (t.scheduler.indexer.walk site.files) .listing
    .lists (fun _ _ => rfl) (t.scheduler.indexer.walk site.files) 0 t.scheduler.queue hflight
  rw [begin, Scheduler.reconcile]
  cases hall : t.scheduler.queue.enqueueAll (t.scheduler.indexer.walk site.files) with
  | mk result queue =>
    rw [hall] at hfound
    cases result with
    | error error =>
        simp only []
        exact hfound.trans (underWay_breaks hcalm)
    | ok n =>
        refine hfound.trans (.head (.works (.compares rfl)) ?_)
        have hqueue : queue.inFlight = [] := by
          rw [← hflight, ← t.scheduler.queue.enqueueAll_inFlight, hall]
        have hgone := @underWay_queues t site (t.scheduler.indexer.walk site.files) .dropping
          .drops (fun _ _ => rfl) (t.scheduler.tracker.knownPaths.filter fun p =>
            !(t.scheduler.indexer.walk site.files).contains p) (0 + n) queue hqueue
        simp only []
        cases hrest : queue.enqueueAll (t.scheduler.tracker.knownPaths.filter fun p =>
            !(t.scheduler.indexer.walk site.files).contains p) with
        | mk result last =>
          rw [hrest] at hgone
          cases result with
          | error error =>
              simp only []
              exact hgone.trans (underWay_breaks hcalm)
          | ok m =>
              simp only []
              refine hgone.trans (.head (.works (.sums rfl)) (.head (.tells (.totals rfl)) ?_))
              have hcrew : Scheduler.crew { t.scheduler with queue := last } = ⟨last, [.free]⟩ :=
                Scheduler.crew_free hcalm
              rw [errand_running rfl, hcrew, Nat.zero_add]
              exact .refl

/-- A thread registers its tree before it tells that the job is completed. -/
theorem end_leads (hstate : t.job.state = .running) (hidle : t.scheduler.queue.isIdle = true) :
    Errand.Leads (t.errand found, site) ((t.finish site).1.errand found, (t.finish site).2) := by
  rw [errand_running hstate]
  refine .head (.works (.settles rfl hidle)) (.head (.works (.notes rfl)) ?_)
  refine .head (.tells (.leaves rfl)) ?_
  cases hregister : site.backend.register
      ⟨t.job.path, repositoryName t.job.path, t.isDependency, site.now⟩ with
  | mk result backend =>
    have hregisters := @Errand.Works.registers site
      ⟨t.report, .registering t.failures, t.scheduler.crew.workers, [], found, 0⟩ t.failures result
      backend rfl hregister
    refine .head (.works hregisters) (.head (.works (.closes rfl)) ?_)
    have hregister' : site.backend.register ⟨t.report.job.path, repositoryName t.report.job.path,
      t.report.isDependency, site.now⟩ = (result, backend) := hregister
    rw [finish]
    simp only [hregister']
    cases result with
    | ok _ => exact .single (.tells (.completes rfl))
    | error e => exact .single (.tells (.fails rfl))

/-- Whether nothing is being indexed before a job begins. -/
def Calm (t : Task) : Prop :=
  t.job.state = .pending → t.scheduler.stalled = none ∧ t.scheduler.queue.inFlight = []

/-- A step of a job is a sequence of steps of its thread and its worker. -/
theorem step?_leads (hcalm : t.Calm) (h : t.step? held site = some (t', site'))
    (found : List String) :
    ∃ found', Errand.Leads (t.errand found, site) (t'.errand found', site') := by
  rw [step?] at h
  split at h
  · next hstate =>
    cases h
    obtain ⟨hstalled, hflight⟩ := hcalm hstate
    exact begin_leads hstate hstalled hflight found
  · next hstate =>
    split at h
    · next scheduler site'' hstep =>
      cases h
      have hstepped := Scheduler.step?_stepped hstep
      refine ⟨found, ?_⟩
      rw [errand_running hstate, errand_running (t := { t with scheduler }) hstate]
      exact stepped_leads hstepped
    · split at h
      · next hidle =>
        have hend : Errand.Leads (t.errand found, site)
            ((t.finish site).1.errand found, (t.finish site).2) := end_leads hstate hidle
        rw [Option.some.inj h] at hend
        exact ⟨found, hend⟩
      · cases h
  · cases h
  · cases h

/-- A job that has done a step has begun. -/
theorem Calm.step? (h : t.step? held site = some (t', site')) : t'.Calm := by
  suffices hbegun : t'.job.state ≠ .pending from fun hpending => absurd hpending hbegun
  rw [Task.step?] at h
  split at h
  · obtain ⟨rfl, -⟩ := Prod.mk.inj (Option.some.inj h)
    rw [begin]
    split <;> exact nofun
  · next hstate =>
    split at h
    · obtain ⟨rfl, -⟩ := Prod.mk.inj (Option.some.inj h)
      simp [hstate]
    · split at h
      · obtain rfl : (t.finish site).1 = t' := congrArg Prod.fst (Option.some.inj h)
        rw [finish]
        split <;> exact nofun
      · cases h
  · cases h
  · cases h

/-- To go on for so many steps is one course of a job too. -/
theorem steps_leads (held : Bool) (site : Site) (hcalm : t.Calm) (n : Nat) (found : List String) :
    (steps held n (t, site)).1.Calm ∧ ∃ found', Errand.Leads (t.errand found, site)
      ((steps held n (t, site)).1.errand found', (steps held n (t, site)).2) := by
  induction n generalizing t site found with
  | zero => exact ⟨hcalm, found, .refl⟩
  | succ n ih =>
      rw [steps]
      cases hstep : t.step? held site with
      | none => exact ⟨hcalm, found, .refl⟩
      | some next =>
          obtain ⟨t', site'⟩ := next
          obtain ⟨mid, hfirst⟩ := step?_leads hcalm hstep found
          obtain ⟨hnext, last, hleads⟩ := ih site' (Calm.step? hstep) mid
          exact ⟨hnext, last, hfirst.trans hleads⟩

theorem run_leads (held : Bool) (site : Site) (hcalm : t.Calm) (found : List String) :
    (t.run held site).1.Calm ∧ ∃ found', Errand.Leads (t.errand found, site)
      ((t.run held site).1.errand found', (t.run held site).2) := by
  obtain ⟨hone, mid, hfirst⟩ := steps_leads held site hcalm 1 found
  obtain ⟨hend, last, hrest⟩ := steps_leads held (steps held 1 (t, site)).2 hone
    ((steps held 1 (t, site)).1.scheduler.queue.messages.length +
      (steps held 1 (t, site)).1.scheduler.queue.rerun.length + 2) mid
  exact ⟨hend, last, hfirst.trans hrest⟩

end Task

end CodeAtlas
