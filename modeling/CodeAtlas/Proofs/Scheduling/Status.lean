import CodeAtlas.Proofs.Indexing.Again
import CodeAtlas.Proofs.Indexing.Once
import CodeAtlas.Proofs.Scheduling.Worker

/-!
# CodeAtlas.Proofs.Scheduling.Status

When a file that was processed is still listed as pending or failed.

A file is listed while the tracker knows that it is not in order.  The last attempt at it clears
that, as it indexes the file, finds it unchanged or retracts it; only a file that is skipped and
has no record keeps the state that it had before, be it from an earlier attempt or from earlier
work (`Scheduler.listed_iff_skipped`).  Between two steps of the worker no file is being worked
on but the one that waits for the store (`Scheduler.Driven.tidy`).
-/

namespace CodeAtlas

open Indexing Upsert

/-! ## Trials -/

/-- A trial ends with its first attempt, or with one that follows on a failure that was noted,
or with the note of the last failure. -/
theorem Retry.after_cases {α σ : Type} {A : σ → Prop} {again : σ → Except Error α × σ}
    {note : Error → Bool → σ → σ} (r : Retry) (stopping : Bool)
    (hagain : ∀ s e e', A s → (again (note e false s)).1 = .error e' →
      A (again (note e false s)).2)
    (left number : Nat) {first : Except Error α × σ}
    (hfirst : ∀ e, first.1 = .error e → A first.2) :
    let t := r.after stopping again note left number first
    (t.waits = [] ∧ (∃ a, t.result = .ok a) ∧ first = (t.result, t.state)) ∨
      (t.waits ≠ [] ∧ (∃ a, t.result = .ok a) ∧
        ∃ s e, A s ∧ again (note e false s) = (t.result, t.state)) ∨
      ∃ s e, A s ∧ t.result = .error e ∧ t.state = note e true s := by
  induction left generalizing number first with
  | zero =>
      obtain ⟨result, s⟩ := first
      cases result with
      | ok a => exact .inl ⟨rfl, ⟨a, rfl⟩, rfl⟩
      | error e => exact .inr (.inr ⟨s, e, hfirst e rfl, rfl, rfl⟩)
  | succ left ih =>
      obtain ⟨result, s⟩ := first
      cases result with
      | ok a => exact .inl ⟨rfl, ⟨a, rfl⟩, rfl⟩
      | error e =>
          rw [after]
          split
          · have hs : A s := hfirst e rfl
            rcases ih (number + 1) (fun e' => hagain s e e' hs) with
              ⟨-, hok, hsecond⟩ | ⟨-, hok, hlater⟩ | hgivenUp
            · exact .inr (.inl ⟨List.cons_ne_nil _ _, hok, s, e, hs, hsecond⟩)
            · exact .inr (.inl ⟨List.cons_ne_nil _ _, hok, hlater⟩)
            · exact .inr (.inr hgivenUp)
          · exact .inr (.inr ⟨s, e, hfirst e rfl, rfl, rfl⟩)

/-! ## What is being worked on -/

/-- Whether no file is being worked on. -/
def Tracker.Resting (t : Tracker) : Prop := ∀ p, t.state p ≠ .indexing

/-- Whether no file is being worked on but the one that a task is about, which is to be
replaced then. -/
def IndexTask.Rests (t : Tracker) : IndexTask → Prop
  | index _ => t.Resting
  | complete c => ∀ p, t.state p = .indexing → p = c.relative ∧ c.Replaces
  | refresh _ _ => t.Resting

namespace Tracker

variable {t : Tracker} {path : String}

theorem Resting.invalidate (h : t.Resting) (path : String) : (t.invalidate path).Resting := by
  intro p
  rw [invalidate_state]
  split
  · simp
  · exact h p

/-- When a failure is noted, its file is not being worked on any more. -/
theorem resting_failed (h : ∀ p, t.state p = .indexing → p = path) (error : String)
    (exhausted : Bool) : (t.failed path error exhausted).Resting := by
  intro p
  rw [failed_state]
  split
  · split <;> simp
  · next hp => exact fun hindexing => hp (h p hindexing).symm

theorem ofRecords_resting (records : List FileRecord) : (ofRecords records).Resting := by
  intro p h
  rw [state, Option.getD_eq_iff] at h
  obtain h | ⟨-, h⟩ := h
  · obtain ⟨⟨q, s⟩, hget, rfl⟩ := Option.map_eq_some_iff.1 h
    rcases Rows.get?_putAll hget with hmem | hnone
    · obtain ⟨r, -, heq⟩ := List.mem_map.1 hmem
      cases heq
    · cases hnone
  · cases h

end Tracker

theorem FileChange.noted_resting {i : Indexer} {c : FileChange} {done : Commit} {b b' : Backend}
    (h : i.CarriedOut c done b b') {t : Tracker}
    (ht : ∀ p, t.state p = .indexing → p = c.relative ∧ c.Replaces) : (c.noted done t).Resting := by
  intro p hindexing
  by_cases hp : c.relative = p
  · subst hp
    by_cases hopen : ((c.noted done t).state c.relative).IsOpen
    · obtain ⟨⟨reason, hskipped⟩, -, -⟩ := (FileChange.noted_open_iff h t).1 hopen
      cases c with
      | skip relative reason =>
          rw [noted] at hindexing
          split at hindexing
          · rw [show FileChange.relative (.skip relative reason) = relative from rfl,
              Tracker.deleted_state_self] at hindexing
            cases hindexing
          · exact (ht _ hindexing).2
      | _ => cases hskipped
    · exact hopen (.inr (.inl hindexing))
  · rw [FileChange.noted_state hp] at hindexing
    exact hp (ht p hindexing).1.symm

namespace Indexer

variable {i : Indexer}

theorem Ruled.rests {relative : String} {s : IndexState} {result : Except Error Decision}
    {tracker : Tracker} (h : i.Ruled relative s result tracker) (hs : s.tracker.Resting) :
    (∀ p, tracker.state p = .indexing → p = relative) ∧
      (∀ outcome, result = .ok (.done outcome) → tracker.Resting) ∧
      ∀ c, result = .ok (.change c) → IndexTask.Rests tracker (.complete c) := by
  have hother : ∀ p, tracker.state p = .indexing → p = relative := by
    intro p hindexing
    by_cases hp : relative = p
    · exact hp.symm
    · rw [h.state_other hp] at hindexing
      exact absurd hindexing (hs p)
  refine ⟨hother, ?_, ?_⟩
  · rintro outcome rfl p hindexing
    obtain rfl := hother p hindexing
    cases h with
    | unchanged _ hneeded =>
      exact s.tracker.observe_closed _ _ hneeded (hs _) (.inr (.inl hindexing))
  · rintro c rfl p hindexing
    obtain ⟨-, hrelative⟩ := h.fits
    refine ⟨(hother p hindexing).trans hrelative.symm, ?_⟩
    cases h with
    | replace => trivial
    | _ => exact absurd hindexing (hs p)

/-- Whatever is done, nothing is being worked on in the end but the file of a task that
failed. -/
theorem Course.rests {task : IndexTask} {s : IndexState}
    {ending : Except Error FileOutcome × IndexState} {events : List Event}
    (h : i.Course task s ending events) (hfits : task.Fits i) (hs : task.Rests s.tracker) :
    (∀ p, ending.2.tracker.state p = .indexing → task.relative? = some p) ∧
      ∀ outcome, ending.1 = .ok outcome → ending.2.tracker.Resting := by
  induction h with
  | settled hd =>
      obtain ⟨tracker, rfl, hruled⟩ := ruled_of_decide hd
      have hrest := (hruled.rests hs).2.1 _ rfl
      exact ⟨fun p hp => absurd hp (hrest p), fun _ _ => hrest⟩
  | undecided hd =>
      obtain ⟨tracker, rfl, hruled⟩ := ruled_of_decide hd
      exact ⟨fun p hp => congrArg some ((hruled.rests hs).1 p hp).symm, nofun⟩
  | decided hd _ ih =>
      obtain ⟨tracker, rfl, hruled⟩ := ruled_of_decide hd
      obtain ⟨hc, rfl⟩ := hruled.fits
      exact ih hc ((hruled.rests hs).2.2 _ rfl)
  | refused => exact ⟨fun p hp => congrArg some (hs p hp).1.symm, nofun⟩
  | stored hc _ ih =>
      obtain ⟨hother, hrest⟩ := ih trivial (FileChange.noted_resting (carryOut_ok hfits hc) hs)
      exact ⟨fun p hp => absurd (hother p hp) nofun, hrest⟩
  | refreshed => exact ⟨fun p hp => absurd hp (hs p), fun _ _ => hs⟩
  | elsewhere _ _ ih => exact ih trivial hs
  | @heir _ q _ _ s t result _ _ _ _ _ _ ih ihrest =>
      obtain ⟨hother, hrest⟩ := ih trivial (hs.invalidate q)
      refine ihrest trivial ?_
      cases result with
      | ok outcome => exact hrest outcome rfl
      | error e =>
          exact Tracker.resting_failed (fun p hp => (Option.some.inj (hother p hp)).symm) _ _

end Indexer

/-! ## Schedulers -/

namespace Scheduler

variable {s : Scheduler} {site : Site} {relative : String}

/-- The schedulers that callers and the worker lead to, while files, times and whatever is
stored change in any way. -/
inductive Driven : Scheduler → Prop
  | start (i : Indexer) (records : List FileRecord) (retry : Retry) :
      Driven (.start i (i.trackerOf records) retry)
  | invalidate {s : Scheduler} (relative : String) : Driven s →
      Driven { s with tracker := s.tracker.invalidate relative }
  | enqueue {s : Scheduler} (relative : String) : Driven s → Driven (s.enqueue relative).2
  | enqueuePath {s : Scheduler} (path : String) : Driven s → Driven (s.enqueuePath path).2
  | reindex {s : Scheduler} (relative : String) : Driven s → Driven (s.reindex relative).2
  | reconcile {s : Scheduler} (files : FileTree) : Driven s → Driven (s.reconcile files).2
  | shutDown {s : Scheduler} : Driven s → Driven s.shutDown
  | step {s s' : Scheduler} {site site' : Site} (held : Bool) : Driven s →
      s.step? held site = some (s', site') → Driven s'

/-- No file is being worked on but the one that waits for the store, and that is to be done as
it was decided. -/
structure Tidy (s : Scheduler) : Prop where
  resting : ∀ p, s.tracker.state p = .indexing → ∃ c, s.stalled = some (p, c) ∧ c.Replaces
  stalled : ∀ p c, s.stalled = some (p, c) → c.relative = p ∧ c.Fits s.indexer ∧ s.indexer.Own c

/-- How the worker tries a file: it goes on with the one that waited for the store, or takes
the next one.  Further attempts may follow on the first. -/
inductive Tries (s : Scheduler) (site : Site) (relative : String) :
    Scheduler → Except Error FileOutcome × IndexState → Prop
  | resumed {c : FileChange} : s.stalled = some (relative, c) →
      Tries s site relative s ((s.indexer.complete c).run ⟨site, s.tracker⟩)
  | indexed {rest : List String} : s.stalled = none → s.queue.messages = relative :: rest →
      Tries s site relative (s.takes relative rest)
        ((s.indexer.indexFile relative).run ⟨site, s.tracker⟩)

/-- A step of the worker tries a file and finishes it, or leaves it waiting for the store. -/
theorem Stepped.tries_or_waits {next : Scheduler × Site} (h : s.Stepped site next) :
    (∃ relative s' first, s.Tries site relative s' first ∧ next = s'.finish relative first) ∨
      ∃ relative rest c t, s.stalled = none ∧ s.queue.messages = relative :: rest ∧
        (s.indexer.decide relative).run ⟨site, s.tracker⟩ = (.ok (.change c), t) ∧
        next = ({ s.takes relative rest with
          tracker := t.tracker, stalled := some (relative, c) }, t.site) := by
  cases h with
  | resumed hstalled => exact .inl ⟨_, _, _, .resumed hstalled, rfl⟩
  | waits hstalled hmessages hd => exact .inr ⟨_, _, _, _, hstalled, hmessages, hd, rfl⟩
  | indexed hstalled hmessages => exact .inl ⟨_, _, _, .indexed hstalled hmessages, rfl⟩

/-- What a first attempt at a file leaves if it fails: the store as it was, and no other file
that is being worked on. -/
def Broken (site : Site) (relative : String) (t : IndexState) : Prop :=
  t.site.backend.store = site.backend.store ∧
    ∀ p, t.tracker.state p = .indexing → p = relative

/-- A note of a failure leaves nothing that is being worked on. -/
theorem Broken.resting {t : IndexState} (h : Broken site relative t) (e : Error) (last : Bool) :
    (note relative e last t).tracker.Resting := Tracker.resting_failed h.2 _ _

/-- A failed course of a file leaves it broken. -/
theorem broken_of_course {i : Indexer} {task : IndexTask} {t : IndexState}
    {ending : Except Error FileOutcome × IndexState} {events : List Event}
    (h : i.Course task t ending events) (htask : task.relative? = some relative)
    (hfits : task.Fits i) (hrests : task.Rests t.tracker)
    (hstore : t.site.backend.store = site.backend.store) {e : Error} (he : ending.1 = .error e) :
    Broken site relative ending.2 := by
  refine ⟨(h.store_of_error he ?_).trans hstore, fun p hp => ?_⟩
  · rintro heirs outcome rfl
    cases htask
  · exact Option.some.inj (((h.rests hfits hrests).1 p hp).symm.trans htask)

/-- How a trial of a file ends. -/
theorem trial_cases {first : Except Error FileOutcome × IndexState}
    (hfirst : ∀ e, first.1 = .error e → Broken site relative first.2) :
    let t := s.trial relative first
    (t.waits = [] ∧ (∃ outcome, t.result = .ok outcome) ∧ first = (t.result, t.state)) ∨
      (t.waits ≠ [] ∧ (∃ outcome, t.result = .ok outcome) ∧ ∃ u e, Broken site relative u ∧
        (s.indexer.indexFile relative).run (note relative e false u) = (t.result, t.state)) ∨
      ∃ u e, Broken site relative u ∧ t.result = .error e ∧ t.state = note relative e true u := by
  refine s.retry.after_cases s.isStopping (fun t e e' ht he' => ?_) _ _ hfirst
  obtain ⟨events, hcourse⟩ := s.indexer.indexFile_course relative (note relative e false t)
  exact broken_of_course hcourse rfl trivial (ht.resting e false) ht.1 he'

/-- When a file is done, no file is being worked on. -/
theorem resting_finish {first : Except Error FileOutcome × IndexState}
    (hfirst : ∀ e, first.1 = .error e → Broken site relative first.2)
    (hok : ∀ outcome, first.1 = .ok outcome → first.2.tracker.Resting) :
    (s.finish relative first).1.tracker.Resting := by
  change (s.trial relative first).state.tracker.Resting
  rcases trial_cases (s := s) hfirst with ⟨-, ⟨outcome, hresult⟩, heq⟩ |
    ⟨-, ⟨outcome, hresult⟩, t, e, ht, hrun⟩ | ⟨t, e, ht, -, hstate⟩
  · rw [heq] at hok
    exact hok outcome hresult
  · obtain ⟨events, hcourse⟩ := s.indexer.indexFile_course relative (note relative e false t)
    rw [hrun] at hcourse
    exact (hcourse.rests trivial (ht.resting e false)).2 outcome hresult
  · rw [hstate]
    exact ht.resting e true

namespace Tidy

/-- Callers that leave the tracker alone change nothing of this. -/
theorem congr {s' : Scheduler} (h : s.Tidy) (hindexer : s'.indexer = s.indexer)
    (htracker : s'.tracker = s.tracker) (hstalled : s'.stalled = s.stalled) : s'.Tidy := by
  refine ⟨?_, ?_⟩
  · rw [htracker, hstalled]
    exact h.resting
  · rw [hindexer, hstalled]
    exact h.stalled

theorem invalidate (h : s.Tidy) (relative : String) :
    Tidy { s with tracker := s.tracker.invalidate relative } := by
  refine ⟨fun p hp => h.resting p ?_, h.stalled⟩
  rw [show Scheduler.tracker { s with tracker := s.tracker.invalidate relative } =
    s.tracker.invalidate relative from rfl, Tracker.invalidate_state] at hp
  split at hp
  · cases hp
  · exact hp

theorem enqueue (h : s.Tidy) (relative : String) : (s.enqueue relative).2.Tidy := by
  rw [Scheduler.enqueue]
  exact h.congr rfl rfl rfl

/-- Where nothing waits for the store, no file is being worked on. -/
theorem tracker_resting (h : s.Tidy) (hstalled : s.stalled = none) : s.tracker.Resting := by
  intro p hp
  obtain ⟨c, hc, -⟩ := h.resting p hp
  cases hstalled.symm.trans hc

/-- What waits for the store is the only file that is being worked on. -/
theorem rests (h : s.Tidy) {c : FileChange} (hstalled : s.stalled = some (relative, c)) :
    IndexTask.Rests s.tracker (.complete c) := by
  intro p hp
  obtain ⟨c', hc', hreplaces⟩ := h.resting p hp
  cases hstalled.symm.trans hc'
  exact ⟨(h.stalled _ _ hstalled).1.symm, hreplaces⟩

/-- A first attempt that fails leaves its file broken, and one that succeeds leaves nothing
that is being worked on. -/
theorem tries (h : s.Tidy) {s' : Scheduler} {first : Except Error FileOutcome × IndexState}
    (htries : s.Tries site relative s' first) :
    (∀ e, first.1 = .error e → Broken site relative first.2) ∧
      ∀ outcome, first.1 = .ok outcome → first.2.tracker.Resting := by
  cases htries with
  | @resumed c hstalled =>
      obtain ⟨rfl, hfits, -⟩ := h.stalled relative c hstalled
      obtain ⟨events, hcourse⟩ := Indexer.complete_course c hfits ⟨site, s.tracker⟩
      have hrests := h.rests hstalled
      exact ⟨fun e he => broken_of_course hcourse rfl hfits hrests rfl he,
        (hcourse.rests hfits hrests).2⟩
  | indexed hstalled hmessages =>
      obtain ⟨events, hcourse⟩ := s.indexer.indexFile_course relative ⟨site, s.tracker⟩
      have hrests := h.tracker_resting hstalled
      exact ⟨fun e he => broken_of_course hcourse rfl trivial hrests rfl he,
        (hcourse.rests trivial hrests).2⟩

theorem stepped {next : Scheduler × Site} (h : s.Tidy) (hstep : s.Stepped site next) :
    next.1.Tidy := by
  rcases hstep.tries_or_waits with ⟨relative, s', first, htries, rfl⟩ |
    ⟨relative, rest, c, t, hstalled, hmessages, hd, rfl⟩
  · obtain ⟨hbroken, hrests⟩ := h.tries htries
    have hresting := resting_finish (s := s') hbroken hrests
    exact ⟨fun p hp => absurd hp (hresting p), nofun⟩
  · obtain ⟨tracker, rfl, hruled⟩ := Indexer.ruled_of_decide hd
    obtain ⟨hfits, rfl⟩ := hruled.fits
    have hrests := (hruled.rests (h.tracker_resting hstalled)).2.2 c rfl
    refine ⟨fun p hp => ?_, ?_⟩
    · obtain ⟨rfl, hreplaces⟩ := hrests p hp
      exact ⟨c, rfl, hreplaces⟩
    · rintro p c' heq
      cases heq
      exact ⟨rfl, hfits, hruled.own⟩

end Tidy

theorem Driven.tidy (h : s.Driven) : s.Tidy := by
  induction h with
  | start i records retry =>
      exact ⟨fun p hp => absurd hp (Tracker.ofRecords_resting _ p), nofun⟩
  | invalidate relative _ ih => exact ih.invalidate relative
  | enqueue relative _ ih => exact ih.enqueue relative
  | enqueuePath path _ ih =>
      rw [Scheduler.enqueuePath]
      split
      · split
        · exact ih.enqueue _
        · exact ih
      · exact ih
  | reindex relative _ ih => exact (ih.invalidate relative).enqueue relative
  | reconcile files _ ih =>
      rw [Scheduler.reconcile]
      split
      · exact ih.congr rfl rfl rfl
      · split
        · exact ih.congr rfl rfl rfl
        · exact ih.congr rfl rfl rfl
  | shutDown _ ih => exact ih.congr rfl rfl rfl
  | step held _ hstep ih => exact ih.stepped (step?_stepped hstep)

end Scheduler

/-! ## Reports to the tracker -/

/-- What a tracker is told of a file. -/
inductive Report where
  | observed (path fingerprint : String)
  | begun (path : String)
  | committed (path fingerprint : String)
  | failed (path error : String) (exhausted : Bool)
  | deleted (path : String)
  | invalidated (path : String)

namespace Report

/-- Whether a file is seen, or begun, or forced to be indexed, or fails. -/
def Reopens (relative : String) : Report → Prop
  | observed path _ => path = relative
  | begun path => path = relative
  | committed _ _ => False
  | failed path _ _ => path = relative
  | deleted _ => False
  | invalidated path => path = relative

end Report

namespace Tracker

variable {t : Tracker} {relative : String}

def told (t : Tracker) : Report → Tracker
  | .observed path fingerprint => (t.observe path fingerprint).2
  | .begun path => t.begin path
  | .committed path fingerprint => t.committed path fingerprint
  | .failed path error exhausted => t.failed path error exhausted
  | .deleted path => t.deleted path
  | .invalidated path => t.invalidate path

/-- The tracker when it was told several things. -/
def tell (t : Tracker) (reports : List Report) : Tracker := reports.foldl told t

/-- A file that is known to be in order stays so until it is reopened. -/
theorem told_open {report : Report} (hreport : ¬ report.Reopens relative)
    (h : ((t.told report).state relative).IsOpen) : (t.state relative).IsOpen := by
  cases report with
  | observed path fingerprint => rwa [told, observe_state _ _ _ hreport] at h
  | begun path =>
      have hp : path ≠ relative := hreport
      rwa [told, begin, state_setState, if_neg hp] at h
  | committed path fingerprint =>
      by_cases hp : path = relative
      · subst hp
        rw [told, committed_state_self] at h
        exact absurd h FileState.not_isOpen_indexed
      · rwa [told, committed_state _ _ _ hp] at h
  | failed path error exhausted =>
      have hp : path ≠ relative := hreport
      rwa [told, failed_state, if_neg hp] at h
  | deleted path =>
      by_cases hp : path = relative
      · subst hp
        rw [told, deleted_state_self] at h
        exact absurd h FileState.not_isOpen_deleted
      · rwa [told, deleted_state _ _ hp] at h
  | invalidated path =>
      have hp : path ≠ relative := hreport
      rwa [told, invalidate_state, if_neg hp] at h

theorem tell_open {reports : List Report} (hreports : ∀ report ∈ reports, ¬ report.Reopens relative)
    (h : ((t.tell reports).state relative).IsOpen) : (t.state relative).IsOpen := by
  induction reports generalizing t with
  | nil => exact h
  | cons report reports ih =>
      obtain ⟨hreport, hreports⟩ := List.forall_mem_cons.1 hreports
      exact told_open hreport (ih hreports h)

end Tracker

theorem Store.fingerprint?_eq_none_iff {s : Store} {path : String} :
    s.fingerprint? path = none ↔ s.records.get? path = none := Option.map_eq_none_iff

/-- Whether a file is listed as one that is to be indexed, or that failed for good. -/
def Tracker.Lists (t : Tracker) (relative : String) : Prop :=
  relative ∈ t.pending ∨ relative ∈ t.failures.map Prod.fst

namespace Scheduler

variable {s : Scheduler} {site : Site} {relative : String}

/-- What goes on while a file is neither seen, nor begun, nor forced to be indexed, and does not
fail: callers and the worker do anything else, with any files and any store. -/
inductive Calm (relative : String) (s : Scheduler) : Scheduler → Prop
  | refl : Calm relative s s
  | told {s' : Scheduler} {reports : List Report} : Calm relative s s' →
      (∀ report ∈ reports, ¬ report.Reopens relative) →
      Calm relative s { s' with tracker := s'.tracker.tell reports }
  | enqueue {s' : Scheduler} (path : String) : Calm relative s s' →
      Calm relative s (s'.enqueue path).2
  | enqueuePath {s' : Scheduler} (path : String) : Calm relative s s' →
      Calm relative s (s'.enqueuePath path).2
  | reindex {s' : Scheduler} {path : String} : Calm relative s s' → path ≠ relative →
      Calm relative s (s'.reindex path).2
  | reconcile {s' : Scheduler} (files : FileTree) : Calm relative s s' →
      Calm relative s (s'.reconcile files).2
  | shutDown {s' : Scheduler} : Calm relative s s' → Calm relative s s'.shutDown
  /-- The worker does a step; the tracker is told this and that, but not to reopen the file. -/
  | step {s' s'' : Scheduler} {site site' : Site} {held : Bool} {reports : List Report} :
      Calm relative s s' → s'.step? held site = some (s'', site') →
      s''.tracker = s'.tracker.tell reports → (∀ report ∈ reports, ¬ report.Reopens relative) →
      Calm relative s s''

/-- A file that is known to be in order stays so. -/
theorem Calm.isOpen {s' : Scheduler} (h : Calm relative s s')
    (hopen : (s'.tracker.state relative).IsOpen) : (s.tracker.state relative).IsOpen := by
  induction h with
  | refl => exact hopen
  | told _ hreports ih => exact ih (Tracker.tell_open hreports hopen)
  | enqueue path _ ih => exact ih hopen
  | enqueuePath path _ ih =>
      rw [Scheduler.enqueuePath] at hopen
      split at hopen
      · split at hopen
        · exact ih hopen
        · exact ih hopen
      · exact ih hopen
  | @reindex s' path _ hne ih =>
      refine ih ?_
      rwa [show (s'.reindex path).2.tracker = s'.tracker.invalidate path from rfl,
        Tracker.invalidate_state, if_neg hne] at hopen
  | reconcile files _ ih =>
      rw [Scheduler.reconcile] at hopen
      split at hopen
      · exact ih hopen
      · split at hopen
        · exact ih hopen
        · exact ih hopen
  | shutDown _ ih => exact ih hopen
  | step _ _ htold hreports ih =>
      rw [htold] at hopen
      exact ih (Tracker.tell_open hreports hopen)

/-- **A file that was processed is listed only if it was skipped.**  Let the worker try a file,
maybe several times, until an attempt gives an outcome.  The file is listed then as pending or
failed exactly if it was skipped, had no record, and was listed before or failed in an earlier
attempt; and if it is not listed then, it is not until it is seen or begun again, or forced to be
indexed, or fails. -/
theorem listed_iff_skipped {s' : Scheduler} {first : Except Error FileOutcome × IndexState}
    (h : s.Driven) (htries : s.Tries site relative s' first) {outcome : FileOutcome}
    (houtcome : (s'.trial relative first).result = .ok outcome) :
    ((s'.finish relative first).1.tracker.Lists relative ↔ (∃ reason, outcome = .skipped reason) ∧
      site.backend.store.records.get? (s.indexer.storePath relative) = none ∧
      ((s'.trial relative first).waits ≠ [] ∨ s.tracker.Lists relative)) ∧
    ∀ s'', Calm relative (s'.finish relative first).1 s'' → s''.tracker.Lists relative →
      (s'.finish relative first).1.tracker.Lists relative := by
  simp only [Tracker.Lists, ← Tracker.isOpen_iff, ← Store.fingerprint?_eq_none_iff]
  refine ⟨?_, fun s'' hcalm => hcalm.isOpen⟩
  change ((s'.trial relative first).state.tracker.state relative).IsOpen ↔ _
  have hindexer : s'.indexer = s.indexer := by cases htries <;> rfl
  rcases trial_cases (s := s') (h.tidy.tries htries).1 with ⟨hwaits, -, hfirst⟩ |
    ⟨hwaits, -, t, e, ⟨hstore, -⟩, hlast⟩ | ⟨t, e, -, hfailed, -⟩
  · -- The first attempt was the last one.
    simp only [hwaits, ne_eq, not_true_eq_false, false_or]
    rw [houtcome] at hfirst
    rw [show (s'.trial relative first).state = first.2 from (congrArg Prod.snd hfirst).symm]
    have hok : first.1 = .ok outcome := congrArg Prod.fst hfirst
    cases htries with
    | @resumed c hstalled =>
        obtain ⟨rfl, hfits, hown⟩ := h.tidy.stalled relative c hstalled
        obtain ⟨events, hcourse⟩ := Indexer.complete_course c hfits ⟨site, s.tracker⟩
        exact hcourse.open_iff hfits hown hok
    | indexed hstalled =>
        obtain ⟨events, hcourse⟩ := s.indexer.indexFile_course relative ⟨site, s.tracker⟩
        exact hcourse.index_open_iff (h.tidy.tracker_resting hstalled relative) hok
  · -- The last attempt found the file changed, as a failure was noted before it.
    rw [houtcome] at hlast
    obtain ⟨events, hcourse⟩ := s'.indexer.indexFile_course relative (note relative e false t)
    rw [hlast] at hcourse
    have hchanged : (note relative e false t).tracker.state relative = .changed := by
      rw [note, Tracker.failed_state, if_pos rfl]
      rfl
    have hiff := hcourse.index_open_iff (by rw [hchanged]; simp) rfl
    rw [hchanged, hindexer, show (note relative e false t).site = t.site from rfl, hstore] at hiff
    simp only [hwaits, ne_eq, not_false_eq_true, true_or]
    simpa [FileState.IsOpen] using hiff
  · cases hfailed.symm.trans houtcome

/-- A scheduler that is asked for a file that was never indexed. -/
def retractsOther : Scheduler :=
  ((Scheduler.start emptyFileIndexer
    (emptyFileIndexer.trackerOf oneStored.store.fileRecords) .default).enqueue "c.rs").2

def twoEmptyFiles : FileTree := (FileTree.empty.write "/r/b.py" .empty).write "/r/a.py" .empty

/-- The store cannot be reached at first. -/
def onceUnreachable : Site :=
  ⟨twoEmptyFiles, { oneStored with outages := [.atBegin connectionLost] }, 0⟩

/-- The first attempt at a file that was never indexed fails. -/
def unreachableAttempt : Except Error FileOutcome × IndexState :=
  (retractsOther.indexer.indexFile "c.rs").run ⟨onceUnreachable, retractsOther.tracker⟩

/-- A file that was never indexed is skipped at the second attempt, and it is listed as pending
from then on. -/
theorem listed_iff_skipped_onceUnreachable : ∃ s' first,
    retractsOther.Driven ∧ retractsOther.Tries onceUnreachable "c.rs" s' first ∧
      (s'.trial "c.rs" first).result = .ok (.skipped .unsupported) ∧
      ¬ retractsOther.tracker.Lists "c.rs" ∧
      (s'.finish "c.rs" first).1.tracker.Lists "c.rs" := by
  have hdriven : retractsOther.Driven := .enqueue "c.rs" (.start _ _ _)
  have htries : retractsOther.Tries onceUnreachable "c.rs" (retractsOther.takes "c.rs" [])
      unreachableAttempt := .indexed rfl rfl
  have hwaits : ((retractsOther.takes "c.rs" []).trial "c.rs" unreachableAttempt).waits =
      [100] := by
    decide +kernel
  have houtcome : ((retractsOther.takes "c.rs" []).trial "c.rs" unreachableAttempt).result =
      .ok (.skipped .unsupported) := by
    have h : ((retractsOther.takes "c.rs" []).trial "c.rs" unreachableAttempt).result.toOption =
        some (.skipped .unsupported) := by
      decide +kernel
    revert h
    cases Trial.result _ <;> simp [Except.toOption]
  have hclosed : ¬ retractsOther.tracker.Lists "c.rs" := by
    have hstate : retractsOther.tracker.state "c.rs" = .unseen := by decide +kernel
    rw [Tracker.Lists, ← Tracker.isOpen_iff, hstate]
    simp [FileState.IsOpen]
  have hlisted := (listed_iff_skipped hdriven htries houtcome).1.2
    ⟨⟨_, rfl⟩, by decide +kernel, .inl (by rw [hwaits]; simp)⟩
  exact ⟨_, _, hdriven, htries, houtcome, hclosed, hlisted⟩

end Scheduler

end CodeAtlas
