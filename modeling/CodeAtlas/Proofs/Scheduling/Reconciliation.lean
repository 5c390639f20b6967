import CodeAtlas.Proofs.Indexing.Again
import CodeAtlas.Proofs.Indexing.Due
import CodeAtlas.Proofs.Scheduling.Worker

/-!
# CodeAtlas.Proofs.Scheduling.Reconciliation

What a reconciliation leaves of the records of a tree.

A reconciliation queues the files that are listed and those that have records; the worker
settles each of them in its turn, and what has no record and is not listed gets none
(`Scheduler.Serves`, kept by every step).  So when the queue is empty and nothing failed, the
record of each file that is not pending is the one that is due to it.  A file that is listed is
in step then, and so is one that cannot be indexed any more; but a file that is passed over
now, and could be indexed all the same, keeps its record (`Indexer.Overlooked`).
-/

namespace CodeAtlas

open Indexing Upsert

/-! ## What is queued -/

namespace Queue

variable {q : Queue}

/-- While nothing is being indexed, a file that does not wait yet is queued. -/
theorem Waits.enqueue (h : q.Waits) (hopen : q.isOpen = true) (path : String) :
    ∃ b queue, q.enqueue path = (.ok b, queue) ∧ queue.isOpen = true ∧ queue.Waits ∧
      ∀ p, p ∈ queue.queued ↔ p ∈ q.queued ∨ p = path := by
  have hnot : q.inFlight.contains path = false := by
    rw [h.inFlight]
    rfl
  rw [Queue.enqueue, hnot, if_neg Bool.false_ne_true]
  by_cases hqueued : path ∈ q.queued
  · refine ⟨false, q, if_pos (List.contains_iff_mem.2 hqueued), hopen, h, fun p => ?_⟩
    exact ⟨.inl, fun hp => hp.elim id fun heq => heq ▸ hqueued⟩
  · rw [if_neg (mt List.contains_iff_mem.1 hqueued), if_pos hopen]
    refine ⟨true, _, rfl, hopen, ⟨?_, ?_, h.inFlight, h.rerun⟩, fun p => ?_⟩
    · exact congrArg (· ++ [path]) h.messages
    · refine List.nodup_append.2 ⟨h.nodup, by simp, fun a ha b hb => ?_⟩
      obtain rfl := List.mem_singleton.1 hb
      rintro rfl
      exact hqueued ha
    · simp

/-- What is queued together waits together. -/
theorem Waits.enqueueAll (h : q.Waits) (hopen : q.isOpen = true) (paths : List String) :
    ∃ n queue, q.enqueueAll paths = (.ok n, queue) ∧ queue.isOpen = true ∧ queue.Waits ∧
      ∀ p, p ∈ queue.queued ↔ p ∈ q.queued ∨ p ∈ paths := by
  induction paths generalizing q with
  | nil => exact ⟨0, q, rfl, hopen, h, by simp⟩
  | cons path paths ih =>
      obtain ⟨b, mid, hfirst, hopen', h', hmid⟩ := h.enqueue hopen path
      obtain ⟨n, queue, hrest, hopen'', h'', hall⟩ := ih h' hopen'
      refine ⟨n + b.toNat, queue, ?_, hopen'', h'', fun p => ?_⟩
      · rw [Queue.enqueueAll, hfirst]
        simp only [hrest]
      · rw [hall, hmid, or_assoc, List.mem_cons]

end Queue

namespace Scheduler

/-- A reconciliation of a new scheduler queues what is listed and what is known. -/
theorem reconcile_start (i : Indexer) (tracker : Tracker) (retry : Retry) (files : FileTree) :
    ∃ r queue, (start i tracker retry).reconcile files =
        (.ok r, ⟨i, tracker, retry, queue, none, 0, false⟩) ∧ queue.Waits ∧
      ∀ p, p ∈ queue.queued ↔ p ∈ i.walk files ∨ (tracker.fingerprints.value? p).isSome := by
  have hnew : Queue.new.Waits := ⟨rfl, .nil, rfl, rfl⟩
  obtain ⟨n, found, hfound, hopen, hwaits, hlisted⟩ := hnew.enqueueAll rfl (i.walk files)
  obtain ⟨m, all, hall, -, hwaits', hknown⟩ := hwaits.enqueueAll hopen
    (tracker.knownPaths.filter fun p => !(i.walk files).contains p)
  refine ⟨⟨(i.walk files).length, n, m⟩, all, ?_, hwaits', fun p => ?_⟩
  · rw [reconcile]
    simp only [start, hfound, hall]
  · rw [hknown, hlisted, List.mem_filter, Tracker.knownPaths, Dict.mem_keys]
    by_cases h : p ∈ i.walk files
    · simp [h]
    · simp [h, Queue.new]

/-- The worker comes to the end of what a reconciliation queues. -/
theorem reconcile_comes_to_rest (i : Indexer) (tracker : Tracker) (retry : Retry) (site : Site) :
    ∃ s site', ((start i tracker retry).reconcile site.files).2.Works site s site' ∧
      s.queue.isIdle = true := by
  obtain ⟨r, queue, hreconcile, hwaits, -⟩ := reconcile_start i tracker retry site.files
  rw [hreconcile]
  exact ⟨_, _, .run _ false site, run_idle rfl rfl hwaits⟩

end Scheduler

/-! ## What the worker settles -/

namespace Indexer

/-- The files that a reconciliation asks for: those that are listed, and those with a record. -/
def Asked (i : Indexer) (site : Site) (relative : String) : Prop :=
  relative ∈ i.walk site.files ∨
    (site.backend.store.fingerprint? (i.storePath relative)).isSome = true

/-- What has been done from one state to another on account of one file: of the files that are
asked for, all others are as settled as before, and no other file has got a record. -/
structure Spares (i : Indexer) (files : FileTree) (asked : String → Prop) (relative : String)
    (s t : IndexState) : Prop where
  sameFiles : t.site.files = files
  known : i.Known t
  settled : ∀ p, relative ≠ p → i.Settled files s p → i.Settled files t p
  unrecorded : ∀ p, ¬ asked p → t.site.backend.store.fingerprint? (i.storePath p) = none

namespace Spares

variable {i : Indexer} {files : FileTree} {asked : String → Prop} {relative : String}
  {s t : IndexState}

/-- Whatever is done for the file spares the others, and settles it unless it fails. -/
theorem course {task : IndexTask} {ending : Except Error FileOutcome × IndexState}
    {events : List Event} (h : i.Spares files asked relative s t)
    (hcourse : i.Course task t ending events) (hfits : task.Fits i) (hdue : task.Due i files)
    (htask : task.relative? = some relative) (hasked : asked relative) :
    i.Spares files asked relative s ending.2 ∧
      ∀ outcome, ending.1 = .ok outcome → i.Settled files ending.2 relative := by
  have hsettles := hcourse.settles hfits h.sameFiles h.known hdue
  have hother : ∀ {p}, relative ≠ p → task.relative? ≠ some p := by
    intro p hp heq
    exact hp (Option.some.inj (htask.symm.trans heq))
  have hconcerns : ∀ {p}, task.Concerns i p → relative = p := by
    intro p hp
    cases task with
    | index r => exact (Option.some.inj htask).symm.trans hp
    | complete c => exact (Option.some.inj htask).symm.trans hp
    | refresh heirs outcome => cases htask
  refine ⟨⟨(hcourse.files hfits).trans h.sameFiles, hcourse.known hfits h.known, fun p hp hs => ?_,
    fun p hp => ?_⟩, hsettles.own relative htask⟩
  · exact hsettles.others p (hother hp) (h.settled p hp hs)
  · exact hcourse.unrecorded hfits (fun hc => hp (hconcerns hc ▸ hasked)) (h.unrecorded p hp)

/-- To note a failure of the file spares the others. -/
theorem failed (h : i.Spares files asked relative s t) (e : String) (last : Bool) :
    i.Spares files asked relative s { t with tracker := t.tracker.failed relative e last } where
  sameFiles := h.sameFiles
  known := h.known.mono rfl fun _ _ hp => hp
  settled p hp hs := (h.settled p hp hs).failed e last
  unrecorded := h.unrecorded

end Spares

end Indexer

namespace Scheduler

/-- How far the files that are asked for are served: each is settled unless it still waits or
is being worked on, and no other file has a record. -/
structure Serves (s : Scheduler) (site : Site) (files : FileTree) (asked : String → Prop) :
    Prop where
  sameFiles : site.files = files
  known : s.indexer.Known ⟨site, s.tracker⟩
  served : ∀ p, asked p → p ∈ s.queue.queued ∨ (∃ c, s.stalled = some (p, c)) ∨
    s.indexer.Settled files ⟨site, s.tracker⟩ p
  unrecorded : ∀ p, ¬ asked p →
    site.backend.store.fingerprint? (s.indexer.storePath p) = none
  messages : ∀ p ∈ s.queue.messages, asked p
  stalled : ∀ p c, s.stalled = some (p, c) → asked p ∧ p ∈ s.queue.inFlight ∧
    c.relative = p ∧ c.Fits s.indexer ∧ c.fingerprint? = s.indexer.due files c.relative

namespace Serves

variable {s : Scheduler} {site : Site} {files : FileTree} {asked : String → Prop}
  {relative : String}

/-- Before anything is done for a file, all others are spared. -/
theorem spares (h : s.Serves site files asked) (relative : String) {tracker : Tracker}
    (hknown : tracker.fingerprints = s.tracker.fingerprints)
    (hstate : ∀ p, relative ≠ p → tracker.state p = s.tracker.state p) :
    s.indexer.Spares files asked relative ⟨site, s.tracker⟩ ⟨site, tracker⟩ where
  sameFiles := h.sameFiles
  known := h.known.mono rfl fun _ _ hp => hknown ▸ hp
  settled p hp hs := hs.congr rfl (hstate p hp)
  unrecorded := h.unrecorded

/-- A file is finished when it is settled or has failed for good. -/
theorem finish (s' : Scheduler) {first : Except Error FileOutcome × IndexState}
    (h : s.Serves site files asked) (hindexer : s'.indexer = s.indexer)
    (hqueued : ∀ p ∈ s.queue.queued, relative ≠ p → p ∈ s'.queue.queued)
    (hstalled : ∀ p c, s.stalled = some (p, c) → relative = p)
    (hmessages : ∀ p ∈ s'.queue.messages, asked p) (hasked : asked relative)
    (hfirst : s.indexer.Spares files asked relative ⟨site, s.tracker⟩ first.2 ∧
      ∀ outcome, first.1 = .ok outcome → s.indexer.Settled files first.2 relative) :
    (s'.finish relative first).1.Serves (s'.finish relative first).2 files asked := by
  -- Further attempts decide anew, and the last one either succeeds or is noted as a failure.
  have hagain : ∀ t, s.indexer.Spares files asked relative ⟨site, s.tracker⟩ t →
      s.indexer.Spares files asked relative ⟨site, s.tracker⟩
          ((s'.indexer.indexFile relative).run t).2 ∧
        ∀ outcome, ((s'.indexer.indexFile relative).run t).1 = .ok outcome →
          s.indexer.Settled files ((s'.indexer.indexFile relative).run t).2 relative := by
    intro t ht
    obtain ⟨events, hcourse⟩ := s.indexer.indexFile_course relative t
    rw [hindexer]
    exact ht.course hcourse trivial trivial rfl hasked
  have hgivenUp : ∀ e t, s.indexer.Spares files asked relative ⟨site, s.tracker⟩ t →
      s.indexer.Settled files (note relative e true t) relative := by
    intro e t _
    refine .inr ?_
    rw [note, Tracker.failed_state, if_pos rfl, if_pos rfl]
    exact .inr (.inr rfl)
  obtain ⟨hspares, hsettled⟩ := @trial_ends s' relative _
    (fun t => s.indexer.Settled files t relative) hagain
    (fun e last t ht => ht.failed e.message last) hgivenUp first hfirst
  obtain ⟨hkept, hasks⟩ := s'.queue.finish_spec relative
  refine ⟨hspares.sameFiles, hindexer ▸ hspares.known, fun p hp => ?_,
    hindexer ▸ hspares.unrecorded, fun p hp => ?_, nofun⟩
  · by_cases heq : relative = p
    · subst heq
      exact .inr (.inr (hindexer ▸ hsettled))
    · rcases h.served p hp with hwait | ⟨c, hc⟩ | hs
      · exact .inl (hkept p (hqueued p hwait heq))
      · exact absurd (hstalled p c hc) heq
      · exact .inr (.inr (hindexer ▸ hspares.settled p heq hs))
  · rcases hasks p hp with h | rfl
    · exact hmessages p h
    · exact hasked

/-- Each step of the worker serves the files further. -/
theorem stepped {next : Scheduler × Site} (h : s.Serves site files asked)
    (hstep : s.Stepped site next) : next.1.Serves next.2 files asked := by
  cases hstep with
  | @resumed relative c hstalled =>
      obtain ⟨hasked, -, rfl, hfits, hdue⟩ := h.stalled relative c hstalled
      obtain ⟨events, hcourse⟩ := Indexer.complete_course c hfits ⟨site, s.tracker⟩
      have hspares := h.spares c.relative rfl fun _ _ => rfl
      refine h.finish s rfl (fun p hp _ => hp) (fun p c' hc' => ?_) h.messages hasked
        (hspares.course hcourse hfits hdue rfl hasked)
      cases hstalled.symm.trans hc'
      rfl
  | @waits relative rest c t hstalled hmessages hd =>
      obtain ⟨tracker, rfl, hruled⟩ := Indexer.ruled_of_decide hd
      obtain ⟨hfits, rfl⟩ := hruled.fits
      have hasked : asked c.relative := h.messages _ (by rw [hmessages]; exact .head _)
      have hspares := h.spares c.relative hruled.fingerprints fun p hp => hruled.state_other hp
      refine ⟨h.sameFiles, hspares.known, fun p hp => ?_, h.unrecorded, fun p hp => ?_, ?_⟩
      · by_cases heq : c.relative = p
        · subst heq
          exact .inr (.inl ⟨c, rfl⟩)
        · rcases h.served p hp with hwait | ⟨c', hc'⟩ | hs
          · exact .inl (Queue.mem_dropping.2 ⟨hwait, Ne.symm heq⟩)
          · cases hstalled.symm.trans hc'
          · exact .inr (.inr (hspares.settled p heq hs))
      · exact h.messages p (by rw [hmessages]; exact .tail _ hp)
      · rintro p c' heq
        cases heq
        refine ⟨hasked, ?_, rfl, hfits, h.sameFiles ▸ hruled.due⟩
        simp only [takes, Queue.start, Queue.adding]
        split
        · next hmem => exact List.contains_iff_mem.1 hmem
        · exact List.mem_append_right _ (.head _)
  | @indexed relative rest hstalled hmessages =>
      obtain ⟨events, hcourse⟩ := s.indexer.indexFile_course relative ⟨site, s.tracker⟩
      have hasked : asked relative := h.messages _ (by rw [hmessages]; exact .head _)
      have hspares := h.spares relative rfl fun _ _ => rfl
      refine h.finish (s.takes relative rest) rfl (fun p hp hne => ?_) (fun p c hc => ?_)
        (fun p hp => ?_) hasked (hspares.course hcourse trivial trivial rfl hasked)
      · exact Queue.mem_dropping.2 ⟨hp, Ne.symm hne⟩
      · cases hstalled.symm.trans hc
      · exact h.messages p (by rw [hmessages]; exact .tail _ hp)

/-- Nothing changes for a scheduler while the files and the records of its tree stay. -/
theorem elsewhere {site' : Site} (h : s.Serves site files asked) (hfiles : site'.files = site.files)
    (hrecords : ∀ p, site'.backend.store.fingerprint? (s.indexer.storePath p) =
      site.backend.store.fingerprint? (s.indexer.storePath p)) : s.Serves site' files asked where
  sameFiles := hfiles.trans h.sameFiles
  known p fp hp := (hrecords p).trans (h.known p fp hp)
  served p hp := (h.served p hp).imp_right (Or.imp_right fun hs => hs.congr (hrecords p) rfl)
  unrecorded p hp := (hrecords p).trans (h.unrecorded p hp)
  messages := h.messages
  stalled := h.stalled

end Serves

theorem Works.serves {s s' : Scheduler} {site site' : Site} {files : FileTree}
    {asked : String → Prop} (h : s.Works site s' site') (hs : s.Serves site files asked) :
    s'.Serves site' files asked := by
  induction h with
  | refl => exact hs
  | step held _ hstep ih => exact (ih hs).stepped (step?_stepped hstep)
  | meanwhile _ hfiles hstore ih => exact (ih hs).elsewhere hfiles fun p => by rw [hstore]

/-- A reconciliation asks for what is listed and what has a record. -/
theorem reconcile_serves {i : Indexer} {tracker : Tracker} {site : Site} (retry : Retry)
    (htracker : i.tracker site.backend = .ok tracker) :
    ((start i tracker retry).reconcile site.files).2.Serves site site.files (i.Asked site) := by
  obtain ⟨r, queue, hreconcile, hwaits, hqueued⟩ := reconcile_start i tracker retry site.files
  have hasked : ∀ p, p ∈ queue.queued ↔ i.Asked site p := by
    intro p
    rw [hqueued, Indexer.tracker_value? htracker, Indexer.Asked]
  rw [hreconcile]
  exact ⟨rfl, Indexer.known_of_tracker htracker, fun p hp => .inl ((hasked p).2 hp),
    fun p hp => Option.not_isSome_iff_eq_none.1 (not_or.1 hp).2,
    fun p hp => (hasked p).1 (hwaits.messages ▸ hp), nofun⟩

theorem reconcile_indexer (i : Indexer) (tracker : Tracker) (retry : Retry) (files : FileTree) :
    ((start i tracker retry).reconcile files).2.indexer = i := by
  obtain ⟨r, queue, hreconcile, -⟩ := reconcile_start i tracker retry files
  rw [hreconcile]

/-- When nothing waits any more, what was asked for is settled. -/
theorem Serves.idle {s : Scheduler} {site : Site} {files : FileTree} {asked : String → Prop}
    (h : s.Serves site files asked) (hidle : s.queue.isIdle = true) {p : String} (hp : asked p) :
    s.indexer.Settled files ⟨site, s.tracker⟩ p := by
  simp only [Queue.isIdle, Bool.and_eq_true, List.isEmpty_iff] at hidle
  obtain ⟨⟨hqueued, hflight⟩, -⟩ := hidle
  rcases h.served p hp with hwait | ⟨c, hc⟩ | hs
  · rw [hqueued] at hwait
    cases hwait
  · obtain ⟨-, hmem, -⟩ := h.stalled p c hc
    rw [hflight] at hmem
    cases hmem
  · exact hs

end Scheduler

/-! ## In step with the files -/

namespace Indexer

variable {i : Indexer} {files : FileTree} {relative : String}

/-- Whether each file that counts can be written in a language that is enabled. -/
def Supports (i : Indexer) : Prop :=
  ∀ extension ∈ i.filter.extensions, ∃ l ∈ i.languages, extension ∈ l.extensions

theorem ofConfig_supports {readers : Readers} {root : String} {config : IndexConfig}
    (h : ofConfig readers files root config = .ok i) : i.Supports := by
  rw [ofConfig] at h
  cases hlanguages : Lang.select config.languages with
  | error e =>
      rw [hlanguages] at h
      cases h
  | ok languages =>
      rw [hlanguages] at h
      cases h
      exact fun extension hmem => List.mem_flatMap.1 hmem

/-- A file that is listed has a language. -/
theorem Supports.language (h : i.Supports) (hlisted : relative ∈ i.walk files) :
    ∃ language, Lang.ofPath? i.languages relative = some language := by
  rw [walk] at hlisted
  split at hlisted
  · obtain ⟨-, haccepts⟩ := List.mem_filter.1 (List.mem_mergeSort.1 hlisted)
    rw [WatchFilter.accepts, Bool.and_eq_true, WatchFilter.isWatchable] at haccepts
    obtain ⟨hwatchable, -⟩ := haccepts
    split at hwatchable
    · next extension hextension =>
      obtain ⟨l, hl, hmem⟩ := h extension (List.contains_iff_mem.1 hwatchable)
      rw [← Option.isSome_iff_exists, Lang.ofPath?, hextension, Option.bind_some,
        Lang.ofExtension?, List.find?_isSome]
      exact ⟨l, hl, List.contains_iff_mem.2 hmem⟩
    · cases hwatchable
  · cases hlisted

/-- Whether a file has a record exactly if it is listed and within the limit, with the
fingerprint of its content. -/
def InStep (i : Indexer) (files : FileTree) (store : Store) (relative : String) : Prop :=
  ∀ fp, store.fingerprint? (i.storePath relative) = some fp ↔
    relative ∈ i.walk files ∧ ∃ content, files.read (FilePath.push i.root relative) = .ok content ∧
      content.size ≤ i.maxFileBytes ∧ fp = fingerprint content

/-- Whether a file has a record and is not listed, but could be indexed all the same. -/
def Overlooked (i : Indexer) (files : FileTree) (store : Store) (relative : String) : Prop :=
  (store.fingerprint? (i.storePath relative)).isSome ∧ relative ∉ i.walk files ∧
    ∃ language content, i.Finds relative files language content

theorem inStep_iff (h : i.Supports) {store : Store} :
    i.InStep files store relative ↔ store.fingerprint? (i.storePath relative) =
      if relative ∈ i.walk files then i.due files relative else none := by
  have hdue : relative ∈ i.walk files → ∀ fp, i.due files relative = some fp ↔ ∃ content,
      files.read (FilePath.push i.root relative) = .ok content ∧
        content.size ≤ i.maxFileBytes ∧ fp = fingerprint content := by
    intro hlisted fp
    obtain ⟨language, hlanguage⟩ := h.language hlisted
    rw [due_eq_some_iff]
    constructor
    · rintro ⟨_, content, hfinds, heq⟩
      exact ⟨content, hfinds.found, Nat.le_of_not_lt hfinds.small, heq⟩
    · rintro ⟨content, hfound, hsmall, heq⟩
      exact ⟨language, content, ⟨hlanguage, hfound, Nat.not_lt.2 hsmall⟩, heq⟩
  rw [InStep, Option.ext_iff]
  refine forall_congr' fun fp => ?_
  by_cases hlisted : relative ∈ i.walk files
  · rw [if_pos hlisted, hdue hlisted]
    simp only [hlisted, true_and]
  · rw [if_neg hlisted]
    simp only [hlisted, false_and, reduceCtorEq]

/-- Where each file that is asked for has the record that is due to it, and no other one has a
record, a file is in step exactly if it is not overlooked. -/
theorem inStep_iff_not_overlooked (hsupports : i.Supports) {site : Site} {store : Store}
    (hrecord : i.Asked site relative →
      store.fingerprint? (i.storePath relative) = i.due site.files relative)
    (hnone : ¬ i.Asked site relative → store.fingerprint? (i.storePath relative) = none) :
    i.InStep site.files store relative ↔
      ¬ i.Overlooked site.files site.backend.store relative := by
  rw [inStep_iff hsupports, Overlooked]
  -- A listed file has the record that is due to it; one that is not listed and had a record is
  -- in step if none is due to it.
  by_cases hlisted : relative ∈ i.walk site.files
  · simp [hlisted, hrecord (.inl hlisted)]
  · rw [if_neg hlisted]
    by_cases hstored : (site.backend.store.fingerprint? (i.storePath relative)).isSome
    · rw [hrecord (.inr hstored)]
      simp only [hstored, hlisted, not_false_eq_true, true_and, Option.eq_none_iff_forall_ne_some,
        ne_eq, due_eq_some_iff]
      constructor
      · rintro h ⟨language, content, hfinds⟩
        exact h _ ⟨language, content, hfinds, rfl⟩
      · rintro h fp ⟨language, content, hfinds, -⟩
        exact h ⟨language, content, hfinds⟩
    · simp [hnone (not_or.2 ⟨hlisted, hstored⟩), hstored]

end Indexer

/-- **A reconciliation brings records in step, but for files that are passed over.**  When a
new scheduler has reconciled and has nothing left to do, and no file failed, each file that is
not pending is in step with what is listed exactly if it was not overlooked: if it is not a
file with a record that is not listed and could still be indexed. -/
theorem reconcile_in_step_iff {i : Indexer} {retry : Retry} {tracker : Tracker} {s : Scheduler}
    {site site' : Site} (hsupports : i.Supports) (htracker : i.tracker site.backend = .ok tracker)
    (hworks : ((Scheduler.start i tracker retry).reconcile site.files).2.Works site s site')
    (hidle : s.queue.isIdle = true) (hfailures : s.tracker.failures = [])
    {relative : String} (hpending : relative ∉ s.tracker.pending) :
    i.InStep site.files site'.backend.store relative ↔
      ¬ i.Overlooked site.files site.backend.store relative := by
  have hindexer : s.indexer = i :=
    hworks.indexer.trans (Scheduler.reconcile_indexer i tracker retry site.files)
  have hserves := hworks.serves (Scheduler.reconcile_serves retry htracker)
  have hclosed : ¬ (s.tracker.state relative).IsOpen := by
    rw [Tracker.isOpen_iff, hfailures]
    rintro (h | h)
    · exact hpending h
    · cases h
  have hrecord : i.Asked site relative →
      site'.backend.store.fingerprint? (i.storePath relative) = i.due site.files relative := by
    intro hasked
    have hsettled := hserves.idle hidle hasked
    rw [hindexer] at hsettled
    exact hsettled.resolve_right hclosed
  refine Indexer.inStep_iff_not_overlooked hsupports hrecord fun hasked => ?_
  have hnone := hserves.unrecorded relative hasked
  rwa [hindexer] at hnone

theorem emptyFileIndexer_supports : emptyFileIndexer.Supports :=
  fun _ hmem => ⟨.python, .head _, List.mem_cons.2 (.inl (List.mem_singleton.1 hmem))⟩

/-- A tree with two files; both were indexed, but the language of the second one is not enabled
any more. -/
def languageDropped : Site where
  files := (FileTree.empty.write "/r/b.py" .empty).write "/r/c.rs" .empty
  backend := (oneStored.apply { emptyFileRecord "c.rs" with language := "rust" } [] []).2
  now := 5

def languageDroppedTracker : Tracker :=
  emptyFileIndexer.trackerOf languageDropped.backend.store.records.toList

/-- The scheduler with so many files left. -/
def languageDroppedScheduler (left : List String) (processed : Nat) : Scheduler where
  indexer := emptyFileIndexer
  tracker := languageDroppedTracker
  retry := .default
  queue := ⟨left, [], [], left, none, true⟩
  stalled := none
  processed := processed
  isStopping := false

theorem languageDropped_tracker :
    emptyFileIndexer.tracker languageDropped.backend = .ok languageDroppedTracker := by
  have hopen : languageDropped.backend.isOpen = true := by decide +kernel
  have hrecords : languageDropped.backend.store.fileRecords =
      languageDropped.backend.store.records.toList := by
    rw [Store.fileRecords]
    exact List.mergeSort_of_pairwise (by decide +kernel)
  rw [Indexer.tracker, Backend.fileRecords, Backend.contents, if_pos hopen]
  simp only [Except.map, hrecords]
  rfl

theorem languageDropped_walk : emptyFileIndexer.walk languageDropped.files = ["b.py"] := by
  have hroot : languageDropped.files.locate emptyFileIndexer.root = .ok ["r"] := by
    have hnul : emptyFileIndexer.root.contains '\x00' = false := by
      simp [emptyFileIndexer]
    rw [FileTree.locate, hnul]
    decide +kernel
  have hfound : ((languageDropped.files.reached ["r"]).filterMap emptyFileIndexer.foundPath?).filter
      emptyFileIndexer.filter.accepts = ["b.py"] := by
    decide +kernel
  rw [Indexer.walk, hroot]
  simp only [hfound]
  exact List.mergeSort_of_pairwise (List.pairwise_singleton _ _)

theorem languageDropped_known : languageDroppedTracker.knownPaths = ["b.py", "c.rs"] := by
  have hpaths : languageDroppedTracker.fingerprints.toList.map Prod.fst = ["b.py", "c.rs"] := by
    decide +kernel
  rw [Tracker.knownPaths, Dict.keys, hpaths]
  exact List.mergeSort_of_pairwise (by decide)

theorem languageDropped_reconciled :
    ((Scheduler.start emptyFileIndexer languageDroppedTracker .default).reconcile
      languageDropped.files).2 = languageDroppedScheduler ["b.py", "c.rs"] 0 := by
  rw [Scheduler.reconcile]
  simp only [Scheduler.start, languageDropped_walk, languageDropped_known]
  rfl

theorem languageDropped_stored {relative : String} :
    (languageDropped.backend.store.fingerprint? (emptyFileIndexer.storePath relative)).isSome ↔
      relative = "b.py" ∨ relative = "c.rs" := by
  rw [← Indexer.tracker_value? languageDropped_tracker, ← Dict.mem_keys, ← Tracker.knownPaths,
    languageDropped_known, List.mem_cons, List.mem_singleton]

/-- No file is overlooked: one is listed, and the other one has no language. -/
theorem languageDropped_none_overlooked (relative : String) :
    ¬ emptyFileIndexer.Overlooked languageDropped.files languageDropped.backend.store relative := by
  rintro ⟨hrecord, hunlisted, language, content, hfinds⟩
  rcases languageDropped_stored.1 hrecord with rfl | rfl
  · rw [languageDropped_walk] at hunlisted
    exact hunlisted (.head _)
  · have hnone : Lang.ofPath? emptyFileIndexer.languages "c.rs" = none := by decide +kernel
    exact absurd (hnone.symm.trans hfinds.supported) nofun

theorem languageDropped_finds :
    emptyFileIndexer.Finds "b.py" languageDropped.files .python .empty := by
  have hfound : languageDropped.files.read (FilePath.push emptyFileIndexer.root "b.py") =
      .ok .empty := by
    have hpath : FilePath.push emptyFileIndexer.root "b.py" = "/r/b.py" := by decide +kernel
    have hplace : languageDropped.files.locate "/r/b.py" = .ok ["r", "b.py"] := by
      rw [FileTree.locate, show "/r/b.py".contains '\x00' = false by simp]
      decide +kernel
    rw [hpath, FileTree.read, hplace]
    rfl
  exact (emptyFile_reads (by decide +kernel) hfound).finds

theorem languageDropped_observe : languageDroppedTracker.observe "b.py" (fingerprint .empty) =
    (false, languageDroppedTracker) :=
  Tracker.observe_indexed _ _ _ (by decide +kernel) (by decide +kernel)

/-- The first file is found unchanged. -/
theorem languageDropped_first :
    (languageDroppedScheduler ["b.py", "c.rs"] 0).step? false languageDropped =
      some (languageDroppedScheduler ["c.rs"] 1, languageDropped) := by
  have hd := Indexer.decide_unchanged (s := ⟨languageDropped, languageDroppedTracker⟩)
    languageDropped_finds (congrArg Prod.fst languageDropped_observe)
  have hunchanged : (emptyFileIndexer.indexFile "b.py").run
      ⟨languageDropped, languageDroppedTracker⟩ =
        (.ok .unchanged, ⟨languageDropped, languageDroppedTracker⟩) := by
    rw [Indexer.indexFile, run_bind, hd, languageDropped_observe]
    rfl
  rw [Scheduler.step?_takes rfl rfl rfl]
  simp only [languageDroppedScheduler, hunchanged]
  rfl

/-- The first file stays as it is, and the record of the second one goes. -/
theorem reconcile_in_step_iff_languageDropped : ∃ s site,
    ((Scheduler.start emptyFileIndexer languageDroppedTracker .default).reconcile
      languageDropped.files).2.Works languageDropped s site ∧
    s.tracker.states.toList = [("b.py", .indexed), ("c.rs", .deleted)] ∧
    ∀ relative, emptyFileIndexer.InStep languageDropped.files site.backend.store relative := by
  have hrun : ((languageDroppedScheduler ["c.rs"] 1).step? false languageDropped).map (fun next =>
      (next.1.queue.isIdle, next.1.tracker.states.toList)) =
        some (true, [("b.py", .indexed), ("c.rs", .deleted)]) := by
    decide +kernel
  obtain ⟨⟨s, site⟩, hsecond, heq⟩ := Option.map_eq_some_iff.1 hrun
  simp only [Prod.mk.injEq] at heq
  obtain ⟨hidle, hstates⟩ := heq
  have hworks : ((Scheduler.start emptyFileIndexer languageDroppedTracker .default).reconcile
      languageDropped.files).2.Works languageDropped s site := by
    rw [languageDropped_reconciled]
    exact .step false (.step false .refl languageDropped_first) hsecond
  have hfailures : s.tracker.failures = [] := by
    simp [Tracker.failures, Tracker.pathsIn, hstates]
  have hpending : s.tracker.pending = [] := by
    simp [Tracker.pending, Tracker.pathsIn, hstates]
  refine ⟨s, site, hworks, hstates, fun relative => ?_⟩
  exact (reconcile_in_step_iff emptyFileIndexer_supports languageDropped_tracker hworks hidle
    hfailures (by rw [hpending]; exact List.not_mem_nil)).2 (languageDropped_none_overlooked relative)

end CodeAtlas
