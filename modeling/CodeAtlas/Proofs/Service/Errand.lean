import CodeAtlas.Proofs.Service.Office
import CodeAtlas.Proofs.Upsert.Total
import Mathlib.Data.List.Perm.Subperm

/-!
# CodeAtlas.Proofs.Service.Errand

What one job keeps to, whatever its thread and its workers do and in whatever order.

Nobody but its thread queues files, so no more of them are processed than were queued, and one
more each time that the thread asked for a file that was being indexed (`Errand.Within`).  It asks
for all files that it finds before those that are gone, so that happens only with a file that it
finds twice.  The thread tells of the number of files that it queued before it tells how many of
them are processed, and registers its tree before it tells that the job is completed.
`Errand.Sound` puts this together; every step keeps it (`Errand.Works.sound`,
`Errand.Tells.sound`).
-/

namespace CodeAtlas

/-- No file is known twice. -/
theorem Tracker.knownPaths_nodup (t : Tracker) : t.knownPaths.Nodup :=
  List.nodup_mergeSort.2 t.fingerprints.nodup

/-! ## Registered trees -/

/-- Whether a tree is registered under a path. -/
def Store.Registers (s : Store) (path : String) : Prop := ∃ r ∈ s.repositories, r.path = path

namespace Store

variable {s : Store}

theorem Registers.register {path : String} (h : s.Registers path) (r : Repository) :
    (s.register r).Registers path := by
  obtain ⟨x, hx, rfl⟩ := h
  by_cases hpath : r.path = x.path
  · exact ⟨_, Rows.mem_put.2 (.inl rfl), hpath⟩
  · exact ⟨x, Rows.mem_put.2 (.inr ⟨hx, fun h => hpath h.symm⟩), rfl⟩

theorem registers_register (s : Store) (r : Repository) : (s.register r).Registers r.path :=
  ⟨_, Rows.mem_put.2 (.inl rfl), rfl⟩

end Store

/-- No call touches the registered trees. -/
theorem Backend.perform_repositories (b : Backend) (c : Call) :
    (b.perform c).2.store.repositories = b.store.repositories := by
  have htransact : ∀ {α : Type} (w : Work (α × Bool)), w.Built →
      (b.transact w).2.store.repositories = b.store.repositories := by
    intro α w hw
    rcases b.transact_cases w with ⟨a, -, hgives⟩ | ⟨hstore, -⟩
    · exact hw.repositories hgives
    · rw [hstore]
  cases c with
  | apply record nodes edges =>
      exact htransact _ (.bind (Upsert.applyWork_built record nodes edges) fun _ => .pure _)
  | delete path => exact htransact _ (Upsert.deleteWork_built path)
  | relink => exact htransact _ (.bind Upsert.relinkWork_built fun _ => .pure _)

/-- To register one tree leaves the others registered. -/
theorem Backend.register_keeps {b b' : Backend} {r : Repository} {result : Except Error Unit}
    {path : String} (h : b.register r = (result, b')) (hpath : b.store.Registers path) :
    b'.store.Registers path := by
  rw [register] at h
  split at h
  · cases h
    exact hpath.register r
  · cases h
    exact hpath

theorem Backend.register_ok {b b' : Backend} {r : Repository} {u : Unit}
    (h : b.register r = (.ok u, b')) : b'.store.Registers r.path := by
  rw [register] at h
  split at h
  · cases h
    exact b.store.registers_register r
  · cases h

/-- A tree stays registered. -/
theorem Site.Turns.keeps {site site' : Site} {path : String} (h : site.Turns site')
    (hpath : site.backend.store.Registers path) : site'.backend.store.Registers path := by
  cases h with
  | calls c =>
      obtain ⟨r, hr, heq⟩ := hpath
      exact ⟨r, by rwa [Backend.perform_repositories], heq⟩
  | registers r => exact Backend.register_keeps rfl hpath
  | drifts hstore => rwa [hstore]

/-! ## Files and workers -/

/-- Whether a file waits or is being indexed. -/
def Queue.Holds (q : Queue) (path : String) : Prop := path ∈ q.queued ∨ path ∈ q.inFlight

namespace Queue

variable {q q' : Queue} {path p : String} {b : Bool}

theorem length_dropping_lt {paths : List String} (h : path ∈ paths) :
    (dropping path paths).length < paths.length :=
  List.length_filter_lt_length_iff_exists.2 ⟨path, h, by simp⟩

theorem length_adding_le (path : String) (paths : List String) :
    (adding path paths).length ≤ paths.length + 1 := by
  rw [adding]
  split
  · exact Nat.le_succ _
  · simp

/-- What is to be indexed, and indexed again, grows by the file that is queued, or by one that is
being indexed. -/
theorem enqueue_length (hopen : q.isOpen = true) (h : q.enqueue path = (.ok b, q')) :
    q'.inFlight = q.inFlight ∧ q'.queued.length + q'.rerun.length ≤
      q.queued.length + q.rerun.length + b.toNat + if path ∈ q.inFlight then 1 else 0 := by
  by_cases hflight : path ∈ q.inFlight
  · obtain ⟨rfl, rfl⟩ : false = b ∧ { q with rerun := adding path q.rerun } = q' := by
      simpa [enqueue, hflight] using h
    have hlength := length_adding_le path q.rerun
    simp only [hflight, if_true, Bool.toNat_false, true_and]
    omega
  · by_cases hqueued : path ∈ q.queued
    · obtain ⟨rfl, rfl⟩ : false = b ∧ q = q' := by simpa [enqueue, hflight, hqueued] using h
      simp [hflight]
    · obtain ⟨rfl, rfl⟩ : true = b ∧
          { q with queued := q.queued ++ [path], messages := q.messages ++ [path] } = q' := by
        simpa [enqueue, hflight, hqueued, hopen] using h
      simp only [hflight, List.length_append, List.length_singleton, Bool.toNat_true, if_false,
        true_and]
      omega

/-- Nothing is queued but what is asked for. -/
theorem holds_enqueue (hopen : q.isOpen = true) (h : q.enqueue path = (.ok b, q'))
    (hp : q'.Holds p) : p = path ∨ q.Holds p := by
  rcases enqueue_eq hopen h with ⟨-, rfl⟩ | ⟨-, -, rfl⟩ | ⟨-, -, rfl⟩
  · exact .inr hp
  · exact .inr hp
  · rcases hp with hp | hp
    · rcases List.mem_append.1 hp with hp | hp
      · exact .inr (.inl hp)
      · exact .inl (List.mem_singleton.1 hp)
    · exact .inr (.inr hp)

/-- A file that is started leaves those that wait. -/
theorem holds_start (hp : (q.start path).Holds p) : p = path ∨ q.Holds p := by
  rcases hp with hp | hp
  · exact .inr (.inl (mem_dropping.1 hp).1)
  · rcases mem_adding.1 hp with hp | hp
    · exact .inr (.inr hp)
    · exact .inl hp

/-- A file that is done waits if it was asked for meanwhile; all others stay as they are. -/
theorem holds_finish (hopen : q.isOpen = true) (hqueued : path ∉ q.queued)
    (hflight : path ∈ q.inFlight) (hp : (q.finish path).Holds p) : q.Holds p := by
  rcases finish_cases hopen hqueued with ⟨-, heq⟩ | ⟨-, heq⟩
  · rw [heq] at hp
    exact hp.imp_right fun hp => (mem_dropping.1 hp).1
  · rw [heq] at hp
    rcases hp with hp | hp
    · rcases List.mem_append.1 hp with hp | hp
      · exact .inl hp
      · exact .inr (List.mem_singleton.1 hp ▸ hflight)
    · exact .inr (mem_dropping.1 hp).1

/-- A file that is done and was asked for meanwhile is moved from those that are to be indexed
again to those that wait. -/
theorem finish_length (hopen : q.isOpen = true) (hqueued : path ∉ q.queued) :
    (q.finish path).queued.length + (q.finish path).rerun.length ≤
      q.queued.length + q.rerun.length := by
  rcases finish_cases hopen hqueued with ⟨-, heq⟩ | ⟨hrerun, heq⟩
  · rw [heq]
  · have hless := length_dropping_lt hrerun
    simp only [heq, List.length_append, List.length_singleton]
    omega

end Queue

namespace Errand

theorem again_asking (e : Errand) (path : String) (queue : Queue) : (e.asking path queue).again =
    e.again + if path ∈ e.queue.inFlight then 1 else 0 := by
  rw [asking]
  split <;> rfl

/-- The workers keep the queue in order, and all files that are processed, wait, are being indexed
or are to be indexed again are so many at most, and one more for each time that the thread asked
for one that was being indexed. -/
structure Within (e : Errand) (limit : Nat) : Prop where
  orderly : e.crew.Orderly
  nodup : e.counted.Nodup
  counted : ∀ p ∈ e.counted, p ∈ e.queue.inFlight
  load : e.task.scheduler.processed + e.queue.inFlight.length +
    (e.queue.queued.length + e.queue.rerun.length) ≤ limit + e.again + e.counted.length

namespace Within

variable {e : Errand} {limit : Nat} {path : String} {b : Bool} {queue : Queue}
  {before after : List Duty}

theorem mono (h : e.Within limit) {limit' : Nat} (hle : limit ≤ limit') : e.Within limit' :=
  ⟨h.orderly, h.nodup, h.counted, by have := h.load; omega⟩

/-- Only the queue, the workers and what they have processed count. -/
theorem congr {e' : Errand} (h : e.Within limit) (hqueue : e'.queue = e.queue)
    (hworkers : e'.workers = e.workers) (hcounted : e'.counted = e.counted)
    (hagain : e'.again = e.again)
    (hprocessed : e'.task.scheduler.processed = e.task.scheduler.processed) : e'.Within limit := by
  constructor
  case orderly => rw [crew, hqueue, hworkers]; exact h.orderly
  case nodup => rw [hcounted]; exact h.nodup
  case counted => rw [hcounted, hqueue]; exact h.counted
  case load => rw [hcounted, hagain, hqueue, hprocessed]; exact h.load

/-- No more files are processed than were queued, or asked for again while they were being
indexed. -/
theorem processed_le (h : e.Within limit) : e.task.scheduler.processed ≤ limit + e.again := by
  have hcounted : e.counted.length ≤ e.queue.inFlight.length :=
    (h.nodup.subperm h.counted).length_le
  have hload := h.load
  omega

/-- A thread and its workers begin with nothing to do. -/
theorem begins (task : Task) (stage : Stage) (n : Nat) (hqueue : task.scheduler.queue = .new)
    (hprocessed : task.scheduler.processed = 0) (found : List String) (again : Nat) :
    Within ⟨task, stage, List.replicate n .free, [], found, again⟩ 0 := by
  have horderly : Crew.Orderly ⟨task.scheduler.queue, List.replicate n .free⟩ := by
    rw [hqueue]
    exact Crew.orderly_new n
  refine ⟨horderly, List.nodup_nil, nofun, ?_⟩
  rw [hprocessed, queue, hqueue]
  exact Nat.zero_le _

/-- A file is asked for. -/
theorem asks (h : e.Within limit) (hqueue : e.queue.enqueue path = (.ok b, queue)) :
    (e.asking path queue).Within (limit + b.toNat) := by
  obtain ⟨hflight, hlength⟩ := @Queue.enqueue_length e.queue _ _ _ h.orderly.isOpen hqueue
  refine ⟨h.orderly.notifies hqueue, h.nodup, ?_, ?_⟩
  · change ∀ p ∈ e.counted, p ∈ queue.inFlight
    rw [hflight]
    exact h.counted
  · change e.task.scheduler.processed + queue.inFlight.length +
      (queue.queued.length + queue.rerun.length) ≤ limit + b.toNat + (e.asking path queue).again +
        e.counted.length
    have hload := h.load
    rw [hflight, again_asking]
    omega

theorem takes (h : e.Within limit) (hworkers : e.workers = before ++ .free :: after)
    (hqueue : e.queue.take? = some (path, queue)) :
    Within { e.withQueue queue with workers := before ++ .took path :: after } limit := by
  have horderly : Crew.Orderly ⟨e.queue, before ++ .free :: after⟩ := hworkers ▸ h.orderly
  have hnext := horderly.takes hqueue
  obtain ⟨rest, -, rfl⟩ := Queue.take?_eq hqueue
  exact ⟨hnext, h.nodup, h.counted, h.load⟩

theorem starts (h : e.Within limit) (hworkers : e.workers = before ++ .took path :: after) :
    Within { e.withQueue (e.queue.start path) with
      workers := before ++ .works path :: after } limit := by
  have horderly : Crew.Orderly ⟨e.queue, before ++ .took path :: after⟩ := hworkers ▸ h.orderly
  have hqueued : path ∈ e.queue.queued := horderly.took (by simp)
  refine ⟨horderly.starts, h.nodup,
    fun p hp => Queue.mem_adding.2 (.inl (h.counted p hp)), ?_⟩
  have hload := h.load
  have hleft := Queue.length_dropping_lt hqueued
  have hflight := Queue.length_adding_le path e.queue.inFlight
  simp only [withQueue, withScheduler, Errand.queue, Queue.start] at hload hleft hflight ⊢
  omega

theorem counts (h : e.Within limit) (hworks : .works path ∈ e.workers)
    (hnot : path ∉ e.counted) :
    Within { e.withScheduler { e.task.scheduler with
      processed := e.task.scheduler.processed + 1 } with counted := path :: e.counted } limit := by
  refine ⟨h.orderly, List.nodup_cons.2 ⟨hnot, h.nodup⟩, fun p hp => ?_, ?_⟩
  · rcases List.mem_cons.1 hp with rfl | hp
    · exact h.orderly.works hworks
    · exact h.counted p hp
  · have hload := h.load
    simp only [withScheduler, Errand.queue, List.length_cons] at hload ⊢
    omega

theorem finishes (h : e.Within limit) (hworkers : e.workers = before ++ .works path :: after)
    (hcounted : path ∈ e.counted) :
    Within { e.withQueue (e.queue.finish path) with
      workers := before ++ .free :: after, counted := e.counted.erase path } limit := by
  have horderly : Crew.Orderly ⟨e.queue, before ++ .works path :: after⟩ := hworkers ▸ h.orderly
  have hflight := h.counted path hcounted
  have hqueued : path ∉ e.queue.queued := fun hmem => horderly.apart path hmem hflight
  obtain ⟨hleft, -⟩ := Queue.finish_waits horderly.isOpen hqueued
  refine ⟨horderly.finishes, h.nodup.erase path, fun p hp => ?_, ?_⟩
  · obtain ⟨hne, hp⟩ := h.nodup.mem_erase_iff.1 hp
    simp only [withQueue, withScheduler, Errand.queue, hleft]
    exact Queue.mem_dropping.2 ⟨h.counted p hp, hne⟩
  · have hload := h.load
    have hwaits := Queue.finish_length horderly.isOpen hqueued
    have hfewer := Queue.length_dropping_lt hflight
    have hlength := List.length_erase_of_mem hcounted
    have hpos := List.length_pos_of_mem hcounted
    simp only [withQueue, withScheduler, Errand.queue, hleft] at hload hwaits hfewer ⊢
    omega

end Within

end Errand

/-! ## Stages -/

namespace Stage

/-- The number of files that were queued, as far as it is settled, from the beginning of a thread
to the end of its waiting; `total` is what is told of it. -/
def limit? (total : Nat) : Stage → Option Nat
  | due => none
  | begun => some 0
  | listing _ n => some n
  | dropping _ n => some n
  | counted n => some n
  | waiting => some total
  | polling => some total
  | noticed _ => some total
  | idle => some total
  | noted _ _ => some total
  | registering _ => none
  | closing _ => none
  | closed _ => none
  | ended => none

/-- The queue holds files only that were found and are not left; those that are gone are all
different and new to it. -/
def Fresh (found : List String) (q : Queue) : Stage → Prop
  | begun => found = [] ∧ ∀ p, ¬ q.Holds p
  | listing left _ => ∃ done, found = done ++ left ∧ ∀ p, q.Holds p → p ∈ done
  | dropping left _ => left.Nodup ∧ ∀ p ∈ left, ¬ q.Holds p
  | _ => True

/-- What a thread has noticed lies between what was told and what is the case. -/
def Notices (told processed : Nat) : Stage → Prop
  | noticed n => told ≤ n ∧ n ≤ processed
  | noted n _ => told ≤ n ∧ n ≤ processed
  | _ => True

/-- The state of a job whose thread is at a stage. -/
def Fits (state : JobState) : Stage → Prop
  | due => state = .pending
  | ended => state.isActive = false
  | _ => state = .running

/-- Whether a thread is about to tell that its job is completed. -/
def succeeds : Stage → Bool
  | closing (.ok _) => true
  | closed (.ok _) => true
  | _ => false

theorem Fresh.mono {found : List String} {q q' : Queue} {stage : Stage} {total : Nat}
    (h : stage.Fresh found q)
    (hq : ∀ limit, stage.limit? total = some limit → ∀ p, q'.Holds p → q.Holds p) :
    stage.Fresh found q' := by
  cases stage with
  | begun => exact ⟨h.1, fun p hp => h.2 p (hq 0 rfl p hp)⟩
  | listing left n =>
      obtain ⟨done, hdone, hheld⟩ := h
      exact ⟨done, hdone, fun p hp => hheld p (hq n rfl p hp)⟩
  | dropping left n => exact ⟨h.1, fun p hp hheld => h.2 p hp (hq n rfl p hheld)⟩
  | _ => trivial

theorem Notices.mono {stage : Stage} {told processed processed' : Nat}
    (h : stage.Notices told processed) (hle : processed ≤ processed') :
    stage.Notices told processed' := by
  cases stage with
  | noticed n => exact ⟨h.1, Nat.le_trans h.2 hle⟩
  | noted n failures => exact ⟨h.1, Nat.le_trans h.2 hle⟩
  | _ => trivial

end Stage

/-! ## What is told of a job -/

/-- The states that come after a state. -/
inductive JobState.Next : JobState → JobState → Prop
  | begins : Next .pending .running
  | unspawned : Next .pending .failed
  | completes : Next .running .completed
  | fails : Next .running .failed

theorem JobState.Next.isActive {a b : JobState} (h : a.Next b) : a.isActive = true := by
  cases h <;> rfl

/-- A job gets on: if it comes to another state, that is one that comes next; no file that was
processed is forgotten; and nothing changes when it is over. -/
structure Job.Moves (a b : Job) : Prop where
  path : b.path = a.path
  state : b.state = a.state ∨ a.state.Next b.state
  processed : a.processedFiles ≤ b.processedFiles
  settled : a.state.isActive = false → b = a

/-- What becomes of a job that gets on and on. -/
structure Job.Endures (a b : Job) : Prop where
  path : b.path = a.path
  state : Relation.ReflTransGen JobState.Next a.state b.state
  processed : a.processedFiles ≤ b.processedFiles
  settled : a.state.isActive = false → b = a

namespace Job.Moves

variable {a b c : Job}

theorem refl (j : Job) : j.Moves j := ⟨rfl, .inl rfl, Nat.le_refl _, fun _ => rfl⟩

/-- A job comes to the next state. -/
theorem next (hpath : b.path = a.path) (hnext : a.state.Next b.state)
    (hprocessed : a.processedFiles ≤ b.processedFiles) : a.Moves b :=
  ⟨hpath, .inr hnext, hprocessed, fun hended => absurd hended (by rw [hnext.isActive]; exact nofun)⟩

/-- A running job may be told to have come further. -/
theorem runs (ha : a.state = .running) (hpath : b.path = a.path) (hb : b.state = a.state)
    (hprocessed : a.processedFiles ≤ b.processedFiles) : a.Moves b :=
  ⟨hpath, .inl hb, hprocessed, fun hended => absurd hended (by rw [ha]; exact nofun)⟩

theorem endures (hab : a.Moves b) : a.Endures b where
  path := hab.path
  state := by
    rcases hab.state with hsame | hnext
    · rw [hsame]
    · exact .single hnext
  processed := hab.processed
  settled := hab.settled

/-- A job gets on once more. -/
theorem prolongs (hbc : b.Moves c) (hab : a.Endures b) : a.Endures c where
  path := hbc.path.trans hab.path
  state := hab.state.trans hbc.endures.state
  processed := Nat.le_trans hab.processed hbc.processed
  settled ha := by
    have hsame := hab.settled ha
    rw [hbc.settled (hsame ▸ ha), hsame]

end Job.Moves

/-! ## What every step keeps -/

namespace Errand

/-- Nothing was done yet. -/
def Untouched (e : Errand) : Prop :=
  e.workers = [] ∧ e.queue = .new ∧ e.task.scheduler.processed = 0 ∧ e.counted = [] ∧ e.found = []

/-- A job keeps to what is told of it: its state is that of its thread, no more files are told to
be processed than are processed, or than the job has in all and was asked for again, and its tree
is registered before it is told to be completed.  No file that is found once is asked for
again. -/
structure Sound (e : Errand) (s : Store) : Prop where
  fits : e.stage.Fits e.job.state
  untouched : e.stage = .due → e.Untouched
  within : ∀ limit, e.stage.limit? e.job.totalFiles = some limit → e.Within limit
  fresh : e.stage.Fresh e.found e.queue
  notices : e.stage.Notices e.job.processedFiles e.task.scheduler.processed
  told : e.job.processedFiles ≤ e.task.scheduler.processed
  once : e.found.Nodup → e.again = 0
  bounded : e.job.processedFiles ≤ e.job.totalFiles + e.again
  registered : e.stage.succeeds = true ∨ e.job.state = .completed → s.Registers e.job.path

namespace Sound

variable {e e' : Errand} {s t : Store}

/-- All that matters of a store is which trees are registered. -/
theorem congr (h : e.Sound s) (hs : ∀ path, s.Registers path → t.Registers path) : e.Sound t :=
  { h with registered := fun hr => hs _ (h.registered hr) }

/-- A job is entered. -/
theorem entered (s : Store) {task : Task} (hstate : task.job.state = .pending)
    (hjob : task.job.processedFiles = 0) (hqueue : task.scheduler.queue = .new)
    (hprocessed : task.scheduler.processed = 0) : (Errand.new task).Sound s where
  fits := hstate
  untouched _ := ⟨rfl, hqueue, hprocessed, rfl, rfl⟩
  within _ hlimit := by cases hlimit
  fresh := trivial
  notices := trivial
  told := Nat.le_trans (Nat.le_of_eq hjob) (Nat.zero_le _)
  once _ := rfl
  bounded := Nat.le_trans (Nat.le_of_eq hjob) (Nat.zero_le _)
  registered hr := by
    rcases hr with hr | hr
    · cases hr
    · cases hstate.symm.trans hr

/-- A thread that is neither due nor at its end runs its job. -/
theorem running {stage : Stage} (h : e.Sound s) (hstage : e.stage = stage) (hdue : stage ≠ .due)
    (hended : stage ≠ .ended) : e.job.state = .running := by
  have hfits := h.fits
  rw [hstage] at hfits
  cases stage with
  | due => exact absurd rfl hdue
  | ended => exact absurd rfl hended
  | _ => exact hfits

/-- The thread of a running job comes from one stage to another. -/
theorem moves {stage : Stage} (h : e.Sound s) (hjob : e'.job = e.job)
    (hprocessed : e'.task.scheduler.processed = e.task.scheduler.processed)
    (hagain : e.again ≤ e'.again) (honce : e'.found.Nodup → e'.again = 0)
    (hstate : e.job.state = .running) (hfits : stage.Fits .running)
    (hwithin : ∀ limit, stage.limit? e.job.totalFiles = some limit → e'.Within limit)
    (hfresh : stage.Fresh e'.found e'.queue)
    (hnotices : stage.Notices e.job.processedFiles e.task.scheduler.processed)
    (hregistered : stage.succeeds = true → s.Registers e.job.path) :
    (e'.moveTo stage).Sound s := by
  have hmoved : (e'.moveTo stage).job = e.job := hjob
  have hnumber : (e'.moveTo stage).task.scheduler.processed = e.task.scheduler.processed :=
    hprocessed
  constructor
  case fits => rw [hmoved, hstate]; exact hfits
  case untouched =>
    intro (hdue : stage = .due)
    rw [hdue] at hfits
    cases hfits
  case within =>
    rw [hmoved]
    exact fun limit hlimit => (hwithin limit hlimit).congr rfl rfl rfl rfl rfl
  case fresh => exact hfresh
  case notices => rw [hmoved, hnumber]; exact hnotices
  case told => rw [hmoved, hnumber]; exact h.told
  case once => exact honce
  case bounded => rw [hmoved]; exact Nat.le_trans h.bounded (Nat.add_le_add_left hagain _)
  case registered =>
    rw [hmoved]
    rintro (hsucceeds | hcompleted)
    · exact hregistered hsucceeds
    · cases hstate.symm.trans hcompleted

/-- A running job is told to have come so far. -/
theorem updates {stage : Stage} {processed total : Nat} (honce : e.found.Nodup → e.again = 0)
    (hstate : e.job.state = .running) (hfits : stage.Fits .running)
    (hwithin : ∀ limit, stage.limit? total = some limit → e.Within limit)
    (hfresh : stage.Fresh e.found e.queue)
    (hnotices : stage.Notices processed e.task.scheduler.processed)
    (hsucceeds : stage.succeeds = false) (htold : processed ≤ e.task.scheduler.processed)
    (hbounded : processed ≤ total + e.again) :
    (e.tell { e.job with processedFiles := processed, totalFiles := total } stage).Sound s where
  fits := by
    change stage.Fits e.job.state
    rwa [hstate]
  untouched := by
    intro (hdue : stage = .due)
    rw [hdue] at hfits
    cases hfits
  within limit hlimit := (hwithin limit hlimit).congr rfl rfl rfl rfl rfl
  fresh := hfresh
  notices := hnotices
  told := htold
  once := honce
  bounded := hbounded
  registered := by
    rintro (hdone | hcompleted)
    · cases hsucceeds.symm.trans hdone
    · cases hstate.symm.trans hcompleted

/-- A job that is over. -/
theorem ends (hended : e.stage = .ended) (hstate : e.job.state.isActive = false)
    (htold : e.job.processedFiles ≤ e.task.scheduler.processed)
    (honce : e.found.Nodup → e.again = 0)
    (hbounded : e.job.processedFiles ≤ e.job.totalFiles + e.again)
    (hregistered : e.job.state = .completed → s.Registers e.job.path) : e.Sound s where
  fits := by rw [hended]; exact hstate
  untouched hdue := by cases hended.symm.trans hdue
  within limit hlimit := by rw [hended] at hlimit; cases hlimit
  fresh := by rw [hended]; trivial
  notices := by rw [hended]; trivial
  told := htold
  once := honce
  bounded := hbounded
  registered := by
    rintro (hsucceeds | hcompleted)
    · rw [hended] at hsucceeds
      cases hsucceeds
    · exact hregistered hcompleted

/-- A worker does something. -/
theorem acts (h : e.Sound s) (hjob : e'.job = e.job) (hstage : e'.stage = e.stage)
    (hfound : e'.found = e.found) (hagain : e'.again = e.again)
    (hdue : e.stage = .due → e'.Untouched) (hwithin : ∀ limit, e.Within limit → e'.Within limit)
    (hholds : ∀ limit, e.Within limit → ∀ p, e'.queue.Holds p → e.queue.Holds p)
    (hprocessed : e.task.scheduler.processed ≤ e'.task.scheduler.processed) : e'.Sound s := by
  constructor
  case fits => rw [hjob, hstage]; exact h.fits
  case untouched => rw [hstage]; exact hdue
  case within => rw [hjob, hstage]; exact fun limit hlimit => hwithin limit (h.within limit hlimit)
  case fresh =>
    rw [hstage, hfound]
    exact h.fresh.mono fun limit hlimit => hholds limit (h.within limit hlimit)
  case notices => rw [hjob, hstage]; exact h.notices.mono hprocessed
  case told => rw [hjob]; exact Nat.le_trans h.told hprocessed
  case once => rw [hfound, hagain]; exact h.once
  case bounded => rw [hjob, hagain]; exact h.bounded
  case registered => rw [hjob, hstage]; exact h.registered

end Sound

namespace Works

variable {e e' : Errand} {site site' : Site}

/-- Only telling changes what is told. -/
theorem job_eq (hw : e.Works site e' site') : e'.job = e.job := by
  cases hw <;> rfl

/-- Whatever a thread or a worker does, the job keeps to what is told of it. -/
theorem sound (hw : e.Works site e' site') (h : e.Sound site.backend.store) :
    e'.Sound site'.backend.store := by
  -- Before the thread begins there are no workers.
  have hbusy : e.workers ≠ [] → e.stage ≠ .due := fun hworkers hdue => hworkers (h.untouched hdue).1
  have hfresh := h.fresh
  have hregistered := fun hsucceeds => h.registered (.inl hsucceeds)
  cases hw with
  -- The thread.
  | walks hstage =>
      rw [hstage] at hfresh
      obtain ⟨hnone, hfresh⟩ := hfresh
      -- Nothing was found before, so nothing was asked for.
      have hagain : e.again = 0 := h.once (hnone ▸ List.nodup_nil)
      let found := e.task.scheduler.indexer.walk site.files
      have hmoved : (moveTo { e with found } (.listing found 0)).Sound site.backend.store :=
        h.moves rfl rfl (Nat.le_refl _) (fun _ => hagain) (h.running hstage nofun nofun) rfl
          (fun limit hlimit => (h.within limit (hstage ▸ hlimit)).congr rfl rfl rfl rfl rfl)
          ⟨[], rfl, fun p hp => absurd hp (hfresh p)⟩ trivial nofun
      exact hmoved
  | @lists left path n b queue hstage hqueue =>
      rw [hstage] at hfresh
      obtain ⟨done, hdone, hheld⟩ := hfresh
      have hwithin : e.Within n := h.within n (hstage ▸ rfl)
      refine h.moves rfl rfl (e.again_asking path queue ▸ Nat.le_add_right _ _) (fun hfound => ?_)
        (h.running hstage nofun nofun) rfl ?_ ?_ trivial nofun
      · -- What the queue holds was come to before this file, which stands once in the list.
        have hnew : path ∉ e.queue.inFlight := fun hp => by
          have hfound : e.found.Nodup := hfound
          rw [hdone] at hfound
          exact (List.nodup_append.1 hfound).2.2 path (hheld path (.inr hp)) path
            List.mem_cons_self rfl
        rw [again_asking, if_neg hnew]
        exact h.once hfound
      · intro limit hlimit
        obtain rfl : n + b.toNat = limit := Option.some.inj hlimit
        exact hwithin.asks hqueue
      · refine ⟨done ++ [path], by simp [asking, withQueue, withScheduler, hdone], fun p hp => ?_⟩
        rcases Queue.holds_enqueue hwithin.orderly.isOpen hqueue hp with rfl | hp
        · simp
        · exact List.mem_append_left _ (hheld p hp)
  | compares hstage =>
      rw [hstage] at hfresh
      -- Now the queue holds files that were found only, and what is gone was not found.
      obtain ⟨done, hdone, hheld⟩ := hfresh
      rw [List.append_nil] at hdone
      refine h.moves rfl rfl (Nat.le_refl _) h.once (h.running hstage nofun nofun) rfl
        (fun limit hlimit => h.within limit (hstage ▸ hlimit)) ?_ trivial nofun
      refine ⟨(Tracker.knownPaths_nodup _).filter _, fun p hp hheldp => ?_⟩
      simpa [hdone, hheld p hheldp] using List.of_mem_filter hp
  | @drops left path n b queue hstage hqueue =>
      rw [hstage] at hfresh
      obtain ⟨hleft, hnew⟩ := hfresh
      obtain ⟨hpath, hleft⟩ := List.nodup_cons.1 hleft
      have hwithin : e.Within n := h.within n (hstage ▸ rfl)
      have hsame : (e.asking path queue).again = e.again := by
        rw [again_asking, if_neg fun hp => hnew path List.mem_cons_self (.inr hp)]
        rfl
      refine h.moves rfl rfl (Nat.le_of_eq hsame.symm) (fun hfound => hsame.trans (h.once hfound))
        (h.running hstage nofun nofun) rfl ?_ ?_ trivial nofun
      · intro limit hlimit
        obtain rfl : n + b.toNat = limit := Option.some.inj hlimit
        exact hwithin.asks hqueue
      · refine ⟨hleft, fun p hp hheldp => ?_⟩
        rcases Queue.holds_enqueue hwithin.orderly.isOpen hqueue hheldp with rfl | hheldp
        · exact hpath hp
        · exact hnew p (List.mem_cons_of_mem _ hp) hheldp
  | sums hstage =>
      exact h.moves rfl rfl (Nat.le_refl _) h.once (h.running hstage nofun nofun) rfl
        (fun limit hlimit => h.within limit (hstage ▸ hlimit)) trivial trivial nofun
  | waits hstage _ =>
      exact h.moves rfl rfl (Nat.le_refl _) h.once (h.running hstage nofun nofun) rfl
        (fun limit hlimit => h.within limit (hstage ▸ hlimit)) trivial trivial nofun
  | polls hstage =>
      exact h.moves rfl rfl (Nat.le_refl _) h.once (h.running hstage nofun nofun) rfl
        (fun limit hlimit => h.within limit (hstage ▸ hlimit)) trivial ⟨h.told, Nat.le_refl _⟩ nofun
  | settles hstage _ =>
      exact h.moves rfl rfl (Nat.le_refl _) h.once (h.running hstage nofun nofun) rfl
        (fun limit hlimit => h.within limit (hstage ▸ hlimit)) trivial trivial nofun
  | notes hstage =>
      exact h.moves rfl rfl (Nat.le_refl _) h.once (h.running hstage nofun nofun) rfl
        (fun limit hlimit => h.within limit (hstage ▸ hlimit)) trivial ⟨h.told, Nat.le_refl _⟩ nofun
  | @registers failures result backend hstage hregister =>
      have hkeeps : e.Sound backend.store := h.congr fun _ =>
        Backend.register_keeps hregister
      refine hkeeps.moves rfl rfl (Nat.le_refl _) h.once (h.running hstage nofun nofun) rfl nofun
        trivial trivial ?_
      cases result with
      | ok _ => exact fun _ => Backend.register_ok hregister
      | error _ => nofun
  | breaks hbreak =>
      refine h.moves rfl rfl (Nat.le_refl _) h.once (h.running rfl ?_ ?_) rfl nofun trivial trivial
        nofun
      · intro hstage
        simp [hstage, Stage.mayBreak] at hbreak
      · intro hstage
        simp [hstage, Stage.mayBreak] at hbreak
  | @closes outcome hstage =>
      rw [hstage] at hregistered
      refine h.moves rfl rfl (Nat.le_refl _) h.once (h.running hstage nofun nofun) rfl nofun trivial
        trivial ?_
      cases outcome with
      | ok failures => exact hregistered
      | error _ => nofun
  -- The workers.
  | takes hworkers hqueue =>
      obtain ⟨rest, -, rfl⟩ := Queue.take?_eq hqueue
      exact h.acts rfl rfl rfl rfl (fun hdue => absurd hdue (hbusy (by simp [hworkers])))
        (fun _ hwithin => hwithin.takes hworkers hqueue) (fun _ _ _ => id) (Nat.le_refl _)
  | @starts before after path hworkers =>
      refine h.acts rfl rfl rfl rfl (fun hdue => absurd hdue (hbusy (by simp [hworkers])))
        (fun _ hwithin => hwithin.starts hworkers) (fun _ hwithin p hp => ?_) (Nat.le_refl _)
      rcases Queue.holds_start hp with rfl | hp
      · exact .inl (hwithin.orderly.took (by simp [hworkers]))
      · exact hp
  | learns =>
      exact h.acts rfl rfl rfl rfl h.untouched (fun _ hwithin => hwithin.congr rfl rfl rfl rfl rfl)
        (fun _ _ _ => id) (Nat.le_refl _)
  | counts hworks hnot =>
      exact h.acts rfl rfl rfl rfl (fun hdue => absurd hdue (hbusy (List.ne_nil_of_mem hworks)))
        (fun _ hwithin => hwithin.counts hworks hnot) (fun _ _ _ => id) (Nat.le_succ _)
  | @finishes before after path hworkers hcounted =>
      refine h.acts rfl rfl rfl rfl (fun hdue => absurd hdue (hbusy (by simp [hworkers])))
        (fun _ hwithin => hwithin.finishes hworkers hcounted) (fun _ hwithin p hp => ?_)
        (Nat.le_refl _)
      have hflight := hwithin.counted path hcounted
      exact Queue.holds_finish hwithin.orderly.isOpen
        (fun hmem => hwithin.orderly.apart path hmem hflight) hflight hp

end Works

namespace Tells

variable {e e' : Errand} {s : Store} {now : Int}

/-- Whatever is told, the job keeps to it. -/
theorem sound (ht : e.Tells now e') (h : e.Sound s) : e'.Sound s := by
  have hnotices := h.notices
  have hregistered := fun hsucceeds => h.registered (.inl hsucceeds)
  cases ht with
  | begins n hstage =>
      obtain ⟨-, hqueue, hprocessed, hcounted, hfound⟩ := h.untouched hstage
      refine ⟨rfl, nofun, fun limit hlimit => ?_, ⟨hfound, fun p hp => ?_⟩, trivial, h.told, h.once,
        h.bounded, ?_⟩
      · obtain rfl : 0 = limit := Option.some.inj hlimit
        exact (Within.begins e.task .begun n hqueue hprocessed e.found e.again).congr rfl rfl
          hcounted rfl rfl
      · have hp : e.queue.Holds p := hp
        rw [hqueue] at hp
        rcases hp with hp | hp <;> cases hp
      · rintro (hsucceeds | hcompleted)
        · cases hsucceeds
        · cases hcompleted
  | unspawned message hstage => exact .ends rfl rfl h.told h.once h.bounded nofun
  | @totals n hstage =>
      refine .updates h.once (h.running hstage nofun nofun) rfl (fun limit hlimit => ?_) trivial
        trivial rfl h.told
        (Nat.le_trans h.bounded (Nat.add_le_add_right (Nat.le_max_left _ n) e.again))
      obtain rfl : max e.job.totalFiles n = limit := Option.some.inj hlimit
      exact (h.within n (hstage ▸ rfl)).mono (Nat.le_max_right _ _)
  | @reports n hstage =>
      rw [hstage] at hnotices
      have hwithin : e.Within e.job.totalFiles := h.within _ (hstage ▸ rfl)
      refine .updates h.once (h.running hstage nofun nofun) rfl (fun limit hlimit => ?_) trivial
        trivial rfl hnotices.2 (Nat.le_trans hnotices.2 hwithin.processed_le)
      obtain rfl : e.job.totalFiles = limit := Option.some.inj hlimit
      exact hwithin
  | @leaves n failures hstage =>
      rw [hstage] at hnotices
      have hwithin : e.Within e.job.totalFiles := h.within _ (hstage ▸ rfl)
      exact .updates h.once (h.running hstage nofun nofun) rfl nofun trivial trivial rfl hnotices.2
        (Nat.le_trans hnotices.2 hwithin.processed_le)
  | completes hstage =>
      rw [hstage] at hregistered
      exact .ends rfl rfl h.told h.once h.bounded fun _ => hregistered rfl
  | fails hstage => exact .ends rfl rfl h.told h.once h.bounded nofun

/-- A job only gets on. -/
theorem moves (ht : e.Tells now e') (h : e.Sound s) : e.job.Moves e'.job := by
  have hfits := h.fits
  have hnotices := h.notices
  cases ht with
  | begins n hstage =>
      rw [hstage] at hfits
      have hstate : e.job.state = .pending := hfits
      exact .next rfl (by rw [hstate]; exact .begins) (Nat.le_refl _)
  | unspawned message hstage =>
      rw [hstage] at hfits
      have hstate : e.job.state = .pending := hfits
      exact .next rfl (by rw [hstate]; exact .unspawned) (Nat.le_refl _)
  | totals hstage => exact .runs (h.running hstage nofun nofun) rfl rfl (Nat.le_refl _)
  | reports hstage =>
      rw [hstage] at hnotices
      exact .runs (h.running hstage nofun nofun) rfl rfl hnotices.1
  | leaves hstage =>
      rw [hstage] at hnotices
      exact .runs (h.running hstage nofun nofun) rfl rfl hnotices.1
  | completes hstage =>
      have hstate := h.running hstage nofun nofun
      exact .next rfl (by rw [hstate]; exact .completes) (Nat.le_refl _)
  | fails hstage =>
      have hstate := h.running hstage nofun nofun
      exact .next rfl (by rw [hstate]; exact .fails) (Nat.le_refl _)

end Tells

end Errand

end CodeAtlas
