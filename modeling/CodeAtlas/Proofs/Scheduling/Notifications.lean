import CodeAtlas.Proofs.Scheduling.Worker

/-!
# CodeAtlas.Proofs.Scheduling.Notifications

No notification of a file is lost, in whatever order callers and workers come.

Callers queue files while workers take messages, mark files as being indexed and report that
they are done (`Crew.Step`).  Each of these acts is one use of the queue, and anything may come
between two of them: a caller, too, between the taking of a message and the marking of its file,
when the file still counts as waiting.

`Crew.Orderly` is what every act keeps of the queue itself: each file that waits has one message,
with the queue or in the hands of a worker, and what is to be indexed again is being indexed.
`Crew.Tells` ties the queue to what was done before: a file that was asked for and not started
since waits, or will wait again.  A scheduler is such a crew of one worker
(`Scheduler.step?_acts`).
-/

namespace CodeAtlas

/-! ## Workers that share a queue -/

/-- What a worker is at. -/
inductive Duty where
  /-- It waits for a message. -/
  | free
  /-- It has taken the message of a file, which still counts as waiting. -/
  | took (path : String)
  /-- It has marked a file as being indexed, and indexes it. -/
  | works (path : String)
deriving DecidableEq

/-- A queue with the workers that share it. -/
structure Crew where
  queue : Queue
  workers : List Duty

/-- What is done to a queue. -/
inductive Act where
  /-- A caller queues a file, and is told that this went well. -/
  | notifies (path : String)
  /-- A worker takes a message. -/
  | takes (path : String)
  /-- A worker marks the file of its message as being indexed, and goes on to index it. -/
  | starts (path : String)
  /-- A worker has indexed its file, and reports that. -/
  | finishes (path : String)
deriving DecidableEq

namespace Crew

/-- So many workers at a queue where nothing waits yet. -/
def new (n : Nat) : Crew := ⟨.new, List.replicate n .free⟩

/-- What one act leads to.  Any worker may be the next one, and so may a caller. -/
inductive Step : Crew → Act → Crew → Prop
  | notifies {queue queue' : Queue} {workers : List Duty} {path : String} {b : Bool} :
      queue.enqueue path = (.ok b, queue') →
      Step ⟨queue, workers⟩ (.notifies path) ⟨queue', workers⟩
  | takes {queue queue' : Queue} {before after : List Duty} {path : String} :
      queue.take? = some (path, queue') →
      Step ⟨queue, before ++ .free :: after⟩ (.takes path) ⟨queue', before ++ .took path :: after⟩
  | starts {queue : Queue} {before after : List Duty} {path : String} :
      Step ⟨queue, before ++ .took path :: after⟩ (.starts path)
        ⟨queue.start path, before ++ .works path :: after⟩
  | finishes {queue : Queue} {before after : List Duty} {path : String} :
      Step ⟨queue, before ++ .works path :: after⟩ (.finishes path)
        ⟨queue.finish path, before ++ .free :: after⟩

/-- What acts lead to, one after the other. -/
inductive Acts (c : Crew) : List Act → Crew → Prop
  | nil : Acts c [] c
  | snoc {acts : List Act} {act : Act} {d e : Crew} : Acts c acts d → Step d act e →
      Acts c (acts ++ [act]) e

/-- The queue is open and in order: a file that waits is not being indexed and has one message,
one that is being indexed has one worker, and only such a file is to be indexed again. -/
structure Orderly (c : Crew) : Prop where
  isOpen : c.queue.isOpen = true
  apart : ∀ p ∈ c.queue.queued, p ∉ c.queue.inFlight
  rerun : ∀ p ∈ c.queue.rerun, p ∈ c.queue.inFlight
  messages : ∀ p, c.queue.messages.count p + c.workers.count (.took p) =
    if p ∈ c.queue.queued then 1 else 0
  workers : ∀ p, c.workers.count (.works p) = if p ∈ c.queue.inFlight then 1 else 0

end Crew

/-! ## The queue -/

namespace Queue

variable {q q' : Queue} {path p : String} {paths : List String}

theorem mem_adding : p ∈ adding path paths ↔ p ∈ paths ∨ p = path := by
  by_cases h : path ∈ paths
  · have hsame : adding path paths = paths := by simp [adding, h]
    rw [hsame]
    constructor
    · exact .inl
    · rintro (hp | rfl)
      · exact hp
      · exact h
  · simp [adding, h]

/-- A file that is queued is to be indexed again, or waits already, or gets a message. -/
theorem enqueue_eq (hopen : q.isOpen = true) {b : Bool} (h : q.enqueue path = (.ok b, q')) :
    (path ∈ q.inFlight ∧ q' = { q with rerun := adding path q.rerun }) ∨
    (path ∉ q.inFlight ∧ path ∈ q.queued ∧ q' = q) ∨
    (path ∉ q.inFlight ∧ path ∉ q.queued ∧
      q' = { q with queued := q.queued ++ [path], messages := q.messages ++ [path] }) := by
  obtain rfl : (q.enqueue path).2 = q' := congrArg Prod.snd h
  by_cases hflight : path ∈ q.inFlight
  · simp [enqueue, hflight]
  · by_cases hqueued : path ∈ q.queued
    · simp [enqueue, hflight, hqueued]
    · simp [enqueue, hflight, hqueued, hopen]

theorem take?_eq (h : q.take? = some (path, q')) :
    ∃ rest, q.messages = path :: rest ∧
      q' = { q with messages := rest, taken := some path } := by
  rw [take?] at h
  cases hmessages : q.messages with
  | nil => simp [hmessages] at h
  | cons first rest =>
      simp only [hmessages, Option.some.injEq, Prod.mk.injEq] at h
      obtain ⟨rfl, rfl⟩ := h
      exact ⟨rest, rfl, rfl⟩

theorem take?_cons (h : q.messages = path :: paths) :
    q.take? = some (path, { q with messages := paths, taken := some path }) := by
  simp [take?, h]

/-- A file that is done and does not wait is queued if it was asked for meanwhile. -/
theorem finish_cases (hopen : q.isOpen = true) (hqueued : path ∉ q.queued) :
    (path ∉ q.rerun ∧ q.finish path = { q with inFlight := dropping path q.inFlight }) ∨
    (path ∈ q.rerun ∧ q.finish path =
      { q with
        queued := q.queued ++ [path]
        inFlight := dropping path q.inFlight
        rerun := dropping path q.rerun
        messages := q.messages ++ [path] }) := by
  by_cases hrerun : path ∈ q.rerun
  · simp [finish, hrerun, hqueued, hopen]
  · simp [finish, hrerun]

/-- What is queued waits, or will wait again, and so does all that did before. -/
theorem enqueue_waits (hopen : q.isOpen = true) {b : Bool} (h : q.enqueue path = (.ok b, q')) :
    q'.inFlight = q.inFlight ∧
      ∀ p, p ∈ q'.queued ∨ p ∈ q'.rerun ↔ p = path ∨ p ∈ q.queued ∨ p ∈ q.rerun := by
  rcases enqueue_eq hopen h with ⟨-, rfl⟩ | ⟨-, hqueued, rfl⟩ | ⟨-, -, rfl⟩
  · refine ⟨rfl, fun p => ?_⟩
    rw [mem_adding]
    tauto
  · refine ⟨rfl, fun p => ?_⟩
    constructor
    · exact .inr
    · rintro (rfl | hp)
      · exact .inl hqueued
      · exact hp
  · refine ⟨rfl, fun p => ?_⟩
    rw [List.mem_append, List.mem_singleton]
    tauto

/-- What waits, or will wait again, does so when another file or the file itself is done. -/
theorem finish_waits (hopen : q.isOpen = true) (hqueued : path ∉ q.queued) :
    (q.finish path).inFlight = dropping path q.inFlight ∧
      ∀ p, p ∈ (q.finish path).queued ∨ p ∈ (q.finish path).rerun ↔ p ∈ q.queued ∨ p ∈ q.rerun := by
  rcases finish_cases hopen hqueued with ⟨-, heq⟩ | ⟨hmem, heq⟩
  · rw [heq]
    exact ⟨rfl, fun p => Iff.rfl⟩
  · rw [heq]
    refine ⟨rfl, fun p => ?_⟩
    rw [List.mem_append, List.mem_singleton, mem_dropping]
    by_cases hp : p = path
    · simp [hp, hmem]
    · simp [hp]

end Queue

/-! ## What every act keeps -/

namespace Crew

variable {c d e : Crew} {act : Act} {acts : List Act}

theorem orderly_new (n : Nat) : (new n).Orderly := by
  constructor <;> simp [new, Queue.new, List.count_replicate]

/-- A file that did not wait gets a message of its own. -/
theorem one_message {path : String} {messages queued : List String} {taken : String → Nat}
    (h : ∀ p, messages.count p + taken p = if p ∈ queued then 1 else 0) (hnot : path ∉ queued)
    (p : String) :
    (messages ++ [path]).count p + taken p = if p ∈ queued ++ [path] then 1 else 0 := by
  have hcount := h p
  by_cases heq : p = path
  · subst heq
    simp [hnot] at hcount ⊢
    omega
  · simpa [heq, Ne.symm heq, List.count_append] using hcount

namespace Orderly

variable {queue queue' : Queue} {workers before after : List Duty} {path : String} {b : Bool}

/-- Where every file that waits has one message, that of a worker is the message of such a file. -/
theorem took (h : Orderly ⟨queue, workers⟩) (hmem : .took path ∈ workers) :
    path ∈ queue.queued := by
  have hcount := h.messages path
  have hpos : 0 < workers.count (.took path) := List.count_pos_iff.2 hmem
  by_contra hnot
  simp only [hnot, if_false] at hcount
  omega

theorem works (h : Orderly ⟨queue, workers⟩) (hmem : .works path ∈ workers) :
    path ∈ queue.inFlight := by
  have hcount := h.workers path
  have hpos : 0 < workers.count (.works path) := List.count_pos_iff.2 hmem
  by_contra hnot
  simp only [hnot, if_false] at hcount
  omega

theorem notifies (h : Orderly ⟨queue, workers⟩) (hqueue : queue.enqueue path = (.ok b, queue')) :
    Orderly ⟨queue', workers⟩ := by
  rcases Queue.enqueue_eq h.isOpen hqueue with
    ⟨hflight, rfl⟩ | ⟨hflight, hqueued, rfl⟩ | ⟨hflight, hqueued, rfl⟩
  · refine ⟨h.isOpen, h.apart, fun p hp => ?_, h.messages, h.workers⟩
    rcases Queue.mem_adding.1 hp with hp | rfl
    · exact h.rerun p hp
    · exact hflight
  · exact h
  · refine ⟨h.isOpen, fun p hp => ?_, h.rerun, one_message h.messages hqueued, h.workers⟩
    rcases List.mem_append.1 hp with hp | hp
    · exact h.apart p hp
    · rwa [List.mem_singleton.1 hp]

theorem takes (h : Orderly ⟨queue, before ++ .free :: after⟩)
    (hqueue : queue.take? = some (path, queue')) :
    Orderly ⟨queue', before ++ .took path :: after⟩ := by
  obtain ⟨rest, hrest, rfl⟩ := Queue.take?_eq hqueue
  refine ⟨h.isOpen, h.apart, h.rerun, fun p => ?_, fun p => ?_⟩
  · have hcount := h.messages p
    simp [hrest, List.count_cons] at hcount ⊢
    omega
  · have hcount := h.workers p
    simpa using hcount

theorem starts (h : Orderly ⟨queue, before ++ .took path :: after⟩) :
    Orderly ⟨queue.start path, before ++ .works path :: after⟩ := by
  have hqueued : path ∈ queue.queued := h.took (by simp)
  have hflight : path ∉ queue.inFlight := h.apart path hqueued
  refine ⟨h.isOpen, fun p hp => ?_, fun p hp => ?_, fun p => ?_, fun p => ?_⟩
  · obtain ⟨hp, hne⟩ := Queue.mem_dropping.1 hp
    simp [Queue.start, Queue.mem_adding, h.apart p hp, hne]
  · exact Queue.mem_adding.2 (.inl (h.rerun p hp))
  · have hcount := h.messages p
    by_cases heq : p = path
    · subst heq
      simp [Queue.start, Queue.mem_dropping, hqueued] at hcount ⊢
      omega
    · simpa [Queue.start, Queue.mem_dropping, heq, Ne.symm heq] using hcount
  · have hcount := h.workers p
    by_cases heq : p = path
    · subst heq
      simp [Queue.start, Queue.mem_adding, hflight] at hcount ⊢
      omega
    · simpa [Queue.start, Queue.mem_adding, heq, Ne.symm heq] using hcount

theorem finishes (h : Orderly ⟨queue, before ++ .works path :: after⟩) :
    Orderly ⟨queue.finish path, before ++ .free :: after⟩ := by
  have hflight : path ∈ queue.inFlight := h.works (by simp)
  have hqueued : path ∉ queue.queued := fun hmem => h.apart path hmem hflight
  have hmessages : ∀ p, queue.messages.count p + (before ++ .free :: after).count (.took p) =
      if p ∈ queue.queued then 1 else 0 := by
    intro p
    have hcount := h.messages p
    simpa using hcount
  have hworkers : ∀ p, (before ++ .free :: after).count (.works p) =
      if p ∈ Queue.dropping path queue.inFlight then 1 else 0 := by
    intro p
    have hcount := h.workers p
    by_cases heq : p = path
    · subst heq
      simp [Queue.mem_dropping, hflight] at hcount ⊢
      omega
    · simpa [Queue.mem_dropping, heq, Ne.symm heq] using hcount
  rcases Queue.finish_cases h.isOpen hqueued with ⟨hnot, heq⟩ | ⟨hmem, heq⟩
  · rw [heq]
    refine ⟨h.isOpen, fun p hp hdrop => ?_, fun p hp => ?_, hmessages, hworkers⟩
    · exact h.apart p hp (Queue.mem_dropping.1 hdrop).1
    · refine Queue.mem_dropping.2 ⟨h.rerun p hp, ?_⟩
      rintro rfl
      exact hnot hp
  · rw [heq]
    refine ⟨h.isOpen, fun p hp hdrop => ?_, fun p hp => ?_, one_message hmessages hqueued,
      hworkers⟩
    · obtain ⟨hp', hne⟩ := Queue.mem_dropping.1 hdrop
      rcases List.mem_append.1 hp with hp | hp
      · exact h.apart p hp hp'
      · exact hne (List.mem_singleton.1 hp)
    · obtain ⟨hp, hne⟩ := Queue.mem_dropping.1 hp
      exact Queue.mem_dropping.2 ⟨h.rerun p hp, hne⟩

/-- One act leaves the queue in order. -/
theorem step (h : c.Orderly) (hstep : Step c act d) : d.Orderly := by
  cases hstep with
  | notifies hqueue => exact h.notifies hqueue
  | takes hqueue => exact h.takes hqueue
  | starts => exact h.starts
  | finishes => exact h.finishes

end Orderly

/-- What acts lead to is in order. -/
theorem Acts.orderly (h : c.Acts acts d) (hc : c.Orderly) : d.Orderly := by
  induction h with
  | nil => exact hc
  | snoc _ hstep ih => exact ih.step hstep

end Crew

/-! ## What was asked for -/

/-- Whether the one act was done, and the other one not since. -/
def Act.Since (act other : Act) (acts : List Act) : Prop :=
  ∃ earlier later, acts = earlier ++ act :: later ∧ other ∉ later

theorem Act.since_snoc {act other last : Act} {acts : List Act} :
    act.Since other (acts ++ [last]) ↔ last = act ∨ (act.Since other acts ∧ last ≠ other) := by
  constructor
  · rintro ⟨earlier, later, heq, hnot⟩
    rcases List.eq_nil_or_concat later with rfl | ⟨later, x, rfl⟩
    · have hlast := List.append_inj' heq rfl
      simp at hlast
      exact .inl hlast.2
    · rw [List.concat_eq_append] at heq hnot
      have hsplit : acts ++ [last] = (earlier ++ act :: later) ++ [x] := by simp [heq]
      obtain ⟨rfl, hlast⟩ := List.append_inj' hsplit rfl
      obtain rfl : last = x := by simpa using hlast
      simp only [List.mem_append, List.mem_singleton, not_or] at hnot
      exact .inr ⟨⟨earlier, later, rfl, hnot.1⟩, Ne.symm hnot.2⟩
  · rintro (rfl | ⟨⟨earlier, later, rfl, hnot⟩, hne⟩)
    · exact ⟨acts, [], rfl, List.not_mem_nil⟩
    · exact ⟨earlier, later ++ [last], by simp, by simp [hnot, Ne.symm hne]⟩

namespace Crew

variable {c d e : Crew} {act : Act} {acts : List Act} {n : Nat}

/-- The queue knows what was done: a file that was asked for and not started since waits, or is
to be indexed again, and one that was started and is not done is being indexed. -/
structure Tells (c : Crew) (acts : List Act) : Prop where
  notified : ∀ p, (Act.notifies p).Since (.starts p) acts →
    p ∈ c.queue.queued ∨ p ∈ c.queue.rerun
  started : ∀ p, (Act.starts p).Since (.finishes p) acts → p ∈ c.queue.inFlight

theorem tells_new (n : Nat) : (new n).Tells [] := by
  constructor <;> simp [Act.Since]

/-- The queue knows of one act more. -/
theorem Tells.step (h : c.Tells acts) (hc : c.Orderly) (hstep : Step c act d) :
    d.Tells (acts ++ [act]) := by
  obtain ⟨hnotified, hstarted⟩ := h
  cases hstep with
  | @notifies queue queue' workers path b hqueue =>
      obtain ⟨hflight, hwaits⟩ := Queue.enqueue_waits hc.isOpen hqueue
      refine ⟨fun p hp => (hwaits p).2 ?_, fun p hp => ?_⟩
      · simp only [Act.since_snoc, Act.notifies.injEq] at hp
        rcases hp with rfl | ⟨hp, -⟩
        · exact .inl rfl
        · exact .inr (hnotified p hp)
      · simp only [Act.since_snoc, reduceCtorEq, false_or] at hp
        simp only [hflight]
        exact hstarted p hp.1
  | @takes queue queue' before after path hqueue =>
      obtain ⟨rest, -, rfl⟩ := Queue.take?_eq hqueue
      refine ⟨fun p hp => ?_, fun p hp => ?_⟩
      · simp only [Act.since_snoc, reduceCtorEq, false_or] at hp
        exact hnotified p hp.1
      · simp only [Act.since_snoc, reduceCtorEq, false_or] at hp
        exact hstarted p hp.1
  | @starts queue before after path =>
      refine ⟨fun p hp => ?_, fun p hp => ?_⟩
      · simp only [Act.since_snoc, reduceCtorEq, false_or, ne_eq, Act.starts.injEq] at hp
        refine (hnotified p hp.1).imp_left fun hqueued => ?_
        exact Queue.mem_dropping.2 ⟨hqueued, Ne.symm hp.2⟩
      · simp only [Act.since_snoc, Act.starts.injEq] at hp
        rcases hp with rfl | ⟨hp, -⟩
        · exact Queue.mem_adding.2 (.inr rfl)
        · exact Queue.mem_adding.2 (.inl (hstarted p hp))
  | @finishes queue before after path =>
      have hqueued : path ∉ queue.queued :=
        fun hmem => hc.apart path hmem (hc.works (by simp))
      obtain ⟨hflight, hwaits⟩ := Queue.finish_waits hc.isOpen hqueued
      refine ⟨fun p hp => (hwaits p).2 ?_, fun p hp => ?_⟩
      · simp only [Act.since_snoc, reduceCtorEq, false_or] at hp
        exact hnotified p hp.1
      · simp only [Act.since_snoc, reduceCtorEq, false_or, ne_eq, Act.finishes.injEq] at hp
        simp only [hflight]
        exact Queue.mem_dropping.2 ⟨hstarted p hp.1, Ne.symm hp.2⟩

theorem Acts.tells (h : (new n).Acts acts c) : c.Tells acts := by
  induction h with
  | nil => exact tells_new n
  | snoc hbefore hstep ih => exact ih.step (hbefore.orderly (orderly_new n)) hstep

/-- When nothing waits and nothing is being indexed, each file was indexed since it was asked
for. -/
theorem Tells.idle (h : c.Tells acts) (hidle : c.queue.isIdle = true) {p : String}
    {earlier later : List Act} (hacts : acts = earlier ++ .notifies p :: later) :
    ∃ mid rest, later = mid ++ .starts p :: rest ∧ .finishes p ∈ rest := by
  simp only [Queue.isIdle, Bool.and_eq_true, List.isEmpty_iff] at hidle
  obtain ⟨⟨hqueued, hflight⟩, hrerun⟩ := hidle
  have hstarts : .starts p ∈ later := by
    by_contra hnot
    have hp := h.notified p ⟨earlier, later, hacts, hnot⟩
    simp [hqueued, hrerun] at hp
  obtain ⟨mid, rest, rfl⟩ := List.append_of_mem hstarts
  refine ⟨mid, rest, rfl, ?_⟩
  by_contra hnot
  have hp := h.started p ⟨earlier ++ .notifies p :: mid, rest, by simp [hacts], hnot⟩
  simp [hflight] at hp

/-- **No notification is lost.**  Whatever callers and any number of workers have done to a
queue that is not shut, in whatever order:

1. no file that waits is being indexed, what is to be indexed again is being indexed, and each
   file that waits has exactly one message, with the queue or just taken by a worker;
2. a file that was asked for and has not been started since waits, or will wait again, whether
   the caller was told that it was queued or that it was not;
3. so when nothing waits and nothing is being indexed, each file was started, and done, after
   it was asked for the last time.

A file is started when it is marked as being indexed: whatever is read of it is read between
that and the report that it is done. -/
theorem no_notification_lost (h : (new n).Acts acts c) :
    (∀ p ∈ c.queue.queued, p ∉ c.queue.inFlight) ∧
    (∀ p ∈ c.queue.rerun, p ∈ c.queue.inFlight) ∧
    (∀ p, c.queue.messages.count p + c.workers.count (.took p) =
      if p ∈ c.queue.queued then 1 else 0) ∧
    (∀ p, (Act.notifies p).Since (.starts p) acts → p ∈ c.queue.queued ∨ p ∈ c.queue.rerun) ∧
    (c.queue.isIdle = true → ∀ p earlier later, acts = earlier ++ .notifies p :: later →
      ∃ mid rest, later = mid ++ .starts p :: rest ∧ .finishes p ∈ rest) := by
  have horderly := h.orderly (orderly_new n)
  have htells := h.tells
  refine ⟨horderly.apart, horderly.rerun, horderly.messages, htells.notified, ?_⟩
  intro hidle p earlier later hacts
  exact htells.idle hidle hacts

/-- What is done to one file at a queue with two workers: it is asked for again when its message
was taken already, and once more while it is being indexed. -/
def askedTwiceMore (path : String) : List Act :=
  [.notifies path, .takes path, .notifies path, .starts path, .notifies path, .finishes path,
    .takes path, .starts path, .finishes path]

theorem no_notification_lost_asked_twice_more : ∃ c,
    (new 2).Acts (askedTwiceMore "a.py") c ∧ c.queue.isIdle = true ∧
    ∀ earlier later, askedTwiceMore "a.py" = earlier ++ .notifies "a.py" :: later →
      ∃ mid rest, later = mid ++ .starts "a.py" :: rest ∧ .finishes "a.py" ∈ rest := by
  have htaken : (new 2).Acts [.notifies "a.py", .takes "a.py"]
      ⟨⟨["a.py"], [], [], [], some "a.py", true⟩, [.took "a.py", .free]⟩ :=
    .snoc (.snoc .nil (.notifies rfl)) (@Step.takes _ _ [] [.free] _ rfl)
  have hstarted : (new 2).Acts [.notifies "a.py", .takes "a.py", .notifies "a.py", .starts "a.py"]
      ⟨⟨[], ["a.py"], [], [], none, true⟩, [.works "a.py", .free]⟩ :=
    .snoc (.snoc htaken (.notifies rfl)) (@Step.starts _ [] [.free] _)
  have hagain : (new 2).Acts ((askedTwiceMore "a.py").take 6)
      ⟨⟨["a.py"], [], [], ["a.py"], none, true⟩, [.free, .free]⟩ :=
    .snoc (.snoc hstarted (.notifies rfl)) (@Step.finishes _ [] [.free] _)
  have hdone : (new 2).Acts (askedTwiceMore "a.py")
      ⟨⟨[], [], [], [], none, true⟩, [.free, .free]⟩ :=
    .snoc (.snoc (.snoc hagain (@Step.takes _ _ [.free] [] _ rfl)) (@Step.starts _ [.free] [] _))
      (@Step.finishes _ [.free] [] _)
  obtain ⟨-, -, -, -, hidle⟩ := no_notification_lost hdone
  exact ⟨_, hdone, rfl, hidle rfl "a.py"⟩

/-! ## A scheduler is a crew of one -/

theorem Acts.append {acts' : List Act} (h : c.Acts acts d) (h' : d.Acts acts' e) :
    c.Acts (acts ++ acts') e := by
  induction h' with
  | nil => simpa using h
  | snoc _ hstep ih =>
      rw [← List.append_assoc]
      exact .snoc ih hstep

/-- A lone worker takes a message and marks its file. -/
theorem Acts.takes_starts {queue queue' : Queue} {path : String}
    (h : queue.take? = some (path, queue')) :
    Acts ⟨queue, [.free]⟩ [.takes path, .starts path] ⟨queue'.start path, [.works path]⟩ :=
  .snoc (.snoc .nil (@Step.takes _ _ [] [] _ h)) (@Step.starts _ [] [] _)

/-- To queue files together is to queue one after the other. -/
theorem enqueueAll_acts {queue queue' : Queue} {workers : List Duty} {paths : List String}
    {n : Nat} (h : queue.enqueueAll paths = (.ok n, queue')) :
    Acts ⟨queue, workers⟩ (paths.map .notifies) ⟨queue', workers⟩ := by
  induction paths generalizing queue n with
  | nil =>
      cases h
      exact .nil
  | cons path paths ih =>
      rw [Queue.enqueueAll] at h
      cases hfirst : queue.enqueue path with
      | mk result mid =>
        cases result with
        | error e => simp [hfirst] at h
        | ok b =>
          cases hrest : mid.enqueueAll paths with
          | mk result last =>
            cases result with
            | error e => simp [hfirst, hrest] at h
            | ok m =>
              simp only [hfirst, hrest, Prod.mk.injEq] at h
              have hone : Acts ⟨queue, workers⟩ [.notifies path] ⟨mid, workers⟩ :=
                .snoc .nil (.notifies hfirst)
              obtain ⟨-, rfl⟩ := h
              exact hone.append (ih hrest)

end Crew

namespace Scheduler

variable {s s' : Scheduler}

/-- The queue of a scheduler with its worker, which may be waiting for the store. -/
def crew (s : Scheduler) : Crew :=
  ⟨s.queue, [s.stalled.elim .free fun waiting => .works waiting.1]⟩

theorem enqueue_acts {path : String} {b : Bool} (h : s.enqueue path = (.ok b, s')) :
    s.crew.Acts [.notifies path] s'.crew := by
  rw [enqueue] at h
  cases hqueue : s.queue.enqueue path with
  | mk result queue =>
    simp only [hqueue, Prod.mk.injEq] at h
    obtain ⟨rfl, rfl⟩ := h
    exact .snoc .nil (.notifies hqueue)

theorem reindex_acts {path : String} {b : Bool} (h : s.reindex path = (.ok b, s')) :
    s.crew.Acts [.notifies path] s'.crew :=
  @enqueue_acts { s with tracker := s.tracker.invalidate path } s' path b h

/-- A reconciliation queues the files of the tree, and then those that are gone. -/
theorem reconcile_acts {files : FileTree} {r : Reconciliation}
    (h : s.reconcile files = (.ok r, s')) :
    s.crew.Acts ((s.indexer.walk files ++
      s.tracker.knownPaths.filter fun p => !(s.indexer.walk files).contains p).map .notifies)
      s'.crew := by
  rw [reconcile] at h
  cases hfound : s.queue.enqueueAll (s.indexer.walk files) with
  | mk result queue =>
    cases result with
    | error e => simp [hfound] at h
    | ok n =>
      cases hgone : queue.enqueueAll
          (s.tracker.knownPaths.filter fun p => !(s.indexer.walk files).contains p) with
      | mk result queue' =>
        cases result with
        | error e =>
          simp only [hfound, hgone] at h
          cases h
        | ok m =>
          simp only [hfound, hgone, Prod.mk.injEq] at h
          rw [List.map_append, ← h.2]
          exact (Crew.enqueueAll_acts hfound).append (Crew.enqueueAll_acts hgone)

theorem crew_free (h : s.stalled = none) : s.crew = ⟨s.queue, [.free]⟩ := by
  simp [crew, h]

/-- What the worker does in a step is done as by a crew of one. -/
theorem step?_acts {held : Bool} {site : Site} {next : Scheduler × Site}
    (h : s.step? held site = some next) : ∃ acts, s.crew.Acts acts next.1.crew := by
  cases step?_stepped h with
  | @resumed relative c hstalled =>
      have hcrew : s.crew = ⟨s.queue, [.works relative]⟩ := by simp [crew, hstalled]
      rw [hcrew]
      exact ⟨_, .snoc .nil (@Crew.Step.finishes _ [] [] _)⟩
  | @waits relative rest c t hstalled hmessages hd =>
      rw [crew_free hstalled]
      exact ⟨_, Crew.Acts.takes_starts (Queue.take?_cons hmessages)⟩
  | @indexed relative rest hstalled hmessages =>
      rw [crew_free hstalled]
      have hstarted := Crew.Acts.takes_starts (Queue.take?_cons hmessages)
      exact ⟨_, hstarted.snoc (@Crew.Step.finishes _ [] [] _)⟩

end Scheduler

end CodeAtlas
