import CodeAtlas.Proofs.Indexing.Known
import CodeAtlas.Scheduling.Scheduler

/-!
# CodeAtlas.Proofs.Scheduling.Worker

What the worker of a scheduler does in one step, and step after step.

A step takes a file and indexes it, or decides it and waits for the store, or goes on with the
file that waits (`Scheduler.Stepped`).  A file that is tried several times goes through the
states that its attempts leave, and a failure is noted after each (`Scheduler.trial_ends`).
Where nobody asks for anything more, steps lead from one scheduler to another
(`Scheduler.Works`), and in the end to an empty queue (`Scheduler.run_idle`).
-/

namespace CodeAtlas

open Indexing Upsert

/-! ## Trying several times -/

/-- What the first attempt, all further ones and all notes keep is kept in the end; and where
each attempt that gives something, and the last note, lead to, a trial leads to. -/
theorem Retry.after_ends {α σ : Type} {I Q : σ → Prop} {again : σ → Except Error α × σ}
    {note : Error → Bool → σ → σ} (r : Retry) (stopping : Bool)
    (hagain : ∀ s, I s → I (again s).2 ∧ ∀ a, (again s).1 = .ok a → Q (again s).2)
    (hnote : ∀ e last s, I s → I (note e last s)) (hlast : ∀ e s, I s → Q (note e true s))
    (left number : Nat) {first : Except Error α × σ}
    (hfirst : I first.2 ∧ ∀ a, first.1 = .ok a → Q first.2) :
    I (r.after stopping again note left number first).state ∧
      Q (r.after stopping again note left number first).state := by
  induction left generalizing number first with
  | zero =>
      obtain ⟨result, s⟩ := first
      cases result with
      | ok a => exact ⟨hfirst.1, hfirst.2 a rfl⟩
      | error e => exact ⟨hnote e true s hfirst.1, hlast e s hfirst.1⟩
  | succ left ih =>
      obtain ⟨result, s⟩ := first
      cases result with
      | ok a => exact ⟨hfirst.1, hfirst.2 a rfl⟩
      | error e =>
          rw [after]
          split
          · exact ih (number + 1) (hagain _ (hnote e false s hfirst.1))
          · exact ⟨hnote e true s hfirst.1, hlast e s hfirst.1⟩

namespace Scheduler

variable {s : Scheduler} {site : Site} {relative : String}

theorem trial_ends {I Q : IndexState → Prop}
    (hindex : ∀ t, I t → I ((s.indexer.indexFile relative).run t).2 ∧
      ∀ outcome, ((s.indexer.indexFile relative).run t).1 = .ok outcome →
        Q ((s.indexer.indexFile relative).run t).2)
    (hnote : ∀ e last t, I t → I (note relative e last t))
    (hlast : ∀ e t, I t → Q (note relative e true t))
    {first : Except Error FileOutcome × IndexState}
    (hfirst : I first.2 ∧ ∀ outcome, first.1 = .ok outcome → Q first.2) :
    I (s.trial relative first).state ∧ Q (s.trial relative first).state :=
  s.retry.after_ends s.isStopping hindex hnote hlast _ _ hfirst

/-! ## Steps -/

/-- The scheduler when the worker has taken a file. -/
def takes (s : Scheduler) (relative : String) (rest : List String) : Scheduler :=
  { s with queue := { s.queue with messages := rest, taken := some relative }.start relative }

/-- What the worker does in one step. -/
inductive Stepped (s : Scheduler) (site : Site) : Scheduler × Site → Prop
  /-- It goes on with the file that waited for the store. -/
  | resumed {relative : String} {c : FileChange} : s.stalled = some (relative, c) →
      Stepped s site (s.finish relative ((s.indexer.complete c).run ⟨site, s.tracker⟩))
  /-- It takes a file, and waits for the store. -/
  | waits {relative : String} {rest : List String} {c : FileChange} {t : IndexState} :
      s.stalled = none → s.queue.messages = relative :: rest →
      (s.indexer.decide relative).run ⟨site, s.tracker⟩ = (.ok (.change c), t) →
      Stepped s site ({ s.takes relative rest with
        tracker := t.tracker, stalled := some (relative, c) }, t.site)
  /-- It takes a file and indexes it. -/
  | indexed {relative : String} {rest : List String} :
      s.stalled = none → s.queue.messages = relative :: rest →
      Stepped s site ((s.takes relative rest).finish relative
        ((s.indexer.indexFile relative).run ⟨site, s.tracker⟩))

theorem step?_stepped {held : Bool} {next : Scheduler × Site}
    (h : s.step? held site = some next) : s.Stepped site next := by
  rw [step?] at h
  split at h
  · next relative c hstalled =>
    split at h
    · cases h
    · cases h
      exact .resumed hstalled
  · next hstalled =>
    split at h
    · cases h
    · simp only [Queue.take?] at h
      cases hmessages : s.queue.messages with
      | nil =>
          rw [hmessages] at h
          cases h
      | cons relative rest =>
          rw [hmessages] at h
          have hindexed : s.Stepped site _ := .indexed hstalled hmessages
          rw [Indexer.indexFile, run_bind] at hindexed
          simp only [] at h
          split at h
          · next e t hd =>
            cases h
            have hd : (s.indexer.decide relative).run ⟨site, s.tracker⟩ = (.error e, t) := hd
            rw [hd] at hindexed
            exact hindexed
          · next outcome t hd =>
            cases h
            have hd : (s.indexer.decide relative).run ⟨site, s.tracker⟩ =
              (.ok (.done outcome), t) := hd
            rw [hd] at hindexed
            exact hindexed
          · next c t hd =>
            have hd : (s.indexer.decide relative).run ⟨site, s.tracker⟩ = (.ok (.change c), t) := hd
            split at h
            · cases h
              exact .waits hstalled hmessages hd
            · cases h
              rw [hd] at hindexed
              exact hindexed

/-- A worker that can write to the store indexes the next file. -/
theorem step?_takes {rest : List String} (hstalled : s.stalled = none)
    (hrunning : s.isStopping = false) (hmessages : s.queue.messages = relative :: rest) :
    s.step? false site = some ((s.takes relative rest).finish relative
      ((s.indexer.indexFile relative).run ⟨site, s.tracker⟩)) := by
  obtain ⟨i, tracker, retry, queue, stalled, processed, isStopping⟩ := s
  obtain rfl : stalled = none := hstalled
  obtain rfl : isStopping = false := hrunning
  obtain ⟨queued, inFlight, rerun, messages, taken, isOpen⟩ := queue
  obtain rfl : messages = relative :: rest := hmessages
  rw [Indexer.indexFile, run_bind]
  cases hd : (i.decide relative).run ⟨site, tracker⟩ with
  | mk result t =>
    have hd : (i.decide relative).run.run ⟨site, tracker⟩ = (result, t) := hd
    rw [step?]
    simp only [Queue.take?, hd]
    cases result with
    | error e => rfl
    | ok d => cases d <;> rfl

theorem Stepped.indexer {next : Scheduler × Site} (h : s.Stepped site next) :
    next.1.indexer = s.indexer := by
  cases h <;> rfl

/-! ## Working on the queue -/

/-- What a worker leads to that nobody asks for anything more.  Meanwhile times and the
circumstances of the store change in any way, but neither the files nor what is stored. -/
inductive Works : Scheduler → Site → Scheduler → Site → Prop
  | refl {s : Scheduler} {site : Site} : Works s site s site
  /-- The worker does a step; `held` says that the store cannot be written now. -/
  | step {s s' s'' : Scheduler} {site site' site'' : Site} (held : Bool) : Works s site s' site' →
      s'.step? held site' = some (s'', site'') → Works s site s'' site''
  | meanwhile {s s' : Scheduler} {site site' site'' : Site} : Works s site s' site' →
      site''.files = site'.files → site''.backend.store = site'.backend.store →
      Works s site s' site''

namespace Works

variable {s' : Scheduler} {site' : Site}

theorem indexer (h : s.Works site s' site') : s'.indexer = s.indexer := by
  induction h with
  | refl => rfl
  | step held _ hstep ih => exact (step?_stepped hstep).indexer.trans ih
  | meanwhile _ _ _ ih => exact ih

theorem steps (h : s.Works site s' site') (held : Bool) (n : Nat) :
    s.Works site (Scheduler.steps held n (s', site')).1 (Scheduler.steps held n (s', site')).2 := by
  induction n generalizing s' site' with
  | zero => exact h
  | succ n ih =>
      rw [Scheduler.steps]
      split
      · exact h
      · next hstep => exact ih (.step held h hstep)

/-- To work until nothing is left to do is to work. -/
theorem run (s : Scheduler) (held : Bool) (site : Site) :
    s.Works site (s.run held site).1 (s.run held site).2 := refl.steps held _

end Works

end Scheduler

/-- Whether nothing is being indexed, and each file that waits has one message. -/
structure Queue.Waits (q : Queue) : Prop where
  messages : q.messages = q.queued
  nodup : q.queued.Nodup
  inFlight : q.inFlight = []
  rerun : q.rerun = []

namespace Queue

variable {q : Queue} {path : String} {rest : List String}

theorem mem_dropping {p : String} {paths : List String} :
    p ∈ dropping path paths ↔ p ∈ paths ∧ p ≠ path := by
  rw [dropping, List.mem_filter, bne_iff_ne]

/-- To report that a file is done may queue that file again, and drops no other one. -/
theorem finish_spec (q : Queue) (path : String) :
    (∀ p ∈ q.queued, p ∈ (q.finish path).queued) ∧
      ∀ p ∈ (q.finish path).messages, p ∈ q.messages ∨ p = path := by
  rw [finish]
  simp only []
  split
  · exact ⟨fun p hp => hp, fun p hp => .inl hp⟩
  · split
    · exact ⟨fun p hp => hp, fun p hp => .inl hp⟩
    · refine ⟨fun p hp => List.mem_append_left _ hp, fun p hp => ?_⟩
      split at hp
      · rwa [List.mem_append, List.mem_singleton] at hp
      · exact .inl hp

/-- When the first file that waits is done, the others wait. -/
theorem Waits.finish (h : q.Waits) (hmessages : q.messages = path :: rest) :
    ({ q with messages := rest, taken := some path }.start path).finish path =
      { q with queued := rest, messages := rest, taken := none } ∧ rest.Nodup := by
  have hqueued : q.queued = path :: rest := h.messages.symm.trans hmessages
  obtain ⟨hnot, hrest⟩ := List.nodup_cons.1 (hqueued ▸ h.nodup)
  have hdrop : dropping path q.queued = rest := by
    rw [hqueued, dropping, List.filter_cons_of_neg (by simp), List.filter_eq_self]
    intro p hp
    rw [bne_iff_ne]
    rintro rfl
    exact hnot hp
  have hflight : dropping path (adding path q.inFlight) = q.inFlight := by
    simp [dropping, adding, h.inFlight]
  have hrerun : ¬ path ∈ q.rerun := by
    rw [h.rerun]
    exact nofun
  refine ⟨?_, hrest⟩
  rw [Queue.finish, if_pos (by simpa [Queue.start] using hrerun)]
  simp only [Queue.start, hdrop, hflight]

end Queue

namespace Scheduler

variable {s : Scheduler} {site : Site}

/-- A worker that can write to the store comes to the end of the queue. -/
theorem run_idle (hstalled : s.stalled = none) (hrunning : s.isStopping = false)
    (h : s.queue.Waits) : (s.run false site).1.queue.isIdle = true := by
  suffices hsteps : ∀ n, s.queue.messages.length < n →
      (steps false n (s, site)).1.queue.isIdle = true by
    exact hsteps _ (Nat.lt_succ_of_le (Nat.le_add_right ..))
  intro n
  induction n generalizing s site with
  | zero => exact fun hn => absurd hn (Nat.not_lt_zero _)
  | succ n ih =>
      intro hn
      rw [steps]
      cases hmessages : s.queue.messages with
      | nil =>
          have hnone : s.step? false site = none := by
            simp [step?, hstalled, hrunning, Queue.take?, hmessages]
          have hqueued : s.queue.queued = [] := h.messages.symm.trans hmessages
          rw [hnone]
          simp [Queue.isIdle, hqueued, h.inFlight, h.rerun]
      | cons relative rest =>
          obtain ⟨hqueue, hrest⟩ := h.finish hmessages
          rw [step?_takes hstalled hrunning hmessages]
          have hnext : ((s.takes relative rest).queue.finish relative) =
              { s.queue with queued := rest, messages := rest, taken := none } := hqueue
          rw [hmessages] at hn
          refine ih rfl hrunning ?_ ?_
          · change Queue.Waits ((s.takes relative rest).queue.finish relative)
            rw [hnext]
            exact ⟨rfl, hrest, h.inFlight, h.rerun⟩
          · change ((s.takes relative rest).queue.finish relative).messages.length < n
            rw [hnext]
            exact Nat.lt_of_succ_lt_succ hn

end Scheduler

end CodeAtlas
