import CodeAtlas.Proofs.Indexing.Known
import CodeAtlas.Proofs.Scheduling.Notifications
import Mathlib.Logic.Relation

/-!
# CodeAtlas.Proofs.Scheduling.Pool

Several workers that index files of one tree at a time.

They share the queue, the tracker, the files and the store, and callers may index files
themselves meanwhile.  To index a file takes several steps, and anything may come between two of
them (`Thread.Step`):

1. the file is read;
2. its content is compared with what is known, and the file is marked as being worked on;
3. it is parsed and resolved, for which the store is asked this and that at different times;
4. the change is carried out in the store, in one transaction;
5. what is known of the file then is noted;
6. its heirs are indexed again, each in these steps.

The queue hands a file to one worker at a time, but an heir is indexed by the worker of another
file, whoever else may be at it.  A thread that nothing comes between does what indexing a file
comes to (`Indexer.Course.leads`), so a scheduler is a pool with one worker
(`Scheduler.step?_leads`, `Scheduler.Works.leads`); and of its queue a pool makes the use of a
crew (`Pool.Step.acts`).
-/

namespace CodeAtlas

open Indexing Upsert

/-! ## Indexing in steps -/

/-- What comes next for a file. -/
inductive IndexPoint where
  /-- The file is to be read. -/
  | reads (relative : String)
  /-- What was read is to be compared with what is known. -/
  | compares (relative : String) (language : Lang) (content : ByteArray)
  /-- The file is to be parsed and resolved. -/
  | resolves (relative : String) (language : Lang) (content : ByteArray)
  /-- A change is to be carried out in the store. -/
  | writes (c : FileChange)
  /-- The store has the change, and it is to be noted. -/
  | notes (c : FileChange) (done : Commit)
  /-- Heirs are to be indexed again, before the outcome is given. -/
  | hands (heirs : List String) (outcome : FileOutcome)
  | ends (result : Except Error FileOutcome)

/-- An heir that is being indexed again. -/
structure Heir where
  relative : String
  /-- The heirs that come after it. -/
  rest : List String
  /-- The outcome of the file whose heir it is. -/
  outcome : FileOutcome

/-- How far a thread has got with a file. -/
structure Thread where
  point : IndexPoint
  /-- The heirs on whose account it is at that file, the last one first. -/
  heirs : List Heir

namespace Thread

/-- What a thread does next.  Files and store are as they are at that moment; but the look-ups
of a resolution are answered at different times, by whatever is stored then. -/
inductive Step (i : Indexer) (s : IndexState) : Thread → Thread → IndexState → Prop
  | unsupported {relative : String} {heirs : List Heir} :
      Lang.ofPath? i.languages relative = none →
      Step i s ⟨.reads relative, heirs⟩ ⟨.writes (.skip relative .unsupported), heirs⟩ s
  | missing {relative : String} {language : Lang} {heirs : List Heir} :
      Lang.ofPath? i.languages relative = some language →
      s.site.files.read (FilePath.push i.root relative) = .error .missing →
      Step i s ⟨.reads relative, heirs⟩ ⟨.writes (.retract relative), heirs⟩ s
  | unreadable {relative : String} {language : Lang} {e : ReadFailure} {heirs : List Heir} :
      Lang.ofPath? i.languages relative = some language →
      s.site.files.read (FilePath.push i.root relative) = .error e → e ≠ .missing →
      Step i s ⟨.reads relative, heirs⟩ ⟨.ends (.error (.io e.message)), heirs⟩ s
  | tooLarge {relative : String} {language : Lang} {content : ByteArray} {heirs : List Heir} :
      Lang.ofPath? i.languages relative = some language →
      s.site.files.read (FilePath.push i.root relative) = .ok content →
      i.maxFileBytes < content.size →
      Step i s ⟨.reads relative, heirs⟩ ⟨.writes (.skip relative .tooLarge), heirs⟩ s
  | finds {relative : String} {language : Lang} {content : ByteArray} {heirs : List Heir} :
      i.Finds relative s.site.files language content →
      Step i s ⟨.reads relative, heirs⟩ ⟨.compares relative language content, heirs⟩ s
  | unchanged {relative : String} {language : Lang} {content : ByteArray} {heirs : List Heir} :
      (s.tracker.observe relative (fingerprint content)).1 = false →
      Step i s ⟨.compares relative language content, heirs⟩ ⟨.ends (.ok .unchanged), heirs⟩
        { s with tracker := (s.tracker.observe relative (fingerprint content)).2 }
  | begins {relative : String} {language : Lang} {content : ByteArray} {heirs : List Heir} :
      (s.tracker.observe relative (fingerprint content)).1 = true →
      Step i s ⟨.compares relative language content, heirs⟩
        ⟨.resolves relative language content, heirs⟩
        { s with tracker :=
          (s.tracker.observe relative (fingerprint content)).2.begin relative }
  | unparsed {relative : String} {language : Lang} {content : ByteArray} {e : Error}
      {heirs : List Heir} :
      i.readers.read i.languages relative content = .failed e →
      Step i s ⟨.resolves relative language content, heirs⟩ ⟨.ends (.error e), heirs⟩ s
  | unresolved {relative : String} {language : Lang} {content : ByteArray} {file : SourceFile}
      {answers : SymbolIndex} {e : Error} {heirs : List Heir} :
      i.readers.read i.languages relative content = .parsed file →
      Resolve.resolve answers (i.stored relative file) = .error e →
      Step i s ⟨.resolves relative language content, heirs⟩ ⟨.ends (.error e), heirs⟩ s
  | resolved {relative : String} {language : Lang} {content : ByteArray} {file : SourceFile}
      {answers : SymbolIndex} {r : Resolution} {now : Int} {heirs : List Heir} :
      i.readers.read i.languages relative content = .parsed file →
      Resolve.resolve answers (i.stored relative file) = .ok r →
      Step i s ⟨.resolves relative language content, heirs⟩
        ⟨.writes (.replace relative (i.recordOf relative now language content) r.nodes r.edges),
          heirs⟩ s
  | refused {c : FileChange} {e : Error} {b : Backend} {heirs : List Heir} :
      i.carryOut c s.site.backend = (.error e, b) →
      Step i s ⟨.writes c, heirs⟩ ⟨.ends (.error e), heirs⟩
        { s with site := { s.site with backend := b } }
  | stored {c : FileChange} {done : Commit} {b : Backend} {heirs : List Heir} :
      i.carryOut c s.site.backend = (.ok done, b) →
      Step i s ⟨.writes c, heirs⟩ ⟨.notes c done, heirs⟩
        { s with site := { s.site with backend := b } }
  | noted {c : FileChange} {done : Commit} {heirs : List Heir} :
      Step i s ⟨.notes c done, heirs⟩ ⟨.hands (c.heirs done) (c.outcome done), heirs⟩
        { s with tracker := c.noted done s.tracker }
  /-- An heir belongs to another tree. -/
  | elsewhere {heir : String} {rest : List String} {outcome : FileOutcome} {heirs : List Heir} :
      i.relativeStorePath? heir = none →
      Step i s ⟨.hands (heir :: rest) outcome, heirs⟩ ⟨.hands rest outcome, heirs⟩ s
  | hands {heir relative : String} {rest : List String} {outcome : FileOutcome}
      {heirs : List Heir} :
      i.relativeStorePath? heir = some relative →
      Step i s ⟨.hands (heir :: rest) outcome, heirs⟩
        ⟨.reads relative, ⟨relative, rest, outcome⟩ :: heirs⟩
        { s with tracker := s.tracker.invalidate relative }
  | handed {outcome : FileOutcome} {heirs : List Heir} :
      Step i s ⟨.hands [] outcome, heirs⟩ ⟨.ends (.ok outcome), heirs⟩ s
  /-- An heir is done; a failure is noted. -/
  | resumes {result : Except Error FileOutcome} {heir : Heir} {heirs : List Heir} :
      Step i s ⟨.ends result, heir :: heirs⟩ ⟨.hands heir.rest heir.outcome, heirs⟩
        (s.afterHeir heir.relative result)

/-- What a thread leads to that nothing comes between. -/
def Leads (i : Indexer) : Thread × IndexState → Thread × IndexState → Prop :=
  Relation.ReflTransGen fun a b => Step i a.2 a.1 b.1 b.2

end Thread

/-! ## Workers -/

/-- What a worker is at, or a thread that indexes a file by itself. -/
inductive Hand where
  | free
  /-- A caller indexes a file itself, or retracts it. -/
  | calls (t : Thread)
  /-- It has taken the message of a file, which still counts as waiting. -/
  | took (path : String)
  /-- It indexes a file, at the attempt with that number. -/
  | works (path : String) (attempt : Nat) (t : Thread)
  /-- It is done with a file, which it has still to report. -/
  | done (path : String)

namespace Hand

/-- The thread of a worker that is at a file. -/
def thread? : Hand → Option Thread
  | calls t => some t
  | works _ _ t => some t
  | _ => none

/-- The thread of a worker gets on. -/
def withThread (t : Thread) : Hand → Hand
  | calls _ => calls t
  | works path n _ => works path n t
  | h => h

variable {h : Hand} {t : Thread}

theorem thread?_withThread (ht : h.thread? = some t) (t' : Thread) :
    (h.withThread t').thread? = some t' := by
  cases h <;> first | rfl | cases ht

theorem withThread_self (ht : h.thread? = some t) : h.withThread t = h := by
  cases h <;> cases ht <;> rfl

theorem withThread_withThread (h : Hand) (t t' : Thread) :
    (h.withThread t).withThread t' = h.withThread t' := by
  cases h <;> rfl

end Hand

/-- Workers that share a queue, and with callers the tracker, the files and the store. -/
structure Pool where
  indexer : Indexer
  retry : Retry
  queue : Queue
  state : IndexState
  hands : List Hand
  isStopping : Bool

/-- What a worker does next; it leaves the queue and the state like that. -/
inductive Hand.Step (p : Pool) : Hand → Hand → Queue → IndexState → Prop
  | indexes (relative : String) : Step p .free (.calls ⟨.reads relative, []⟩) p.queue p.state
  | removes (relative : String) :
      Step p .free (.calls ⟨.writes (.retract relative), []⟩) p.queue p.state
  | goesOn {h : Hand} {t t' : Thread} {s : IndexState} : h.thread? = some t →
      t.Step p.indexer p.state t' s → Step p h (h.withThread t') p.queue s
  | returns {result : Except Error FileOutcome} :
      Step p (.calls ⟨.ends result, []⟩) .free p.queue p.state
  | takes {path : String} {queue : Queue} : p.queue.take? = some (path, queue) →
      Step p .free (.took path) queue p.state
  | starts {path : String} :
      Step p (.took path) (.works path 1 ⟨.reads path, []⟩) (p.queue.start path) p.state
  | succeeds {path : String} {n : Nat} {outcome : FileOutcome} :
      Step p (.works path n ⟨.ends (.ok outcome), []⟩) (.done path) p.queue p.state
  /-- It notes the failure, and tries the file again. -/
  | retries {path : String} {n : Nat} {e : Error} : e.isRetryable = true → n < p.retry.attempts →
      Step p (.works path n ⟨.ends (.error e), []⟩) (.works path (n + 1) ⟨.reads path, []⟩) p.queue
        (Scheduler.note path e false p.state)
  /-- It notes the failure as the last one. -/
  | givesUp {path : String} {n : Nat} {e : Error} :
      e.isRetryable = false ∨ p.retry.attempts ≤ n ∨ p.isStopping = true →
      Step p (.works path n ⟨.ends (.error e), []⟩) (.done path) p.queue
        (Scheduler.note path e true p.state)
  | finishes {path : String} : Step p (.done path) .free (p.queue.finish path) p.state

namespace Pool

/-- So many workers at a queue where nothing waits yet. -/
def start (i : Indexer) (retry : Retry) (state : IndexState) (n : Nat) : Pool :=
  ⟨i, retry, .new, state, List.replicate n .free, false⟩

/-- One thing that is done.  Any worker may be the next one, and so may a caller. -/
inductive Step (p : Pool) : Pool → Prop
  | enqueues {path : String} {b : Bool} {queue : Queue} : p.queue.enqueue path = (.ok b, queue) →
      Step p { p with queue }
  /-- A file is forced to be indexed when it is looked at next. -/
  | invalidates (relative : String) :
      Step p { p with
        state := { p.state with tracker := p.state.tracker.invalidate relative } }
  | stops : Step p { p with isStopping := true }
  | shuts : Step p { p with queue := p.queue.shut }
  /-- Anything else changes, but no record of the tree. -/
  | outside {site : Site} :
      (∀ relative, site.backend.store.records.get? (p.indexer.storePath relative) =
        p.state.site.backend.store.records.get? (p.indexer.storePath relative)) →
      Step p { p with state := { p.state with site } }
  | hand {before after : List Hand} {h h' : Hand} {queue : Queue} {state : IndexState} :
      p.hands = before ++ h :: after → h.Step p h' queue state →
      Step p { p with queue, state, hands := before ++ h' :: after }

/-- What steps lead to, one after the other. -/
def Leads : Pool → Pool → Prop := Relation.ReflTransGen Step

/-- The pools that a tree and a store lead to, each with a property.  The records of the tree are
written by its indexer alone. -/
inductive Reached (P : Pool → Prop) : Pool → Prop
  | start {site : Site} {tracker : Tracker} (i : Indexer) (retry : Retry) (n : Nat) :
      i.tracker site.backend = .ok tracker → P (.start i retry ⟨site, tracker⟩ n) →
      Reached P (.start i retry ⟨site, tracker⟩ n)
  | step {p p' : Pool} : Reached P p → p.Step p' → P p' → Reached P p'

variable {P Q : Pool → Prop} {p p' : Pool}

theorem Reached.imp (h : p.Reached P) (himp : ∀ q, P q → Q q) : p.Reached Q := by
  induction h with
  | start i retry n htracker hp => exact .start i retry n htracker (himp _ hp)
  | step _ hstep hp ih => exact ih.step hstep (himp _ hp)

theorem Reached.holds (h : p.Reached P) : P p := by
  cases h with
  | start _ _ _ _ hp => exact hp
  | step _ _ hp => exact hp

theorem Step.indexer (h : p.Step p') : p'.indexer = p.indexer := by cases h <;> rfl

/-- Workers neither come nor go. -/
theorem Step.length (h : p.Step p') : p'.hands.length = p.hands.length := by
  cases h with
  | hand hhands => simp [hhands]
  | _ => rfl

end Pool

/-! ## A thread by itself -/

namespace Thread

variable {i : Indexer} {s s' : IndexState} {t t' : Thread}

theorem Leads.trans {a b c : Thread × IndexState} (h : Leads i a b) (h' : Leads i b c) :
    Leads i a c := Relation.ReflTransGen.trans h h'

theorem Step.leads (h : t.Step i s t' s') : Leads i (t, s) (t', s') := .single h

end Thread

/-- Where a thread is that has a task before it. -/
def IndexTask.point : IndexTask → IndexPoint
  | index relative => .reads relative
  | complete c => .writes c
  | refresh heirs outcome => .hands heirs outcome

/-- Where a thread is that has decided for a file. -/
def Decision.point : Except Error Decision → IndexPoint
  | .ok (.done outcome) => .ends (.ok outcome)
  | .ok (.change c) => .writes c
  | .error e => .ends (.error e)

namespace Indexer

variable {i : Indexer}

/-- A thread that nothing comes between decides as `decide` does. -/
theorem Ruled.leads {relative : String} {s : IndexState} {result : Except Error Decision}
    {tracker : Tracker} (h : i.Ruled relative s result tracker) (heirs : List Heir) :
    Thread.Leads i (⟨.reads relative, heirs⟩, s)
      (⟨Decision.point result, heirs⟩, { s with tracker }) := by
  have hcompares : ∀ {language content}, i.Finds relative s.site.files language content →
      (s.tracker.observe relative (fingerprint content)).1 = true →
      Thread.Leads i (⟨.reads relative, heirs⟩, s) (⟨.resolves relative language content, heirs⟩,
        { s with tracker :=
          (s.tracker.observe relative (fingerprint content)).2.begin relative }) :=
    fun hfinds hneeded => (Thread.Step.finds hfinds).leads.trans (.single (.begins hneeded))
  cases h with
  | unsupported hlanguage => exact .single (.unsupported hlanguage)
  | missing hlanguage hread => exact .single (.missing hlanguage hread)
  | unreadable hlanguage hread hne => exact .single (.unreadable hlanguage hread hne)
  | tooLarge hlanguage hread hsize => exact .single (.tooLarge hlanguage hread hsize)
  | unchanged hfinds hneeded =>
      exact (Thread.Step.finds hfinds).leads.trans (.single (.unchanged hneeded))
  | unparsed hfinds hneeded hparsed =>
      exact (hcompares hfinds hneeded).trans (.single (.unparsed hparsed))
  | unresolved hreads hneeded hr =>
      exact (hcompares hreads.finds hneeded).trans (.single (.unresolved hreads.parsed hr))
  | replace hreads hneeded hr =>
      exact (hcompares hreads.finds hneeded).trans (.single (.resolved hreads.parsed hr))

/-- **A thread that nothing comes between does what a task comes to.** -/
theorem Course.leads {task : IndexTask} {s : IndexState}
    {ending : Except Error FileOutcome × IndexState} {events : List Event}
    (h : i.Course task s ending events) (heirs : List Heir) :
    Thread.Leads i (⟨task.point, heirs⟩, s) (⟨.ends ending.1, heirs⟩, ending.2) := by
  induction h generalizing heirs with
  | settled hd =>
      obtain ⟨tracker, rfl, hruled⟩ := ruled_of_decide hd
      exact hruled.leads heirs
  | undecided hd =>
      obtain ⟨tracker, rfl, hruled⟩ := ruled_of_decide hd
      exact hruled.leads heirs
  | decided hd _ ih =>
      obtain ⟨tracker, rfl, hruled⟩ := ruled_of_decide hd
      exact (hruled.leads heirs).trans (ih heirs)
  | refused hc => exact .single (.refused hc)
  | stored hc _ ih =>
      exact (Thread.Step.stored hc).leads.trans (Thread.Step.noted.leads.trans (ih heirs))
  | refreshed => exact .single .handed
  | elsewhere hheir _ ih => exact (Thread.Step.elsewhere hheir).leads.trans (ih heirs)
  | @heir heir relative rest outcome s t result ending _ _ hheir _ _ ih ihrest =>
      have hfirst := ih (⟨relative, rest, outcome⟩ :: heirs)
      have hresumes : Thread.Step i t ⟨.ends result, ⟨relative, rest, outcome⟩ :: heirs⟩
          ⟨.hands rest outcome, heirs⟩ (t.afterHeir relative result) := .resumes
      exact (Thread.Step.hands hheir).leads.trans
        (hfirst.trans (hresumes.leads.trans (ihrest heirs)))

end Indexer

/-! ## A scheduler is a pool with one worker -/

namespace Pool

variable {p p' p'' : Pool} {before after : List Hand}

theorem Leads.trans (h : p.Leads p') (h' : p'.Leads p'') : p.Leads p'' :=
  Relation.ReflTransGen.trans h h'

theorem Step.leads (h : p.Step p') : p.Leads p' := .single h

theorem Leads.indexer (h : p.Leads p') : p'.indexer = p.indexer := by
  induction h with
  | refl => rfl
  | tail _ hstep ih => exact (Step.indexer hstep).trans ih

/-- What a thread leads to by itself, its worker leads to. -/
theorem leads_of_thread {h : Hand} {t t' : Thread} {s : IndexState}
    (hhands : p.hands = before ++ h :: after) (ht : h.thread? = some t)
    (hleads : Thread.Leads p.indexer (t, p.state) (t', s)) :
    p.Leads { p with state := s, hands := before ++ h.withThread t' :: after } := by
  obtain ⟨i, retry, queue, state, hands, isStopping⟩ := p
  obtain rfl : hands = _ := hhands
  have hlift : Leads ⟨i, retry, queue, state, before ++ h.withThread t :: after, isStopping⟩
      ⟨i, retry, queue, s, before ++ h.withThread t' :: after, isStopping⟩ := by
    refine Relation.ReflTransGen.lift (fun x : Thread × IndexState =>
      (⟨i, retry, queue, x.2, before ++ h.withThread x.1 :: after, isStopping⟩ : Pool))
      (fun x y hstep => ?_) _ _ hleads
    have hlifted : Step ⟨i, retry, queue, x.2, before ++ h.withThread x.1 :: after, isStopping⟩
        ⟨i, retry, queue, y.2, before ++ (h.withThread x.1).withThread y.1 :: after,
          isStopping⟩ := .hand rfl (.goesOn (Hand.thread?_withThread ht _) hstep)
    rw [Hand.withThread_withThread] at hlifted
    exact hlifted
  rwa [Hand.withThread_self ht] at hlift

end Pool

namespace Scheduler

variable {s s' : Scheduler} {site site' : Site}

/-- A scheduler as a pool; its worker may be waiting for the store. -/
def pool (s : Scheduler) (site : Site) : Pool :=
  ⟨s.indexer, s.retry, s.queue, ⟨site, s.tracker⟩,
    [s.stalled.elim .free fun waiting => .works waiting.1 1 ⟨.writes waiting.2, []⟩],
    s.isStopping⟩

/-- A pool whose one worker is at a file. -/
def working (s : Scheduler) (state : IndexState) (hand : Hand) : Pool :=
  ⟨s.indexer, s.retry, s.queue, state, [hand], s.isStopping⟩

theorem working_step {state state' : IndexState} {hand hand' : Hand} {queue : Queue}
    (h : hand.Step (s.working state hand) hand' queue state') :
    (s.working state hand).Step ({ s with queue := queue }.working state' hand') :=
  @Pool.Step.hand (s.working state hand) [] [] _ _ _ _ rfl h

theorem working_leads {relative : String} {n : Nat} {t t' : Thread} {state state' : IndexState}
    (h : Thread.Leads s.indexer (t, state) (t', state')) :
    (s.working state (.works relative n t)).Leads (s.working state' (.works relative n t')) :=
  @Pool.leads_of_thread (s.working state (.works relative n t)) [] [] _ _ _ _ rfl rfl h

/-- The attempts at a file that follow on one of them. -/
theorem working_after {relative : String} (left n : Nat) (hleft : left + n = s.retry.attempts)
    (a : Except Error FileOutcome × IndexState) :
    (s.working a.2 (.works relative n ⟨.ends a.1, []⟩)).Leads
      (s.working (s.retry.after s.isStopping
        (fun state => (s.indexer.indexFile relative).run.run state) (note relative) left n a).state
        (.done relative)) := by
  induction left generalizing n a with
  | zero =>
      obtain ⟨result, state⟩ := a
      cases result with
      | ok outcome => exact (working_step .succeeds).leads
      | error e => exact (working_step (.givesUp (.inr (.inl (by simp [working]; omega))))).leads
  | succ left ih =>
      obtain ⟨result, state⟩ := a
      cases result with
      | ok outcome => exact (working_step .succeeds).leads
      | error e =>
          rw [Retry.after]
          split
          · next hretry =>
            rw [Bool.and_eq_true] at hretry
            have hretries := working_step (s := s)
              (.retries (p := s.working state (.works relative n ⟨.ends (.error e), []⟩))
                hretry.1 (show n < s.retry.attempts by omega))
            obtain ⟨events, hcourse⟩ :=
              s.indexer.indexFile_course relative (note relative e false state)
            exact hretries.leads.trans
              ((working_leads (hcourse.leads [])).trans (ih (n + 1) (by omega) _))
          · next hretry =>
            refine (working_step (.givesUp ?_)).leads
            rw [Bool.and_eq_true, not_and_or] at hretry
            rcases hretry with hretry | hstopping
            · exact .inl (by simpa using hretry)
            · exact .inr (.inr (by simpa [working] using hstopping))

/-- A worker that has made its first attempt at a file finishes it. -/
theorem working_finish {relative : String}
    (first : Except Error FileOutcome × IndexState) :
    (s.working first.2 (.works relative 1 ⟨.ends first.1, []⟩)).Leads
      ((s.finish relative first).1.pool (s.finish relative first).2) := by
  have hattempts : s.retry.attempts - 1 + 1 = s.retry.attempts :=
    Nat.sub_add_cancel (Nat.le_max_right ..)
  exact (working_after _ 1 hattempts first).trans (working_step .finishes).leads

/-- A worker takes the first file that waits. -/
theorem pool_takes {relative : String} {rest : List String} (hstalled : s.stalled = none)
    (hmessages : s.queue.messages = relative :: rest) :
    (s.pool site).Leads ((s.takes relative rest).working ⟨site, s.tracker⟩
      (.works relative 1 ⟨.reads relative, []⟩)) := by
  have hfree : s.pool site = s.working ⟨site, s.tracker⟩ .free := by simp [pool, working, hstalled]
  rw [hfree]
  exact (working_step (.takes (Queue.take?_cons hmessages))).leads.trans
    (working_step .starts).leads

/-- **What the worker of a scheduler does in a step, a pool with one worker leads to.** -/
theorem step?_leads {held : Bool} (hfits : ∀ relative c, s.stalled = some (relative, c) →
      c.Fits s.indexer) (h : s.step? held site = some (s', site')) :
    (s.pool site).Leads (s'.pool site') := by
  cases step?_stepped h with
  | @resumed relative c hstalled =>
      have hwaiting : s.pool site =
          s.working ⟨site, s.tracker⟩ (.works relative 1 ⟨.writes c, []⟩) := by
        simp [pool, working, hstalled]
      obtain ⟨events, hcourse⟩ :=
        Indexer.complete_course c (hfits relative c hstalled) ⟨site, s.tracker⟩
      rw [hwaiting]
      exact (working_leads (hcourse.leads [])).trans (working_finish _)
  | @waits relative rest c t hstalled hmessages hd =>
      obtain ⟨tracker, rfl, hruled⟩ := Indexer.ruled_of_decide hd
      exact (pool_takes hstalled hmessages).trans (working_leads (hruled.leads []))
  | @indexed relative rest hstalled hmessages =>
      obtain ⟨events, hcourse⟩ := s.indexer.indexFile_course relative ⟨site, s.tracker⟩
      have hworks := @working_leads (s.takes relative rest) relative 1 _ _ _ _ (hcourse.leads [])
      exact (pool_takes hstalled hmessages).trans (hworks.trans (working_finish _))

/-- A file waits for the store with a change that is stored under its path. -/
theorem Stepped.fits {next : Scheduler × Site} (h : s.Stepped site next) {relative : String}
    {c : FileChange} (hstalled : next.1.stalled = some (relative, c)) : c.Fits next.1.indexer := by
  cases h with
  | resumed => cases hstalled
  | waits _ _ hd =>
      obtain ⟨tracker, rfl, hruled⟩ := Indexer.ruled_of_decide hd
      cases hstalled
      exact hruled.fits.1
  | indexed => cases hstalled

/-- **What the worker of a scheduler comes to, a pool with one worker leads to.** -/
theorem Works.leads (h : s.Works site s' site') (hfits : ∀ relative c,
    s.stalled = some (relative, c) → c.Fits s.indexer) :
    (s.pool site).Leads (s'.pool site') ∧
      ∀ relative c, s'.stalled = some (relative, c) → c.Fits s'.indexer := by
  induction h with
  | refl => exact ⟨.refl, hfits⟩
  | step held _ hstep ih =>
      obtain ⟨hleads, hfits'⟩ := ih
      exact ⟨hleads.trans (step?_leads hfits' hstep), fun _ _ => (step?_stepped hstep).fits⟩
  | @meanwhile s' _ site' site'' _ _ hstore ih =>
      obtain ⟨hleads, hfits'⟩ := ih
      have houtside : (s'.pool site').Step (s'.pool site'') :=
        .outside fun relative =>
          congrArg (fun store => store.records.get? (s'.indexer.storePath relative)) hstore
      exact ⟨hleads.tail houtside, hfits'⟩

end Scheduler

/-! ## The queue of a pool -/

/-- What a worker is at, as far as the queue is concerned. -/
def Hand.duty : Hand → Duty
  | free => .free
  | calls _ => .free
  | took path => .took path
  | works path _ _ => .works path
  | done path => .works path

theorem Hand.duty_withThread (h : Hand) (t : Thread) : (h.withThread t).duty = h.duty := by
  cases h <;> rfl

namespace Pool

variable {p p' : Pool}

/-- The queue of a pool with those who share it. -/
def crew (p : Pool) : Crew := ⟨p.queue, p.hands.map Hand.duty⟩

/-- What a step of a pool does to its queue is done as by a crew. -/
theorem Step.acts (h : p.Step p') (hopen : p'.queue.isOpen = true) :
    ∃ acts, p.crew.Acts acts p'.crew := by
  cases h with
  | enqueues hqueue => exact ⟨_, .snoc .nil (.notifies hqueue)⟩
  | invalidates => exact ⟨[], .nil⟩
  | stops => exact ⟨[], .nil⟩
  | shuts => cases hopen
  | outside => exact ⟨[], .nil⟩
  | @hand before after h h' queue state hhands hstep =>
      simp only [crew, hhands, List.map_append, List.map_cons]
      cases hstep with
      | takes hqueue => exact ⟨_, .snoc .nil (.takes hqueue)⟩
      | starts => exact ⟨_, .snoc .nil .starts⟩
      | finishes => exact ⟨_, .snoc .nil .finishes⟩
      | goesOn ht =>
          rw [Hand.duty_withThread]
          exact ⟨[], .nil⟩
      | _ => exact ⟨[], .nil⟩

end Pool

end CodeAtlas
