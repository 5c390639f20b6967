import CodeAtlas.Proofs.Scheduling.Pool
import CodeAtlas.Proofs.Scheduling.Status

/-!
# CodeAtlas.Proofs.Scheduling.Turns

When a file is still listed that a worker was at, one of several.

A worker is at a file for a turn: it tries the file, maybe several times, while others change the
files and the store as they like, between two attempts or in the middle of one (`Turn`).  As long
as nobody else has anything noted of that file, the file is listed in the end exactly if it was
skipped without a record, and was listed before or failed in an earlier attempt
(`Turn.listed_iff`); so it is with the workers of a pool (`Pool.Spends.turn`).  And a file
that is not listed is listed again only when the tracker is told to reopen it
(`Pool.Leads.reopens`).
-/

namespace CodeAtlas

open Indexing Upsert

/-! ## The file that a thread is at -/

/-- Where a thread is with its own file, when it is at such a point for the sake of heirs. -/
def IndexPoint.below (point : IndexPoint) : List Heir → IndexPoint
  | [] => point
  | heir :: heirs => below (.hands heir.rest heir.outcome) heirs

theorem IndexPoint.below_cons (point : IndexPoint) (heir : Heir) (heirs : List Heir) :
    ∃ rest outcome, point.below (heir :: heirs) = .hands rest outcome := by
  induction heirs generalizing point heir with
  | nil => exact ⟨_, _, rfl⟩
  | cons next heirs ih => exact ih (.hands heir.rest heir.outcome) next

namespace Thread

/-- Where a thread is with its own file. -/
def own (t : Thread) : IndexPoint := t.point.below t.heirs

/-- Whether a thread is done with its own file, and has heirs to index. -/
def Hands (t : Thread) : Prop := ∃ rest outcome, t.own = .hands rest outcome

/-- The fingerprint that a file had when its last change was carried out. -/
def had (i : Indexer) (s : IndexState) (before : Option String) : Thread → Option String
  | ⟨.writes c, []⟩ => s.site.backend.store.fingerprint? (i.storePath c.relative)
  | _ => before

variable {i : Indexer} {s s' : IndexState} {t t' : Thread}

/-- A thread that is at an heir stays where it is with its own file. -/
theorem Step.own_eq (h : t.Step i s t' s') (hheirs : t.heirs ≠ []) : t'.own = t.own := by
  cases h with
  | resumes => rfl
  | _ =>
      obtain ⟨heir, heirs, rfl⟩ := List.exists_cons_of_ne_nil hheirs
      rfl

theorem hands_of_heirs (hheirs : t.heirs ≠ []) : t.Hands := by
  obtain ⟨heir, heirs, heq⟩ := List.exists_cons_of_ne_nil hheirs
  rw [Hands, own, heq]
  exact t.point.below_cons heir heirs

theorem had_of_heirs (hheirs : t.heirs ≠ []) (before : Option String) :
    t.had i s before = before := by
  obtain ⟨point, heirs⟩ := t
  cases heirs with
  | nil => exact absurd rfl hheirs
  | cons heir heirs => cases point <;> rfl

end Thread

/-! ## Turns -/

/-- A worker's turn at a file, with the number of the attempt, and with the fingerprint that the
file had when its last change was carried out.  Meanwhile anything is done by others, and by the
worker itself for the sake of heirs, but for what is noted of the file. -/
inductive Turn (i : Indexer) (relative : String) (s₀ : IndexState) :
    Nat → Thread → Option String → IndexState → Prop
  | starts : Turn i relative s₀ 1 ⟨.reads relative, []⟩ none s₀
  | goesOn {n : Nat} {t t' : Thread} {had : Option String} {s s' : IndexState} :
      Turn i relative s₀ n t had s → t.Step i s t' s' →
      (t.Hands → s'.tracker.state relative = s.tracker.state relative) →
      Turn i relative s₀ n t' (t.had i s had) s'
  | retries {n : Nat} {e : Error} {had : Option String} {s : IndexState} :
      Turn i relative s₀ n ⟨.ends (.error e), []⟩ had s →
      Turn i relative s₀ (n + 1) ⟨.reads relative, []⟩ had (Scheduler.note relative e false s)
  | meanwhile {n : Nat} {t : Thread} {had : Option String} {s s' : IndexState} :
      Turn i relative s₀ n t had s →
      s'.tracker.state relative = s.tracker.state relative → Turn i relative s₀ n t had s'

/-- Whether a file that is not being worked on is known not to be in order exactly if it was so
before. -/
def FileState.AsBefore (was : Prop) (state : FileState) : Prop :=
  state ≠ .indexing ∧ (state.IsOpen ↔ was)

/-- What is noted of a file when a thread is there with it: whether the file was listed before, and
which fingerprint it had, decide what is noted of it in the end. -/
def IndexPoint.Stands (i : Indexer) (relative : String) (was : Prop) (had : Option String)
    (state : FileState) : IndexPoint → Prop
  | reads r => r = relative ∧ state.AsBefore was
  | compares r _ _ => r = relative ∧ state.AsBefore was
  | resolves r _ _ => r = relative
  | writes c => c.relative = relative ∧ c.Fits i ∧ (c.Replaces ∨ state.AsBefore was)
  | notes c done => c.relative = relative ∧
      (∃ b b', i.CarriedOut c done b b' ∧
        b.store.fingerprint? (i.storePath c.relative) = had) ∧
      (c.Replaces ∨ state.AsBefore was)
  | hands _ outcome =>
      state.IsOpen ↔ (∃ reason, outcome = .skipped reason) ∧ had = none ∧ was
  | ends (.ok outcome) =>
      state.IsOpen ↔ (∃ reason, outcome = .skipped reason) ∧ had = none ∧ was
  | ends (.error _) => True

variable {i : Indexer} {relative : String} {s₀ s s' : IndexState} {t t' : Thread} {n : Nat}
  {had : Option String}

/-- What is noted of a file when a thread gets on with it. -/
theorem Thread.Step.stands {was : Prop} (h : t.Step i s t' s')
    (hquiet : t.Hands → s'.tracker.state relative = s.tracker.state relative)
    (hstands : t.own.Stands i relative was had (s.tracker.state relative)) :
    t'.own.Stands i relative was (t.had i s had) (s'.tracker.state relative) := by
  by_cases hheirs : t.heirs = []
  · obtain ⟨point, heirs⟩ := t
    obtain rfl : heirs = [] := hheirs
    cases h with
    | unsupported => exact ⟨hstands.1, trivial, .inr hstands.2⟩
    | missing => exact ⟨hstands.1, trivial, .inr hstands.2⟩
    | unreadable => trivial
    | tooLarge => exact ⟨hstands.1, trivial, .inr hstands.2⟩
    | finds => exact hstands
    | unchanged hneeded =>
        obtain ⟨rfl, hbefore, -⟩ := hstands
        have hclosed := s.tracker.observe_closed _ _ hneeded hbefore
        exact ⟨fun hopen => absurd hopen hclosed, by rintro ⟨⟨_, heq⟩, -⟩; cases heq⟩
    | begins => exact hstands.1
    | unparsed => trivial
    | unresolved => trivial
    | resolved => exact ⟨hstands, rfl, .inl trivial⟩
    | refused => trivial
    | stored hc =>
        obtain ⟨hrelative, hfits, hbefore⟩ := hstands
        exact ⟨hrelative, ⟨_, _, Indexer.carryOut_ok hfits hc, rfl⟩, hbefore⟩
    | @noted c done =>
        obtain ⟨rfl, ⟨b, b', hcarried, rfl⟩, hbefore⟩ := hstands
        have hiff := FileChange.noted_open_iff hcarried s.tracker
        rcases hbefore with hreplaces | ⟨-, hwas⟩
        · cases c with
          | replace =>
              simpa [FileChange.outcome, Thread.own, IndexPoint.below, IndexPoint.Stands] using hiff
          | _ => exact hreplaces.elim
        · rwa [hwas] at hiff
    | elsewhere => exact hstands
    | hands => exact (hquiet ⟨_, _, rfl⟩) ▸ hstands
    | handed => exact hstands
  · -- Nothing is noted of the file while its heirs are indexed.
    rw [h.own_eq hheirs, Thread.had_of_heirs hheirs, hquiet (Thread.hands_of_heirs hheirs)]
    exact hstands

namespace Turn

/-- All along a turn, what is noted of the file is told by how it was before. -/
theorem stands (h : Turn i relative s₀ n t had s)
    (hrest : s₀.tracker.state relative ≠ .indexing) :
    1 ≤ n ∧ t.own.Stands i relative (1 < n ∨ (s₀.tracker.state relative).IsOpen) had
      (s.tracker.state relative) := by
  induction h with
  | starts => exact ⟨Nat.le_refl 1, rfl, hrest, by simp⟩
  | goesOn _ hstep hquiet ih => exact ⟨ih.1, hstep.stands hquiet ih.2⟩
  | @retries n e _ s _ ih =>
      have hchanged : (Scheduler.note relative e false s).tracker.state relative = .changed := by
        rw [Scheduler.note, Tracker.failed_state, if_pos rfl]
        rfl
      refine ⟨Nat.le_add_left 1 n, rfl, ?_⟩
      rw [hchanged]
      exact ⟨by simp, ⟨fun _ => .inl (Nat.lt_succ_of_le ih.1), fun _ => .inl rfl⟩⟩
  | meanwhile _ hsame ih => exact ⟨ih.1, hsame ▸ ih.2⟩

/-- **A file that a worker was at is listed only if it was skipped**, whatever others do to the
files and the store meanwhile.  When an attempt gives an outcome, the file is listed as pending or
failed exactly if it was skipped, had no record when it was, and was listed before or failed in an
earlier attempt. -/
theorem listed_iff {outcome : FileOutcome}
    (h : Turn i relative s₀ n ⟨.ends (.ok outcome), []⟩ had s)
    (hrest : s₀.tracker.state relative ≠ .indexing) :
    s.tracker.Lists relative ↔ (∃ reason, outcome = .skipped reason) ∧ had = none ∧
      (1 < n ∨ s₀.tracker.Lists relative) := by
  simp only [Tracker.Lists, ← Tracker.isOpen_iff]
  exact (h.stands hrest).2

/-- A file that was never indexed; before the second attempt at it all files go, and the store can
be reached again.  The file is skipped, and it is listed from then on. -/
theorem listed_iff_filesGone : ∃ had s,
    Turn emptyFileIndexer "c.rs" ⟨Scheduler.onceUnreachable, Scheduler.retractsOther.tracker⟩ 2
      ⟨.ends (.ok (.skipped .unsupported)), []⟩ had s ∧
    s.site.files = .empty ∧ ¬ Scheduler.retractsOther.tracker.Lists "c.rs" ∧
    s.tracker.Lists "c.rs" := by
  have hlanguage : Lang.ofPath? emptyFileIndexer.languages "c.rs" = none := by decide +kernel
  have hrefused : (emptyFileIndexer.carryOut (.skip "c.rs" .unsupported)
      Scheduler.onceUnreachable.backend).1 = .error connectionLost := by decide +kernel
  have hskipped : (emptyFileIndexer.carryOut (.skip "c.rs" .unsupported) oneStored).1 = .ok 0 := by
    decide +kernel
  have hnone : oneStored.store.fingerprint? (emptyFileIndexer.storePath "c.rs") = none := by
    decide +kernel
  have hunseen : Scheduler.retractsOther.tracker.state "c.rs" = .unseen := by decide +kernel
  have hstarts := @Turn.starts emptyFileIndexer "c.rs"
    ⟨Scheduler.onceUnreachable, Scheduler.retractsOther.tracker⟩
  have hdecided := hstarts.goesOn (.unsupported hlanguage) (by rintro ⟨_, _, ⟨⟩⟩)
  have hfailed := hdecided.goesOn (.refused (Prod.ext hrefused rfl)) (by rintro ⟨_, _, ⟨⟩⟩)
  have hedited := @Turn.meanwhile _ _ _ _ _ _ _ ⟨⟨.empty, oneStored, 0⟩, _⟩ hfailed.retries rfl
  have hagain := hedited.goesOn (.unsupported hlanguage) (by rintro ⟨_, _, ⟨⟩⟩)
  have hstored := hagain.goesOn (.stored (Prod.ext hskipped rfl)) (by rintro ⟨_, _, ⟨⟩⟩)
  have hnoted := hstored.goesOn .noted (by rintro ⟨_, _, ⟨⟩⟩)
  have hturn := hnoted.goesOn .handed fun _ => rfl
  refine ⟨_, _, hturn, rfl, ?_, (hturn.listed_iff (by rw [hunseen]; simp)).2
    ⟨⟨_, rfl⟩, hnone, .inl (by decide)⟩⟩
  rw [Tracker.Lists, ← Tracker.isOpen_iff, hunseen]
  simp [FileState.IsOpen]

end Turn

/-! ## Turns of the workers of a pool -/

namespace Pool

variable {p p₀ p' q : Pool} {j n' : Nat}

/-- A worker of a pool spends a turn at a file, while nobody else has anything noted of it. -/
inductive Spends (p₀ : Pool) (relative : String) (j : Nat) : Nat → Thread → Pool → Prop
  | starts : p₀.hands[j]? = some (.works relative 1 ⟨.reads relative, []⟩) →
      Spends p₀ relative j 1 ⟨.reads relative, []⟩ p₀
  | step {n n' : Nat} {t t' : Thread} {p p' : Pool} : Spends p₀ relative j n t p → p.Step p' →
      p'.hands[j]? = some (.works relative n' t') →
      (p'.hands[j]? = p.hands[j]? ∨ t.Hands →
        p'.state.tracker.state relative = p.state.tracker.state relative) →
      Spends p₀ relative j n' t' p'

theorem Spends.hand (h : p₀.Spends relative j n t p) :
    p.hands[j]? = some (.works relative n t) := by
  cases h with
  | starts hhand => exact hhand
  | step _ _ hhand => exact hhand

theorem Spends.indexer (h : p₀.Spends relative j n t p) : p.indexer = p₀.indexer := by
  induction h with
  | starts => rfl
  | step _ hstep _ _ ih => exact hstep.indexer.trans ih

theorem getElem?_hand {before after : List Hand} {h : Hand} :
    (before ++ h :: after)[before.length]? = some h := by
  rw [List.getElem?_append_right (Nat.le_refl _), Nat.sub_self, List.getElem?_cons_zero]

theorem getElem?_others {before after : List Hand} {h h' : Hand} (hj : j ≠ before.length) :
    (before ++ h' :: after)[j]? = (before ++ h :: after)[j]? := by
  have hset : before ++ h' :: after = (before ++ h :: after).set before.length h' := by simp
  rw [hset, List.getElem?_set_ne (Ne.symm hj)]

/-- Whoever comes next, the worker goes on with its turn. -/
theorem Step.turn (hstep : p.Step p') (hhand : p.hands[j]? = some (.works relative n t))
    (hhand' : p'.hands[j]? = some (.works relative n' t'))
    (hquiet : p'.hands[j]? = p.hands[j]? ∨ t.Hands →
      p'.state.tracker.state relative = p.state.tracker.state relative)
    (hturn : Turn p.indexer relative s₀ n t had p.state) :
    ∃ had', Turn p.indexer relative s₀ n' t' had' p'.state := by
  have hothers : p'.hands[j]? = p.hands[j]? →
      ∃ had', Turn p.indexer relative s₀ n' t' had' p'.state := by
    intro hsame
    rw [hsame, hhand, Option.some.injEq, Hand.works.injEq] at hhand'
    obtain ⟨-, rfl, rfl⟩ := hhand'
    exact ⟨had, hturn.meanwhile (hquiet (.inl hsame))⟩
  cases hstep with
  | @hand before after h h' queue state hhands hstep =>
      by_cases hj : j = before.length
      · subst hj
        rw [hhands, getElem?_hand, Option.some.injEq] at hhand
        rw [getElem?_hand, Option.some.injEq] at hhand'
        subst hhand hhand'
        cases hstep with
        | goesOn ht hstep =>
            cases ht
            exact ⟨_, hturn.goesOn hstep fun hhands => hquiet (.inr hhands)⟩
        | retries => exact ⟨_, hturn.retries⟩
      · refine hothers ?_
        rw [hhands]
        exact getElem?_others hj
  | _ => exact hothers rfl

/-- **A worker of a pool has its turn at a file.** -/
theorem Spends.turn (h : p₀.Spends relative j n t p) :
    ∃ had, Turn p₀.indexer relative p₀.state n t had p.state := by
  induction h with
  | starts => exact ⟨none, .starts⟩
  | step hspends hstep hhand hquiet ih =>
      obtain ⟨had, hturn⟩ := ih
      rw [← hspends.indexer] at hturn ⊢
      exact hstep.turn hspends.hand hhand hquiet hturn

end Pool

/-! ## Files that are listed again -/

/-- Whether all that changed of a tracker is that it was told something. -/
def Tracker.Heard (t u : Tracker) : Prop := ∃ reports, u = t.tell reports

/-- What is noted of a file that is done is told to the tracker. -/
theorem FileChange.noted_heard (c : FileChange) (done : Commit) (t : Tracker) :
    t.Heard (c.noted done t) := by
  cases c with
  | replace relative record nodes edges => exact ⟨[.committed relative record.fingerprint], rfl⟩
  | retract relative => exact ⟨[.deleted relative], rfl⟩
  | skip relative reason =>
      rw [noted]
      split
      · exact ⟨[.deleted relative], rfl⟩
      · exact ⟨[], rfl⟩

/-- All that a step of a thread changes of the tracker, the tracker is told. -/
theorem Thread.Step.heard (h : t.Step i s t' s') : s.tracker.Heard s'.tracker := by
  cases h with
  | unchanged => exact ⟨[.observed _ _], rfl⟩
  | begins => exact ⟨[.observed _ _, .begun _], rfl⟩
  | noted => exact FileChange.noted_heard _ _ _
  | hands => exact ⟨[.invalidated _], rfl⟩
  | @resumes result =>
      cases result with
      | ok outcome => exact ⟨[], rfl⟩
      | error e => exact ⟨[.failed _ e.message false], rfl⟩
  | _ => exact ⟨[], rfl⟩

namespace Pool

variable {p p₀ p' q : Pool} {j : Nat}

/-- All that a step changes of the tracker, the tracker is told. -/
theorem Step.heard (h : p.Step p') : p.state.tracker.Heard p'.state.tracker := by
  cases h with
  | invalidates => exact ⟨[.invalidated _], rfl⟩
  | hand _ hstep =>
      cases hstep with
      | goesOn _ hstep => exact hstep.heard
      | @retries _ _ e => exact ⟨[.failed _ e.message false], rfl⟩
      | @givesUp _ _ e => exact ⟨[.failed _ e.message true], rfl⟩
      | _ => exact ⟨[], rfl⟩
  | _ => exact ⟨[], rfl⟩

/-- Whether a file is listed as one that is to be indexed, or that failed for good. -/
def Lists (p : Pool) (relative : String) : Prop := p.state.tracker.Lists relative

/-- **A file that is not listed is listed again only when the tracker is told to reopen it.** -/
theorem Leads.reopens (h : p.Leads q) (hbefore : ¬ p.Lists relative) (hafter : q.Lists relative) :
    ∃ p₁ p₂ reports, p.Leads p₁ ∧ p₁.Step p₂ ∧ p₂.Leads q ∧ ¬ p₁.Lists relative ∧
      p₂.Lists relative ∧ p₂.state.tracker = p₁.state.tracker.tell reports ∧
      ∃ report ∈ reports, report.Reopens relative := by
  induction h with
  | refl => exact absurd hafter hbefore
  | @tail p₁ p₂ hleads hstep ih =>
      by_cases hlisted : p₁.Lists relative
      · obtain ⟨r₁, r₂, reports, hr₁, hr, hr₂, hreopens⟩ := ih hlisted
        exact ⟨r₁, r₂, reports, hr₁, hr, hr₂.tail hstep, hreopens⟩
      · obtain ⟨reports, htold⟩ := hstep.heard
        refine ⟨p₁, p₂, reports, hleads, hstep, .refl, hlisted, hafter, htold, ?_⟩
        by_contra hnone
        push Not at hnone
        refine hlisted ?_
        rw [Lists, Tracker.Lists, ← Tracker.isOpen_iff, htold] at hafter
        rw [Lists, Tracker.Lists, ← Tracker.isOpen_iff]
        exact Tracker.tell_open hnone hafter

/-- **A file that a worker of a pool was at is listed only if it was skipped or is reopened.**
Let a worker try a file, maybe several times, until an attempt gives an outcome, while others do
anything but have something noted of that file.  If the file is listed then, or at any time after
that, it was skipped, and it was listed before or failed in an earlier attempt; or else the
tracker has been told to reopen it since. -/
theorem Spends.listed {outcome : FileOutcome}
    (h : p₀.Spends relative j n ⟨.ends (.ok outcome), []⟩ p)
    (hrest : p₀.state.tracker.state relative ≠ .indexing) (hleads : p.Leads q)
    (hlisted : q.Lists relative) :
    ((∃ reason, outcome = .skipped reason) ∧ (1 < n ∨ p₀.Lists relative)) ∨
      ∃ p₁ p₂ reports, p.Leads p₁ ∧ p₁.Step p₂ ∧ p₂.Leads q ∧ ¬ p₁.Lists relative ∧
        p₂.Lists relative ∧ p₂.state.tracker = p₁.state.tracker.tell reports ∧
        ∃ report ∈ reports, report.Reopens relative := by
  obtain ⟨had, hturn⟩ := h.turn
  by_cases hp : p.Lists relative
  · obtain ⟨hskipped, -, hwas⟩ := (hturn.listed_iff hrest).1 hp
    exact .inl ⟨hskipped, hwas⟩
  · exact .inr (hleads.reopens hp hlisted)

end Pool

end CodeAtlas
