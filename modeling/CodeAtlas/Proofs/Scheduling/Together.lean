import CodeAtlas.Proofs.Scheduling.Fingerprints
import CodeAtlas.Proofs.Scheduling.Reconciliation

/-!
# CodeAtlas.Proofs.Scheduling.Together

What a reconciliation leaves of the records of a tree that several workers are at.

Callers ask for files while the workers index them, and the files stay as they are
(`Pool.Serves`).  Whoever comes between two steps of a thread can only store what is due to a
file, so what the thread goes by still holds when it gets on (`Thread.Due`), and what is settled
stays so (`Indexer.Advances`).  A file that was asked for waits, or a worker faces it, or it is
settled; that is what every step keeps (`Pool.Serving`).  So all files are settled when nothing
waits and nothing is being indexed, and the records are those that one worker leaves
(`Pool.Serves.in_step_iff`).
-/

namespace CodeAtlas

open Indexing Upsert

/-! ## What a thread goes by -/

namespace Indexer

/-- A tree with such files: what is known of a file is stored, unless what is stored is due to it;
and only files that are asked for have records. -/
structure Steady (i : Indexer) (files : FileTree) (asked : String → Prop) (s : IndexState) :
    Prop where
  sameFiles : s.site.files = files
  known : ∀ p fp, s.tracker.fingerprints.value? p = some fp →
    s.site.backend.store.fingerprint? (i.storePath p) = some fp ∨
      s.site.backend.store.fingerprint? (i.storePath p) = i.due files p
  unrecorded : ∀ p, ¬ asked p → s.site.backend.store.fingerprint? (i.storePath p) = none

/-- What may be done to a tree with such files: a record comes to be the one that is due, and
what is settled stays so. -/
structure Advances (i : Indexer) (files : FileTree) (s t : IndexState) : Prop where
  stored : ∀ p, t.site.backend.store.fingerprint? (i.storePath p) =
      s.site.backend.store.fingerprint? (i.storePath p) ∨
    t.site.backend.store.fingerprint? (i.storePath p) = i.due files p
  settled : ∀ p, i.Settled files s p → i.Settled files t p

/-- Whether those of some heirs that belong to the tree are asked for. -/
def AsksFor (i : Indexer) (asked : String → Prop) (heirs : List String) : Prop :=
  ∀ heir ∈ heirs, ∀ relative, i.relativeStorePath? heir = some relative → asked relative

variable {i : Indexer} {files : FileTree} {asked : String → Prop} {s : IndexState}

/-- Less may be known. -/
theorem Steady.tracker (h : i.Steady files asked s) {tracker : Tracker}
    (hknown : ∀ p fp, tracker.fingerprints.value? p = some fp →
      s.tracker.fingerprints.value? p = some fp) : i.Steady files asked { s with tracker } :=
  ⟨h.sameFiles, fun p fp hp => h.known p fp (hknown p fp hp), h.unrecorded⟩

/-- What is known to be in a file that can be indexed is due to it. -/
theorem Steady.settled (h : i.Steady files asked s) {relative : String} {language : Lang}
    {content : ByteArray} (hfinds : i.Finds relative files language content)
    (hknown : s.tracker.fingerprints.value? relative = some (fingerprint content)) :
    s.site.backend.store.fingerprint? (i.storePath relative) = i.due files relative := by
  rcases h.known relative _ hknown with hstored | hstored
  · rw [hstored, hfinds.due]
  · exact hstored

/-- Nothing is stored. -/
theorem Advances.of_settled {tracker : Tracker}
    (h : ∀ p, i.Settled files s p → i.Settled files { s with tracker } p) :
    i.Advances files s { s with tracker } := ⟨fun _ => .inl rfl, h⟩

theorem Advances.refl (s : IndexState) : i.Advances files s s := ⟨fun _ => .inl rfl, fun _ => id⟩

/-- The store stays as it was, and so does what is noted of all files but one. -/
theorem Settled.other {relative : String} {tracker : Tracker} (h : i.Settled files s relative)
    (hstate : tracker.state relative = s.tracker.state relative) :
    i.Settled files { s with tracker } relative := h.congr rfl hstate

end Indexer

/-- Whether a thread goes by such files there, and comes only to files that are asked for. -/
def IndexPoint.Due (i : Indexer) (files : FileTree) (asked : String → Prop) (s : IndexState) :
    IndexPoint → Prop
  | reads relative => asked relative
  | compares relative language content => asked relative ∧ i.Finds relative files language content
  | resolves relative language content => asked relative ∧ i.Finds relative files language content
  | writes c => asked c.relative ∧ c.Fits i ∧ c.fingerprint? = i.due files c.relative
  | notes c done => i.AsksFor asked (c.heirs done) ∧
      s.site.backend.store.fingerprint? (i.storePath c.relative) = i.due files c.relative
  | hands heirs _ => i.AsksFor asked heirs
  | ends _ => True

/-- Whether a thread still has to settle a file there, or has failed to do so. -/
def IndexPoint.Faces (relative : String) : IndexPoint → Prop
  | reads r => r = relative
  | compares r _ _ => r = relative
  | resolves r _ _ => r = relative
  | writes c => c.relative = relative
  | ends (.error _) => True
  | _ => False

namespace Thread

/-- Whether a thread goes by such files, and comes only to files that are asked for. -/
structure Due (i : Indexer) (files : FileTree) (asked : String → Prop) (s : IndexState)
    (t : Thread) : Prop where
  point : t.point.Due i files asked s
  heirs : ∀ heir ∈ t.heirs, i.AsksFor asked heir.rest

/-- Whether a thread still has to settle its own file, or has failed to do so. -/
def Faces (relative : String) (t : Thread) : Prop := t.heirs = [] ∧ t.point.Faces relative

variable {i : Indexer} {files : FileTree} {asked : String → Prop} {s s' : IndexState}
  {t t' : Thread} {relative : String}

/-- What a thread goes by still holds when something else was done meanwhile. -/
theorem Due.mono (h : t.Due i files asked s) (hs : i.Advances files s s') :
    t.Due i files asked s' := by
  refine ⟨?_, h.heirs⟩
  have hpoint := h.point
  cases hp : t.point with
  | notes c done =>
      rw [hp] at hpoint
      exact ⟨hpoint.1, (hs.stored c.relative).elim (fun hsame => hsame.trans hpoint.2) id⟩
  | _ =>
      rw [hp] at hpoint
      exact hpoint

/-- A step of a thread leaves the tree with such files, stores what is due, and leads to where the
thread goes by such files again. -/
theorem Step.advances (h : t.Step i s t' s') (hs : i.Steady files asked s)
    (ht : t.Due i files asked s) :
    i.Steady files asked s' ∧ i.Advances files s s' ∧ t'.Due i files asked s' := by
  obtain ⟨hpoint, hheirs⟩ := ht
  have hfiles := hs.sameFiles
  cases h with
  | @unsupported relative _ hnone =>
      refine ⟨hs, .refl s, ⟨hpoint, trivial, ?_⟩, hheirs⟩
      simp only [FileChange.relative, FileChange.fingerprint?, Indexer.due, hnone]
  | @missing relative language _ hlanguage hread =>
      refine ⟨hs, .refl s, ⟨hpoint, trivial, ?_⟩, hheirs⟩
      rw [hfiles] at hread
      simp only [FileChange.relative, FileChange.fingerprint?, Indexer.due, hlanguage, hread]
  | unreadable => exact ⟨hs, .refl s, trivial, hheirs⟩
  | @tooLarge relative language content _ hlanguage hread hsize =>
      refine ⟨hs, .refl s, ⟨hpoint, trivial, ?_⟩, hheirs⟩
      rw [hfiles] at hread
      simp only [FileChange.relative, FileChange.fingerprint?, Indexer.due, hlanguage, hread,
        if_pos hsize]
  | finds hfinds => exact ⟨hs, .refl s, ⟨hpoint, hfiles ▸ hfinds⟩, hheirs⟩
  | @unchanged relative language content _ hneeded =>
      have hknown := Tracker.observe_known _ _ _ hneeded
      refine ⟨hs.tracker fun p fp hp => Tracker.observe_fingerprints .. ▸ hp,
        .of_settled fun p hp => ?_, trivial, hheirs⟩
      by_cases heq : relative = p
      · exact .inl (heq ▸ hs.settled hpoint.2 hknown)
      · exact hp.other (Tracker.observe_state _ _ _ heq)
  | @begins relative language content _ hneeded =>
      refine ⟨hs.tracker fun p fp hp => Tracker.observe_fingerprints .. ▸ hp,
        .of_settled fun p hp => ?_, hpoint, hheirs⟩
      by_cases heq : relative = p
      · refine .inr (.inr (.inl ?_))
        rw [Tracker.begin, Tracker.state_setState, if_pos heq]
      · refine hp.other ?_
        rw [Tracker.begin, Tracker.state_setState, if_neg heq, Tracker.observe_state _ _ _ heq]
  | unparsed => exact ⟨hs, .refl s, trivial, hheirs⟩
  | unresolved => exact ⟨hs, .refl s, trivial, hheirs⟩
  | resolved => exact ⟨hs, .refl s, ⟨hpoint.1, rfl, hpoint.2.due.symm⟩, hheirs⟩
  | refused hc =>
      have hsame := Indexer.carryOut_error hc
      refine ⟨⟨hfiles, fun p fp hp => ?_, fun p hp => ?_⟩, ⟨fun p => .inl ?_, fun p hp => ?_⟩,
        trivial, hheirs⟩
      · exact hsame ▸ hs.known p fp hp
      · exact hsame ▸ hs.unrecorded p hp
      · rw [hsame]
      · exact hp.congr (by rw [hsame]) rfl
  | @stored c done b _ hc =>
      obtain ⟨hasked, hfits, hdue⟩ := hpoint
      have hcarried := Indexer.carryOut_ok hfits hc
      have hown := hcarried.fingerprint.trans hdue
      have hother : ∀ {p}, c.relative ≠ p → b.store.fingerprint? (i.storePath p) =
          s.site.backend.store.fingerprint? (i.storePath p) := fun hne =>
        hcarried.fingerprint_other (mt Indexer.storePath_inj.1 (Ne.symm hne))
      have hnone : ∀ p, ¬ asked p → b.store.fingerprint? (i.storePath p) = none := fun p hp =>
        (hother fun heq => hp (by rw [← heq]; exact hasked)).trans (hs.unrecorded p hp)
      refine ⟨⟨hfiles, fun p fp hp => ?_, hnone⟩, ⟨fun p => ?_, fun p hp => ?_⟩, ⟨?_, hown⟩, hheirs⟩
      · by_cases heq : c.relative = p
        · exact .inr (heq ▸ hown)
        · exact (hother heq).symm ▸ hs.known p fp hp
      · by_cases heq : c.relative = p
        · exact .inr (heq ▸ hown)
        · exact .inl (hother heq)
      · by_cases heq : c.relative = p
        · exact .inl (heq ▸ hown)
        · exact hp.congr (hother heq) rfl
      · -- An heir has a record, so it is asked for if it belongs to the tree.
        intro heir hheir relative hrelative
        obtain ⟨-, id, -, hclaims⟩ := hcarried.heir_claims hheir
        refine Classical.byContradiction fun hnot => ?_
        have hrecord := hclaims.fingerprint?
        rw [Indexer.relativeStorePath?_eq_some_iff.1 hrelative, hnone relative hnot] at hrecord
        cases hrecord
  | @noted c done _ =>
      obtain ⟨hasks, hstored⟩ := hpoint
      refine ⟨⟨hfiles, fun p fp hp => ?_, hs.unrecorded⟩, .of_settled fun p hp => ?_, hasks, hheirs⟩
      · by_cases heq : c.relative = p
        · exact .inr (heq ▸ hstored)
        · have hnot : ∀ fp?, c.owed? done ≠ some (p, fp?) := fun fp? howed =>
            heq (FileChange.owed?_eq_some_iff.1 howed).2.1
          rw [FileChange.noted_value?_other hnot] at hp
          exact hs.known p fp hp
      · by_cases heq : c.relative = p
        · exact .inl (heq ▸ hstored)
        · exact hp.other (FileChange.noted_state heq done s.tracker)
  | elsewhere =>
      exact ⟨hs, .refl s, fun heir hheir => hpoint heir (.tail _ hheir), hheirs⟩
  | @hands heir relative rest outcome _ hheir =>
      exact ⟨hs.tracker fun p fp hp => Tracker.invalidate_known hp,
        .of_settled fun p hp => hp.invalidate relative, hpoint heir (.head _) relative hheir,
        List.forall_mem_cons.2 ⟨fun other hother => hpoint other (.tail _ hother), hheirs⟩⟩
  | handed => exact ⟨hs, .refl s, trivial, hheirs⟩
  | @resumes result heir heirs =>
      obtain ⟨hrest, hlater⟩ := List.forall_mem_cons.1 hheirs
      cases result with
      | ok outcome => exact ⟨hs, .refl s, hrest, hlater⟩
      | error e =>
          exact ⟨hs.tracker fun _ _ hp => hp,
            .of_settled fun p hp => hp.failed e.message false, hrest, hlater⟩

/-- A thread that gets on settles its file, or faces it still. -/
theorem Step.faces (h : t.Step i s t' s') (hs : i.Steady files asked s)
    (ht : t.Due i files asked s) (hfaces : t.Faces relative) :
    t'.Faces relative ∨ i.Settled files s' relative := by
  obtain ⟨hheirs, hfaces⟩ := hfaces
  have hpoint := ht.point
  cases h with
  | unchanged hneeded =>
      obtain rfl : _ = relative := hfaces
      exact .inr (.inl (hs.settled hpoint.2 (Tracker.observe_known _ _ _ hneeded)))
  | stored hc =>
      obtain ⟨-, hfits, hdue⟩ := hpoint
      obtain rfl : _ = relative := hfaces
      exact .inr (.inl ((Indexer.carryOut_ok hfits hc).fingerprint.trans hdue))
  | unreadable => exact .inl ⟨hheirs, trivial⟩
  | unparsed => exact .inl ⟨hheirs, trivial⟩
  | unresolved => exact .inl ⟨hheirs, trivial⟩
  | refused => exact .inl ⟨hheirs, trivial⟩
  | noted => cases hfaces
  | elsewhere => cases hfaces
  | hands => cases hfaces
  | handed => cases hfaces
  | resumes => cases hheirs
  | _ => exact .inl ⟨hheirs, hfaces⟩

end Thread

/-! ## What a worker goes by -/

/-- Whether it is a worker, and no caller that indexes a file itself. -/
def Hand.isWorker : Hand → Bool
  | calls _ => false
  | _ => true

/-- Whether a worker goes by such files, and is at files that are asked for. -/
def Hand.Due (i : Indexer) (files : FileTree) (asked : String → Prop) (s : IndexState) :
    Hand → Prop
  | calls _ => False
  | works path _ t => asked path ∧ t.Due i files asked s
  | _ => True

/-- Whether a worker has a file that it still has to settle, or has failed to settle. -/
def Hand.Faces (relative : String) (h : Hand) : Prop :=
  ∃ n t, h = .works relative n t ∧ t.Faces relative

namespace Hand

variable {p : Pool} {h h' : Hand} {queue : Queue} {state : IndexState} {files : FileTree}
  {asked : String → Prop} {relative : String}

theorem Due.mono {s : IndexState} (hdue : h.Due p.indexer files asked state)
    (hs : p.indexer.Advances files state s) : h.Due p.indexer files asked s := by
  cases h with
  | works path n t => exact ⟨hdue.1, hdue.2.mono hs⟩
  | _ => exact hdue

/-- A step of a worker leaves the tree with such files, stores what is due, and leads to where the
worker goes by such files again. -/
theorem Step.advances (hstep : h.Step p h' queue state) (hworker : h'.isWorker = true)
    (hs : p.indexer.Steady files asked p.state) (hdue : h.Due p.indexer files asked p.state)
    (htook : ∀ path, h = .took path → asked path) :
    p.indexer.Steady files asked state ∧ p.indexer.Advances files p.state state ∧
      h'.Due p.indexer files asked state := by
  have hnoted : ∀ path (e : Error) last,
      p.indexer.Steady files asked (Scheduler.note path e last p.state) ∧
        p.indexer.Advances files p.state (Scheduler.note path e last p.state) := fun path e last =>
    ⟨hs.tracker fun _ _ hp => hp, .of_settled fun r hr => hr.failed e.message last⟩
  cases hstep with
  | indexes => cases hworker
  | removes => cases hworker
  | @goesOn _ t t' _ ht hstep =>
      cases h with
      | works path n _ =>
          cases ht
          obtain ⟨hs', hadvances, hdue'⟩ := hstep.advances hs hdue.2
          exact ⟨hs', hadvances, hdue.1, hdue'⟩
      | calls => exact hdue.elim
      | _ => cases ht
  | starts =>
      have hasked := htook _ rfl
      exact ⟨hs, .refl _, hasked, hasked, List.forall_mem_nil _⟩
  | retries =>
      obtain ⟨hs', hadvances⟩ := hnoted _ _ _
      exact ⟨hs', hadvances, hdue.1, hdue.1, List.forall_mem_nil _⟩
  | givesUp =>
      obtain ⟨hs', hadvances⟩ := hnoted _ _ _
      exact ⟨hs', hadvances, trivial⟩
  | _ => exact ⟨hs, .refl _, trivial⟩

/-- A worker that gets on settles its file, or faces it still. -/
theorem Step.faces (hstep : h.Step p h' queue state)
    (hs : p.indexer.Steady files asked p.state) (hdue : h.Due p.indexer files asked p.state)
    (hfaces : h.Faces relative) :
    h'.Faces relative ∨ p.indexer.Settled files state relative := by
  obtain ⟨n, t, rfl, hfaces⟩ := hfaces
  cases hstep with
  | goesOn ht hstep =>
      cases ht
      exact (hstep.faces hs hdue.2 hfaces).imp_left fun hfaces' => ⟨n, _, rfl, hfaces'⟩
  | succeeds => exact hfaces.2.elim
  | retries => exact .inl ⟨_, _, rfl, rfl, rfl⟩
  | givesUp =>
      refine .inr (.inr (.inr (.inr ?_)))
      rw [Scheduler.note, Tracker.failed_state, if_pos rfl, if_pos rfl]

/-- A file that waits, or is to be indexed again, does so still, or the worker faces it. -/
theorem Step.waits {before after : List Duty} (hstep : h.Step p h' queue state)
    (horderly : Crew.Orderly ⟨p.queue, before ++ h.duty :: after⟩) :
    Crew.Orderly ⟨queue, before ++ h'.duty :: after⟩ ∧
      (∀ r, r ∈ queue.queued ∨ r ∈ queue.rerun → r ∈ p.queue.queued ∨ r ∈ p.queue.rerun) ∧
      ∀ r, r ∈ p.queue.queued ∨ r ∈ p.queue.rerun →
        (r ∈ queue.queued ∨ r ∈ queue.rerun) ∨ h'.Faces r := by
  cases hstep with
  | @takes path _ hqueue =>
      refine ⟨horderly.takes hqueue, ?_⟩
      obtain ⟨rest, -, rfl⟩ := Queue.take?_eq hqueue
      exact ⟨fun r hr => hr, fun r hr => .inl hr⟩
  | @starts path =>
      refine ⟨horderly.starts, fun r hr => hr.imp_left fun hq => (Queue.mem_dropping.1 hq).1,
        fun r hr => ?_⟩
      by_cases heq : r = path
      · subst heq
        exact .inr ⟨1, _, rfl, rfl, rfl⟩
      · exact .inl (hr.imp_left fun hq => Queue.mem_dropping.2 ⟨hq, heq⟩)
  | @finishes path =>
      have hqueued : path ∉ p.queue.queued :=
        fun hmem => horderly.apart path hmem (horderly.works (by simp [duty]))
      obtain ⟨-, hwaits⟩ := Queue.finish_waits horderly.isOpen hqueued
      exact ⟨horderly.finishes, fun r hr => (hwaits r).1 hr, fun r hr => .inl ((hwaits r).2 hr)⟩
  | goesOn ht =>
      rw [duty_withThread]
      exact ⟨horderly, fun r hr => hr, fun r hr => .inl hr⟩
  | _ => exact ⟨horderly, fun r hr => hr, fun r hr => .inl hr⟩

end Hand

/-! ## What a pool settles -/

namespace Pool

variable {p p₀ : Pool} {files : FileTree} {asked : String → Prop} {names : List String}
  {relative : String}

/-- What callers and workers lead to while the files stay as they are, with the names of the files
that callers asked for since.  Files that nobody may ask for are not asked for; records of other
trees change in any way. -/
inductive Serves (p₀ : Pool) (asked : String → Prop) : List String → Pool → Prop
  | start : Serves p₀ asked [] p₀
  | asks {names : List String} {p : Pool} {path : String} {b : Bool} {queue : Queue} :
      Serves p₀ asked names p → asked path → p.queue.enqueue path = (.ok b, queue) →
      Serves p₀ asked (path :: names) { p with queue }
  /-- A file is forced to be indexed when it is looked at next. -/
  | invalidates {names : List String} {p : Pool} (relative : String) : Serves p₀ asked names p →
      Serves p₀ asked names { p with
        state := { p.state with tracker := p.state.tracker.invalidate relative } }
  | stops {names : List String} {p : Pool} : Serves p₀ asked names p →
      Serves p₀ asked names { p with isStopping := true }
  | meanwhile {names : List String} {p : Pool} {site : Site} : Serves p₀ asked names p →
      site.files = p.state.site.files →
      (∀ relative, site.backend.store.records.get? (p.indexer.storePath relative) =
        p.state.site.backend.store.records.get? (p.indexer.storePath relative)) →
      Serves p₀ asked names { p with state := { p.state with site } }
  | works {names : List String} {p : Pool} {before after : List Hand} {h h' : Hand}
      {queue : Queue} {state : IndexState} : Serves p₀ asked names p →
      p.hands = before ++ h :: after → h.Step p h' queue state → h'.isWorker = true →
      Serves p₀ asked names { p with queue, state, hands := before ++ h' :: after }

/-- How far the files that were asked for are served: each is settled unless it waits, or a worker
faces it. -/
structure Serving (files : FileTree) (asked : String → Prop) (names : List String) (p : Pool) :
    Prop where
  orderly : p.crew.Orderly
  steady : p.indexer.Steady files asked p.state
  hands : ∀ h ∈ p.hands, h.Due p.indexer files asked p.state
  waiting : ∀ r, r ∈ p.queue.queued ∨ r ∈ p.queue.rerun → asked r
  served : ∀ r ∈ names, (r ∈ p.queue.queued ∨ r ∈ p.queue.rerun) ∨ (∃ h ∈ p.hands, h.Faces r) ∨
    p.indexer.Settled files p.state r

namespace Serving

/-- Something was done to the tree, and files are served as far as before. -/
theorem advanced {state : IndexState} (h : p.Serving files asked names)
    (hsteady : p.indexer.Steady files asked state)
    (hadvances : p.indexer.Advances files p.state state) :
    Serving files asked names { p with state } :=
  ⟨h.orderly, hsteady, fun k hk => (h.hands k hk).mono hadvances, h.waiting, fun r hr =>
    (h.served r hr).imp_right (Or.imp_right (hadvances.settled r))⟩

theorem asks {path : String} {b : Bool} {queue : Queue} (h : p.Serving files asked names)
    (hasked : asked path) (hqueue : p.queue.enqueue path = (.ok b, queue)) :
    Serving files asked (path :: names) { p with queue } := by
  obtain ⟨-, hwaits⟩ := Queue.enqueue_waits h.orderly.isOpen hqueue
  refine ⟨h.orderly.notifies hqueue, h.steady, h.hands, fun r hr => ?_, fun r hr => ?_⟩
  · rcases (hwaits r).1 hr with rfl | hr
    · exact hasked
    · exact h.waiting r hr
  · rcases List.mem_cons.1 hr with rfl | hr
    · exact .inl ((hwaits r).2 (.inl rfl))
    · exact (h.served r hr).imp_left fun hr => (hwaits r).2 (.inr hr)

/-- A step of a worker serves the files further. -/
theorem works {before after : List Hand} {k k' : Hand} {queue : Queue} {state : IndexState}
    (h : p.Serving files asked names) (hhands : p.hands = before ++ k :: after)
    (hstep : k.Step p k' queue state) (hworker : k'.isWorker = true) :
    Serving files asked names { p with queue, state, hands := before ++ k' :: after } := by
  have hk : k ∈ p.hands := by simp [hhands]
  have horderly :
      Crew.Orderly ⟨p.queue, before.map Hand.duty ++ k.duty :: after.map Hand.duty⟩ := by
    simpa [crew, hhands] using h.orderly
  have htook : ∀ path, k = .took path → asked path := by
    rintro path rfl
    exact h.waiting path (.inl (horderly.took (by simp [Hand.duty])))
  obtain ⟨hsteady, hadvances, hdue⟩ := hstep.advances hworker h.steady (h.hands k hk) htook
  obtain ⟨horderly', hbefore, hafter⟩ := hstep.waits horderly
  refine ⟨by simpa [crew] using horderly', hsteady, fun j hj => ?_, fun r hr =>
    h.waiting r (hbefore r hr), fun r hr => ?_⟩
  · rcases mem_hands.1 hj with rfl | hj
    · exact hdue
    · exact (h.hands j (hhands ▸ mem_hands.2 (.inr hj))).mono hadvances
  · rcases h.served r hr with hwaits | ⟨j, hj, hfaces⟩ | hsettled
    · exact (hafter r hwaits).imp_right fun hfaces => .inl ⟨k', by simp, hfaces⟩
    · rcases mem_hands.1 (hhands ▸ hj) with rfl | hj
      · exact .inr ((hstep.faces h.steady (h.hands j hk) hfaces).imp_left fun hfaces' =>
          ⟨k', by simp, hfaces'⟩)
      · exact .inr (.inl ⟨j, mem_hands.2 (.inr hj), hfaces⟩)
    · exact .inr (.inr (hadvances.settled r hsettled))

/-- When nothing waits and nothing is being indexed, what was asked for is settled. -/
theorem idle (h : p.Serving files asked names) (hidle : p.queue.isIdle = true) {r : String}
    (hr : r ∈ names) : p.indexer.Settled files p.state r := by
  simp only [Queue.isIdle, Bool.and_eq_true, List.isEmpty_iff] at hidle
  obtain ⟨⟨hqueued, hflight⟩, hrerun⟩ := hidle
  rcases h.served r hr with hwaits | ⟨_, hmem, n, t, rfl, -⟩ | hsettled
  · simp [hqueued, hrerun] at hwaits
  · have hworks : r ∈ p.queue.inFlight := h.orderly.works (List.mem_map_of_mem hmem)
    rw [hflight] at hworks
    cases hworks
  · exact hsettled

end Serving

theorem Serves.indexer (h : p₀.Serves asked names p) : p.indexer = p₀.indexer := by
  induction h with
  | start => rfl
  | _ => assumption

/-- Files stay served, whoever comes next. -/
theorem Serves.serving (h : p₀.Serves asked names p) (hstart : p₀.Serving files asked []) :
    p.Serving files asked names := by
  induction h with
  | start => exact hstart
  | asks _ hasked hqueue ih => exact ih.asks hasked hqueue
  | invalidates relative _ ih =>
      exact ih.advanced (ih.steady.tracker fun r fp hr => Tracker.invalidate_known hr)
        (.of_settled fun r hr => hr.invalidate relative)
  | stops _ ih => exact ⟨ih.orderly, ih.steady, ih.hands, ih.waiting, ih.served⟩
  | @meanwhile _ p site _ hfiles hrecords ih =>
      have hsame : ∀ r, site.backend.store.fingerprint? (p.indexer.storePath r) =
          p.state.site.backend.store.fingerprint? (p.indexer.storePath r) := fun r =>
        congrArg (Option.map FileRecord.fingerprint) (hrecords r)
      refine ih.advanced ⟨hfiles.trans ih.steady.sameFiles, fun r fp hr => ?_, fun r hr => ?_⟩
        ⟨fun r => .inl (hsame r), fun r hr => hr.congr (hsame r) rfl⟩
      · simpa only [hsame] using ih.steady.known r fp hr
      · exact (hsame r).trans (ih.steady.unrecorded r hr)
  | works _ hhands hstep hworker ih => exact ih.works hhands hstep hworker

/-- At first nothing is being indexed, and what is known is stored. -/
theorem start_serving {i : Indexer} {retry : Retry} {site : Site} {tracker : Tracker} {n : Nat}
    (htracker : i.tracker site.backend = .ok tracker) :
    (start i retry ⟨site, tracker⟩ n).Serving site.files (i.Asked site) [] := by
  refine ⟨?_, ⟨rfl, fun r fp hr => .inl (Indexer.known_of_tracker htracker r fp hr),
    fun r hr => Option.not_isSome_iff_eq_none.1 (not_or.1 hr).2⟩, fun k hk => ?_, ?_,
    List.forall_mem_nil _⟩
  · simpa [crew, start, Crew.new, Hand.duty] using Crew.orderly_new n
  · rw [List.eq_of_mem_replicate hk]
    trivial
  · simp [start, Queue.new]

/-- **Several workers bring records in step, but for files that are passed over.**  Let callers
ask for each file that is listed and each that has a record, and no other one, in any order and
while workers index them.  When nothing waits and nothing is being indexed, and no file failed,
each file that is not pending is in step with what is listed exactly if it was not overlooked. -/
theorem Serves.in_step_iff {i : Indexer} {retry : Retry} {site : Site} {tracker : Tracker} {n : Nat}
    (hsupports : i.Supports) (htracker : i.tracker site.backend = .ok tracker)
    (h : (Pool.start i retry ⟨site, tracker⟩ n).Serves (i.Asked site) names p)
    (hnames : ∀ r, i.Asked site r → r ∈ names) (hidle : p.queue.isIdle = true)
    (hfailures : p.state.tracker.failures = []) (hpending : relative ∉ p.state.tracker.pending) :
    i.InStep site.files p.state.site.backend.store relative ↔
      ¬ i.Overlooked site.files site.backend.store relative := by
  have hserving := h.serving (start_serving htracker)
  have hindexer : p.indexer = i := h.indexer
  have hclosed : ¬ (p.state.tracker.state relative).IsOpen := by
    rw [Tracker.isOpen_iff, hfailures]
    rintro (h | h)
    · exact hpending h
    · cases h
  refine Indexer.inStep_iff_not_overlooked hsupports (fun hasked => ?_) fun hasked => ?_
  · exact hindexer ▸ (hserving.idle hidle (hnames relative hasked)).resolve_right hclosed
  · exact hindexer ▸ hserving.steady.unrecorded relative hasked

section

variable {queue queue' : Queue} {state state' : IndexState} {h h' k k' : Hand}

theorem Serves.first (hserves : p₀.Serves asked names (twoHands queue state h k))
    (hstep : h.Step (twoHands queue state h k) h' queue' state') (hworker : h'.isWorker = true) :
    p₀.Serves asked names (twoHands queue' state' h' k) :=
  @Serves.works _ _ _ _ [] [k] _ _ _ _ hserves rfl hstep hworker

theorem Serves.second (hserves : p₀.Serves asked names (twoHands queue state h k))
    (hstep : k.Step (twoHands queue state h k) k' queue' state') (hworker : k'.isWorker = true) :
    p₀.Serves asked names (twoHands queue' state' h k') :=
  @Serves.works _ _ _ _ [h] [] _ _ _ _ hserves rfl hstep hworker

end

/-- A worker finds the first file unchanged while the other one retracts the second file. -/
theorem Serves.in_step_iff_languageDropped : ∃ p,
    (Pool.start emptyFileIndexer .default ⟨languageDropped, languageDroppedTracker⟩ 2).Serves
      (emptyFileIndexer.Asked languageDropped) ["c.rs", "b.py"] p ∧
    p.state.tracker.states.toList = [("b.py", .indexed), ("c.rs", .deleted)] ∧
    ∀ relative, emptyFileIndexer.InStep languageDropped.files p.state.site.backend.store
      relative := by
  have hasked : ∀ r, emptyFileIndexer.Asked languageDropped r ↔ r = "b.py" ∨ r = "c.rs" := by
    intro r
    rw [Indexer.Asked, languageDropped_walk, languageDropped_stored, List.mem_singleton]
    tauto
  have hqueued : (Pool.start emptyFileIndexer .default ⟨languageDropped, languageDroppedTracker⟩
      2).Serves (emptyFileIndexer.Asked languageDropped) ["c.rs", "b.py"]
      (twoHands ⟨["b.py", "c.rs"], [], [], ["b.py", "c.rs"], none, true⟩
        ⟨languageDropped, languageDroppedTracker⟩ .free .free) :=
    .asks (.asks .start ((hasked _).2 (.inl rfl)) rfl) ((hasked _).2 (.inr rfl)) rfl
  have htaken := (hqueued.first (.takes rfl) rfl).second (.takes rfl) rfl
  have hstarted := (htaken.first .starts rfl).second .starts rfl
  have hread := hstarted.first (.goesOn rfl (.finds languageDropped_finds)) rfl
  have hdecided := hread.second (.goesOn rfl (.unsupported (by decide +kernel))) rfl
  have hretracted : (emptyFileIndexer.carryOut (.skip "c.rs" .unsupported)
      languageDropped.backend).1 = .ok { (0 : Commit) with recordWritten := true } := by
    decide +kernel
  have hstored := hdecided.second (.goesOn rfl (.stored (Prod.ext hretracted rfl))) rfl
  have hcompared := hstored.first
    (.goesOn rfl (.unchanged (congrArg Prod.fst languageDropped_observe))) rfl
  have hnoted := hcompared.second (.goesOn rfl .noted) rfl
  have hended := hnoted.second (.goesOn rfl .handed) rfl
  have hdone := (hended.first .succeeds rfl).first .finishes rfl
  have hserves := (hdone.second .succeeds rfl).second .finishes rfl
  have hstates : ((FileChange.skip "c.rs" .unsupported).noted
      { (0 : Commit) with recordWritten := true }
      (languageDroppedTracker.observe "b.py" (fingerprint .empty)).2).states.toList =
        [("b.py", .indexed), ("c.rs", .deleted)] := by
    decide +kernel
  refine ⟨_, hserves, hstates, fun relative => ?_⟩
  refine (hserves.in_step_iff emptyFileIndexer_supports languageDropped_tracker
    (fun r hr => by simpa [or_comm] using (hasked r).1 hr) rfl ?_ ?_).2
    (languageDropped_none_overlooked relative)
  · simp [twoHands, Tracker.failures, Tracker.pathsIn, hstates]
  · simp [twoHands, Tracker.pending, Tracker.pathsIn, hstates]

end Pool

end CodeAtlas
