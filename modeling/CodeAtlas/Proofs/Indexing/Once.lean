import CodeAtlas.Proofs.Indexing.Due

/-!
# CodeAtlas.Proofs.Indexing.Once

A file is looked at only once while it is indexed.

When a file has been committed, all nodes that it claims are filed under it.  From then on a
node that it claims is filed under it or under a file whose record is not stale
(`Indexer.Keeping`), and such a file gives up nothing; so nobody hands a node back to the file,
and it is not indexed again on account of its own heirs (`Indexer.Course.looks_once`).  What is
noted of it with its commit is what is noted in the end (`Indexer.Course.open_iff`).
-/

namespace CodeAtlas

open Indexing Upsert

/-! ## What is noted of a file -/

namespace FileState

@[simp] theorem not_isOpen_indexed : ¬ indexed.IsOpen := by simp [IsOpen]

@[simp] theorem not_isOpen_deleted : ¬ deleted.IsOpen := by simp [IsOpen]

end FileState

namespace Tracker

variable (t : Tracker) (path fingerprint : String)

theorem committed_state_self : (t.committed path fingerprint).state path = .indexed := by
  rw [committed, state_setState, if_pos rfl]

theorem deleted_state_self : (t.deleted path).state path = .deleted := by
  rw [deleted, state_setState, if_pos rfl]

/-- A file that need not be indexed and is not being worked on is known to be in order. -/
theorem observe_closed (hneeded : (t.observe path fingerprint).1 = false)
    (hidle : t.state path ≠ .indexing) :
    ¬ ((t.observe path fingerprint).2.state path).IsOpen := by
  simp only [observe, Bool.or_eq_false_iff, beq_eq_false_iff_ne] at hneeded
  obtain ⟨⟨hsame, hchanged⟩, hfailed⟩ := hneeded
  simp only [observe, hsame, Bool.false_eq_true, if_false]
  split
  · rw [state_setState, if_pos rfl]
    exact FileState.not_isOpen_indexed
  · simp [FileState.IsOpen, hchanged, hfailed, hidle]

end Tracker

/-- What is noted of a file that is done closes it, unless it is skipped and had no record. -/
theorem FileChange.noted_open_iff {i : Indexer} {c : FileChange} {done : Commit} {b b' : Backend}
    (h : i.CarriedOut c done b b') (t : Tracker) :
    ((c.noted done t).state c.relative).IsOpen ↔ (∃ reason, c.outcome done = .skipped reason) ∧
      b.store.fingerprint? (i.storePath c.relative) = none ∧ (t.state c.relative).IsOpen := by
  cases c with
  | replace relative record nodes edges =>
      simp [noted, FileChange.relative, outcome, Tracker.committed_state_self]
  | retract relative => simp [noted, FileChange.relative, outcome, Tracker.deleted_state_self]
  | skip relative reason =>
      have hdropped : done.recordWritten =
          (b.store.fingerprint? (i.storePath relative)).isSome := h.dropped id
      cases hstored : b.store.fingerprint? (i.storePath relative) with
      | none =>
          rw [hstored] at hdropped
          simp [noted, FileChange.relative, outcome, hdropped, hstored]
      | some fp =>
          rw [hstored] at hdropped
          simp [noted, FileChange.relative, outcome, hdropped, hstored, Tracker.deleted_state_self]

namespace Indexer

variable {i : Indexer} {files : FileTree} {relative p : String}

/-! ## Nodes of a committed file -/

/-- Whether the nodes that a file claims are filed under it, or under files that give up
nothing. -/
def Keeping (i : Indexer) (files : FileTree) (relative : String) (s : Store) : Prop :=
  ∀ n ∈ s.nodes, Edge.isId n.id = false → s.Claims (i.storePath relative) n.id →
    n.file = i.storePath relative ∨ ∀ q, n.file = i.storePath q → ¬ i.Stale files s q

/-- Whether a change gives a file nodes of that file, which are told from edges. -/
structure Own (i : Indexer) (c : FileChange) : Prop where
  apart : Apart c.nodes c.edges
  file : ∀ n ∈ c.nodes, n.file = i.storePath c.relative

theorem own_of_ofFile {c : FileChange} (hfits : c.Fits i) (h : c.OfFile) : i.Own c := by
  cases c with
  | replace relative record nodes edges =>
      obtain ⟨index, f, r, hr, hpath, rfl, rfl⟩ := h
      have hmade := Resolve.resolve_madeFrom hr
      refine ⟨hmade.apart (Resolve.nodes_formed hr), fun n hn => ?_⟩
      rw [hmade.nodeFile n hn, hpath]
      exact hfits
  | retract => exact ⟨⟨nofun, nofun⟩, nofun⟩
  | skip => exact ⟨⟨nofun, nofun⟩, nofun⟩

theorem Ruled.own {s : IndexState} {c : FileChange} {tracker : Tracker}
    (h : i.Ruled relative s (.ok (.change c)) tracker) : i.Own c :=
  own_of_ofFile h.fits.1 (Decided.ofFile i h.decided)

namespace CarriedOut

variable {c : FileChange} {done : Commit} {b b' : Backend}

/-- A file that is committed has all nodes that it claims. -/
theorem keeping_own (h : i.CarriedOut c done b b') (hown : i.Own c) :
    i.Keeping files c.relative b'.store := by
  intro n hn hid hclaims
  rcases mem_contributionOf.1 ((h.changed.own n.id).1 hclaims) with ⟨m, hm, hmid⟩ | ⟨e, he, heid⟩
  · rcases h.changed.node n.id with ⟨g, hg, -, hget⟩ | ⟨hne, -⟩
    · rw [Rows.mem_iff_get?.1 hn, Option.some.injEq] at hget
      exact .inl (hget ▸ hown.file g hg)
    · exact absurd hmid (hne m hm)
  · rw [← heid, hown.apart.edge e he] at hid
    cases hid

/-- A file that gives up a node that another file claims does not have it. -/
theorem file_ne_of_givenUp (h : i.Keeping files relative b.store) (hne : c.relative ≠ relative)
    (hsuits : i.Suits files c) {n : Node} (hn : n ∈ b.store.nodes)
    (hid : n.id ∈ givenUp b.store (i.storePath c.relative) c.nodes c.edges)
    (hclaims : b.store.Claims (i.storePath relative) n.id) :
    n.file ≠ i.storePath c.relative := by
  intro hfile
  rcases h n hn (mem_givenUp.1 hid).2.2 hclaims with hown | hsettled
  · exact hne (storePath_inj.1 (hfile.symm.trans hown))
  · exact hsettled c.relative hfile (stale_of_givenUp hsuits.complete hid)

/-- Another file that is committed takes nodes of the file over, and hands none back. -/
theorem keeping_other (h : i.CarriedOut c done b b') (hne : c.relative ≠ relative)
    (hown : i.Own c) (hsuits : i.Suits files c) (hkeeping : i.Keeping files relative b.store) :
    i.Keeping files relative b'.store ∧ i.storePath relative ∉ c.heirs done := by
  have hpath : i.storePath relative ≠ i.storePath c.relative :=
    fun heq => hne (storePath_inj.1 heq).symm
  constructor
  · intro n hn hid hclaims
    have hclaimed := (h.changed.claims_other hpath).1 hclaims
    have hold : n ∈ b.store.nodes → n.file = i.storePath relative ∨
        ∀ q, n.file = i.storePath q → ¬ i.Stale files b'.store q := fun hmem =>
      (hkeeping n hmem hid hclaimed).imp_right fun hsettled q hq hstale =>
        hsettled q hq (h.stale hsuits.faithful hstale).1
    rcases h.changed.node n.id with ⟨g, hg, -, hget⟩ | ⟨-, hget⟩
    · -- The file took the node over, and its record is in order now.
      rw [Rows.mem_iff_get?.1 hn, Option.some.injEq] at hget
      refine .inr fun q hq hstale => (h.stale hsuits.faithful hstale).2 ?_
      exact storePath_inj.1 (hq.symm.trans (hget ▸ hown.file g hg))
    · rw [Rows.mem_iff_get?.1 hn] at hget
      split at hget
      · next hstale =>
        obtain ⟨old, hmem, hrel⟩ := Option.bind_eq_some_iff.1 hget.symm
        have hsame := Rows.key_of_get? hmem
        have hfile := file_ne_of_givenUp hkeeping hne hsuits (Rows.mem_of_get? hmem)
          (by rw [hsame]; exact List.mem_filter.2 ⟨hstale.1, by rw [hid]; rfl⟩)
          (hsame.symm ▸ hclaimed)
        exact hold (released_eq_self hfile hrel ▸ Rows.mem_of_get? hmem)
      · exact hold (Rows.mem_of_get? hget.symm)
  · intro hheir
    obtain ⟨n, hn, hid, hfile, hhead⟩ := (h.heirs _).1 hheir
    have hclaims := (Store.mem_otherClaimants.1 (List.mem_of_mem_head? hhead)).2
    exact file_ne_of_givenUp hkeeping hne hsuits hn hid hclaims hfile

end CarriedOut

/-! ## Looking once -/

/-- Whether a task is about other files than one, and does what is due to them. -/
def Elsewhere (i : Indexer) (files : FileTree) (relative : String) : IndexTask → Prop
  | .index p => p ≠ relative
  | .complete c => c.relative ≠ relative ∧ i.Own c ∧ i.Suits files c
  | .refresh heirs _ => i.storePath relative ∉ heirs

namespace Course

variable {task : IndexTask} {s : IndexState} {ending : Except Error FileOutcome × IndexState}
  {events : List Event}

/-- Nothing that is done for other files leads back to a file that keeps its nodes. -/
theorem not_looked (h : i.Course task s ending events)
    (htask : i.Elsewhere s.site.files relative task)
    (hkeeping : i.Keeping s.site.files relative s.site.backend.store) :
    i.Keeping s.site.files relative ending.2.site.backend.store ∧ .looked relative ∉ events := by
  induction h with
  | settled hd =>
      obtain ⟨tracker, rfl, -⟩ := ruled_of_decide hd
      exact ⟨hkeeping, by simpa using Ne.symm htask⟩
  | undecided hd =>
      obtain ⟨tracker, rfl, -⟩ := ruled_of_decide hd
      exact ⟨hkeeping, by simpa using Ne.symm htask⟩
  | decided hd _ ih =>
      obtain ⟨tracker, rfl, hruled⟩ := ruled_of_decide hd
      obtain ⟨-, rfl⟩ := hruled.fits
      obtain ⟨hk, hevents⟩ := ih ⟨htask, hruled.own, hruled.suits⟩ hkeeping
      exact ⟨hk, by simpa [Ne.symm (show _ ≠ relative from htask)] using hevents⟩
  | refused hc =>
      rw [carryOut_error hc]
      exact ⟨hkeeping, List.not_mem_nil⟩
  | stored hc _ ih =>
      obtain ⟨hne, hown, hsuits⟩ := htask
      obtain ⟨hk, hheirs⟩ := (carryOut_ok hsuits.fits hc).keeping_other hne hown hsuits hkeeping
      obtain ⟨hk, hevents⟩ := ih hheirs hk
      exact ⟨hk, by simpa using hevents⟩
  | refreshed => exact ⟨hkeeping, List.not_mem_nil⟩
  | elsewhere _ _ ih => exact ih (mt (.tail _) htask) hkeeping
  | @heir heir q _ _ s t result _ _ _ hheir hfirst _ ih ihrest =>
      have hne : q ≠ relative := by
        rintro rfl
        exact htask (relativeStorePath?_eq_some_iff.1 hheir ▸ .head _)
      obtain ⟨hk, hfirstEvents⟩ := ih hne hkeeping
      have hfiles : t.site.files = s.site.files := hfirst.files trivial
      rw [IndexState.afterHeir_site, hfiles] at ihrest
      obtain ⟨hk, hrestEvents⟩ := ihrest (mt (.tail _) htask) hk
      exact ⟨hk, by simp [hfirstEvents, hrestEvents]⟩

/-- A file that is committed is not looked at after that. -/
theorem looks_once {c : FileChange} (h : i.Course (.complete c) s ending events)
    (hfits : c.Fits i) (hown : i.Own c) : .looked c.relative ∉ events := by
  cases h with
  | refused => exact List.not_mem_nil
  | @stored _ _ done b _ _ hc hrest =>
      have hcarried := carryOut_ok hfits hc
      have hheirs : i.storePath c.relative ∉ c.heirs done := fun hheir =>
        (hcarried.heir_claims hheir).1 rfl
      obtain ⟨-, hevents⟩ := @not_looked _ c.relative _ _ _ _ hrest hheirs
        (hcarried.keeping_own hown)
      simpa using hevents

/-! ## What is noted -/

/-- What is noted of a file changes only while it is looked at, or done. -/
theorem state_eq (h : i.Course task s ending events) (htask : task.relative? ≠ some p)
    (hevents : .looked p ∉ events) : ending.2.tracker.state p = s.tracker.state p := by
  induction h with
  | settled hd =>
      obtain ⟨tracker, rfl, hruled⟩ := ruled_of_decide hd
      exact hruled.state_other fun heq => htask (congrArg some heq)
  | undecided hd =>
      obtain ⟨tracker, rfl, hruled⟩ := ruled_of_decide hd
      exact hruled.state_other fun heq => htask (congrArg some heq)
  | decided hd _ ih =>
      obtain ⟨tracker, rfl, hruled⟩ := ruled_of_decide hd
      obtain ⟨-, rfl⟩ := hruled.fits
      rw [ih htask (mt (.tail _) hevents)]
      exact hruled.state_other fun heq => htask (congrArg some heq)
  | refused => rfl
  | stored _ _ ih =>
      rw [ih nofun (mt (.tail _) hevents)]
      exact FileChange.noted_state (fun heq => htask (congrArg some heq)) _ _
  | refreshed => rfl
  | elsewhere _ _ ih => exact ih nofun hevents
  | @heir _ q _ _ s t result _ first rest _ hfirst _ ih ihrest =>
      rw [List.mem_append, not_or] at hevents
      have hne : q ≠ p := by
        rintro rfl
        cases hfirst with
        | settled => exact hevents.1 (.head _)
        | undecided => exact hevents.1 (.head _)
        | decided => exact hevents.1 (.head _)
      have hafter : (t.afterHeir q result).tracker.state p = t.tracker.state p := by
        cases result with
        | ok outcome => rfl
        | error e => rw [IndexState.afterHeir, Tracker.failed_state, if_neg hne]
      rw [ihrest nofun hevents.2, hafter, ih (fun heq => hne (Option.some.inj heq)) hevents.1,
        Tracker.invalidate_state, if_neg hne]

/-- What heirs come to does not fail. -/
theorem refresh_ok {heirs : List String} {outcome : FileOutcome}
    (h : i.Course (.refresh heirs outcome) s ending events) : ending.1 = .ok outcome := by
  generalize htask : IndexTask.refresh heirs outcome = task at h
  induction h generalizing heirs with
  | refreshed =>
      cases htask
      rfl
  | elsewhere _ _ ih =>
      cases htask
      exact ih rfl
  | heir _ _ _ _ ih =>
      cases htask
      exact ih rfl
  | _ => cases htask

/-- What fails for a file leaves the store. -/
theorem store_of_error (h : i.Course task s ending events) {e : Error} (he : ending.1 = .error e)
    (htask : ∀ heirs outcome, task ≠ .refresh heirs outcome) :
    ending.2.site.backend.store = s.site.backend.store := by
  induction h with
  | settled => cases he
  | undecided hd =>
      obtain ⟨tracker, rfl, -⟩ := ruled_of_decide hd
      rfl
  | decided hd _ ih =>
      obtain ⟨tracker, rfl, -⟩ := ruled_of_decide hd
      exact ih he nofun
  | refused hc => exact carryOut_error hc
  | stored _ hrest => cases hrest.refresh_ok.symm.trans he
  | refreshed => exact absurd rfl (htask _ _)
  | elsewhere => exact absurd rfl (htask _ _)
  | heir => exact absurd rfl (htask _ _)

/-- When a file is done, it is known not to be in order only if it was skipped, had no record,
and was known not to be in order before. -/
theorem open_iff {c : FileChange} (h : i.Course (.complete c) s ending events) (hfits : c.Fits i)
    (hown : i.Own c) {outcome : FileOutcome} (houtcome : ending.1 = .ok outcome) :
    (ending.2.tracker.state c.relative).IsOpen ↔ (∃ reason, outcome = .skipped reason) ∧
      s.site.backend.store.fingerprint? (i.storePath c.relative) = none ∧
      (s.tracker.state c.relative).IsOpen := by
  have hlooked := h.looks_once hfits hown
  cases h with
  | refused => cases houtcome
  | @stored _ _ done b _ _ hc hrest =>
      rw [hrest.state_eq nofun (mt (.tail _) hlooked)]
      cases hrest.refresh_ok.symm.trans houtcome
      exact FileChange.noted_open_iff (carryOut_ok hfits hc) s.tracker

/-- When a file was brought up to date that was not being worked on, it is known not to be in
order only if it was skipped, had no record, and was known not to be in order before. -/
theorem index_open_iff (h : i.Course (.index p) s ending events)
    (hidle : s.tracker.state p ≠ .indexing) {outcome : FileOutcome}
    (houtcome : ending.1 = .ok outcome) :
    (ending.2.tracker.state p).IsOpen ↔ (∃ reason, outcome = .skipped reason) ∧
      s.site.backend.store.fingerprint? (i.storePath p) = none ∧ (s.tracker.state p).IsOpen := by
  cases h with
  | settled hd =>
      obtain ⟨tracker, rfl, hruled⟩ := ruled_of_decide hd
      cases hruled with
      | unchanged _ hneeded =>
        cases houtcome
        have hclosed := s.tracker.observe_closed _ _ hneeded hidle
        exact ⟨fun hopen => absurd hopen hclosed, fun ⟨⟨_, hskipped⟩, _⟩ => by cases hskipped⟩
  | undecided => cases houtcome
  | decided hd hcomplete =>
      obtain ⟨tracker, rfl, hruled⟩ := ruled_of_decide hd
      have hiff := hcomplete.open_iff hruled.fits.1 hruled.own houtcome
      obtain ⟨done, rfl⟩ := hcomplete.gives houtcome
      cases hruled with
      | replace => simpa [FileChange.outcome, FileChange.relative] using hiff
      | unsupported => exact hiff
      | missing => exact hiff
      | tooLarge => exact hiff

end Course

end Indexer

end CodeAtlas
