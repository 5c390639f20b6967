import CodeAtlas.Proofs.Indexing.Known

/-!
# CodeAtlas.Proofs.Indexing.Due

What the record of a file is to be, and how indexing gets it there.

The record that is due to a file has the fingerprint of its content, or there is none for a
file that cannot be indexed (`Indexer.due`).  A file is settled if its record is due to it, or
if the tracker says that it is not (`Indexer.Settled`).  Indexing a file settles it unless it
fails, and unsettles no other one (`Indexer.Course.settles`); and a file without a record gets
one only if it is the one that is indexed, as heirs have records (`Indexer.Course.unrecorded`).
-/

namespace CodeAtlas

open Indexing Upsert

/-! ## States that are noted -/

namespace FileState

/-- Whether a file is known not to be in order. -/
def IsOpen (s : FileState) : Prop := s = changed ∨ s = indexing ∨ s = failed

end FileState

namespace Tracker

variable (t : Tracker) (path : String) {p : String}

theorem committed_state (fingerprint : String) (h : path ≠ p) :
    (t.committed path fingerprint).state p = t.state p := by
  rw [committed, state_setState, if_neg h]
  rfl

theorem deleted_state (h : path ≠ p) : (t.deleted path).state p = t.state p := by
  rw [deleted, state_setState, if_neg h]
  rfl

theorem invalidate_state : (t.invalidate path).state p =
    if path = p then .changed else t.state p := by
  rw [invalidate, state_setState]
  rfl

theorem failed_state (error : String) (exhausted : Bool) : (t.failed path error exhausted).state p =
    if path = p then (if exhausted then .failed else .changed) else t.state p := by
  rw [failed, state_setState]
  rfl

theorem mem_pathsIn {states : List FileState} :
    p ∈ t.pathsIn states ↔ ∃ s ∈ states, t.states.value? p = some s := by
  rw [pathsIn, List.mem_mergeSort, List.mem_map]
  simp only [List.mem_filter, List.contains_iff_mem, Dict.value?, Option.map_eq_some_iff,
    Rows.get?_eq_some_iff]
  constructor
  · rintro ⟨⟨q, s⟩, ⟨hmem, hs⟩, rfl⟩
    exact ⟨s, hs, _, ⟨hmem, rfl⟩, rfl⟩
  · rintro ⟨_, hs, ⟨q, s⟩, ⟨hmem, rfl⟩, rfl⟩
    exact ⟨_, ⟨hmem, hs⟩, rfl⟩

theorem map_fst_failures : t.failures.map Prod.fst = t.pathsIn [.failed] := by
  rw [failures, List.map_map]
  exact List.map_id _

/-- A file that is known not to be in order is pending, or failed. -/
theorem isOpen_iff : (t.state p).IsOpen ↔ p ∈ t.pending ∨ p ∈ t.failures.map Prod.fst := by
  have hstate : ∀ s, s ≠ .unseen → (t.state p = s ↔ t.states.value? p = some s) := by
    intro s hs
    rw [state]
    cases t.states.value? p with
    | none => simp [Ne.symm hs]
    | some s' => rw [Option.getD_some, Option.some.injEq]
  rw [map_fst_failures, pending, FileState.IsOpen, hstate .changed (by decide),
    hstate .indexing (by decide), hstate .failed (by decide)]
  simp [mem_pathsIn, or_assoc]

end Tracker

/-- What is noted of a changed file leaves the states of all others. -/
theorem FileChange.noted_state {c : FileChange} {p : String} (h : c.relative ≠ p) (done : Commit)
    (t : Tracker) : (c.noted done t).state p = t.state p := by
  cases c with
  | replace relative record nodes edges => exact t.committed_state relative _ h
  | retract relative => exact t.deleted_state relative h
  | skip relative reason =>
      rw [noted]
      split
      · exact t.deleted_state relative h
      · rfl

/-! ## What is due -/

namespace Indexer

variable {i : Indexer} {files : FileTree} {relative : String}

/-- The fingerprint that the record of a file is to have; none if it is to have no record. -/
def due (i : Indexer) (files : FileTree) (relative : String) : Option String :=
  match Lang.ofPath? i.languages relative with
  | none => none
  | some _ =>
    match files.read (FilePath.push i.root relative) with
    | .error _ => none
    | .ok content => if i.maxFileBytes < content.size then none else some (fingerprint content)

theorem Finds.due {language : Lang} {content : ByteArray}
    (h : i.Finds relative files language content) :
    i.due files relative = some (fingerprint content) := by
  rw [Indexer.due, h.supported]
  simp only [h.found, if_neg h.small]

/-- A record is due to a file that can be indexed. -/
theorem due_eq_some_iff {fp : String} : i.due files relative = some fp ↔
    ∃ language content, i.Finds relative files language content ∧ fp = fingerprint content := by
  constructor
  · intro h
    rw [Indexer.due] at h
    split at h
    · cases h
    · next language hlanguage =>
      split at h
      · cases h
      · next content hfound =>
        split at h
        · cases h
        · next hsmall =>
          exact ⟨language, content, ⟨hlanguage, hfound, hsmall⟩, (Option.some.inj h).symm⟩
  · rintro ⟨language, content, hfinds, rfl⟩
    exact hfinds.due

/-- What is decided for a file is what is due to it. -/
theorem Ruled.due {s : IndexState} {c : FileChange} {tracker : Tracker}
    (h : i.Ruled relative s (.ok (.change c)) tracker) :
    c.fingerprint? = i.due s.site.files c.relative := by
  cases h with
  | unsupported hnone =>
      rw [Indexer.due]
      simp only [FileChange.relative, hnone]
      rfl
  | missing hlanguage hmissing =>
      rw [Indexer.due]
      simp only [FileChange.relative, hlanguage, hmissing]
      rfl
  | tooLarge hlanguage hfound hlarge =>
      rw [Indexer.due]
      simp only [FileChange.relative, hlanguage, hfound, if_pos hlarge]
      rfl
  | replace hreads => exact hreads.finds.due.symm

/-- Whether the record of a file is due to it, or the tracker says that it is not. -/
def Settled (i : Indexer) (files : FileTree) (s : IndexState) (relative : String) : Prop :=
  s.site.backend.store.fingerprint? (i.storePath relative) = i.due files relative ∨
    (s.tracker.state relative).IsOpen

theorem Settled.congr {s t : IndexState} (h : i.Settled files s relative)
    (hstore : t.site.backend.store.fingerprint? (i.storePath relative) =
      s.site.backend.store.fingerprint? (i.storePath relative))
    (hstate : t.tracker.state relative = s.tracker.state relative) :
    i.Settled files t relative := by
  rw [Settled, hstore, hstate]
  exact h

theorem Settled.failed {s : IndexState} {p : String} (h : i.Settled files s p) (e : String)
    (last : Bool) : i.Settled files { s with tracker := s.tracker.failed relative e last } p := by
  by_cases hp : relative = p
  · refine .inr ?_
    rw [Tracker.failed_state, if_pos hp]
    split
    · exact .inr (.inr rfl)
    · exact .inl rfl
  · exact h.congr rfl (by rw [Tracker.failed_state, if_neg hp])

end Indexer

/-- The file that a task is about, if it is one. -/
def IndexTask.relative? : IndexTask → Option String
  | index relative => some relative
  | complete c => some c.relative
  | refresh _ _ => none

/-- Whether what is to be done for a file is what is due to it. -/
def IndexTask.Due (i : Indexer) (files : FileTree) : IndexTask → Prop
  | index _ => True
  | complete c => c.fingerprint? = i.due files c.relative
  | refresh _ _ => True

namespace Indexer

variable {i : Indexer} {files : FileTree}

/-- What a task does to what is settled: it settles its own file unless it fails, and unsettles
no other one. -/
structure Settles (i : Indexer) (files : FileTree) (task : IndexTask) (s : IndexState)
    (ending : Except Error FileOutcome × IndexState) : Prop where
  own : ∀ p, task.relative? = some p → ∀ outcome, ending.1 = .ok outcome →
    i.Settled files ending.2 p
  others : ∀ p, task.relative? ≠ some p → i.Settled files s p → i.Settled files ending.2 p

/-- Deciding for a file unsettles no other one. -/
theorem Ruled.settled_other {relative p : String} {s : IndexState}
    {result : Except Error Decision} {tracker : Tracker}
    (h : i.Ruled relative s result tracker) (hp : relative ≠ p) (hs : i.Settled files s p) :
    i.Settled files { s with tracker } p := hs.congr rfl (h.state_other hp)

/-- A file that is due to be changed is settled when that is done, and all others are as
settled as before. -/
theorem CarriedOut.settled {c : FileChange} {done : Commit} {s : IndexState} {b : Backend}
    (h : i.CarriedOut c done s.site.backend b) (hdue : c.fingerprint? = i.due files c.relative)
    {p : String} (hp : c.relative = p ∨ i.Settled files s p) :
    i.Settled files { site := { s.site with backend := b }, tracker := c.noted done s.tracker }
      p := by
  by_cases hown : c.relative = p
  · subst hown
    exact .inl (h.fingerprint.trans hdue)
  · refine (hp.resolve_left hown).congr ?_ (FileChange.noted_state hown done s.tracker)
    exact h.fingerprint_other (mt storePath_inj.1 (Ne.symm hown))

/-- A file that was forced to be indexed is known not to be in order. -/
theorem Settled.invalidate {s : IndexState} {p : String} (hs : i.Settled files s p)
    (relative : String) :
    i.Settled files { s with tracker := s.tracker.invalidate relative } p := by
  by_cases hp : relative = p
  · exact .inr (by rw [Tracker.invalidate_state, if_pos hp]; exact .inl rfl)
  · exact hs.congr rfl (by rw [Tracker.invalidate_state, if_neg hp])

/-- Whatever is done settles the file that it is about unless it fails, and unsettles no
other one. -/
theorem Course.settles {task : IndexTask} {s : IndexState}
    {ending : Except Error FileOutcome × IndexState} {events : List Event}
    (h : i.Course task s ending events) (hfits : task.Fits i) (hfiles : s.site.files = files)
    (hknown : i.Known s) (hdue : task.Due i files) : i.Settles files task s ending := by
  induction h with
  | @settled relative s t outcome hd =>
      obtain ⟨tracker, rfl, hruled⟩ := ruled_of_decide hd
      refine ⟨fun p hp _ _ => ?_, fun p hp hs => hruled.settled_other ?_ hs⟩
      · obtain rfl := Option.some.inj hp
        obtain ⟨-, language, content, hfinds, hvalue⟩ := hruled.known
        refine .inl ((hknown _ _ hvalue).trans ?_)
        rw [← hfiles, hfinds.due]
      · exact fun h => hp (congrArg some h)
  | @undecided relative s t e hd =>
      obtain ⟨tracker, rfl, hruled⟩ := ruled_of_decide hd
      refine ⟨fun _ _ _ => nofun, fun p hp hs => hruled.settled_other ?_ hs⟩
      exact fun h => hp (congrArg some h)
  | @decided relative s t c ending events hd _ ih =>
      obtain ⟨tracker, rfl, hruled⟩ := ruled_of_decide hd
      obtain ⟨hc, rfl⟩ := hruled.fits
      have hmid := ih hc hfiles
        (hknown.mono rfl fun p fp hp => hruled.fingerprints ▸ hp) (hfiles ▸ hruled.due)
      refine ⟨hmid.own, fun p hp hs => hmid.others p hp (hruled.settled_other ?_ hs)⟩
      exact fun h => hp (congrArg some h)
  | refused hc =>
      refine ⟨fun _ _ _ => nofun, fun p hp hs => hs.congr ?_ rfl⟩
      rw [carryOut_error hc]
  | stored hc _ ih =>
      have hcarried := carryOut_ok hfits hc
      have hmid := ih trivial hfiles (hknown.carriedOut hcarried) trivial
      refine ⟨fun p hp _ _ => hmid.others p nofun ?_, fun p _ hs => hmid.others p nofun ?_⟩
      · exact hcarried.settled hdue (.inl (Option.some.inj hp))
      · exact hcarried.settled hdue (.inr hs)
  | refreshed => exact ⟨fun _ => nofun, fun _ _ hs => hs⟩
  | elsewhere _ _ ih =>
      have hrest := ih trivial hfiles hknown trivial
      exact ⟨fun _ => nofun, hrest.others⟩
  | @heir _ relative _ _ s t result ending first rest hheir hfirst _ ih ihrest =>
      have hinvalid := hknown.invalidate relative
      have hindex := ih trivial hfiles hinvalid trivial
      have hafter : ∀ p, i.Settled files s p → i.Settled files (t.afterHeir relative result) p := by
        intro p hs
        by_cases hp : relative = p
        · cases result with
          | ok outcome => exact hindex.own p (congrArg some hp) outcome rfl
          | error e =>
              refine .inr ?_
              rw [IndexState.afterHeir, Tracker.failed_state, if_pos hp]
              exact .inl rfl
        · have hs := hindex.others p (fun h => hp (Option.some.inj h)) (hs.invalidate relative)
          cases result with
          | ok outcome => exact hs
          | error e => exact hs.failed e.message false
      have hfiles' : t.site.files = s.site.files := hfirst.files trivial
      have hknown' : i.Known (t.afterHeir relative result) := by
        have ht : i.Known t := hfirst.known trivial hinvalid
        cases result with
        | ok outcome => exact ht
        | error e => exact ht.mono rfl fun _ _ hp => hp
      have hrest := ihrest trivial (by rw [IndexState.afterHeir_site, hfiles', hfiles]) hknown'
        trivial
      exact ⟨fun _ => nofun, fun p hp hs => hrest.others p nofun (hafter p hs)⟩

end Indexer

/-! ## Files without records -/

/-- Whether a task is about a file, or about heirs that the file is one of. -/
def IndexTask.Concerns (i : Indexer) (p : String) : IndexTask → Prop
  | index relative => relative = p
  | complete c => c.relative = p
  | refresh heirs _ => i.storePath p ∈ heirs

/-- What claims a node id has a record. -/
theorem Store.Claims.fingerprint? {s : Store} {path id : String} (h : s.Claims path id) :
    (s.fingerprint? path).isSome := by
  obtain ⟨r, hr, -⟩ := h
  rw [Store.fingerprint?, hr]
  rfl

namespace Indexer

variable {i : Indexer}

/-- An heir has a record, so a file without one gets none unless it is indexed itself. -/
theorem Course.unrecorded {task : IndexTask} {s : IndexState} {p : String}
    {ending : Except Error FileOutcome × IndexState} {events : List Event}
    (h : i.Course task s ending events) (hfits : task.Fits i) (htask : ¬ task.Concerns i p)
    (hnone : s.site.backend.store.fingerprint? (i.storePath p) = none) :
    ending.2.site.backend.store.fingerprint? (i.storePath p) = none := by
  induction h with
  | @settled relative s t outcome hd =>
      obtain ⟨tracker, rfl, -⟩ := ruled_of_decide hd
      exact hnone
  | @undecided relative s t e hd =>
      obtain ⟨tracker, rfl, -⟩ := ruled_of_decide hd
      exact hnone
  | @decided relative s t c ending events hd _ ih =>
      obtain ⟨tracker, rfl, hruled⟩ := ruled_of_decide hd
      obtain ⟨hc, rfl⟩ := hruled.fits
      exact ih hc htask hnone
  | refused hc =>
      rw [carryOut_error hc]
      exact hnone
  | stored hc _ ih =>
      have hcarried := carryOut_ok hfits hc
      have hstill := (hcarried.fingerprint_other (mt storePath_inj.1 (Ne.symm htask))).trans hnone
      refine ih trivial (fun hheir => ?_) hstill
      obtain ⟨-, id, -, hclaims⟩ := hcarried.heir_claims hheir
      have hrecord := hclaims.fingerprint?
      rw [hstill] at hrecord
      cases hrecord
  | refreshed => exact hnone
  | elsewhere _ _ ih => exact ih trivial (fun hmem => htask (.tail _ hmem)) hnone
  | heir hheir _ _ ih ihrest =>
      refine ihrest trivial (fun hmem => htask (.tail _ hmem)) ?_
      rw [IndexState.afterHeir_site]
      refine ih trivial (fun heq => htask ?_) hnone
      rw [relativeStorePath?_eq_some_iff.1 hheir, show _ = p from heq]
      exact .head _

end Indexer

end CodeAtlas
