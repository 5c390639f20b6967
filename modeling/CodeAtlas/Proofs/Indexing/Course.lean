import CodeAtlas.Proofs.Indexing.Failure
import CodeAtlas.Proofs.Indexing.Reached
import CodeAtlas.Proofs.Text.Segments
import CodeAtlas.Proofs.Upsert.Handover

/-!
# CodeAtlas.Proofs.Indexing.Course

What happens while a file is indexed, step after step.

A file is looked at and something is decided for it; that is done in the store; and then
each heir is looked at in its turn, which may have heirs again.  `Indexer.Course` relates
where this begins to where it ends, with the `Event`s on the way, and knows no limit to how
deep it goes: there is a course exactly if it comes to an end.  It can end in one way only
(`Indexer.Course.unique`).

One change of the store is summed up in `Indexer.CarriedOut`, with the heirs that it has.
What is kept by every step is kept by a whole course (`Indexer.Course.keeps`).
-/

namespace CodeAtlas

open Indexing Upsert

/-! ## Stored paths -/

namespace Indexer

variable {i : Indexer}

/-- A stored path tells the path below the root, and the other way round. -/
theorem relativeStorePath?_eq_some_iff {path relative : String} :
    i.relativeStorePath? path = some relative ↔ path = i.storePath relative := by
  simp only [relativeStorePath?, Option.bind_eq_some_iff, Text.strip?_eq_some_iff, storePath]
  constructor
  · rintro ⟨below, rfl, rfl⟩
    rw [String.append_assoc]
  · rintro rfl
    exact ⟨"/" ++ relative, String.append_assoc .., rfl⟩

@[simp] theorem relativeStorePath?_storePath (relative : String) :
    i.relativeStorePath? (i.storePath relative) = some relative :=
  relativeStorePath?_eq_some_iff.2 rfl

theorem storePath_inj {a b : String} : i.storePath a = i.storePath b ↔ a = b := by
  refine ⟨fun h => ?_, congrArg _⟩
  have hb := relativeStorePath?_storePath (i := i) b
  rw [← h, relativeStorePath?_storePath, Option.some.injEq] at hb
  exact hb

end Indexer

/-! ## Changes -/

/-- The fingerprint in the record at a path. -/
def Store.fingerprint? (s : Store) (path : String) : Option String :=
  (s.records.get? path).map (·.fingerprint)

namespace FileChange

/-- The file that is changed. -/
def relative : FileChange → String
  | .replace relative .. => relative
  | .retract relative => relative
  | .skip relative _ => relative

/-- The nodes that the file contributes from then on. -/
def nodes : FileChange → List Node
  | .replace _ _ nodes _ => nodes
  | .retract _ => []
  | .skip _ _ => []

/-- The edges that the file contributes from then on. -/
def edges : FileChange → List Edge
  | .replace _ _ _ edges => edges
  | .retract _ => []
  | .skip _ _ => []

/-- The fingerprint that the record of the file has from then on. -/
def fingerprint? : FileChange → Option String
  | .replace _ record _ _ => some record.fingerprint
  | .retract _ => none
  | .skip _ _ => none

/-- What is noted of the file when that is done. -/
def noted (done : Commit) (t : Tracker) : FileChange → Tracker
  | .replace relative record _ _ => t.committed relative record.fingerprint
  | .retract relative => t.deleted relative
  | .skip relative _ => if done.recordWritten then t.deleted relative else t

/-- The files that are indexed again because of it. -/
def heirs (done : Commit) : FileChange → List String
  | .replace .. => done.heirs
  | .retract _ => done.heirs
  | .skip _ _ => if done.recordWritten then done.heirs else []

/-- What it comes to for the file. -/
def outcome (done : Commit) : FileChange → FileOutcome
  | .replace .. => .indexed done
  | .retract _ => .deleted done
  | .skip _ reason => .skipped reason

/-- Whether a change is stored under the path of its file. -/
def Fits (i : Indexer) : FileChange → Prop
  | .replace relative record _ _ => record.path = i.storePath relative
  | .retract _ => True
  | .skip _ _ => True

end FileChange

namespace Indexer

/-- The call on the store that carries out a change. -/
def call (i : Indexer) : FileChange → Call
  | .replace _ record nodes edges => .apply record nodes edges
  | .retract relative => .delete (i.storePath relative)
  | .skip relative _ => .delete (i.storePath relative)

/-- Carries out a change in the store. -/
def carryOut (i : Indexer) (c : FileChange) (b : Backend) : Except Error Commit × Backend :=
  match c with
  | .replace _ record nodes edges => b.apply record nodes edges
  | .retract relative => b.deleteFile (i.storePath relative)
  | .skip relative _ => b.deleteFile (i.storePath relative)

variable {i : Indexer} {c : FileChange}

theorem call_given (h : c.Fits i) :
    (i.call c).given? = some (i.storePath c.relative, c.nodes, c.edges) := by
  cases c with
  | replace relative record nodes edges =>
      change some (record.path, nodes, edges) = _
      rw [show record.path = i.storePath relative from h]
      rfl
  | retract => rfl
  | skip => rfl

/-- What a change did to a store in use that it was carried out in. -/
structure CarriedOut (i : Indexer) (c : FileChange) (done : Commit) (b b' : Backend) : Prop where
  wasOpen : b.isOpen = true
  rest : b' = { b with store := b'.store, outages := b.outages.tail }
  changed : Changed (i.storePath c.relative) c.nodes c.edges b.store b'.store
  fingerprint : b'.store.fingerprint? (i.storePath c.relative) = c.fingerprint?
  dropped : ¬ c.Replaces →
    done.recordWritten = (b.store.fingerprint? (i.storePath c.relative)).isSome
  heirs : ∀ heir, heir ∈ c.heirs done ↔ PassesTo b.store (i.storePath c.relative)
    (givenUp b.store (i.storePath c.relative) c.nodes c.edges) heir

end Indexer

/-- Written or not, the record of the file has the fingerprint that was given. -/
theorem Upsert.recorded_fingerprint (s : Store) (record : FileRecord) (nodes : List Node)
    (edges : List Edge) :
    (recorded s record nodes edges).fingerprint? record.path = some record.fingerprint := by
  rw [recorded, Store.fingerprint?]
  split
  · rw [Store.get?_putRecord, if_pos rfl]
    rfl
  · next h =>
    cases hp : s.records.get? record.path with
    | none =>
        rw [recordChanged, hp] at h
        exact absurd rfl h
    | some p =>
        rw [recordChanged, hp, Option.all_some] at h
        simp only [Bool.or_eq_true, bne_iff_ne, not_or, Decidable.not_not] at h
        rw [Option.map_some, h.1.1]

/-- What deleting a file gives, published or not. -/
theorem Backend.deleteFile_gives {b b' : Backend} {path : String} {c : Commit}
    (h : b.deleteFile path = (.ok c, b')) : ∃ published t,
      (deleteWork path).Gives b.store (c, published) t ∧
        b'.store = if published then t else b.store := by
  rw [deleteFile] at h
  rcases b.transact_cases (deleteWork path) with ⟨a, hok, hgives⟩ | ⟨hstore, hdropped⟩
  · rw [h] at hok hgives
    cases hok
    exact ⟨true, _, hgives, rfl⟩
  · rw [h] at hstore hdropped
    obtain ⟨t, hgives⟩ := hdropped c rfl
    exact ⟨false, t, hgives, hstore⟩

namespace Indexer

variable {i : Indexer} {c : FileChange} {b b' : Backend} {done : Commit}

/-- Deleting a file drops its record, and tells the heirs if there was one. -/
theorem deleteFile_carriedOut {path : String} (h : b.deleteFile path = (.ok done, b')) :
    Effect (.delete path) b.store b'.store ∧ b'.store.fingerprint? path = none ∧
      done.recordWritten = (b.store.fingerprint? path).isSome ∧
      ∀ heirs, heirs = done.heirs ∨ heirs = (if done.recordWritten then done.heirs else []) →
        ∀ heir, heir ∈ heirs ↔ PassesTo b.store path (givenUp b.store path [] []) heir := by
  obtain ⟨published, t, hgives, hstore⟩ := Backend.deleteFile_gives h
  have heffect : Effect (.delete path) b.store b'.store := by
    obtain ⟨hpublished, hdropped⟩ := deleteWork_effect hgives
    cases published with
    | true => exact hstore ▸ hpublished rfl
    | false => exact hstore ▸ hdropped rfl
  obtain ⟨hwritten, hheirs⟩ := deleteWork_heirs hgives
  refine ⟨heffect, ?_, by rw [hwritten, Store.fingerprint?, Option.isSome_map],
    fun heirs hcase heir => ?_⟩
  · rw [Store.fingerprint?, Option.map_eq_none_iff]
    generalize b'.store = t' at heffect
    cases heffect with
    | delete _ hrep => rw [Store.deleteRecord, Rows.get?_erase, if_pos rfl]
    | deleteUnknown hnone => exact hnone
  · rw [← hheirs]
    rcases hcase with rfl | rfl
    · rfl
    · split
      · rfl
      · next hnone =>
        -- Without a record nothing is given up.
        rw [hwritten, Option.not_isSome_iff_eq_none] at hnone
        refine ⟨fun hmem => absurd hmem List.not_mem_nil, fun hmem => ?_⟩
        obtain ⟨-, id, hid, -⟩ := ((hheirs heir).1 hmem).claims
        obtain ⟨⟨r, hr, -⟩, -⟩ := mem_givenUp.1 hid
        rw [hnone] at hr
        cases hr

/-- A change that is carried out has its effect, and the commit tells the heirs. -/
theorem carryOut_ok (hfits : c.Fits i) (h : i.carryOut c b = (.ok done, b')) :
    i.CarriedOut c done b b' := by
  cases c with
  | replace relative record nodes edges =>
      have hpath : record.path = i.storePath relative := hfits
      obtain ⟨hopen, hrest⟩ := Backend.transact_ok h
      have hgives := Backend.apply_gives h
      have heffect := applyWork_effect hgives
      refine ⟨hopen, hrest, heffect.changed (call_given hfits), ?_, absurd trivial, fun heir => ?_⟩
      · change b'.store.fingerprint? (i.storePath relative) = some record.fingerprint
        rw [← hpath]
        generalize b'.store = t at heffect
        cases heffect
        exact recorded_fingerprint ..
      · change heir ∈ done.heirs ↔
          PassesTo b.store (i.storePath relative) (givenUp b.store (i.storePath relative) _ _) heir
        rw [mem_applyWork_heirs hgives, hpath]
        rfl
  | retract relative =>
      obtain ⟨hopen, hrest⟩ := Backend.transact_ok h
      obtain ⟨heffect, hnone, hwritten, hheirs⟩ := deleteFile_carriedOut h
      exact ⟨hopen, hrest, heffect.changed (call_given hfits), hnone, fun _ => hwritten,
        hheirs _ (.inl rfl)⟩
  | skip relative reason =>
      obtain ⟨hopen, hrest⟩ := Backend.transact_ok h
      obtain ⟨heffect, hnone, hwritten, hheirs⟩ := deleteFile_carriedOut h
      exact ⟨hopen, hrest, heffect.changed (call_given hfits), hnone, fun _ => hwritten,
        hheirs _ (.inr rfl)⟩

/-- A change that fails leaves the store. -/
theorem carryOut_error {e : Error} (h : i.carryOut c b = (.error e, b')) :
    b'.store = b.store := by
  have hfail : ∀ {α : Type} {w : Work (α × Bool)}, b.transact w = (.error e, b') →
      b'.store = b.store := by
    intro α w hw
    have hstore := Backend.transact_error (b := b) (w := w) (by rw [hw])
    rwa [hw] at hstore
  cases c <;> exact hfail h

namespace CarriedOut

theorem fingerprint_other (h : i.CarriedOut c done b b') {path : String}
    (hpath : path ≠ i.storePath c.relative) :
    b'.store.fingerprint? path = b.store.fingerprint? path := by
  rw [Store.fingerprint?, Store.fingerprint?, h.changed.other path hpath]

/-- An heir claims a node id that the changed file gives up. -/
theorem heir_claims (h : i.CarriedOut c done b b') {heir : String} (hheir : heir ∈ c.heirs done) :
    heir ≠ i.storePath c.relative ∧ ∃ id,
      id ∈ givenUp b.store (i.storePath c.relative) c.nodes c.edges ∧ b'.store.Claims heir id := by
  obtain ⟨hne, id, hid, hclaims⟩ := ((h.heirs heir).1 hheir).claims
  exact ⟨hne, id, hid, (h.changed.claims_other hne).2 hclaims⟩

end CarriedOut

theorem Ruled.fits {relative : String} {s : IndexState} {tracker : Tracker}
    (h : i.Ruled relative s (.ok (.change c)) tracker) : c.Fits i ∧ c.relative = relative := by
  cases h with
  | unsupported => exact ⟨trivial, rfl⟩
  | missing => exact ⟨trivial, rfl⟩
  | tooLarge => exact ⟨trivial, rfl⟩
  | replace => exact ⟨rfl, rfl⟩

end Indexer

/-! ## Courses -/

/-- What there is to do. -/
inductive IndexTask where
  /-- A file is to be brought up to date. -/
  | index (relative : String)
  /-- What was decided for a file is to be done. -/
  | complete (c : FileChange)
  /-- Heirs are to be indexed again, before the outcome is given. -/
  | refresh (heirs : List String) (outcome : FileOutcome)

/-- Whether what is to be done is stored under the path of its file. -/
def IndexTask.Fits (i : Indexer) : IndexTask → Prop
  | index _ => True
  | complete c => c.Fits i
  | refresh _ _ => True

/-- What happens on the way. -/
inductive Event where
  /-- A file was looked at. -/
  | looked (relative : String)
  /-- A change was carried out in the store. -/
  | stored (c : FileChange) (done : Commit)

/-- The state after an heir was indexed; a failure is noted. -/
def IndexState.afterHeir (relative : String) (result : Except Error FileOutcome)
    (s : IndexState) : IndexState :=
  match result with
  | .ok _ => s
  | .error e => { s with tracker := s.tracker.failed relative e.message false }

@[simp] theorem IndexState.afterHeir_site (relative : String) (result : Except Error FileOutcome)
    (s : IndexState) : (s.afterHeir relative result).site = s.site := by
  cases result <;> rfl

namespace Indexer

/-- What is done for a task from a state on, how it ends, and what happens on the way. -/
inductive Course (i : Indexer) :
    IndexTask → IndexState → Except Error FileOutcome × IndexState → List Event → Prop
  /-- Nothing is to be done for the file. -/
  | settled {relative : String} {s t : IndexState} {outcome : FileOutcome} :
      (i.decide relative).run s = (.ok (.done outcome), t) →
      Course i (.index relative) s (.ok outcome, t) [.looked relative]
  /-- Nothing can be decided for the file. -/
  | undecided {relative : String} {s t : IndexState} {e : Error} :
      (i.decide relative).run s = (.error e, t) →
      Course i (.index relative) s (.error e, t) [.looked relative]
  | decided {relative : String} {s t : IndexState} {c : FileChange}
      {ending : Except Error FileOutcome × IndexState} {events : List Event} :
      (i.decide relative).run s = (.ok (.change c), t) →
      Course i (.complete c) t ending events →
      Course i (.index relative) s ending (.looked relative :: events)
  /-- The store fails. -/
  | refused {c : FileChange} {s : IndexState} {e : Error} {b : Backend} :
      i.carryOut c s.site.backend = (.error e, b) →
      Course i (.complete c) s (.error e, { s with site := { s.site with backend := b } }) []
  | stored {c : FileChange} {s : IndexState} {done : Commit} {b : Backend}
      {ending : Except Error FileOutcome × IndexState} {events : List Event} :
      i.carryOut c s.site.backend = (.ok done, b) →
      Course i (.refresh (c.heirs done) (c.outcome done))
        { site := { s.site with backend := b }, tracker := c.noted done s.tracker } ending events →
      Course i (.complete c) s ending (.stored c done :: events)
  | refreshed {outcome : FileOutcome} {s : IndexState} :
      Course i (.refresh [] outcome) s (.ok outcome, s) []
  /-- An heir belongs to another tree. -/
  | elsewhere {heir : String} {heirs : List String} {outcome : FileOutcome} {s : IndexState}
      {ending : Except Error FileOutcome × IndexState} {events : List Event} :
      i.relativeStorePath? heir = none → Course i (.refresh heirs outcome) s ending events →
      Course i (.refresh (heir :: heirs) outcome) s ending events
  | heir {heir relative : String} {heirs : List String} {outcome : FileOutcome}
      {s t : IndexState} {result : Except Error FileOutcome}
      {ending : Except Error FileOutcome × IndexState} {first rest : List Event} :
      i.relativeStorePath? heir = some relative →
      Course i (.index relative) { s with tracker := s.tracker.invalidate relative }
        (result, t) first →
      Course i (.refresh heirs outcome) (t.afterHeir relative result) ending rest →
      Course i (.refresh (heir :: heirs) outcome) s ending (first ++ rest)

namespace Course

variable {i : Indexer} {task : IndexTask} {s : IndexState}
  {ending : Except Error FileOutcome × IndexState} {events : List Event}

/-- There is one course at most. -/
theorem unique {ending' : Except Error FileOutcome × IndexState} {events' : List Event}
    (h : i.Course task s ending events) (h' : i.Course task s ending' events') :
    ending = ending' ∧ events = events' := by
  induction h generalizing ending' events' with
  | settled hd =>
      cases h' with
      | settled hd' => cases hd.symm.trans hd'; exact ⟨rfl, rfl⟩
      | undecided hd' => cases hd.symm.trans hd'
      | decided hd' => cases hd.symm.trans hd'
  | undecided hd =>
      cases h' with
      | settled hd' => cases hd.symm.trans hd'
      | undecided hd' => cases hd.symm.trans hd'; exact ⟨rfl, rfl⟩
      | decided hd' => cases hd.symm.trans hd'
  | decided hd _ ih =>
      cases h' with
      | settled hd' => cases hd.symm.trans hd'
      | undecided hd' => cases hd.symm.trans hd'
      | decided hd' h' =>
          cases hd.symm.trans hd'
          obtain ⟨rfl, rfl⟩ := ih h'
          exact ⟨rfl, rfl⟩
  | refused hc =>
      cases h' with
      | refused hc' => cases hc.symm.trans hc'; exact ⟨rfl, rfl⟩
      | stored hc' => cases hc.symm.trans hc'
  | stored hc _ ih =>
      cases h' with
      | refused hc' => cases hc.symm.trans hc'
      | stored hc' h' =>
          cases hc.symm.trans hc'
          obtain ⟨rfl, rfl⟩ := ih h'
          exact ⟨rfl, rfl⟩
  | refreshed =>
      cases h'
      exact ⟨rfl, rfl⟩
  | elsewhere hheir _ ih =>
      cases h' with
      | elsewhere _ h' => exact ih h'
      | heir hheir' => cases hheir.symm.trans hheir'
  | heir hheir _ _ ih ihrest =>
      cases h' with
      | elsewhere hheir' => cases hheir.symm.trans hheir'
      | heir hheir' h' hrest' =>
          cases hheir.symm.trans hheir'
          obtain ⟨heq, rfl⟩ := ih h'
          cases heq
          obtain ⟨rfl, rfl⟩ := ihrest hrest'
          exact ⟨rfl, rfl⟩

/-- What a task gives if it succeeds. -/
theorem gives (h : i.Course task s ending events) {outcome : FileOutcome}
    (houtcome : ending.1 = .ok outcome) : match task with
      | .index _ => True
      | .complete c => ∃ done, outcome = c.outcome done
      | .refresh _ given => outcome = given := by
  induction h with
  | settled => trivial
  | undecided => trivial
  | decided => trivial
  | refused => cases houtcome
  | stored _ _ ih => exact ⟨_, ih houtcome⟩
  | refreshed =>
      cases houtcome
      rfl
  | elsewhere _ _ ih => exact ih houtcome
  | heir _ _ _ _ ih => exact ih houtcome

/-- Only a file with which nothing is to be done is unchanged. -/
theorem unchanged {relative : String} {t : IndexState}
    (h : i.Course (.index relative) s (.ok .unchanged, t) events) :
    (i.decide relative).run s = (.ok (.done .unchanged), t) := by
  cases h with
  | settled hd => exact hd
  | @decided _ _ _ c _ _ _ hcomplete =>
      obtain ⟨done, h⟩ := hcomplete.gives rfl
      cases c <;> cases h

/-- What each step keeps is kept by all of them. -/
theorem keeps {I : IndexState → Prop} (h : i.Course task s ending events) (hfits : task.Fits i)
    (hruled : ∀ relative s result tracker, i.Ruled relative s result tracker → I s →
      I { s with tracker })
    (hrefused : ∀ (s : IndexState) b, b.store = s.site.backend.store → I s →
      I { s with site := { s.site with backend := b } })
    (hstored : ∀ (s : IndexState) c done b, i.CarriedOut c done s.site.backend b → I s →
      I { site := { s.site with backend := b }, tracker := c.noted done s.tracker })
    (hinvalidated : ∀ (s : IndexState) relative, I s →
      I { s with tracker := s.tracker.invalidate relative })
    (hfailed : ∀ (s : IndexState) relative error, I s →
      I { s with tracker := s.tracker.failed relative error false })
    (hs : I s) : I ending.2 := by
  have hdecided : ∀ {relative s result t}, (i.decide relative).run s = (result, t) → I s → I t ∧
      ∀ c, result = .ok (.change c) → c.Fits i := by
    intro relative s result t hd hs
    obtain ⟨tracker, rfl, hrule⟩ := ruled_of_decide hd
    refine ⟨hruled _ _ _ _ hrule hs, ?_⟩
    rintro c rfl
    exact hrule.fits.1
  induction h with
  | settled hd => exact (hdecided hd hs).1
  | undecided hd => exact (hdecided hd hs).1
  | decided hd _ ih =>
      obtain ⟨ht, hc⟩ := hdecided hd hs
      exact ih (hc _ rfl) ht
  | refused hc => exact hrefused _ _ (carryOut_error hc) hs
  | stored hc _ ih => exact ih trivial (hstored _ _ _ _ (carryOut_ok hfits hc) hs)
  | refreshed => exact hs
  | elsewhere _ _ ih => exact ih trivial hs
  | @heir _ relative _ _ _ _ result _ _ _ _ _ _ ih ihrest =>
      have ht := ih trivial (hinvalidated _ relative hs)
      refine ihrest trivial ?_
      cases result with
      | ok _ => exact ht
      | error e => exact hfailed _ _ _ ht

/-- The files of the tree stay as they are. -/
theorem files (h : i.Course task s ending events) (hfits : task.Fits i) :
    ending.2.site.files = s.site.files :=
  h.keeps (I := fun t => t.site.files = s.site.files) hfits (fun _ _ _ _ _ ht => ht)
    (fun _ _ _ ht => ht) (fun _ _ _ _ _ ht => ht) (fun _ _ ht => ht) (fun _ _ _ ht => ht) rfl

end Course

end Indexer

end CodeAtlas
