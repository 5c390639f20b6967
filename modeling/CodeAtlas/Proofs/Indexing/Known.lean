import CodeAtlas.Proofs.Indexing.Termination

/-!
# CodeAtlas.Proofs.Indexing.Known

Known fingerprints are never ahead of the store.

A fingerprint is noted only after the change that stores it, and forgotten with or before the
record that has it; a change that fails touches neither.  So each step of a course keeps what
is known in line with the records (`Indexer.Course.known`), and a tracker that is read from the
records starts that way (`Indexer.known_of_tracker`).
-/

namespace CodeAtlas

open Indexing Upsert

/-! ## What is noted -/

namespace Tracker

variable (t : Tracker) (path : String)

theorem committed_value? (fingerprint p : String) :
    (t.committed path fingerprint).fingerprints.value? p =
      if path = p then some fingerprint else t.fingerprints.value? p := Dict.value?_insert ..

theorem deleted_value? (p : String) : (t.deleted path).fingerprints.value? p =
    if p = path then none else t.fingerprints.value? p := Dict.value?_erase ..

theorem invalidate_value? (p : String) : (t.invalidate path).fingerprints.value? p =
    if p = path then none else t.fingerprints.value? p := Dict.value?_erase ..

/-- What is known of a file when one is invalidated was known before. -/
theorem invalidate_known {t : Tracker} {path p fp : String}
    (h : (t.invalidate path).fingerprints.value? p = some fp) :
    t.fingerprints.value? p = some fp := by
  rw [invalidate_value?] at h
  split at h
  · cases h
  · exact h

/-- The known fingerprints of files with records are among those of the records, and all
paths of them are known. -/
theorem ofRecords_value? (records : List FileRecord) :
    (∀ p fp, (ofRecords records).fingerprints.value? p = some fp →
      ∃ r ∈ records, r.path = p ∧ r.fingerprint = fp) ∧
    ∀ r ∈ records, ((ofRecords records).fingerprints.value? r.path).isSome := by
  constructor
  · intro p fp h
    obtain ⟨⟨p', fp'⟩, hget, rfl⟩ := Option.map_eq_some_iff.1 h
    obtain rfl : p' = p := Rows.key_of_get? hget
    rcases Rows.get?_putAll hget with hmem | hnone
    · obtain ⟨r, hr, heq⟩ := List.mem_map.1 hmem
      cases heq
      exact ⟨r, hr, rfl, rfl⟩
    · cases hnone
  · intro r hr
    rw [Dict.value?, Option.isSome_map]
    exact Rows.isSome_get?_putAll (.inl ⟨_, List.mem_map.2 ⟨r, hr, rfl⟩, rfl⟩)

end Tracker

namespace Indexer

variable {i : Indexer}

/-- Whether each fingerprint that is known of a file is the one in its record. -/
def Known (i : Indexer) (s : IndexState) : Prop :=
  ∀ relative fp, s.tracker.fingerprints.value? relative = some fp →
    s.site.backend.store.fingerprint? (i.storePath relative) = some fp

theorem mem_fileRecords {s : Store} {r : FileRecord} : r ∈ s.fileRecords ↔ r ∈ s.records := by
  rw [Store.fileRecords, List.mem_mergeSort, Rows.mem_toList]

/-- The records of the tree among some records, with their paths below the root. -/
theorem mem_below {records : List FileRecord} {r : FileRecord} :
    r ∈ (records.filterMap fun r =>
        (i.relativeStorePath? r.path).map fun path => { r with path }) ↔
      ∃ r' ∈ records, r'.path = i.storePath r.path ∧ { r' with path := r.path } = r := by
  simp only [List.mem_filterMap, Option.map_eq_some_iff, relativeStorePath?_eq_some_iff]
  constructor
  · rintro ⟨r', hr', path, hpath, rfl⟩
    exact ⟨r', hr', hpath, rfl⟩
  · rintro ⟨r', hr', hpath, heq⟩
    exact ⟨r', hr', r.path, hpath, heq⟩

theorem trackerOf_value? (s : Store) (relative : String) :
    (i.trackerOf s.fileRecords).fingerprints.value? relative =
      s.fingerprint? (i.storePath relative) := by
  rw [trackerOf]
  obtain ⟨honly, hall⟩ := Tracker.ofRecords_value? (s.fileRecords.filterMap fun r =>
    (i.relativeStorePath? r.path).map fun path => { r with path })
  apply Option.ext
  intro fp
  rw [Store.fingerprint?, Option.map_eq_some_iff]
  constructor
  · intro hknown
    obtain ⟨r, hr, rfl, rfl⟩ := honly relative fp hknown
    obtain ⟨r', hr', hpath, heq⟩ := mem_below.1 hr
    exact ⟨r', Rows.get?_eq_some_iff.2 ⟨mem_fileRecords.1 hr', hpath⟩, by rw [← heq]⟩
  · rintro ⟨r, hget, rfl⟩
    obtain ⟨hr, hpath⟩ := Rows.get?_eq_some_iff.1 hget
    have hbelow := hall { r with path := relative }
      (mem_below.2 ⟨r, mem_fileRecords.2 hr, hpath, rfl⟩)
    obtain ⟨fp, hfp⟩ := Option.isSome_iff_exists.1 hbelow
    obtain ⟨q, hq, hqpath, rfl⟩ := honly relative fp hfp
    obtain ⟨q', hq', hqpath', heq⟩ := mem_below.1 hq
    -- Two records with one path are one.
    have hsame : q' = r :=
      Rows.eq_of_key_eq (mem_fileRecords.1 hq') hr (by rw [hqpath', hqpath, hpath])
    rw [hfp, ← heq, hsame]

/-- A tracker that is read from a store knows what the records of the tree say. -/
theorem tracker_value? {b : Backend} {t : Tracker} (h : i.tracker b = .ok t) (relative : String) :
    t.fingerprints.value? relative = b.store.fingerprint? (i.storePath relative) := by
  rw [tracker, Backend.fileRecords, Backend.contents] at h
  split at h
  · obtain rfl := Except.ok.inj h
    exact trackerOf_value? b.store relative
  · cases h

theorem known_of_tracker {site : Site} {t : Tracker} (h : i.tracker site.backend = .ok t) :
    i.Known ⟨site, t⟩ := by
  intro relative fp hknown
  rw [← tracker_value? h]
  exact hknown

namespace Known

variable {s : IndexState}

/-- Less may be known. -/
theorem mono {t : IndexState} (h : i.Known s)
    (hstore : t.site.backend.store = s.site.backend.store)
    (hknown : ∀ p fp, t.tracker.fingerprints.value? p = some fp →
      s.tracker.fingerprints.value? p = some fp) : i.Known t := by
  intro relative fp ht
  rw [hstore]
  exact h relative fp (hknown relative fp ht)

theorem invalidate (h : i.Known s) (relative : String) :
    i.Known { s with tracker := s.tracker.invalidate relative } :=
  h.mono rfl fun _ _ hp => Tracker.invalidate_known hp

/-- A change is noted when it is stored. -/
theorem carriedOut {c : FileChange} {done : Commit} {b : Backend} (h : i.Known s)
    (hc : i.CarriedOut c done s.site.backend b) :
    i.Known { site := { s.site with backend := b }, tracker := c.noted done s.tracker } := by
  have hother : ∀ {p fp}, p ≠ c.relative → s.tracker.fingerprints.value? p = some fp →
      b.store.fingerprint? (i.storePath p) = some fp := by
    intro p fp hp hknown
    rw [hc.fingerprint_other (mt storePath_inj.1 hp)]
    exact h p fp hknown
  have hdeleted : ∀ {relative p fp}, c.relative = relative →
      (s.tracker.deleted relative).fingerprints.value? p = some fp →
      b.store.fingerprint? (i.storePath p) = some fp := by
    rintro _ p fp rfl hknown
    rw [Tracker.deleted_value?] at hknown
    split at hknown
    · cases hknown
    · next hp => exact hother hp hknown
  intro p fp hknown
  cases c with
  | replace relative record nodes edges =>
      rw [FileChange.noted, Tracker.committed_value?] at hknown
      split at hknown
      · next hp =>
        subst hp
        rw [← hknown]
        exact hc.fingerprint
      · next hp => exact hother (Ne.symm hp) hknown
  | retract relative => exact hdeleted rfl hknown
  | skip relative reason =>
      rw [FileChange.noted] at hknown
      split at hknown
      · exact hdeleted rfl hknown
      · next hunwritten =>
        -- Nothing was stored for the file, so nothing was known of it.
        have hnone := hc.dropped id
        rw [Bool.not_eq_true] at hunwritten
        rw [hunwritten] at hnone
        refine hother (fun hp => ?_) hknown
        have hstored := h p fp hknown
        rw [show p = _ from hp] at hstored
        rw [hstored] at hnone
        cases hnone

end Known

/-- Whatever is done, nothing is known that is not stored. -/
theorem Course.known {task : IndexTask} {s : IndexState}
    {ending : Except Error FileOutcome × IndexState} {events : List Event}
    (h : i.Course task s ending events) (hfits : task.Fits i) (hs : i.Known s) :
    i.Known ending.2 := by
  refine h.keeps hfits ?_ ?_ ?_ ?_ ?_ hs
  · intro relative s result tracker hruled hs
    exact hs.mono rfl fun p fp hp => hruled.fingerprints ▸ hp
  · exact fun s b hb hs => hs.mono hb fun _ _ hp => hp
  · exact fun s c done b hc hs => hs.carriedOut hc
  · exact fun s relative hs => hs.invalidate relative
  · exact fun s relative error hs => hs.mono rfl fun _ _ hp => hp

end Indexer

end CodeAtlas
