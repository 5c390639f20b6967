import CodeAtlas.Proofs.Indexing.Once
import CodeAtlas.Proofs.Indexing.Provenance
import CodeAtlas.Proofs.Scheduling.Pool

/-!
# CodeAtlas.Proofs.Scheduling.Fingerprints

When a fingerprint is known that the store does not have.

A fingerprint is noted after the change that stores it.  In between the store is ahead of what is
known, and the worker owes the note (`Pool.Owes`).  Another one may change the same file
meanwhile, since an heir is indexed by whoever has an heir: then the note that is owed is
overtaken (`Pool.Overtaken`), and if it comes last, what is known is not what is stored.  From
then on the file is found unchanged, whatever is stored of it.

Notes that are not overtaken keep what is known in line with the records
(`Pool.InLine.step`); and this is the only way in which it can get out of line
(`fingerprints_not_ahead`).
-/

namespace CodeAtlas

open Indexing Upsert

/-! ## Notes -/

namespace FileChange

/-- Whether anything is to be noted of a change: there is not when a file is skipped that had no
record. -/
def isNoted (done : Commit) : FileChange → Bool
  | .replace .. => true
  | .retract _ => true
  | .skip .. => done.recordWritten

/-- What is to be noted of a file that was changed: the fingerprint that it has then. -/
def owed? (done : Commit) (c : FileChange) : Option (String × Option String) :=
  if c.isNoted done then some (c.relative, c.fingerprint?) else none

variable {c : FileChange} {done : Commit} {t : Tracker} {p : String}

theorem owed?_eq_some_iff {fp? : Option String} : c.owed? done = some (p, fp?) ↔
    c.isNoted done = true ∧ c.relative = p ∧ c.fingerprint? = fp? := by
  rw [owed?]
  split <;> simp [*]

/-- A change that is noted makes known of its file what it has stored of it. -/
theorem noted_value?_of_owed? {fp? : Option String} (h : c.owed? done = some (p, fp?)) :
    (c.noted done t).fingerprints.value? p = fp? := by
  obtain ⟨hnoted, rfl, rfl⟩ := owed?_eq_some_iff.1 h
  cases c with
  | replace relative record nodes edges =>
      exact (t.committed_value? relative _ relative).trans (if_pos rfl)
  | retract relative => exact (t.deleted_value? relative relative).trans (if_pos rfl)
  | skip relative reason =>
      rw [noted, if_pos (show done.recordWritten = true from hnoted)]
      exact (t.deleted_value? relative relative).trans (if_pos rfl)

/-- A file is left as it is when the fingerprint of its content has just been noted. -/
theorem noted_observe {fp : String} (h : c.owed? done = some (p, some fp)) :
    ((c.noted done t).observe p fp).1 = false := by
  have hvalue := noted_value?_of_owed? (t := t) h
  obtain ⟨-, rfl, hfp⟩ := owed?_eq_some_iff.1 h
  cases c with
  | replace relative record nodes edges =>
      rw [Tracker.observe_indexed _ _ _ hvalue (t.committed_state_self relative _)]
  | _ => cases hfp

/-- What is known of a file changes only with the note of a change of that file. -/
theorem noted_value?_other (h : ∀ fp?, c.owed? done ≠ some (p, fp?)) :
    (c.noted done t).fingerprints.value? p = t.fingerprints.value? p := by
  have hne : c.isNoted done = true → c.relative ≠ p := by
    rintro hnoted rfl
    exact h c.fingerprint? (owed?_eq_some_iff.2 ⟨hnoted, rfl, rfl⟩)
  cases c with
  | replace relative record nodes edges =>
      exact (t.committed_value? relative _ p).trans (if_neg (hne rfl))
  | retract relative =>
      exact (t.deleted_value? relative p).trans (if_neg (Ne.symm (hne rfl)))
  | skip relative reason =>
      rw [noted]
      split
      · next hwritten => exact (t.deleted_value? relative p).trans (if_neg (Ne.symm (hne hwritten)))
      · rfl

/-- A change of a file that had a record is to be noted. -/
theorem owed?_of_stored {i : Indexer} {b b' : Backend} (h : i.CarriedOut c done b b')
    {fp : String} (hstored : b.store.fingerprint? (i.storePath c.relative) = some fp) :
    c.owed? done = some (c.relative, c.fingerprint?) := by
  refine owed?_eq_some_iff.2 ⟨?_, rfl, rfl⟩
  cases c with
  | skip =>
      have hdropped := h.dropped id
      rw [hstored] at hdropped
      exact hdropped
  | _ => rfl

end FileChange

/-- The file of which a thread has to note something, and the fingerprint. -/
def Thread.owed? (t : Thread) : Option (String × Option String) :=
  match t.point with
  | .notes c done => c.owed? done
  | _ => none

/-- Whether a change that a thread is to carry out is stored under the path of its file. -/
def Thread.Fits (i : Indexer) (t : Thread) : Prop := ∀ c, t.point = .writes c → c.Fits i

namespace Thread

variable {i : Indexer} {s s' : IndexState} {t t' : Thread}

/-- What a thread decides is stored under the path of its file. -/
theorem Step.fits (h : t.Step i s t' s') : t'.Fits i := by
  intro c hc
  cases h <;> cases hc <;> trivial

/-- A step carries out a change, or notes one, or else stores nothing and makes nothing
known. -/
theorem Step.cases (h : t.Step i s t' s') :
    (∃ c done b heirs, t = ⟨.writes c, heirs⟩ ∧ t' = ⟨.notes c done, heirs⟩ ∧
      i.carryOut c s.site.backend = (.ok done, b) ∧
      s' = { s with site := { s.site with backend := b } }) ∨
    (∃ c done heirs, t = ⟨.notes c done, heirs⟩ ∧ t'.owed? = none ∧
      s' = { s with tracker := c.noted done s.tracker }) ∨
    (t.owed? = none ∧ t'.owed? = none ∧ s'.site.backend.store = s.site.backend.store ∧
      ∀ p fp, s'.tracker.fingerprints.value? p = some fp →
        s.tracker.fingerprints.value? p = some fp) := by
  cases h with
  | stored hc => exact .inl ⟨_, _, _, _, rfl, rfl, hc, rfl⟩
  | noted => exact .inr (.inl ⟨_, _, _, rfl, rfl, rfl⟩)
  | refused hc =>
      exact .inr (.inr ⟨rfl, rfl, Indexer.carryOut_error hc, fun _ _ hfp => hfp⟩)
  | unchanged =>
      exact .inr (.inr ⟨rfl, rfl, rfl, fun _ _ hfp => Tracker.observe_fingerprints .. ▸ hfp⟩)
  | begins =>
      exact .inr (.inr ⟨rfl, rfl, rfl, fun _ _ hfp => Tracker.observe_fingerprints .. ▸ hfp⟩)
  | hands =>
      exact .inr (.inr ⟨rfl, rfl, rfl, fun p fp hfp => Tracker.invalidate_known hfp⟩)
  | @resumes result =>
      refine .inr (.inr ⟨rfl, rfl, by rw [IndexState.afterHeir_site], fun p fp hfp => ?_⟩)
      cases result <;> exact hfp
  | _ => exact .inr (.inr ⟨rfl, rfl, rfl, fun _ _ hfp => hfp⟩)

end Thread

/-! ## Notes that are owed -/

/-- The file of which a worker has to note something, and the fingerprint. -/
def Hand.owed? (h : Hand) : Option (String × Option String) := h.thread?.bind Thread.owed?

namespace Hand

variable {p : Pool} {h h' : Hand} {queue : Queue} {state : IndexState}

theorem owed?_eq {t : Thread} (ht : h.thread? = some t) : h.owed? = t.owed? := by
  rw [owed?, ht, Option.bind_some]

/-- A step of a worker carries out a change, or notes one, or else stores nothing and makes
nothing known. -/
theorem Step.cases (hstep : h.Step p h' queue state) :
    (∃ c done b heirs, h.thread? = some ⟨.writes c, heirs⟩ ∧ h'.owed? = c.owed? done ∧
      p.indexer.carryOut c p.state.site.backend = (.ok done, b) ∧
      state = { p.state with site := { p.state.site with backend := b } }) ∨
    (∃ (c : FileChange) (done : Commit), h.owed? = c.owed? done ∧ h'.owed? = none ∧
      state = { p.state with tracker := c.noted done p.state.tracker }) ∨
    (h.owed? = none ∧ h'.owed? = none ∧ state.site.backend.store = p.state.site.backend.store ∧
      ∀ r fp, state.tracker.fingerprints.value? r = some fp →
        p.state.tracker.fingerprints.value? r = some fp) := by
  cases hstep with
  | @goesOn _ t t' _ ht hstep =>
      rw [owed?_eq ht, owed?_eq (thread?_withThread ht t')]
      rcases hstep.cases with ⟨c, done, b, heirs, rfl, rfl, hc, rfl⟩ |
        ⟨c, done, heirs, rfl, howed, rfl⟩ | hquiet
      · exact .inl ⟨c, done, b, heirs, ht, rfl, hc, rfl⟩
      · exact .inr (.inl ⟨c, done, rfl, howed, rfl⟩)
      · exact .inr (.inr hquiet)
  | _ => exact .inr (.inr ⟨rfl, rfl, rfl, fun _ _ hfp => hfp⟩)

/-- A note that is owed can be made at any time. -/
theorem note {relative : String} {fp? : Option String} (howed : h.owed? = some (relative, fp?)) :
    ∃ h' tracker, h.Step p h' p.queue { p.state with tracker } ∧ h'.owed? = none ∧
      ∀ fp, fp? = some fp → (tracker.observe relative fp).1 = false := by
  obtain ⟨⟨point, heirs⟩, ht, hthread⟩ := Option.bind_eq_some_iff.1 howed
  cases point with
  | notes c done =>
      refine ⟨_, _, .goesOn ht .noted, owed?_eq (thread?_withThread ht _), ?_⟩
      rintro fp rfl
      exact FileChange.noted_observe hthread
  | _ => cases hthread

/-- What a worker has before it after a step is stored under the path of its file. -/
theorem Step.fits (hstep : h.Step p h' queue state) {t' : Thread} (ht' : h'.thread? = some t') :
    t'.Fits p.indexer := by
  cases hstep with
  | goesOn ht hstep =>
      rw [thread?_withThread ht] at ht'
      cases ht'
      exact hstep.fits
  | indexes => cases ht'; rintro _ ⟨⟩
  | removes =>
      cases ht'
      intro c hc
      cases hc
      trivial
  | starts => cases ht'; rintro _ ⟨⟩
  | retries => cases ht'; rintro _ ⟨⟩
  | _ => cases ht'

end Hand

namespace Pool

variable {p p' : Pool} {relative : String}

/-- The fingerprint that is known of a file. -/
def known? (p : Pool) (relative : String) : Option String :=
  p.state.tracker.fingerprints.value? relative

/-- The fingerprint in the record of a file. -/
def stored? (p : Pool) (relative : String) : Option String :=
  p.state.site.backend.store.fingerprint? (p.indexer.storePath relative)

/-- Whether something has still to be noted of a file. -/
def Owes (p : Pool) (relative : String) : Prop :=
  ∃ h ∈ p.hands, ∃ fp?, h.owed? = some (relative, fp?)

/-- Whether a fingerprint has still to be noted of a file that is not the stored one any more. -/
def Overtaken (p : Pool) (relative : String) : Prop :=
  ∃ h ∈ p.hands, ∃ fp, h.owed? = some (relative, some fp) ∧ p.stored? relative ≠ some fp

/-- Whether what is known of a file is stored, or a note of it is owed. -/
def InLine (p : Pool) (relative : String) : Prop :=
  ∀ fp, p.known? relative = some fp → p.stored? relative = some fp ∨ p.Owes relative

/-- Whether what is to be carried out is stored under the path of its file. -/
def Fits (p : Pool) : Prop := ∀ h ∈ p.hands, ∀ t, h.thread? = some t → t.Fits p.indexer

theorem mem_hands {before after : List Hand} {h k : Hand} :
    k ∈ before ++ h :: after ↔ k = h ∨ k ∈ before ++ after := by
  simp only [List.mem_append, List.mem_cons]
  tauto

/-! ## What every step keeps -/

theorem Fits.step (h : p.Fits) (hstep : p.Step p') : p'.Fits := by
  cases hstep with
  | @hand before after hand hand' queue state hhands hstep =>
      intro k hk t ht
      rcases mem_hands.1 hk with rfl | hk
      · exact hstep.fits ht
      · exact h k (hhands ▸ mem_hands.2 (.inr hk)) t ht
  | _ => exact h

theorem Reached.fits {P : Pool → Prop} (h : p.Reached P) : p.Fits := by
  induction h with
  | start i retry n =>
      intro k hk t ht
      obtain rfl := List.eq_of_mem_replicate hk
      cases ht
  | step _ hstep _ ih => exact ih.step hstep

section

variable {before after : List Hand} {h h' : Hand} {queue : Queue} {state : IndexState}

/-- What one worker does leaves what the others owe. -/
theorem Owes.others (howes : p.Owes relative) (hhands : p.hands = before ++ h :: after)
    (hnot : ∀ fp?, h.owed? ≠ some (relative, fp?)) :
    Owes { p with queue, state, hands := before ++ h' :: after } relative := by
  obtain ⟨k, hk, fp?, howed⟩ := howes
  rw [hhands] at hk
  rcases mem_hands.1 hk with rfl | hk
  · exact absurd howed (hnot fp?)
  · exact ⟨k, mem_hands.2 (.inr hk), fp?, howed⟩

/-- While no note of a file is overtaken, what is known of it is stored, or a note of it is
owed. -/
theorem InLine.step (hin : p.InLine relative) (hfits : p.Fits) (htimely : ¬ p.Overtaken relative)
    (hstep : p.Step p') : p'.InLine relative := by
  cases hstep with
  | enqueues => exact hin
  | stops => exact hin
  | shuts => exact hin
  | invalidates => exact fun fp hknown => hin fp (Tracker.invalidate_known hknown)
  | outside hrecords =>
      intro fp hknown
      rw [stored?, Store.fingerprint?, hrecords]
      exact hin fp hknown
  | @hand before after h h' queue state hhands hstep =>
      have hmem : h ∈ p.hands := hhands ▸ mem_hands.2 (.inl rfl)
      rcases hstep.cases with ⟨c, done, b, heirs, ht, howed', hc, rfl⟩ |
        ⟨c, done, howed, -, rfl⟩ | ⟨howed, -, hstore, hknown'⟩
      · -- The change is carried out; if it is to be noted, that is owed now.
        have hcarried := Indexer.carryOut_ok (hfits h hmem _ ht c rfl) hc
        have hnot : h.owed? = none := Hand.owed?_eq ht
        intro fp hknown
        by_cases hown : ∃ fp?, c.owed? done = some (relative, fp?)
        · obtain ⟨fp?, hown⟩ := hown
          exact .inr ⟨h', mem_hands.2 (.inl rfl), fp?, howed'.trans hown⟩
        · refine (hin fp hknown).imp (fun hstored => ?_) fun howes =>
            howes.others hhands fun fp? => by simp [hnot]
          have hne : c.relative ≠ relative := by
            rintro rfl
            exact hown ⟨_, c.owed?_of_stored hcarried hstored⟩
          exact (hcarried.fingerprint_other
            (mt Indexer.storePath_inj.1 (Ne.symm hne))).trans hstored
      · -- The note is not overtaken, so what it makes known is stored.
        intro fp hknown
        by_cases hown : ∃ fp?, c.owed? done = some (relative, fp?)
        · obtain ⟨fp?, hown⟩ := hown
          obtain rfl : fp? = some fp := (FileChange.noted_value?_of_owed? hown).symm.trans hknown
          refine .inl (Classical.byContradiction fun hother => htimely ?_)
          exact ⟨h, hmem, fp, howed.trans hown, hother⟩
        · rw [not_exists] at hown
          rw [known?, FileChange.noted_value?_other hown] at hknown
          exact (hin fp hknown).imp_right fun howes => howes.others hhands (howed ▸ hown)
      · intro fp hknown
        rw [stored?, hstore]
        exact (hin fp (hknown' relative fp hknown)).imp_right fun howes =>
          howes.others hhands fun fp? => by simp [howed]

/-! ## How a note is overtaken, and what comes of it -/

/-- A note is overtaken only by another worker that changes its file. -/
theorem Step.overtakes (hfits : p.Fits) (hstep : p.Step p') (htimely : ¬ p.Overtaken relative)
    {k : Hand} (hk : k ∈ p'.hands) {fp : String} (howed : k.owed? = some (relative, some fp))
    (hother : p'.stored? relative ≠ some fp) :
    ∃ before h after c heirs, p.hands = before ++ h :: after ∧
      h.thread? = some ⟨.writes c, heirs⟩ ∧ c.relative = relative ∧ k ∈ before ++ after ∧
      c.fingerprint? ≠ some fp := by
  -- Otherwise it was overtaken before.
  have hbefore : k ∈ p.hands → p'.stored? relative ≠ p.stored? relative := fun hk hsame =>
    htimely ⟨k, hk, fp, howed, hsame ▸ hother⟩
  cases hstep with
  | enqueues => exact absurd rfl (hbefore hk)
  | invalidates => exact absurd rfl (hbefore hk)
  | stops => exact absurd rfl (hbefore hk)
  | shuts => exact absurd rfl (hbefore hk)
  | outside hrecords =>
      refine absurd ?_ (hbefore hk)
      rw [stored?, stored?, Store.fingerprint?, Store.fingerprint?, hrecords]
  | @hand before after h h' queue state hhands hstep =>
      have hrest : k ∈ before ++ after → k ∈ p.hands := fun hk => hhands ▸ mem_hands.2 (.inr hk)
      rcases hstep.cases with ⟨c, done, b, heirs, ht, howed', hc, rfl⟩ |
        ⟨c, done, -, howed', rfl⟩ | ⟨-, howed', hstore, -⟩
      · have hmem : h ∈ p.hands := hhands ▸ mem_hands.2 (.inl rfl)
        have hcarried := Indexer.carryOut_ok (hfits h hmem _ ht c rfl) hc
        by_cases hne : c.relative = relative
        · subst hne
          have hstored := hcarried.fingerprint
          rcases mem_hands.1 hk with rfl | hk
          · -- What is to be noted of the change itself is stored.
            obtain ⟨-, -, hfp⟩ := FileChange.owed?_eq_some_iff.1 (howed'.symm.trans howed)
            exact absurd (hstored.trans hfp) hother
          · exact ⟨before, h, after, c, heirs, hhands, ht, rfl, hk,
              fun hfp => hother (hstored.trans hfp)⟩
        · rcases mem_hands.1 hk with rfl | hk
          · exact absurd (FileChange.owed?_eq_some_iff.1 (howed'.symm.trans howed)).2.1 hne
          · refine absurd ?_ (hbefore (hrest hk))
            exact hcarried.fingerprint_other (mt Indexer.storePath_inj.1 (Ne.symm hne))
      · rcases mem_hands.1 hk with rfl | hk
        · cases howed'.symm.trans howed
        · exact absurd rfl (hbefore (hrest hk))
      · rcases mem_hands.1 hk with rfl | hk
        · cases howed'.symm.trans howed
        · refine absurd ?_ (hbefore (hrest hk))
          rw [stored?, stored?, hstore]

/-- Some workers make the notes of a file that they owe. -/
theorem leads_noted (p : Pool) (relative : String) {before hands after : List Hand}
    (hhands : p.hands = before ++ hands ++ after) : ∃ hands' tracker,
      p.Leads { p with state := { p.state with tracker }, hands := before ++ hands' ++ after } ∧
      ∀ h ∈ hands', ∀ fp?, h.owed? ≠ some (relative, fp?) := by
  induction hands generalizing p before with
  | nil =>
      refine ⟨[], p.state.tracker, ?_, nofun⟩
      obtain ⟨i, retry, queue, state, hands, isStopping⟩ := p
      obtain rfl : hands = _ := hhands
      exact .refl
  | cons h hands ih =>
      have hfirst : ∃ h' tracker, p.Leads { p with
          state := { p.state with tracker }
          hands := (before ++ [h']) ++ hands ++ after } ∧
          ∀ fp?, h'.owed? ≠ some (relative, fp?) := by
        by_cases howes : ∃ fp?, h.owed? = some (relative, fp?)
        · obtain ⟨fp?, howed⟩ := howes
          obtain ⟨h', tracker, hstep, howed', -⟩ := Hand.note (p := p) howed
          refine ⟨h', tracker, Step.leads ?_, fun fp? => by simp [howed']⟩
          have hnotes := @Step.hand p before (hands ++ after) h h' _ _ (by simp [hhands]) hstep
          simpa using hnotes
        · refine ⟨h, p.state.tracker, ?_, fun fp? howed => howes ⟨fp?, howed⟩⟩
          obtain ⟨i, retry, queue, state, all, isStopping⟩ := p
          obtain rfl : all = _ := hhands
          have hself : Leads ⟨i, retry, queue, state, before ++ h :: hands ++ after, isStopping⟩
              ⟨i, retry, queue, state, before ++ h :: hands ++ after, isStopping⟩ := .refl
          simpa using hself
      obtain ⟨h', tracker, hleads, hnot⟩ := hfirst
      obtain ⟨hands', tracker', hleads', hnot'⟩ := ih { p with
        state := { p.state with tracker }, hands := (before ++ [h']) ++ hands ++ after } rfl
      refine ⟨h' :: hands', tracker', ?_, List.forall_mem_cons.2 ⟨hnot, hnot'⟩⟩
      simpa using hleads.trans hleads'

/-- If a note that was overtaken comes last, its fingerprint is known then, and not stored. -/
theorem leads_ahead {k : Hand} {fp : String} (hk : k ∈ p.hands)
    (howed : k.owed? = some (relative, some fp)) : ∃ p', p.Leads p' ∧
      p'.state.site = p.state.site ∧ ¬ p'.Owes relative ∧ p'.known? relative = some fp ∧
      (p'.state.tracker.observe relative fp).1 = false := by
  obtain ⟨before, after, hhands⟩ := List.append_of_mem hk
  obtain ⟨before', tracker, hleads, hnot⟩ :=
    @leads_noted p relative [] before (k :: after) hhands
  obtain ⟨after', tracker', hleads', hnot'⟩ := @leads_noted { p with
    state := { p.state with tracker }, hands := before' ++ (k :: after) }
    relative (before' ++ [k]) after [] (by simp)
  let q : Pool := { p with
    state := { p.state with tracker := tracker' }, hands := before' ++ k :: after' }
  obtain ⟨k', last, hstep, hdone, hleft⟩ := Hand.note (p := q) howed
  refine ⟨{ q with state := { q.state with tracker := last }, hands := before' ++ k' :: after' },
    ?_, rfl, ?_, last.observe_known _ _ (hleft fp rfl), hleft fp rfl⟩
  · have hrest : p.Leads q := by simpa [q] using hleads.trans hleads'
    exact hrest.trans (Step.hand rfl hstep).leads
  · rintro ⟨j, hj, fp?, howes⟩
    rcases mem_hands.1 hj with rfl | hj
    · cases hdone.symm.trans howes
    · rcases List.mem_append.1 hj with hj | hj
      · exact hnot j hj fp? howes
      · exact hnot' j hj fp? howes

end

theorem Reached.inLine (h : p.Reached fun q => ¬ q.Overtaken relative) : p.InLine relative := by
  induction h with
  | start i retry n htracker =>
      intro fp hknown
      rw [stored?, ← hknown]
      exact .inl (Indexer.tracker_value? htracker relative).symm
  | step hbefore hstep _ ih => exact ih.step hbefore.fits hbefore.holds hstep

/-- Free workers owe nothing. -/
theorem start_not_overtaken (i : Indexer) (retry : Retry) (state : IndexState) (n : Nat) :
    ¬ (start i retry state n).Overtaken relative := by
  rintro ⟨k, hk, fp, howed, -⟩
  obtain rfl := List.eq_of_mem_replicate hk
  cases howed

/-- No note of a file is overtaken where nobody owes one, or nobody is to change the file. -/
theorem Reached.apart (h : p.Reached fun q => ¬ q.Overtaken relative) (hstep : p.Step p')
    (hapart : (∀ k ∈ p.hands, ∀ fp, k.owed? ≠ some (relative, some fp)) ∨
      ∀ k ∈ p.hands, ∀ c heirs, k.thread? = some ⟨.writes c, heirs⟩ → c.relative ≠ relative) :
    p'.Reached fun q => ¬ q.Overtaken relative := by
  refine h.step hstep fun hovertaken => ?_
  obtain ⟨k, hk, fp, howed, hother⟩ := hovertaken
  obtain ⟨before, hand, after, c, heirs, hhands, ht, hc, hk, -⟩ :=
    hstep.overtakes h.fits h.holds hk howed hother
  rw [hhands] at hapart
  rcases hapart with hnone | hnone
  · exact hnone k (mem_hands.2 (.inr hk)) fp howed
  · exact hnone hand (mem_hands.2 (.inl rfl)) c heirs ht hc

/-- A single worker overtakes no note. -/
theorem Reached.timely (h : p.Reached fun q => q.hands.length ≤ 1 ∨ ¬ q.Overtaken relative) :
    p.Reached fun q => ¬ q.Overtaken relative := by
  induction h with
  | start i retry n htracker => exact .start i retry n htracker (start_not_overtaken _ _ _ _)
  | step _ hstep hp ih =>
      refine ih.step hstep (hp.elim (fun hone hovertaken => ?_) id)
      obtain ⟨k, hk, fp, howed, hother⟩ := hovertaken
      obtain ⟨before, h, after, c, heirs, hhands, -, -, hk, -⟩ :=
        hstep.overtakes ih.fits ih.holds hk howed hother
      have hothers := List.length_pos_of_mem hk
      rw [hstep.length, hhands] at hone
      simp only [List.length_append, List.length_cons] at hone hothers
      omega

end Pool

/-- **What is known is stored, unless a note is overtaken.**  Let there be one worker, or let no
note of a file be overtaken.  Then at any time

1. the fingerprint that is known of the file is that of its record, unless a note of the file is
   owed;
2. what a thread has read of it is found unchanged, and no note of it is owed, only if the record
   has the fingerprint of that content;
3. so a call to index it finds it unchanged, and no note of it is owed, only if the record has the
   fingerprint of its present content.

A note of it is overtaken only when another worker changes the file, to another fingerprint or to
none.  Then it can come about, by notes alone, that its fingerprint is known and not stored, that
no note is owed, and that the file is left as it is when it has that fingerprint. -/
theorem fingerprints_not_ahead {p : Pool} {relative : String}
    (h : p.Reached fun q => q.hands.length ≤ 1 ∨ ¬ q.Overtaken relative) :
    (∀ fp, p.known? relative = some fp → p.Owes relative ∨ ∃ r,
      p.state.site.backend.store.records.get? (p.indexer.storePath relative) = some r ∧
        r.fingerprint = fp) ∧
    (¬ p.Owes relative → ∀ language content heirs s,
      Thread.Step p.indexer p.state ⟨.compares relative language content, heirs⟩
        ⟨.ends (.ok .unchanged), heirs⟩ s → ∃ r,
      p.state.site.backend.store.records.get? (p.indexer.storePath relative) = some r ∧
        r.fingerprint = fingerprint content) ∧
    (¬ p.Owes relative → ∀ s,
      (p.indexer.indexFile relative).run p.state = (.ok .unchanged, s) →
      s.site = p.state.site ∧ ∃ content r,
        p.state.site.files.read (FilePath.push p.indexer.root relative) = .ok content ∧
        p.state.site.backend.store.records.get? (p.indexer.storePath relative) = some r ∧
        r.fingerprint = fingerprint content) ∧
    ∀ p', p.Step p' → ∀ k ∈ p'.hands, ∀ fp, k.owed? = some (relative, some fp) →
      p'.stored? relative ≠ some fp →
      (∃ before h after c heirs, p.hands = before ++ h :: after ∧
        h.thread? = some ⟨.writes c, heirs⟩ ∧ c.relative = relative ∧ k ∈ before ++ after ∧
        c.fingerprint? ≠ some fp) ∧
      ∃ p'', p'.Leads p'' ∧ p''.state.site = p'.state.site ∧ ¬ p''.Owes relative ∧
        p''.known? relative = some fp ∧ p''.stored? relative ≠ some fp ∧
        (p''.state.tracker.observe relative fp).1 = false := by
  have h := h.timely
  have hstored : ∀ {fp}, ¬ p.Owes relative → p.known? relative = some fp → ∃ r,
      p.state.site.backend.store.records.get? (p.indexer.storePath relative) = some r ∧
        r.fingerprint = fp := fun howes hknown =>
    Option.map_eq_some_iff.1 ((h.inLine _ hknown).resolve_right howes)
  refine ⟨fun fp hknown => ?_, ?_, fun howes s hrun => ?_, ?_⟩
  · by_cases howes : p.Owes relative
    · exact .inl howes
    · exact .inr (hstored howes hknown)
  · intro howes language content heirs s hstep
    cases hstep with
    | unchanged hneeded => exact hstored howes (Tracker.observe_known _ _ _ hneeded)
  · obtain ⟨events, hcourse⟩ := p.indexer.indexFile_course relative p.state
    rw [hrun] at hcourse
    obtain ⟨result, tracker, hd, hruled⟩ := p.indexer.decide_ruled relative p.state
    cases hcourse.unchanged.symm.trans hd
    obtain ⟨-, language, content, hfinds, hknown⟩ := hruled.known
    obtain ⟨r, hr, hfingerprint⟩ := hstored howes hknown
    exact ⟨rfl, content, r, hfinds.found, hr, hfingerprint⟩
  · intro p' hstep k hk fp howed hother
    obtain ⟨p'', hleads, hsite, howes, hknown, hleft⟩ := Pool.leads_ahead hk howed
    refine ⟨hstep.overtakes h.fits h.holds hk howed hother, p'', hleads, hsite, howes, hknown, ?_,
      hleft⟩
    rwa [Pool.stored?, hsite, hleads.indexer]

/-! ### Two workers at one file -/

/-- Two workers at the module and its stub. -/
def twoHands (queue : Queue) (state : IndexState) (h k : Hand) : Pool :=
  ⟨emptyFileIndexer, .default, queue, state, [h, k], false⟩

/-- What is known of the module and its stub when both are stored. -/
def bothKnown : Tracker := emptyFileIndexer.trackerOf moduleStored.store.fileRecords

/-- What is stored of the stub. -/
def stubChange : FileChange :=
  .replace "m.pyi" (emptyFileRecord "m.pyi") [emptyFileModule "m.pyi"] []

section

variable {queue queue' : Queue} {state state' : IndexState} {h h' k k' : Hand}

/-- The first worker does something, and owes no fingerprint. -/
theorem twoHands_first
    (hreached : (twoHands queue state h .free).Reached fun q => ¬ q.Overtaken "m.pyi")
    (hstep : h.Step (twoHands queue state h .free) h' queue' state')
    (howed : h.owed?.bind Prod.snd = none) :
    (twoHands queue' state' h' .free).Reached fun q => ¬ q.Overtaken "m.pyi" := by
  have hnone : ∀ fp, h.owed? ≠ some ("m.pyi", some fp) := by
    intro fp hfp
    rw [hfp] at howed
    cases howed
  have hfree : Hand.owed? .free = none := rfl
  exact hreached.apart (@Pool.Step.hand (twoHands queue state h .free) [] [.free] _ _ _ _ rfl hstep)
    (.inl (by simp [twoHands, hnone, hfree]))

/-- The first worker gets on with the module. -/
theorem twoHands_thread {t t' : Thread}
    (hreached : (twoHands queue state (.works "m.py" 1 t) .free).Reached
      fun q => ¬ q.Overtaken "m.pyi")
    (hstep : t.Step emptyFileIndexer state t' state') (howed : t.owed?.bind Prod.snd = none) :
    (twoHands queue state' (.works "m.py" 1 t') .free).Reached fun q => ¬ q.Overtaken "m.pyi" :=
  twoHands_first hreached (.goesOn rfl hstep) howed

/-- The second worker does something, while nobody is to change the store. -/
theorem twoHands_second
    (hreached : (twoHands queue state h k).Reached fun q => ¬ q.Overtaken "m.pyi")
    (hstep : k.Step (twoHands queue state h k) k' queue' state')
    (hh : ∀ c heirs, h.thread? ≠ some ⟨.writes c, heirs⟩)
    (hk : ∀ c heirs, k.thread? ≠ some ⟨.writes c, heirs⟩) :
    (twoHands queue' state' h k').Reached fun q => ¬ q.Overtaken "m.pyi" :=
  hreached.apart (@Pool.Step.hand (twoHands queue state h k) [h] [] _ _ _ _ rfl hstep)
    (.inr (by simp [twoHands, hh, hk]))

end

/-- The module is gone.  The first worker retracts it, and goes on to index the stub again. -/
theorem twoHands_retracted : ∃ tracker c,
    (twoHands ⟨[], ["m.py"], [], [], none, true⟩ ⟨⟨stub, moduleGone, 0⟩, tracker⟩
      (.works "m.py" 1 ⟨.reads "m.pyi", [⟨"m.pyi", [], .deleted c⟩]⟩) .free).Reached
        (fun q => ¬ q.Overtaken "m.pyi") ∧
      ∀ fp, (tracker.observe "m.pyi" fp).1 = true := by
  have htracker : emptyFileIndexer.tracker moduleStored = .ok bothKnown := by
    have hopen : moduleStored.isOpen = true := by decide +kernel
    rw [Indexer.tracker, Backend.fileRecords, Backend.contents, if_pos hopen]
    rfl
  have hstart : (twoHands .new ⟨⟨stub, moduleStored, 0⟩, bothKnown⟩ .free .free).Reached
      fun q => ¬ q.Overtaken "m.pyi" := .start _ _ 2 htracker (Pool.start_not_overtaken _ _ _ _)
  have hqueued : (twoHands ⟨["m.py"], [], [], ["m.py"], none, true⟩
      ⟨⟨stub, moduleStored, 0⟩, bothKnown⟩ .free .free).Reached fun q => ¬ q.Overtaken "m.pyi" :=
    hstart.apart (.enqueues rfl) (.inl (by simp [twoHands, Hand.owed?, Hand.thread?]))
  have htaken := twoHands_first hqueued (.takes rfl) rfl
  have hstarted := twoHands_first htaken .starts rfl
  have hread := twoHands_thread hstarted (.missing module_reads.supported module_missing) rfl
  have hstored := twoHands_thread hread (.stored (Prod.ext module_retracted rfl)) rfl
  have hnoted := twoHands_thread hstored .noted rfl
  have hheir : emptyFileIndexer.relativeStorePath? "/r/m.pyi" = some "m.pyi" :=
    Indexer.relativeStorePath?_eq_some_iff.2 rfl
  have hhanded := twoHands_thread hnoted (.hands hheir) rfl
  exact ⟨_, _, hhanded, fun fp => Tracker.observe_invalidate _ _ _⟩

/-- The first worker has stored the stub again, and owes the note of that.  Meanwhile the stub is
gone too, and the second worker is to retract it. -/
theorem twoHands_reached : ∃ queue tracker heirs,
    (twoHands queue ⟨⟨.empty, stubAgain, 0⟩, tracker⟩
      (.works "m.py" 1 ⟨.notes stubChange 0, heirs⟩)
      (.works "m.pyi" 1 ⟨.writes (.retract "m.pyi"), []⟩)).Reached
        fun q => ¬ q.Overtaken "m.pyi" := by
  obtain ⟨tracker, c, hhanded, hneeded⟩ := twoHands_retracted
  have hread := twoHands_thread hhanded (.finds stub_reads.finds) rfl
  have hbegun := twoHands_thread hread (.begins (hneeded _)) rfl
  have hresolved := twoHands_thread hbegun (@Thread.Step.resolved _ _ _ _ _ _ moduleGone.symbols _ 0
    _ stub_reads.parsed rfl) rfl
  have hstored := twoHands_thread hresolved (.stored (Prod.ext stub_applied rfl)) rfl
  have hnobody : ∀ k ∈ [Hand.works "m.py" 1 ⟨.notes stubChange 0, [⟨"m.pyi", [], .deleted c⟩]⟩,
      .free], ∀ d heirs, k.thread? = some ⟨.writes d, heirs⟩ → d.relative ≠ "m.pyi" := by
    simp [Hand.thread?]
  have hgone := hstored.apart (@Pool.Step.outside _ ⟨.empty, stubAgain, 0⟩ fun _ => rfl)
    (.inr hnobody)
  have hqueued := hgone.apart (@Pool.Step.enqueues _ "m.pyi" _ _ rfl) (.inr hnobody)
  have hmissing : FileTree.empty.read (FilePath.push emptyFileIndexer.root "m.pyi") =
      .error .missing := by
    rw [FileTree.read, locate_module _ (.inr rfl)]
    rfl
  have htaken := twoHands_second hqueued (.takes rfl) (by rintro _ _ ⟨⟩) (by rintro _ _ ⟨⟩)
  have hstarted := twoHands_second htaken .starts (by rintro _ _ ⟨⟩) (by rintro _ _ ⟨⟩)
  exact ⟨_, _, _, twoHands_second hstarted
    (.goesOn rfl (.missing stub_reads.supported hmissing)) (by rintro _ _ ⟨⟩) (by rintro _ _ ⟨⟩)⟩

/-- The second worker retracts the stub, and its fingerprint is noted after that.  An empty stub
is left as it is then, though it has no record. -/
theorem fingerprints_not_ahead_twoHands : ∃ p p' p'' : Pool,
    (p.Reached fun q => ¬ q.Overtaken "m.pyi") ∧ p.hands.length = 2 ∧ p.Step p' ∧
    p'.Overtaken "m.pyi" ∧ p'.Leads p'' ∧ ¬ p''.Owes "m.pyi" ∧
    p''.known? "m.pyi" = some (fingerprint .empty) ∧ p''.stored? "m.pyi" = none ∧
    (p''.state.tracker.observe "m.pyi" (fingerprint .empty)).1 = false := by
  obtain ⟨queue, tracker, heirs, hreached⟩ := twoHands_reached
  let second : Hand := .works "m.pyi" 1 ⟨.writes (.retract "m.pyi"), []⟩
  let p := twoHands queue ⟨⟨.empty, stubAgain, 0⟩, tracker⟩
    (.works "m.py" 1 ⟨.notes stubChange 0, heirs⟩) second
  have hretracted : (emptyFileIndexer.carryOut (.retract "m.pyi") stubAgain).1 =
      .ok { (0 : Commit) with nodesRemoved := 1, recordWritten := true } := by decide +kernel
  have hgone : (emptyFileIndexer.carryOut (.retract "m.pyi") stubAgain).2.store.fingerprint?
      "/r/m.pyi" = none :=
    (Indexer.carryOut_ok (i := emptyFileIndexer) (c := .retract "m.pyi") trivial
      (Prod.ext hretracted rfl)).fingerprint
  obtain ⟨p', hstep, hgone', howed⟩ : ∃ p', p.Step p' ∧ p'.stored? "m.pyi" = none ∧
      ∃ k ∈ p'.hands, k.owed? = some ("m.pyi", some (fingerprint .empty)) :=
    ⟨_, @Pool.Step.hand p [.works "m.py" 1 ⟨.notes stubChange 0, heirs⟩] [] second _ _ _ rfl
      (.goesOn rfl (.stored (Prod.ext hretracted rfl))), hgone, _, .head _, rfl⟩
  obtain ⟨k, hk, howed⟩ := howed
  have hother : p'.stored? "m.pyi" ≠ some (fingerprint .empty) := by simp [hgone']
  obtain ⟨-, p'', hleads, hsite, howes, hknown, -, hleft⟩ :=
    (fingerprints_not_ahead (hreached.imp fun _ => .inr)).2.2.2 p' hstep k hk _ howed hother
  refine ⟨p, p', p'', hreached, rfl, hstep, ⟨k, hk, _, howed, hother⟩, hleads, howes, hknown, ?_,
    hleft⟩
  rwa [Pool.stored?, hsite, hleads.indexer]

end CodeAtlas
