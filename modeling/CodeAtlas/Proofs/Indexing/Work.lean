import CodeAtlas.Indexing.FileChange

/-!
# CodeAtlas.Proofs.Indexing.Work

What work on the files of a tree leads to.

`Indexing.Leads P w Q E` says of work `w` that is begun where `P` holds: if it gives
something, `Q` holds of that and of the state it leaves, and if it fails, `E` holds of
the state.  What work did before a failure stays, so a failure has a state of its own to
speak of.  There is one rule for each way of composing work and one for each single step;
a statement about a function of the indexer is put together from them along its text.
What is done for a file and for its heirs has rules of its own (`Indexer.settle_leads`,
`Indexer.refreshEach_leads`), as it is looked at more than once.
-/

namespace CodeAtlas

namespace Indexing

variable {α β : Type}

/-! ## Runs -/

theorem run_get (s : IndexState) : (get : Indexing IndexState).run s = (.ok s, s) := rfl

/-- A sequence goes on from where its first part ended, unless that failed. -/
theorem run_bind (w : Indexing α) (f : α → Indexing β) (s : IndexState) :
    (w >>= f).run s = match w.run s with
      | (.ok a, t) => (f a).run t
      | (.error e, t) => (.error e, t) := by
  change (w >>= f) s = _
  simp only [Bind.bind, ExceptT.bind, ExceptT.mk, StateT.bind, ExceptT.run]
  cases w s with
  | mk r t => cases r <;> rfl

theorem run_onTracker (f : Tracker → Tracker) (s : IndexState) :
    (onTracker f).run s = (.ok (), { s with tracker := f s.tracker }) := rfl

/-- Work on the store leaves the store that it leaves, whether it fails or not. -/
theorem run_onStore (f : Backend → Except Error α × Backend) (s : IndexState) :
    (onStore f).run s = ((f s.site.backend).1,
      { s with site := { s.site with backend := (f s.site.backend).2 } }) := by
  rw [onStore, run_bind, run_get]
  cases h : f s.site.backend with
  | mk r b =>
      simp only [h, run_bind]
      cases r <;> rfl

/-- What is attempted does not fail. -/
theorem run_attempt (w : Indexing α) (s : IndexState) :
    (attempt w).run s = (.ok (w.run s).1, (w.run s).2) := rfl

/-! ## Rules -/

/-- Work that is begun where `P` holds ends where `Q` holds, or it fails where `E` holds. -/
def Leads (P : IndexState → Prop) (w : Indexing α) (Q : α → IndexState → Prop)
    (E : IndexState → Prop) : Prop :=
  ∀ s, P s → match w.run s with
    | (.ok a, t) => Q a t
    | (.error _, t) => E t

namespace Leads

variable {P P' : IndexState → Prop} {Q Q' : α → IndexState → Prop} {E E' : IndexState → Prop}

theorem of_error {w : Indexing α} {s t : IndexState} {e : Error} (h : Leads P w Q E) (hs : P s)
    (hw : w.run s = (.error e, t)) : E t := by
  have hst := h s hs
  rw [hw] at hst
  exact hst

theorem weaken {w : Indexing α} (h : Leads P w Q E) (hP : ∀ s, P' s → P s)
    (hQ : ∀ a s, Q a s → Q' a s) (hE : ∀ s, E s → E' s) : Leads P' w Q' E' := by
  intro s hs
  have hst := h s (hP s hs)
  split at hst
  · exact hQ _ _ hst
  · exact hE _ hst

/-- All work leads somewhere. -/
theorem any {w : Indexing α} : Leads P w (fun _ _ => True) fun _ => True := by
  intro s _
  split <;> trivial

theorem pure {a : α} (h : ∀ s, P s → Q a s) : Leads P (pure a) Q E := h

theorem bind {w : Indexing α} {f : α → Indexing β} {R : β → IndexState → Prop}
    (h : Leads P w Q E) (hf : ∀ a, Leads (Q a) (f a) R E) : Leads P (w >>= f) R E := by
  intro s hs
  have hst := h s hs
  rw [run_bind]
  cases hw : w.run s with
  | mk r t =>
      rw [hw] at hst
      cases r with
      | ok a => exact hf a t hst
      | error e => exact hst

theorem onTracker {Q : Unit → IndexState → Prop} {f : Tracker → Tracker}
    (h : ∀ s, P s → Q () { s with tracker := f s.tracker }) : Leads P (onTracker f) Q E := h

theorem onStore {f : Backend → Except Error α × Backend}
    (hok : ∀ s a, P s → (f s.site.backend).1 = .ok a →
      Q a { s with site := { s.site with backend := (f s.site.backend).2 } })
    (herror : ∀ s e, P s → (f s.site.backend).1 = .error e →
      E { s with site := { s.site with backend := (f s.site.backend).2 } }) :
    Leads P (onStore f) Q E := by
  intro s hs
  rw [run_onStore]
  cases hr : (f s.site.backend).1 with
  | ok a => exact hok s a hs hr
  | error e => exact herror s e hs hr

theorem attempt {w : Indexing α} {Q : Except Error α → IndexState → Prop}
    (h : Leads P w (fun a => Q (.ok a)) fun s => ∀ e, Q (.error e) s) :
    Leads P (attempt w) Q E := by
  intro s hs
  have hst := h s hs
  rw [run_attempt]
  cases hw : w.run s with
  | mk r t =>
      rw [hw] at hst
      cases r with
      | ok a => exact hst
      | error e => exact hst e

end Leads

end Indexing

/-- Whether a file is to be indexed, and not to be retracted. -/
def FileChange.Replaces : FileChange → Prop
  | .replace .. => True
  | .retract _ => False
  | .skip .. => False

namespace Indexer

open Indexing

variable {i : Indexer} {P T E : IndexState → Prop}

theorem run_enoughDepth (s : IndexState) :
    enoughDepth.run s = (.ok (s.site.backend.store.records.size + 1), s) := rfl

theorem enoughDepth_leads : Leads P enoughDepth (fun _ => P) E := fun _ hs => hs

/-- Indexing heirs cannot fail as a whole, and keeps what indexing each of them keeps. -/
theorem refreshEach_leads {index : String → Indexing FileOutcome}
    (htracker : ∀ s tracker, T s → T { s with tracker })
    (hindex : ∀ relative, Leads T (index relative) (fun _ => T) T) (heirs : List String) :
    Leads T (i.refreshEach index heirs) (fun _ => T) E := by
  have hnoted : ∀ f, Leads T (onTracker f) (fun _ => T) E :=
    fun f => Leads.onTracker fun s hs => htracker s _ hs
  induction heirs with
  | nil => exact Leads.pure fun _ hs => hs
  | cons heir heirs ih =>
      rw [refreshEach]
      split
      · exact ih
      · refine Leads.bind (hnoted _) fun _ => Leads.bind (Q := fun _ => T) ?_ fun r => ?_
        · exact Leads.attempt ((hindex _).weaken (fun _ hs => hs) (fun _ _ hs => hs)
            fun _ hs _ => hs)
        · split
          · exact ih
          · exact Leads.bind (hnoted _) fun _ => ih

/-- What is done for a file is a transaction of its own; what is noted of the file and done
for its heirs comes after that.  Only a file that is replaced is indexed. -/
theorem settle_leads {Q : FileOutcome → IndexState → Prop} {refresh : List String → Indexing Unit}
    {c : FileChange}
    (happly : ∀ relative record nodes edges, c = .replace relative record nodes edges →
      Leads P (onStore (·.apply record nodes edges)) (fun _ => T) E)
    (hdelete : ∀ path, Leads P (onStore (·.deleteFile path)) (fun _ => T) E)
    (htracker : ∀ s tracker, T s → T { s with tracker })
    (hrefresh : ∀ heirs, Leads T (refresh heirs) (fun _ => T) E)
    (hdone : ∀ outcome s, T s → (∀ commit, outcome = .indexed commit → c.Replaces) → Q outcome s) :
    Leads P (i.settle refresh c) Q E := by
  have hnoted : ∀ f, Leads T (onTracker f) (fun _ => T) E :=
    fun f => Leads.onTracker fun s hs => htracker s _ hs
  cases c with
  | replace relative record nodes edges =>
      exact Leads.bind (happly _ _ _ _ rfl) fun commit => Leads.bind (hnoted _) fun _ =>
        Leads.bind (hrefresh _) fun _ => Leads.pure fun s hs => hdone _ s hs fun _ _ => trivial
  | retract relative =>
      exact Leads.bind (hdelete _) fun commit => Leads.bind (hnoted _) fun _ =>
        Leads.bind (hrefresh _) fun _ => Leads.pure fun s hs => hdone _ s hs nofun
  | skip relative reason =>
      refine Leads.bind (hdelete _) fun commit => ?_
      simp only []
      split
      · exact Leads.bind (hnoted _) fun _ => Leads.bind (hrefresh _) fun _ =>
          Leads.pure fun s hs => hdone _ s hs nofun
      · exact Leads.pure fun s hs => hdone _ s hs nofun

end Indexer

end CodeAtlas
