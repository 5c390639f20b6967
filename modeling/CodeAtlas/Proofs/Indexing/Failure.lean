import CodeAtlas.Proofs.Indexing.Decision
import CodeAtlas.Proofs.Upsert.Calls

/-!
# CodeAtlas.Proofs.Indexing.Failure

A failure leaves no trace: the published store is as it was, and so are the
fingerprints that are known of files.

A transaction publishes all or nothing, which settles the calls on a store.  Bringing a
file up to date consists of more than one transaction, so there it counts what comes when:
deciding changes neither the store nor a fingerprint, the transaction of the file itself
comes first of those that change the store, and the ones for its heirs are attempts that
cannot make the whole fail any more (`Indexer.settle_fails`).
-/

namespace CodeAtlas

open Indexing

/-! ## What a failure leaves alone -/

/-- Two states with one published store and one table of fingerprints. -/
def IndexState.Kept (s t : IndexState) : Prop :=
  t.site.backend.store = s.site.backend.store ∧ t.tracker.fingerprints = s.tracker.fingerprints

theorem IndexState.Kept.refl (s : IndexState) : s.Kept s := ⟨rfl, rfl⟩

theorem IndexState.Kept.untouched {s t u : IndexState} (h : s.Kept t) (hu : t.Untouched u) :
    s.Kept u := ⟨hu.1 ▸ h.1, hu.2.trans h.2⟩

namespace Indexer

variable (i : Indexer) (s : IndexState)

/-- Deciding what is to be done changes no store and no fingerprint. -/
theorem decide_keeps (relative : String) :
    Leads s.Kept (i.decide relative) (fun _ => s.Kept) s.Kept := fun t ht =>
  (i.decide_decided relative t).weaken (fun _ hu => hu) (fun _ _ hu => ht.untouched hu.1)
    (fun _ hu => ht.untouched hu) t (.refl t)

/-- Files that took over nodes are indexed again without a failure of the whole. -/
theorem refreshEach_total (index : String → Indexing FileOutcome) (heirs : List String) :
    Leads (fun _ => True) (i.refreshEach index heirs) (fun _ _ => True) fun _ => False :=
  refreshEach_leads (fun _ _ _ => trivial) (fun _ => Leads.any) heirs

/-- What is to be done for a file fails only in its own transaction. -/
theorem settle_fails {refresh : List String → Indexing Unit}
    (hrefresh : ∀ heirs, Leads (fun _ => True) (refresh heirs) (fun _ _ => True) fun _ => False)
    (c : FileChange) : Leads s.Kept (i.settle refresh c) (fun _ _ => True) s.Kept := by
  have hstore : ∀ {α : Type} (w : Work (α × Bool)), Leads s.Kept (onStore (·.transact w))
      (fun _ _ => True) s.Kept := fun w =>
    Leads.onStore (fun _ _ _ _ => trivial)
      fun t e ht he => ⟨(Backend.transact_error he).trans ht.1, ht.2⟩
  exact settle_leads (fun _ _ _ _ _ => hstore _) (fun _ => hstore _) (fun _ _ _ => trivial)
    (fun heirs => (hrefresh heirs).weaken (fun _ h => h) (fun _ _ h => h) fun _ h => h.elim)
    fun _ _ _ _ => trivial

theorem complete_fails (c : FileChange) : Leads s.Kept (i.complete c) (fun _ _ => True) s.Kept :=
  Leads.bind enoughDepth_leads fun _ => i.settle_fails s (i.refreshEach_total _) c

theorem indexFile_fails (relative : String) :
    Leads s.Kept (i.indexFile relative) (fun _ _ => True) s.Kept := by
  refine Leads.bind (i.decide_keeps s relative) fun decision => ?_
  split
  · exact Leads.pure fun _ _ => trivial
  · exact i.complete_fails s _

end Indexer

/-! ## Whole calls -/

/-- **A failure leaves no trace.**  Whatever fails, a change of the store that fails leaves
the published store as it was, and so does bringing a file up to date or removing it, which
then leaves the fingerprints that are known as they were, too. -/
theorem failure_leaves_no_trace :
    (∀ (b : Backend) (record : FileRecord) (nodes : List Node) (edges : List Edge) (e : Error),
      (b.apply record nodes edges).1 = .error e →
        (b.apply record nodes edges).2.store = b.store) ∧
    (∀ (b : Backend) (path : String) (e : Error), (b.deleteFile path).1 = .error e →
      (b.deleteFile path).2.store = b.store) ∧
    (∀ (b : Backend) (e : Error), b.relink.1 = .error e → b.relink.2.store = b.store) ∧
    ∀ (i : Indexer) (relative : String) (s t : IndexState) (e : Error),
      (i.indexFile relative).run s = (.error e, t) ∨ (i.removeFile relative).run s = (.error e, t) →
        t.site.backend.store = s.site.backend.store ∧
          t.tracker.fingerprints = s.tracker.fingerprints := by
  refine ⟨fun b record nodes edges e h => Backend.transact_error h,
    fun b path e h => Backend.transact_error h, fun b e h => Backend.transact_error h,
    fun i relative s t e h => ?_⟩
  rcases h with h | h
  · exact (i.indexFile_fails s relative).of_error (.refl s) h
  · exact (i.complete_fails s (.retract relative)).of_error (.refl s) h

/-- An indexer that does not read files in Python. -/
def rustIndexer : Indexer where
  readers := Readers.build ()
  root := "/r"
  scope := "/r"
  languages := [.rust]
  filter := WatchFilter.of ["rs"] []
  maxFileBytes := 1000

def connectionLost : Error := .storeUnavailable "connection lost"

/-- A file in Python is known from before.  The connection to the store is lost at the
fifth operation of the next transaction, and at the end of the one after that. -/
def losingConnection : IndexState :=
  let stored := (Backend.new.apply (.plain "/r/a.py") [.plain .module "a" "a" "/r/a.py"] []).2
  let outages := [⟨none, fun n => if n = 4 then some connectionLost else none, none⟩,
    .atCommit connectionLost]
  { site := ⟨.empty, { stored with outages }, 0⟩
    tracker := Tracker.ofRecords [{ FileRecord.plain "a.py" with fingerprint := "1" }] }

/-- The file is to be retracted, as it is not read any more, and that fails twice. -/
theorem failure_leaves_no_trace_losingConnection :
    ∃ s t, (rustIndexer.indexFile "a.py").run losingConnection = (.error connectionLost, s) ∧
      (rustIndexer.removeFile "a.py").run s = (.error connectionLost, t) ∧
      t.site.backend.store = losingConnection.site.backend.store ∧
      t.tracker.fingerprints = losingConnection.tracker.fingerprints := by
  obtain ⟨-, -, -, hindexer⟩ := failure_leaves_no_trace
  have honce : ((rustIndexer.indexFile "a.py").run losingConnection).1 = .error connectionLost := by
    decide +kernel
  obtain ⟨s, hs⟩ : ∃ s, (rustIndexer.indexFile "a.py").run losingConnection =
    (.error connectionLost, s) := ⟨_, Prod.ext honce rfl⟩
  have htwice : ((rustIndexer.removeFile "a.py").run
      ((rustIndexer.indexFile "a.py").run losingConnection).2).1 = .error connectionLost := by
    decide +kernel
  rw [hs] at htwice
  obtain ⟨t, ht⟩ : ∃ t, (rustIndexer.removeFile "a.py").run s = (.error connectionLost, t) :=
    ⟨_, Prod.ext htwice rfl⟩
  obtain ⟨hstore, hknown⟩ := hindexer rustIndexer "a.py" losingConnection s _ (.inl hs)
  obtain ⟨hstore', hknown'⟩ := hindexer rustIndexer "a.py" s t _ (.inr ht)
  exact ⟨s, t, hs, ht, hstore'.trans hstore, hknown'.trans hknown⟩

end CodeAtlas
