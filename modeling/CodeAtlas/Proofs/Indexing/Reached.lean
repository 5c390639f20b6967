import CodeAtlas.Proofs.Indexing.Decision
import CodeAtlas.Proofs.Resolve.Contribution
import CodeAtlas.Proofs.Upsert.Claims

/-!
# CodeAtlas.Proofs.Indexing.Reached

The stores that indexers lead to.

Indexers change a store in two ways only: they delete files, and they apply what a file was
resolved to under the path that its record has (`Call.OfFile`).  So what such calls keep is
kept while files are indexed and removed, whatever else happens and at any depth of heirs
(`Store.Indexed.keeps`).
-/

namespace CodeAtlas

open Indexing Upsert

/-! ## Work that keeps a property of the store -/

namespace Indexing

/-- Work keeps a property of the published store, whether it fails or not. -/
def Keeps {α : Type} (I : Store → Prop) (w : Indexing α) : Prop :=
  Leads (fun s => I s.site.backend.store) w (fun _ s => I s.site.backend.store)
    fun s => I s.site.backend.store

namespace Keeps

variable {α β : Type} {I : Store → Prop}

theorem run {w : Indexing α} (h : Keeps I w) {s : IndexState} (hs : I s.site.backend.store) :
    I (w.run s).2.site.backend.store := by
  have hst := h s hs
  split at hst
  · next hw => rwa [hw]
  · next hw => rwa [hw]

theorem pure (a : α) : Keeps I (pure a : Indexing α) := Leads.pure fun _ hs => hs

theorem bind {w : Indexing α} {f : α → Indexing β} (hw : Keeps I w) (hf : ∀ a, Keeps I (f a)) :
    Keeps I (w >>= f) := Leads.bind hw hf

theorem onStore {f : Backend → Except Error α × Backend}
    (h : ∀ b : Backend, I b.store → I (f b).2.store) : Keeps I (onStore f) :=
  Leads.onStore (fun _ _ hs _ => h _ hs) fun _ _ hs _ => h _ hs

end Keeps

end Indexing

/-! ## Calls of indexers -/

/-- Whether a call deletes a file, or applies what a file was resolved to under the path of
the file, with any knowledge of other files. -/
def Call.OfFile : Call → Prop
  | .apply record nodes edges => ∃ index f r, Resolve.resolve index f = .ok r ∧
      f.filePath = record.path ∧ r.nodes = nodes ∧ r.edges = edges
  | .delete _ => True
  | .relink => False

/-- Whether the calls that indexers make keep a property of the store, however they end. -/
def KeptByFiles (I : Store → Prop) : Prop :=
  ∀ (b : Backend) (c : Call), I b.store → c.OfFile → I (b.perform c).2.store

/-- What the effects of such calls keep is kept by them, as a call that fails has none. -/
theorem KeptByFiles.of_effect {I : Store → Prop}
    (h : ∀ c s t, I s → c.OfFile → Effect c s t → I t) : KeptByFiles I := by
  intro b c hb hc
  rcases b.perform_cases c with ⟨-, heffect⟩ | ⟨-, hstore⟩
  · exact h c _ _ hb hc heffect
  · rwa [hstore]

/-- What replaces the contribution of a file is what a file was resolved to. -/
def FileChange.OfFile : FileChange → Prop
  | .replace _ record nodes edges => (Call.apply record nodes edges).OfFile
  | .retract _ => True
  | .skip _ _ => True

/-! ## What indexers do -/

namespace Indexer

variable {I : Store → Prop} (i : Indexer)

/-- If a file is to be replaced, then by what it was resolved to. -/
theorem Decided.ofFile {relative : String} {site : Site} {c : FileChange}
    (h : i.Decided relative site (.change c)) : c.OfFile := by
  cases h with
  | replace _ hr => exact ⟨_, _, _, hr, rfl, rfl, rfl⟩
  | retract => trivial
  | skip => trivial

theorem decide_bind_keeps {α : Type} (relative : String) {f : Decision → Indexing α}
    (hdone : ∀ outcome, Keeps I (f (.done outcome)))
    (hchange : ∀ c : FileChange, c.OfFile → Keeps I (f (.change c))) :
    Keeps I (i.decide relative >>= f) := by
  intro s hs
  have hstore : ∀ t, s.Untouched t → I t.site.backend.store := fun t ht => by rwa [ht.1]
  have hdecided := (i.decide_decided relative s).weaken (fun _ ht => ht) (fun _ _ ht => ht) hstore
  refine Leads.bind hdecided (fun d t ht => ?_) s (.refl s)
  cases d with
  | done outcome => exact hdone outcome t (hstore t ht.1)
  | change c => exact hchange c (Decided.ofFile i ht.2) t (hstore t ht.1)

theorem refreshEach_keeps {index : String → Indexing FileOutcome}
    (hindex : ∀ relative, Keeps I (index relative)) (heirs : List String) :
    Keeps I (i.refreshEach index heirs) :=
  refreshEach_leads (fun _ _ hs => hs) hindex heirs

section

variable (hI : KeptByFiles I)

include hI

theorem settle_keeps {refresh : List String → Indexing Unit}
    (hrefresh : ∀ heirs, Keeps I (refresh heirs)) {c : FileChange} (hc : c.OfFile) :
    Keeps I (i.settle refresh c) := by
  refine settle_leads ?_ ?_ (fun _ _ hs => hs) hrefresh fun _ _ hs _ => hs
  · rintro relative record nodes edges rfl
    exact Keeps.onStore fun b hb => hI b (.apply record nodes edges) hb hc
  · exact fun path => Keeps.onStore fun b hb => hI b (.delete path) hb trivial

theorem indexTo_keeps (depth : Nat) (relative : String) : Keeps I (i.indexTo depth relative) := by
  induction depth generalizing relative with
  | zero =>
      exact i.decide_bind_keeps relative (fun _ => .pure _)
        fun c hc => i.settle_keeps hI (fun _ => .pure ()) hc
  | succ depth ih =>
      exact i.decide_bind_keeps relative (fun _ => .pure _)
        fun c hc => i.settle_keeps hI (i.refreshEach_keeps ih) hc

theorem complete_keeps {c : FileChange} (hc : c.OfFile) : Keeps I (i.complete c) := by
  exact .bind enoughDepth_leads fun depth =>
    i.settle_keeps hI (i.refreshEach_keeps (i.indexTo_keeps hI depth)) hc

/-- Bringing a file up to date keeps what calls on the store keep. -/
theorem indexFile_keeps (relative : String) : Keeps I (i.indexFile relative) :=
  i.decide_bind_keeps relative (fun _ => .pure _) fun _ hc => i.complete_keeps hI hc

theorem removeFile_keeps (relative : String) : Keeps I (i.removeFile relative) :=
  i.complete_keeps hI trivial

end

end Indexer

/-! ## Stores of indexers -/

/-- The stores that indexers lead to from an empty one, with any files, trees and
circumstances at any time, and whatever each call reports. -/
inductive Store.Indexed : Store → Prop
  | empty : Store.Indexed .empty
  | index {s : IndexState} (i : Indexer) (relative : String) : s.site.backend.store.Indexed →
      ((i.indexFile relative).run s).2.site.backend.store.Indexed
  | remove {s : IndexState} (i : Indexer) (relative : String) : s.site.backend.store.Indexed →
      ((i.removeFile relative).run s).2.site.backend.store.Indexed

namespace Store.Indexed

variable {s : Store}

theorem keeps {I : Store → Prop} (h : s.Indexed) (hI : KeptByFiles I) (hempty : I .empty) :
    I s := by
  induction h with
  | empty => exact hempty
  | index i relative _ ih => exact (i.indexFile_keeps hI relative).run ih
  | remove i relative _ ih => exact (i.removeFile_keeps hI relative).run ih

end Store.Indexed

/-- What a file is resolved to is told apart by its ids. -/
theorem Resolve.MadeFrom.apart {f : SourceFile} {c : Resolve.FileScope} {index : SymbolIndex}
    {r : Resolution} (h : Resolve.MadeFrom f c index r) (hn : ∀ n ∈ r.nodes, n.Formed) :
    Apart r.nodes r.edges where
  node n hmem := (hn n hmem).isId_eq_false
  edge e hmem := by
    obtain ⟨rel, source, t, span, rfl, -⟩ := h.edge e hmem
    exact Edge.isId_idOf ..

/-- A call of a resolved file leaves nodes that are known by what they are and claimed by the
files that declare them. -/
theorem Upsert.Effect.declared {c : Call} {s t : Store} (h : Effect c s t) (hc : c.OfFile)
    (hs : s.Declared) : t.Declared := by
  cases c with
  | apply record nodes edges =>
      obtain ⟨index, f, r, hr, hpath, rfl, rfl⟩ := hc
      have hmade := Resolve.resolve_madeFrom hr
      have hform := Resolve.nodes_formed hr
      exact (h.changed rfl).declared (hmade.apart hform)
        (fun n hn => ⟨hform n hn, (hmade.nodeFile n hn).trans hpath⟩) hs
  | delete path =>
      exact (h.changed rfl).declared ⟨by simp, by simp⟩ (by simp) hs
  | relink => exact hc.elim

/-- Stores of indexers know their nodes by what they are, and files claim what they
declare. -/
theorem Store.Indexed.declared {s : Store} (h : s.Indexed) : s.Declared :=
  h.keeps (.of_effect fun _ _ _ hs hc heffect => heffect.declared hc hs) .empty

end CodeAtlas
