import CodeAtlas.Proofs.Upsert.Claims

/-!
# CodeAtlas.Proofs.Upsert.Ownership

Nothing is orphaned and no contribution is lost.

The ids that are stored are those that some record claims.  A node may be claimed by
several files, and its file is always one of them; an edge is claimed by its own file
alone.  `Store.Owned` is the invariant: each claim has what it claims in the store,
and what is stored is claimed by its file.  A change keeps it because a file only
gives up what it claimed, and what another file claims does not go.
-/

namespace CodeAtlas

open Upsert

/-- What is asked of the contribution of a file: its nodes and edges are its own and
have the ids of what they are, its edges start at its nodes unless they say that a
class inherits, and no other file uses the ids of its edges. `owner` tells for the id
of an edge the one file that uses it. -/
structure OwnContribution (owner : String → String) (path : String) (nodes : List Node)
    (edges : List Edge) : Prop where
  formed : ∀ n ∈ nodes, n.Formed
  nodeFile : ∀ n ∈ nodes, n.file = path
  edgeId : ∀ e ∈ edges, e.id = Edge.idOf e.relationship e.source e.targetRef path
  edgeFile : ∀ e ∈ edges, e.file = path
  source : ∀ e ∈ edges, e.relationship ≠ .inherits → ∃ n ∈ nodes, n.id = e.source
  owned : ∀ e ∈ edges, owner e.id = path

/-- What is asked of a call. -/
def Call.Owns (owner : String → String) : Call → Prop
  | .apply record nodes edges => OwnContribution owner record.path nodes edges
  | .delete _ => True
  | .relink => True

/-- What is stored is claimed by its file, and what is claimed is stored. -/
structure Store.Owned (owner : String → String) (s : Store) : Prop where
  formed : ∀ n ∈ s.nodes, n.Formed
  node : ∀ n ∈ s.nodes, s.Claims n.file n.id
  edgeId : ∀ e ∈ s.edges, Edge.isId e.id = true
  edge : ∀ e ∈ s.edges, s.Claims e.file e.id
  source : ∀ e ∈ s.edges, e.relationship ≠ .inherits →
    Edge.isId e.source = false ∧ s.Claims e.file e.source
  nodeStored : ∀ p id, s.Claims p id → Edge.isId id = false → ∃ n ∈ s.nodes, n.id = id
  edgeStored : ∀ p id, s.Claims p id → Edge.isId id = true →
    owner id = p ∧ ∃ e ∈ s.edges, e.id = id

theorem OwnContribution.nil (owner : String → String) (path : String) :
    OwnContribution owner path [] [] := by
  constructor <;> intro x hx <;> exact absurd hx List.not_mem_nil

theorem OwnContribution.apart {owner : String → String} {path : String} {nodes : List Node}
    {edges : List Edge} (h : OwnContribution owner path nodes edges) : Apart nodes edges := by
  refine ⟨fun n hn => (h.formed n hn).isId_eq_false, fun e he => ?_⟩
  rw [h.edgeId e he, Edge.isId_idOf]

namespace Store.Owned

variable {owner : String → String} {s t : Store}

theorem empty (owner : String → String) : Store.Owned owner .empty := by
  have hclaims : ∀ p id, ¬ Store.Claims .empty p id := by
    rintro p id ⟨r, hr, -⟩
    cases hr
  exact ⟨fun n hn => absurd hn (Rows.not_mem_empty n), fun n hn => absurd hn (Rows.not_mem_empty n),
    fun e he => absurd he (Rows.not_mem_empty e), fun e he => absurd he (Rows.not_mem_empty e),
    fun e he => absurd he (Rows.not_mem_empty e), fun p id hc => absurd hc (hclaims p id),
    fun p id hc => absurd hc (hclaims p id)⟩

section Change

variable {path : String} {nodes : List Node} {edges : List Edge}

theorem declared_changed (h : s.Owned owner) (hown : OwnContribution owner path nodes edges)
    (hc : Changed path nodes edges s t) : t.Declared :=
  hc.declared hown.apart (fun n hn => ⟨hown.formed n hn, hown.nodeFile n hn⟩) ⟨h.formed, h.node⟩

/-- The file of an edge still claims it after a change, and its source with it. -/
theorem edge_changed (h : s.Owned owner) (hown : OwnContribution owner path nodes edges)
    (hc : Changed path nodes edges s t) {e : Edge} (he : e ∈ t.edges) :
    Edge.isId e.id = true ∧ t.Claims e.file e.id ∧ (e.relationship ≠ .inherits →
      Edge.isId e.source = false ∧ t.Claims e.file e.source) := by
  rcases hc.edge_cases hown.apart h.edgeId he with ⟨g, hg, hu⟩ | ⟨-, hunclaimed, g, hg, hu⟩
  · obtain ⟨hid, hsource, hrel, -, hfile⟩ := Edge.eq_of_unlink_eq hu
    rw [hown.edgeFile g hg] at hfile
    refine ⟨hid ▸ hown.apart.edge g hg, ?_, fun hinh => ?_⟩
    · rw [← hfile, ← hid]
      exact hc.claims_edge hg
    · obtain ⟨n, hn, hns⟩ := hown.source g hg (hrel ▸ hinh)
      rw [← hfile, ← hsource, ← hns]
      exact ⟨(hown.formed n hn).isId_eq_false, hc.claims_node hn⟩
  · obtain ⟨hid, hsource, hrel, -, hfile⟩ := Edge.eq_of_unlink_eq hu
    have hclaims : s.Claims e.file e.id := by
      rw [← hfile, ← hid]
      exact h.edge g hg
    have hne : e.file ≠ path := fun hf => hunclaimed (hf ▸ hclaims)
    refine ⟨hid ▸ h.edgeId g hg, (hc.claims_other hne).2 hclaims, fun hinh => ?_⟩
    obtain ⟨hshape, hsrc⟩ := h.source g hg (hrel ▸ hinh)
    rw [hfile, hsource] at hsrc
    exact ⟨hsource ▸ hshape, (hc.claims_other hne).2 hsrc⟩

/-- Every node's id that is claimed after a change is stored. -/
theorem nodeStored_changed (h : s.Owned owner) (hown : OwnContribution owner path nodes edges)
    (hc : Changed path nodes edges s t) {p id : String} (hclaims : t.Claims p id)
    (hid : Edge.isId id = false) : ∃ n ∈ t.nodes, n.id = id := by
  by_cases hp : p = path
  · subst hp
    rcases mem_contributionOf.1 ((hc.own id).1 hclaims) with ⟨n, hn, rfl⟩ | ⟨e, he, rfl⟩
    · obtain ⟨m, -, hmid, hm⟩ := hc.node_given hn
      exact ⟨m, hm, hmid⟩
    · rw [hown.apart.edge e he] at hid
      cases hid
  · have hbefore := (hc.claims_other hp).1 hclaims
    obtain ⟨n, hn, rfl⟩ := h.nodeStored p id hbefore hid
    exact hc.node_stays hn hp hbefore

/-- Every edge's id that is claimed after a change is stored, and claimed by the one
file that uses it. -/
theorem edgeStored_changed (h : s.Owned owner) (hown : OwnContribution owner path nodes edges)
    (hc : Changed path nodes edges s t) {p id : String} (hclaims : t.Claims p id)
    (hid : Edge.isId id = true) : owner id = p ∧ ∃ e ∈ t.edges, e.id = id := by
  by_cases hp : p = path
  · subst hp
    rcases mem_contributionOf.1 ((hc.own id).1 hclaims) with ⟨n, hn, rfl⟩ | ⟨e, he, rfl⟩
    · rw [hown.apart.node n hn] at hid
      cases hid
    · obtain ⟨g, -, hgid, e', he', hu⟩ := hc.edge_given he
      exact ⟨hown.owned e he, e', he', (Edge.eq_of_unlink_eq hu).1.trans hgid⟩
  · obtain ⟨howner, e, he, rfl⟩ := h.edgeStored p id ((hc.claims_other hp).1 hclaims) hid
    have hgiven : ∀ g ∈ edges, g.id ≠ e.id := by
      intro g hg hge
      rw [← hge, hown.owned g hg] at howner
      exact hp howner.symm
    have hunclaimed : ¬ s.Claims path e.id := by
      intro hcl
      exact hp (howner.symm.trans (h.edgeStored path e.id hcl hid).1)
    obtain ⟨e', he', hu⟩ := hc.edge_kept hown.apart he hid hgiven hunclaimed
    exact ⟨howner, e', he', (Edge.eq_of_unlink_eq hu).1⟩

theorem changed (h : s.Owned owner) (hown : OwnContribution owner path nodes edges)
    (hc : Changed path nodes edges s t) : t.Owned owner where
  formed := (h.declared_changed hown hc).formed
  node := (h.declared_changed hown hc).claimed
  edgeId _ he := (h.edge_changed hown hc he).1
  edge _ he := (h.edge_changed hown hc he).2.1
  source _ he := (h.edge_changed hown hc he).2.2
  nodeStored _ _ := h.nodeStored_changed hown hc
  edgeStored _ _ := h.edgeStored_changed hown hc

end Change

/-- The sweep changes targets only. -/
theorem relinked (h : s.Owned owner) (hm : EdgesMapped (withTarget s) s t) : t.Owned owner := by
  have hclaims : ∀ p id, t.Claims p id ↔ s.Claims p id := by
    intro p id
    rw [Store.Claims, Store.Claims, hm.records]
  have hold : ∀ e ∈ t.edges, ∃ g ∈ s.edges, g.unlink = e.unlink := by
    intro e he
    obtain ⟨g, hg, rfl⟩ := hm.exists_of_mem he
    exact ⟨g, hg, (withTarget_unlink s g).symm⟩
  constructor
  case formed => exact hm.nodes ▸ h.formed
  case node =>
    intro n hn
    exact (hclaims _ _).2 (h.node n (hm.nodes ▸ hn))
  case edgeId =>
    intro e he
    obtain ⟨g, hg, hu⟩ := hold e he
    exact (Edge.eq_of_unlink_eq hu).1 ▸ h.edgeId g hg
  case edge =>
    intro e he
    obtain ⟨g, hg, hu⟩ := hold e he
    obtain ⟨hid, -, -, -, hfile⟩ := Edge.eq_of_unlink_eq hu
    rw [hclaims, ← hfile, ← hid]
    exact h.edge g hg
  case source =>
    intro e he hinh
    obtain ⟨g, hg, hu⟩ := hold e he
    obtain ⟨-, hsource, hrel, -, hfile⟩ := Edge.eq_of_unlink_eq hu
    rw [hclaims, ← hfile, ← hsource]
    exact h.source g hg (hrel ▸ hinh)
  case nodeStored =>
    intro p id hc hid
    rw [hm.nodes]
    exact h.nodeStored p id ((hclaims p id).1 hc) hid
  case edgeStored =>
    intro p id hc hid
    obtain ⟨howner, e, he, rfl⟩ := h.edgeStored p id ((hclaims p id).1 hc) hid
    have hget : t.edges.get? e.id = some (withTarget s e) := by
      rw [hm.edges, Rows.mem_iff_get?.1 he, Option.map_some]
    have hsame : (withTarget s e).id = e.id := (Edge.eq_of_unlink_eq (withTarget_unlink s e)).1
    exact ⟨howner, withTarget s e, Rows.mem_of_get? hget, hsame⟩

theorem effect {c : Call} (h : s.Owned owner) (hc : c.Owns owner) (he : Effect c s t) :
    t.Owned owner := by
  cases c with
  | apply record nodes edges => exact h.changed hc (he.changed rfl)
  | delete path => exact h.changed (.nil owner path) (he.changed rfl)
  | relink =>
      cases he with
      | relink hm => exact h.relinked hm

end Store.Owned

/-! ## All reachable stores -/

/-- **Nothing is orphaned and nothing is lost** in any store that calls lead to: the
stored ids are the claimed ones, a node's file claims it, an edge is claimed by its
file and no other, and the source of an edge is stored unless the edge says that a
class inherits. -/
theorem no_orphans {owner : String → String} {b : Backend} (h : Reachable (Call.Owns owner) b) :
    (∀ id, ((∃ n ∈ b.store.nodes, n.id = id) ∨ ∃ e ∈ b.store.edges, e.id = id) ↔
        ∃ r ∈ b.store.records, id ∈ r.contributions) ∧
      (∀ n ∈ b.store.nodes, ∃ r ∈ b.store.records, r.path = n.file ∧ n.id ∈ r.contributions) ∧
      (∀ e ∈ b.store.edges, ∃ r ∈ b.store.records, r.path = e.file ∧ e.id ∈ r.contributions ∧
        ∀ r' ∈ b.store.records, e.id ∈ r'.contributions → r' = r) ∧
      ∀ e ∈ b.store.edges, e.relationship ≠ .inherits → ∃ n ∈ b.store.nodes, n.id = e.source := by
  have hs : b.store.Owned owner :=
    h.keeps (Store.Owned.empty owner) fun s c t hs hc he => hs.effect hc he
  refine ⟨fun id => ⟨?_, ?_⟩, fun n hn => Store.claims_iff.1 (hs.node n hn), fun e he => ?_,
    fun e he hinh => ?_⟩
  · rintro (⟨n, hn, rfl⟩ | ⟨e, he, rfl⟩)
    · obtain ⟨r, hr, -, hid⟩ := Store.claims_iff.1 (hs.node n hn)
      exact ⟨r, hr, hid⟩
    · obtain ⟨r, hr, -, hid⟩ := Store.claims_iff.1 (hs.edge e he)
      exact ⟨r, hr, hid⟩
  · rintro ⟨r, hr, hid⟩
    have hc : b.store.Claims r.path id := Store.claims_iff.2 ⟨r, hr, rfl, hid⟩
    cases hshape : Edge.isId id with
    | false => exact Or.inl (hs.nodeStored _ _ hc hshape)
    | true => exact Or.inr (hs.edgeStored _ _ hc hshape).2
  · obtain ⟨r, hr, hpath, hid⟩ := Store.claims_iff.1 (hs.edge e he)
    have howner : ∀ r ∈ b.store.records, e.id ∈ r.contributions → owner e.id = r.path := by
      intro r hr hid
      exact (hs.edgeStored _ _ (Store.claims_iff.2 ⟨r, hr, rfl, hid⟩) (hs.edgeId e he)).1
    have hunique : ∀ r' ∈ b.store.records, e.id ∈ r'.contributions → r' = r := by
      intro r' hr' hid'
      exact Rows.eq_of_key_eq hr' hr ((howner r' hr' hid').symm.trans (howner r hr hid))
    exact ⟨r, hr, hpath, hid, hunique⟩
  · obtain ⟨hshape, hc⟩ := hs.source e he hinh
    exact hs.nodeStored _ _ hc hshape

/-- Two files that define one function, of which the second one also calls it; then the
first one is deleted, and the function passes to the second. -/
def sharedFunction : List Call :=
  [.apply (.plain "a.py") [.plain .module "a" "a" "a.py", .plain .function "f" "m.f" "a.py"]
      [.plain .contains "module:a" "m.f" "a.py"],
    .apply (.plain "b.py") [.plain .module "b" "b" "b.py", .plain .function "f" "m.f" "b.py"]
      [.plain .calls "module:b" "m.f" "b.py"],
    .delete "a.py", .relink]

theorem no_orphans_sharedFunction :
    let s := (Backend.new.performAll sharedFunction).store
    ∀ id, ((∃ n ∈ s.nodes, n.id = id) ∨ ∃ e ∈ s.edges, e.id = id) ↔
      ∃ r ∈ s.records, id ∈ r.contributions := by
  have howns : ∀ c ∈ sharedFunction, c.Owns fun id =>
      if id = "CONTAINS:module:a->m.f@a.py" then "a.py" else "b.py" := by
    intro c hc
    simp only [sharedFunction, List.mem_cons, List.not_mem_nil, or_false] at hc
    rcases hc with rfl | rfl | rfl | rfl
    · constructor <;> decide +kernel
    · constructor <;> decide +kernel
    · trivial
    · trivial
  exact (no_orphans ((Reachable.start rfl).performAll howns)).1

end CodeAtlas
