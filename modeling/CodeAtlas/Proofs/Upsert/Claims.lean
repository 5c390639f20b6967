import CodeAtlas.Proofs.Graph.Ids
import CodeAtlas.Proofs.Upsert.Calls

/-!
# CodeAtlas.Proofs.Upsert.Claims

What a file claims before and after its contribution changed.

A call that applies a contribution and one that deletes a file have one thing in
common: what the file claimed is given up, and what is given now is claimed
(`Changed`; nothing is given to a file that is deleted).  The lemmas here say for a
stored node or edge where it comes from and what becomes of it, with the targets of
edges left out: a node is a given one, or one that the file did not claim, or one
that it released.
-/

namespace CodeAtlas

/-- The stored nodes are known by what they are, and the file that declares a node claims
it. -/
structure Store.Declared (s : Store) : Prop where
  formed : ∀ n ∈ s.nodes, n.Formed
  claimed : ∀ n ∈ s.nodes, s.Claims n.file n.id

theorem Store.Declared.empty : Store.Declared .empty :=
  ⟨fun n hn => absurd hn (Rows.not_mem_empty n), fun n hn => absurd hn (Rows.not_mem_empty n)⟩

namespace Upsert

/-- The ids of nodes and edges are told apart by their shape. -/
structure Apart (nodes : List Node) (edges : List Edge) : Prop where
  node : ∀ n ∈ nodes, Edge.isId n.id = false
  edge : ∀ e ∈ edges, Edge.isId e.id = true

/-- The contribution of a file was replaced by nodes and edges, and so was what its
record claims.  Targets of edges are left out. -/
structure Changed (path : String) (nodes : List Node) (edges : List Edge) (s t : Store) : Prop where
  own : ∀ id, t.Claims path id ↔ id ∈ contributionOf nodes edges
  other : ∀ p, p ≠ path → t.records.get? p = s.records.get? p
  node : ∀ k, (∃ n ∈ nodes, n.id = k ∧ t.nodes.get? k = some n) ∨
    ((∀ n ∈ nodes, n.id ≠ k) ∧ t.nodes.get? k =
      if k ∈ staleIds (s.records.get? path) nodes edges ∧ Edge.isId k = false then
        (s.nodes.get? k).bind (released s path)
      else s.nodes.get? k)
  written : ∀ k, (∃ e ∈ edges, e.id = k ∧ t.written k = some e.unlink) ∨
    ((∀ e ∈ edges, e.id ≠ k) ∧ t.written k =
      if k ∈ staleIds (s.records.get? path) nodes edges ∧ Edge.isId k = true then none
      else s.written k)

/-- After a call the record of its file claims what was given, if anything was. -/
theorem Effect.claims_own {c : Call} {path : String} {nodes : List Node} {edges : List Edge}
    {s t : Store} (h : Effect c s t) (hg : c.given? = some (path, nodes, edges)) (id : String) :
    t.Claims path id ↔ id ∈ contributionOf nodes edges := by
  cases h with
  | @apply record nodes edges _ u hr =>
      cases hg
      obtain ⟨r, hget, hiff⟩ := recorded_own u record nodes edges
      simp only [Store.Claims, hget, Option.some.injEq, exists_eq_left', hiff]
  | @delete path previous _ u hp hr =>
      cases hg
      rw [mem_contributionOf, Store.Claims, Store.deleteRecord, Rows.get?_erase, if_pos rfl]
      simp
  | deleteUnknown hp =>
      cases hg
      rw [mem_contributionOf, Store.Claims, hp]
      simp
  | relink _ => cases hg

/-- A call leaves the records of all other files. -/
theorem Effect.records_other {c : Call} {path p : String} {nodes : List Node} {edges : List Edge}
    {s t : Store} (h : Effect c s t) (hg : c.given? = some (path, nodes, edges)) (hp : p ≠ path) :
    t.records.get? p = s.records.get? p := by
  cases h with
  | @apply record nodes edges _ u hr =>
      cases hg
      rw [recorded_other hp, hr.records]
  | @delete path previous _ u _ hr =>
      cases hg
      rw [Store.deleteRecord, Rows.get?_erase, if_neg hp, hr.records]
  | deleteUnknown _ => rfl
  | relink _ => cases hg

theorem Effect.changed {c : Call} {path : String} {nodes : List Node} {edges : List Edge}
    {s t : Store} (h : Effect c s t) (hg : c.given? = some (path, nodes, edges)) :
    Changed path nodes edges s t := by
  obtain ⟨u, hr, hn, he⟩ := h.replaced hg
  refine ⟨h.claims_own hg, fun p hp => h.records_other hg hp, fun k => ?_, fun k => ?_⟩
  · rw [hn]
    exact hr.nodes_get? k
  · rw [Store.written, he]
    exact hr.written k

namespace Changed

variable {path : String} {nodes : List Node} {edges : List Edge} {s t : Store}

/-- The claims of all other files stay. -/
theorem claims_other (h : Changed path nodes edges s t) {p id : String} (hp : p ≠ path) :
    t.Claims p id ↔ s.Claims p id := by
  rw [Store.Claims, Store.Claims, h.other p hp]

theorem claims_node (h : Changed path nodes edges s t) {n : Node} (hn : n ∈ nodes) :
    t.Claims path n.id :=
  (h.own n.id).2 (mem_contributionOf.2 (Or.inl ⟨n, hn, rfl⟩))

theorem claims_edge (h : Changed path nodes edges s t) {e : Edge} (he : e ∈ edges) :
    t.Claims path e.id :=
  (h.own e.id).2 (mem_contributionOf.2 (Or.inr ⟨e, he, rfl⟩))

/-! ### Nodes -/

theorem node_given (h : Changed path nodes edges s t) {n : Node} (hn : n ∈ nodes) :
    ∃ m ∈ nodes, m.id = n.id ∧ m ∈ t.nodes := by
  rcases h.node n.id with ⟨m, hm, hid, hget⟩ | ⟨hne, -⟩
  · exact ⟨m, hm, hid, Rows.mem_of_get? hget⟩
  · exact absurd rfl (hne n hn)

/-- A node's id that is not given is stale exactly if the file claimed it. -/
theorem stale_node_iff (ha : Apart nodes edges) {k : String} (hk : Edge.isId k = false)
    (hne : ∀ n ∈ nodes, n.id ≠ k) :
    (k ∈ staleIds (s.records.get? path) nodes edges ∧ Edge.isId k = false) ↔ s.Claims path k := by
  have hfresh : k ∉ contributionOf nodes edges := by
    rw [mem_contributionOf]
    rintro (⟨n, hn, hid⟩ | ⟨e, he, rfl⟩)
    · exact hne n hn hid
    · rw [ha.edge e he] at hk
      cases hk
  rw [mem_staleIds]
  exact ⟨fun hs => hs.1.1, fun hc => ⟨⟨hc, hfresh⟩, hk⟩⟩

/-- A stored node is a given one, one that the file did not claim, or what is left of
one that the file released. -/
theorem node_cases (h : Changed path nodes edges s t) (ha : Apart nodes edges)
    (hs : ∀ n ∈ s.nodes, Edge.isId n.id = false) {n : Node} (hn : n ∈ t.nodes) :
    n ∈ nodes ∨ ((∀ m ∈ nodes, m.id ≠ n.id) ∧ ((¬ s.Claims path n.id ∧ n ∈ s.nodes) ∨
      (s.Claims path n.id ∧ ∃ old ∈ s.nodes, released s path old = some n))) := by
  have hget := Rows.mem_iff_get?.1 hn
  rcases h.node n.id with ⟨m, hm, -, hm'⟩ | ⟨hne, ht⟩
  · rw [hget, Option.some.injEq] at hm'
    exact Or.inl (hm' ▸ hm)
  · refine Or.inr ⟨hne, ?_⟩
    rw [hget] at ht
    split at ht
    · next hstale =>
      obtain ⟨old, hold, hrel⟩ := Option.bind_eq_some_iff.1 ht.symm
      exact Or.inr ⟨(mem_staleIds.1 hstale.1).1, old, Rows.mem_of_get? hold, hrel⟩
    · next hstale =>
      have hmem : n ∈ s.nodes := Rows.mem_of_get? ht.symm
      have hunclaimed : ¬ s.Claims path n.id :=
        fun hc => hstale ((stale_node_iff ha (hs n hmem) hne).2 hc)
      exact Or.inl ⟨hunclaimed, hmem⟩

/-- The file of a node still claims it after a change. -/
theorem declared (h : Changed path nodes edges s t) (ha : Apart nodes edges)
    (hnodes : ∀ n ∈ nodes, n.Formed ∧ n.file = path) (hs : s.Declared) : t.Declared := by
  suffices H : ∀ n ∈ t.nodes, n.Formed ∧ t.Claims n.file n.id from
    ⟨fun n hn => (H n hn).1, fun n hn => (H n hn).2⟩
  intro n hn
  rcases h.node_cases ha (fun m hm => (hs.formed m hm).isId_eq_false) hn with
    hgiven | ⟨-, ⟨hunclaimed, hold⟩ | ⟨-, old, hold, hrel⟩⟩
  · obtain ⟨hform, hfile⟩ := hnodes n hgiven
    rw [hfile]
    exact ⟨hform, h.claims_node hgiven⟩
  · have hfile : n.file ≠ path := fun hf => hunclaimed (hf ▸ hs.claimed n hold)
    exact ⟨hs.formed n hold, (h.claims_other hfile).2 (hs.claimed n hold)⟩
  · refine ⟨(released_alike hrel).formed (hs.formed old hold), ?_⟩
    -- The node passed to an heir, or was declared by another file all along.
    obtain ⟨heir, hheir, rfl⟩ | ⟨rfl, hfile⟩ := released_spec hrel
    · obtain ⟨hne, hclaims⟩ := Store.mem_otherClaimants.1 hheir
      exact (h.claims_other hne).2 hclaims
    · exact (h.claims_other hfile).2 (hs.claimed n hold)

/-- A node that the file does not claim and that is not given stays as it is. -/
theorem node_kept (h : Changed path nodes edges s t) (ha : Apart nodes edges) {n : Node}
    (hn : n ∈ s.nodes) (hid : Edge.isId n.id = false) (hne : ∀ m ∈ nodes, m.id ≠ n.id)
    (hc : ¬ s.Claims path n.id) : n ∈ t.nodes := by
  rcases h.node n.id with ⟨m, hm, hmid, -⟩ | ⟨-, ht⟩
  · exact absurd hmid (hne m hm)
  · have hfresh := mt (stale_node_iff ha hid hne).1 hc
    rw [if_neg hfresh] at ht
    rw [Rows.mem_iff_get?, ht, Rows.mem_iff_get?.1 hn]

/-- A node that another file claims is stored afterwards. -/
theorem node_stays (h : Changed path nodes edges s t) {n : Node} {p : String} (hn : n ∈ s.nodes)
    (hp : p ≠ path) (hc : s.Claims p n.id) : ∃ m ∈ t.nodes, m.id = n.id := by
  rcases h.node n.id with ⟨m, -, hid, hget⟩ | ⟨-, ht⟩
  · exact ⟨m, Rows.mem_of_get? hget, hid⟩
  · rw [Rows.mem_iff_get?.1 hn, Option.bind_some] at ht
    split at ht
    · cases hrel : released s path n with
      | none =>
          have hmem := Store.mem_otherClaimants.2 ⟨hp, hc⟩
          rw [released_eq_none_iff.1 hrel] at hmem
          exact absurd hmem List.not_mem_nil
      | some m =>
          rw [hrel] at ht
          exact ⟨m, Rows.mem_of_get? ht, (released_alike hrel).1⟩
    · exact ⟨n, Rows.mem_of_get? ht, rfl⟩

/-! ### Edges -/

theorem edge_given (h : Changed path nodes edges s t) {e : Edge} (he : e ∈ edges) :
    ∃ g ∈ edges, g.id = e.id ∧ ∃ e' ∈ t.edges, e'.unlink = g.unlink := by
  rcases h.written e.id with ⟨g, hg, hid, hw⟩ | ⟨hne, -⟩
  · obtain ⟨e', he', -, hu⟩ := Store.mem_of_written hw
    exact ⟨g, hg, hid, e', he', hu⟩
  · exact absurd rfl (hne e he)

/-- An edge's id that is not given is stale exactly if the file claimed it. -/
theorem stale_edge_iff (ha : Apart nodes edges) {k : String} (hk : Edge.isId k = true)
    (hne : ∀ e ∈ edges, e.id ≠ k) :
    (k ∈ staleIds (s.records.get? path) nodes edges ∧ Edge.isId k = true) ↔ s.Claims path k := by
  have hfresh : k ∉ contributionOf nodes edges := by
    rw [mem_contributionOf]
    rintro (⟨n, hn, rfl⟩ | ⟨e, he, hid⟩)
    · rw [ha.node n hn] at hk
      cases hk
    · exact hne e he hid
  rw [mem_staleIds]
  exact ⟨fun hs => hs.1.1, fun hc => ⟨⟨hc, hfresh⟩, hk⟩⟩

/-- A stored edge was given, or it was stored before and the file did not claim it. -/
theorem edge_cases (h : Changed path nodes edges s t) (ha : Apart nodes edges)
    (hs : ∀ e ∈ s.edges, Edge.isId e.id = true) {e : Edge} (he : e ∈ t.edges) :
    (∃ g ∈ edges, g.unlink = e.unlink) ∨ ((∀ g ∈ edges, g.id ≠ e.id) ∧ ¬ s.Claims path e.id ∧
      ∃ old ∈ s.edges, old.unlink = e.unlink) := by
  have hw := Store.written_of_mem he
  rcases h.written e.id with ⟨g, hg, -, hg'⟩ | ⟨hne, ht⟩
  · rw [hw, Option.some.injEq] at hg'
    exact Or.inl ⟨g, hg, hg'.symm⟩
  · refine Or.inr ⟨hne, ?_⟩
    rw [hw] at ht
    split at ht
    · cases ht
    · next hstale =>
      obtain ⟨old, hold, hid, hu⟩ := Store.mem_of_written ht.symm
      have hshape : Edge.isId e.id = true := by
        rw [← hid]
        exact hs old hold
      have hunclaimed : ¬ s.Claims path e.id :=
        fun hc => hstale ((stale_edge_iff ha hshape hne).2 hc)
      exact ⟨hunclaimed, old, hold, hu⟩

/-- An edge that the file does not claim and that is not given stays, maybe with
another target. -/
theorem edge_kept (h : Changed path nodes edges s t) (ha : Apart nodes edges) {e : Edge}
    (he : e ∈ s.edges) (hid : Edge.isId e.id = true) (hne : ∀ g ∈ edges, g.id ≠ e.id)
    (hc : ¬ s.Claims path e.id) : ∃ e' ∈ t.edges, e'.unlink = e.unlink := by
  rcases h.written e.id with ⟨g, hg, hgid, -⟩ | ⟨-, ht⟩
  · exact absurd hgid (hne g hg)
  · have hfresh := mt (stale_edge_iff ha hid hne).1 hc
    rw [if_neg hfresh, Store.written_of_mem he] at ht
    obtain ⟨e', he', -, hu⟩ := Store.mem_of_written ht
    exact ⟨e', he', hu⟩

end Changed

end Upsert

end CodeAtlas
