import CodeAtlas.Proofs.Upsert.Target

/-!
# CodeAtlas.Proofs.Upsert.Merge

What merging a node or an edge does to a store, as a relation between the store before
and after, and what merging all of a list does.

A node that is new is given to the edges that wait for it; an edge is written with the
target that the store has for it (`NodeMerged`, `EdgeMerged`).
-/

namespace CodeAtlas

open Work

namespace Upsert

/-! ## Merging -/

/-- A node was written; if it is new, it was given to the edges that wait for it. -/
structure NodeMerged (n : Node) (s t : Store) : Prop where
  records : t.records = s.records
  nodes : ∀ k, t.nodes.get? k = if n.id = k then some n else s.nodes.get? k
  edges : ∀ k, t.edges.get? k =
    (s.edges.get? k).map fun e => if s.nodes.contains n.id then e else linkedTo t n e

/-- An edge was written, with the target that the store has for it. -/
structure EdgeMerged (e : Edge) (s t : Store) : Prop where
  records : t.records = s.records
  nodes : t.nodes = s.nodes
  edges : ∀ k, t.edges.get? k = if e.id = k then some (validIn t e) else s.edges.get? k

namespace NodeMerged

variable {n : Node} {s t : Store}

theorem mem (h : NodeMerged n s t) : n ∈ t.nodes :=
  Rows.mem_of_get? (k := n.id) (by rw [h.nodes, if_pos rfl])

theorem node_from (h : NodeMerged n s t) {m : Node} (hm : m ∈ t.nodes) :
    m = n ∨ (m.id ≠ n.id ∧ m ∈ s.nodes) := by
  have hget := h.nodes m.id
  rw [Rows.mem_iff_get?.1 hm] at hget
  split at hget
  · exact Or.inl (Option.some.inj hget)
  · next hne => exact Or.inr ⟨fun hid => hne hid.symm, Rows.mem_of_get? hget.symm⟩

/-- A stored node leaves a version of it if all nodes are known by what they are. -/
theorem node_stays (h : NodeMerged n s t) (hform : n.Formed) {m : Node} (hm : m ∈ s.nodes)
    (hmf : m.Formed) : ∃ m' ∈ t.nodes, m.Alike m' := by
  by_cases hid : n.id = m.id
  · exact ⟨n, h.mem, hmf.alike hform hid⟩
  · have hget := h.nodes m.id
    rw [if_neg hid, Rows.mem_iff_get?.1 hm] at hget
    exact ⟨m, Rows.mem_of_get? hget, Node.Alike.refl m⟩

theorem formed (h : NodeMerged n s t) (hform : n.Formed) (hs : ∀ m ∈ s.nodes, m.Formed) :
    ∀ m ∈ t.nodes, m.Formed := by
  intro m hm
  rcases h.node_from hm with rfl | ⟨-, hold⟩
  · exact hform
  · exact hs m hold

/-- What an edge means afterwards it meant before, unless that is the node that came. -/
theorem means_from (h : NodeMerged n s t) (hform : n.Formed) (hs : ∀ m ∈ s.nodes, m.Formed)
    {e : Edge} {m : Node} (hm : m ∈ t.nodes) (hmeans : e.Means m) :
    (∃ m' ∈ s.nodes, e.Means m') ∨ (s.nodes.contains n.id = false ∧ e.Means n) := by
  rcases h.node_from hm with rfl | ⟨-, hold⟩
  · cases hin : s.nodes.contains m.id with
    | false => exact Or.inr ⟨rfl, hmeans⟩
    | true =>
        obtain ⟨m', hm', hid⟩ := Rows.contains_iff.1 hin
        exact Or.inl ⟨m', hm', hmeans.alike (hform.alike (hs m' hm') hid)⟩
  · exact Or.inl ⟨m, hold, hmeans⟩

/-- An edge is as it was if the node was there, and may be linked to it if not. -/
theorem edge_from (h : NodeMerged n s t) {e : Edge} (he : e ∈ t.edges) :
    ∃ old ∈ s.edges, (s.nodes.contains n.id = true ∧ e = old) ∨
      (s.nodes.contains n.id = false ∧ e = linkedTo t n old) := by
  have hget := h.edges e.id
  rw [Rows.mem_iff_get?.1 he] at hget
  obtain ⟨old, hold, hu⟩ := Option.map_eq_some_iff.1 hget.symm
  refine ⟨old, Rows.mem_of_get? hold, ?_⟩
  split at hu
  · next hin => exact Or.inl ⟨hin, hu.symm⟩
  · next hin => exact Or.inr ⟨by simpa using hin, hu.symm⟩

end NodeMerged

theorem EdgeMerged.edge_from {e : Edge} {s t : Store} (h : EdgeMerged e s t) {e' : Edge}
    (he' : e' ∈ t.edges) : e' = validIn t e ∨ e' ∈ s.edges := by
  have hget := h.edges e'.id
  rw [Rows.mem_iff_get?.1 he'] at hget
  split at hget
  · exact Or.inl (Option.some.inj hget)
  · exact Or.inr (Rows.mem_of_get? hget.symm)

theorem mergeNew_merged {n : Node} {s t : Store} {c : Commit} (h : (mergeNew n).Gives s c t) :
    NodeMerged n s t := by
  obtain ⟨m, u, hm, hrest⟩ := Gives.of_bind h
  obtain ⟨hcreated, hu⟩ := Gives.of_change hm
  have hrecords : u.records = s.records := by rw [hu, Store.mergeNode_records]
  have hedges : u.edges = s.edges := by rw [hu, Store.mergeNode_edges]
  have hnodes : ∀ k, u.nodes.get? k = if n.id = k then some n else s.nodes.get? k := by
    rw [hu]
    exact Store.get?_mergeNode s n
  -- A node that is there already is merged without a further step.
  have hold : m ≠ .created → NodeMerged n s u := by
    intro hne
    have hin : s.nodes.contains n.id = true := by
      cases hget : s.nodes.get? n.id with
      | none => exact absurd (hcreated.trans (Store.mergeNode_eq_created_iff.2 hget)) hne
      | some old => rw [Rows.contains_eq_isSome, hget, Option.isSome_some]
    have hkeep : ∀ k, u.edges.get? k =
        (s.edges.get? k).map fun e => if s.nodes.contains n.id then e else linkedTo u n e := by
      intro k
      simp only [hedges, hin, if_true, Option.map_id']
    exact ⟨hrecords, hnodes, hkeep⟩
  split at hrest
  · obtain ⟨linked, v, hl, hdone⟩ := Gives.of_bind hrest
    obtain ⟨-, rfl⟩ := Gives.of_pure hdone
    have hmap := linkWaiting_mapped hl
    have hnew : s.nodes.contains n.id = false := by
      rw [Rows.contains_eq_isSome, Store.mergeNode_eq_created_iff.1 hcreated.symm,
        Option.isSome_none]
    refine ⟨hmap.records.trans hrecords, fun k => by rw [hmap.nodes, hnodes], fun k => ?_⟩
    rw [hmap.edges, hedges]
    simp only [hnew, linkedTo_congr hmap.nodes, Bool.false_eq_true, if_false]
  · obtain ⟨-, rfl⟩ := Gives.of_pure hrest
    exact hold (by simp)
  · obtain ⟨-, rfl⟩ := Gives.of_pure hrest
    exact hold (by simp)

theorem mergeValid_merged {e : Edge} {s t : Store} {c : Commit} (h : (mergeValid e).Gives s c t) :
    EdgeMerged e s t := by
  obtain ⟨e', u, hv, hrest⟩ := Gives.of_bind h
  obtain ⟨he', hu⟩ := Gives.validate hv
  rw [he', hu] at hrest
  obtain ⟨m, v, hm, hrest⟩ := Gives.of_bind hrest
  obtain ⟨-, hv⟩ := Gives.of_change hm
  have ht : t = v := by
    split at hrest <;> exact (Gives.of_pure hrest).2
  have hnodes : v.nodes = s.nodes := by rw [hv, Store.mergeEdge_nodes]
  rw [ht]
  refine ⟨by rw [hv, Store.mergeEdge_records], hnodes, fun k => ?_⟩
  rw [validIn_congr hnodes, hv, Store.get?_mergeEdge, validIn_id]

end Upsert

/-! ## Merging all nodes, or all edges -/

namespace Steps

open Upsert

/-- The given node that a key stands for is found, and the last one of several. -/
theorem nodes_merged {ns : List Node} {s t : Store} (h : Steps NodeMerged ns s t) (k : String) :
    (∃ n ∈ ns, n.id = k ∧ t.nodes.get? k = some n) ∨
      ((∀ n ∈ ns, n.id ≠ k) ∧ t.nodes.get? k = s.nodes.get? k) := by
  induction h with
  | nil s => exact Or.inr ⟨fun n hn => absurd hn List.not_mem_nil, rfl⟩
  | @cons x xs s u t hx _ ih =>
      rcases ih with ⟨n, hn, hk, ht⟩ | ⟨hne, ht⟩
      · exact Or.inl ⟨n, List.mem_cons_of_mem x hn, hk, ht⟩
      · rw [ht, hx.nodes]
        by_cases hk : x.id = k
        · exact Or.inl ⟨x, List.mem_cons_self, hk, if_pos hk⟩
        · have hnone : ∀ n ∈ x :: xs, n.id ≠ k := List.forall_mem_cons.2 ⟨hk, hne⟩
          exact Or.inr ⟨hnone, if_neg hk⟩

theorem nodes_merged_records {ns : List Node} {s t : Store} (h : Steps NodeMerged ns s t) :
    t.records = s.records :=
  h.keep (I := fun u => u.records = s.records) (fun _ _ _ _ hx hu => hx.records.trans hu) rfl

theorem nodes_merged_written {ns : List Node} {s t : Store} (h : Steps NodeMerged ns s t) :
    ∀ k, t.written k = s.written k := by
  refine h.keep (I := fun u => ∀ k, u.written k = s.written k) (fun n _ u v hx hu k => ?_)
    fun _ => rfl
  rw [← hu, Store.written, Store.written, hx.edges, Option.map_map]
  congr 1
  funext e
  simp only [Function.comp_apply]
  split
  · rfl
  · exact linkedTo_unlink v n e

theorem nodes_merged_formed {ns : List Node} {s t : Store} (h : Steps NodeMerged ns s t)
    (hns : ∀ n ∈ ns, n.Formed) (hs : ∀ n ∈ s.nodes, n.Formed) : ∀ n ∈ t.nodes, n.Formed :=
  h.keep (I := fun u => ∀ n ∈ u.nodes, n.Formed) (fun n hn _ _ hm hu => hm.formed (hns n hn) hu) hs

/-- A stored node leaves a version of it. -/
theorem nodes_merged_stays {ns : List Node} {s t : Store} (h : Steps NodeMerged ns s t)
    (hns : ∀ n ∈ ns, n.Formed) {m : Node} (hm : m ∈ s.nodes) (hform : m.Formed) :
    ∃ m' ∈ t.nodes, m.Alike m' := by
  refine h.keep (I := fun u => ∃ m' ∈ u.nodes, m.Alike m') (fun n hn u v huv hu => ?_)
    ⟨m, hm, Node.Alike.refl m⟩
  obtain ⟨m', hm', ha⟩ := hu
  obtain ⟨m'', hm'', ha'⟩ := huv.node_stays (hns n hn) hm' (ha.formed hform)
  exact ⟨m'', hm'', ha.trans ha'⟩

theorem edges_merged_nodes {es : List Edge} {s t : Store} (h : Steps EdgeMerged es s t) :
    t.nodes = s.nodes :=
  h.keep (I := fun u => u.nodes = s.nodes) (fun _ _ _ _ hx hu => hx.nodes.trans hu) rfl

theorem edges_merged_records {es : List Edge} {s t : Store} (h : Steps EdgeMerged es s t) :
    t.records = s.records :=
  h.keep (I := fun u => u.records = s.records) (fun _ _ _ _ hx hu => hx.records.trans hu) rfl

/-- The given edge that a key stands for is found, with the target that it has now. -/
theorem edges_merged {es : List Edge} {s t : Store} (h : Steps EdgeMerged es s t) (k : String) :
    (∃ e ∈ es, e.id = k ∧ t.edges.get? k = some (validIn t e)) ∨
      ((∀ e ∈ es, e.id ≠ k) ∧ t.edges.get? k = s.edges.get? k) := by
  induction h with
  | nil s => exact Or.inr ⟨fun e he => absurd he List.not_mem_nil, rfl⟩
  | @cons x xs s u t hx hxs ih =>
      rcases ih with ⟨e, he, hk, ht⟩ | ⟨hne, ht⟩
      · exact Or.inl ⟨e, List.mem_cons_of_mem x he, hk, ht⟩
      · rw [ht, hx.edges, ← validIn_congr hxs.edges_merged_nodes]
        by_cases hk : x.id = k
        · exact Or.inl ⟨x, List.mem_cons_self, hk, if_pos hk⟩
        · have hnone : ∀ e ∈ x :: xs, e.id ≠ k := List.forall_mem_cons.2 ⟨hk, hne⟩
          exact Or.inr ⟨hnone, if_neg hk⟩

end Steps

end CodeAtlas
