import CodeAtlas.Proofs.Upsert.Merge
import CodeAtlas.Proofs.Upsert.Retract

/-!
# CodeAtlas.Proofs.Upsert.Change

What replacing the contribution of a file does to a store: stale ids are retracted,
then nodes are merged, and then edges (`Replaced`).

An invariant is shown for the three phases one by one.  Where only the outcome counts,
`Replaced.nodes_get?` and `Replaced.written` say what an id finds afterwards, the
latter with the targets of edges left out.
-/

namespace CodeAtlas

open Work

namespace Upsert

/-! ## Replacing what a file contributes -/

/-- The ids that a file contributed before and does not contribute any more. -/
def staleIds (previous : Option FileRecord) (nodes : List Node) (edges : List Edge) : List String :=
  ((previous.map (·.contributions)).getD []).filter fun id =>
    !(contributionOf nodes edges).contains id

theorem mem_contributionOf {nodes : List Node} {edges : List Edge} {id : String} :
    id ∈ contributionOf nodes edges ↔ (∃ n ∈ nodes, n.id = id) ∨ ∃ e ∈ edges, e.id = id := by
  rw [contributionOf, mem_sortedSet, List.mem_append, List.mem_map, List.mem_map]

theorem mem_staleIds {s : Store} {path : String} {nodes : List Node} {edges : List Edge}
    {id : String} : id ∈ staleIds (s.records.get? path) nodes edges ↔
      s.Claims path id ∧ id ∉ contributionOf nodes edges := by
  rw [staleIds, List.mem_filter, Store.Claims]
  cases s.records.get? path with
  | none => simp
  | some r => simp

/-- What a file contributes was replaced: what is stale was retracted, then the nodes
were merged, and then the edges. -/
def Replaced (path : String) (previous : Option FileRecord) (nodes : List Node) (edges : List Edge)
    (s t : Store) : Prop :=
  ∃ u v, Retracted path (staleIds previous nodes edges) s u ∧ Steps NodeMerged nodes u v ∧
    Steps EdgeMerged edges v t

theorem replace_replaced {path : String} {previous : Option FileRecord} {nodes : List Node}
    {edges : List Edge} {s t : Store} {c : Commit}
    (h : (replace path previous nodes edges).Gives s c t) :
    Replaced path previous nodes edges s t := by
  obtain ⟨a, u, hr, h⟩ := Gives.of_bind h
  obtain ⟨b, v, hn, h⟩ := Gives.of_bind h
  obtain ⟨d, w, he, h⟩ := Gives.of_bind h
  obtain ⟨-, rfl⟩ := Gives.of_pure h
  exact ⟨u, v, retract_retracted hr,
    forAll_steps hn fun _ _ _ _ _ hx => mergeNew_merged hx,
    forAll_steps he fun _ _ _ _ _ hx => mergeValid_merged hx⟩

namespace Replaced

variable {path : String} {previous : Option FileRecord} {nodes : List Node} {edges : List Edge}
  {s t : Store}

theorem records (h : Replaced path previous nodes edges s t) : t.records = s.records := by
  obtain ⟨u, v, hr, hn, he⟩ := h
  rw [he.edges_merged_records, hn.nodes_merged_records, hr.records]

/-- An id finds the given node, what is left of the node that was released, or what
it found. -/
theorem nodes_get? (h : Replaced path previous nodes edges s t) (k : String) :
    (∃ n ∈ nodes, n.id = k ∧ t.nodes.get? k = some n) ∨
      ((∀ n ∈ nodes, n.id ≠ k) ∧ t.nodes.get? k =
        if k ∈ staleIds previous nodes edges ∧ Edge.isId k = false then
          (s.nodes.get? k).bind (released s path)
        else s.nodes.get? k) := by
  obtain ⟨u, v, hr, hn, he⟩ := h
  rw [he.edges_merged_nodes, ← hr.nodes]
  exact hn.nodes_merged k

/-- An id finds the given edge, nothing if it is stale, or what it found, targets
aside. -/
theorem written (h : Replaced path previous nodes edges s t) (k : String) :
    (∃ e ∈ edges, e.id = k ∧ t.written k = some e.unlink) ∨
      ((∀ e ∈ edges, e.id ≠ k) ∧ t.written k =
        if k ∈ staleIds previous nodes edges ∧ Edge.isId k = true then none else s.written k) := by
  obtain ⟨u, v, hr, hn, he⟩ := h
  rcases he.edges_merged k with ⟨e, hmem, hk, ht⟩ | ⟨hne, ht⟩
  · refine Or.inl ⟨e, hmem, hk, ?_⟩
    rw [Store.written, ht, Option.map_some, validIn_unlink]
  · refine Or.inr ⟨hne, ?_⟩
    rw [Store.written, ht, ← Store.written, hn.nodes_merged_written, Store.written, hr.edges]
    split
    · rfl
    · rw [Option.map_map, Store.written]
      congr 1
      funext e
      exact unlinkFrom_unlink s path _ e

theorem formed (h : Replaced path previous nodes edges s t)
    (hnodes : ∀ n ∈ nodes, n.Formed) (hs : ∀ n ∈ s.nodes, n.Formed) : ∀ n ∈ t.nodes, n.Formed := by
  obtain ⟨u, v, hr, hn, he⟩ := h
  rw [he.edges_merged_nodes]
  exact hn.nodes_merged_formed hnodes (hr.formed hs)

/-- A node that does not go leaves a version of it. -/
theorem node_stays (h : Replaced path previous nodes edges s t)
    (hnodes : ∀ n ∈ nodes, n.Formed) (hs : ∀ n ∈ s.nodes, n.Formed) {n : Node}
    (hn : n ∈ s.nodes) (hg : ¬ Goes s path (staleIds previous nodes edges) n.id) :
    ∃ m ∈ t.nodes, n.Alike m := by
  obtain ⟨u, v, hr, hv, he⟩ := h
  obtain ⟨m, hm, ha⟩ := hr.node_stays hn hg
  obtain ⟨m', hm', ha'⟩ := hv.nodes_merged_stays hnodes hm (ha.formed (hs n hn))
  rw [he.edges_merged_nodes]
  exact ⟨m', hm', ha.trans ha'⟩

end Replaced

end Upsert

end CodeAtlas
