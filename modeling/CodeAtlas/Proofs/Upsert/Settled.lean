import CodeAtlas.Proofs.Upsert.Change

/-!
# CodeAtlas.Proofs.Upsert.Settled

Edges that have the targets that they mean.

If all edges wait for qualified names and no two nodes share one, an edge means at most
one node, and has it for its target as long as it is stored.  Retracting keeps this
because the node that goes was the only one that the edges to it mean; merging keeps it
whatever the names.
-/

namespace CodeAtlas

open Upsert

/-- What is asked of the target of an edge that is handed in: it waits, or it points at
the id of what it asks for. -/
def Edge.Aimed (e : Edge) : Prop :=
  (e.target = none ∧ e.confidence = .unresolved) ∨
    ∃ k, e.target = some (Node.idOf k e.targetRef) ∧ e.relationship.accepts k = true ∧
      e.confidence = .resolved

/-- An edge points at a node that it means, or it waits and there is none. -/
def Edge.SettledIn (s : Store) (e : Edge) : Prop :=
  (∃ n ∈ s.nodes, e.Means n ∧ e.target = some n.id ∧ e.confidence = .resolved) ∨
    ((∀ n ∈ s.nodes, ¬ e.Means n) ∧ e.target = none ∧ e.confidence = .unresolved)

/-- All edges wait for qualified names, and have the targets that they mean. -/
structure Store.Settled (s : Store) : Prop where
  formed : ∀ n ∈ s.nodes, n.Formed
  qualified : ∀ e ∈ s.edges, e.waitsQualified = true
  settled : ∀ e ∈ s.edges, e.SettledIn s

/-! ## One edge -/

namespace Edge.SettledIn

variable {s t : Store} {e : Edge}

/-- An edge that points at a node it means is settled where a version of that is stored. -/
theorem of_alike {n m : Node} (hm : m ∈ t.nodes) (ha : n.Alike m) (hmeans : e.Means n)
    (ht : e.target = some n.id) (hc : e.confidence = .resolved) : e.SettledIn t := by
  have htarget : e.target = some m.id := by rw [ht, ha.1]
  exact Or.inl ⟨m, hm, hmeans.alike ha, htarget, hc⟩

/-- The target that is found for an edge is the one that it means. -/
theorem withTarget (hq : e.waitsQualified = true) (ht : e.target = none)
    (hc : e.confidence = .unresolved) : (withTarget s e).SettledIn s := by
  have hr : ¬ e.isResolved = true := by
    rw [Edge.isResolved, ht]
    exact Bool.false_ne_true
  rw [Upsert.withTarget, if_neg hr]
  split
  · next id c hid =>
    obtain ⟨n, hn, rfl, hacc, ⟨-, rfl, hname⟩ | ⟨hnq, -⟩⟩ := targetIn_spec hid
    · exact Or.inl ⟨n, hn, ⟨hname, hacc⟩, rfl, rfl⟩
    · rw [hq] at hnq
      cases hnq
  · next hnone => exact Or.inr ⟨(targetIn_eq_none_iff hq).1 hnone, ht, hc⟩

/-- An edge that is handed in is settled once it was validated. -/
theorem validIn (hs : ∀ n ∈ s.nodes, n.Formed) (hq : e.waitsQualified = true) (haim : e.Aimed) :
    (validIn s e).SettledIn s := by
  rw [Upsert.validIn]
  split
  · next hstored =>
    rcases haim with ⟨ht, hc⟩ | ⟨k, ht, hacc, hc⟩
    · exact withTarget hq ht hc
    · rw [ht, Option.all_some, Rows.contains_iff] at hstored
      obtain ⟨n, hn, hid⟩ := hstored
      obtain ⟨hkind, hname⟩ := Node.idOf_inj ((hs n hn).symm.trans hid)
      have hr : e.isResolved = true := by
        rw [Edge.isResolved, ht]
        rfl
      rw [Upsert.withTarget, if_pos hr]
      have hmeans : e.Means n := ⟨hname, hkind ▸ hacc⟩
      exact Or.inl ⟨n, hn, hmeans, by rw [ht, hid], hc⟩
  · exact withTarget hq rfl rfl

section Retracted

variable {path : String} {stale : List String}

/-- An edge whose target goes means nothing that is left: names are not shared, so the
node that goes was the only one that it meant. -/
theorem unlinked (h : e.SettledIn s)
    (hnames : ∀ n ∈ s.nodes, ∀ m ∈ s.nodes, n.qualifiedName = m.qualifiedName → n = m)
    (hr : Retracted path stale s t) {d : String} (hd : e.target = some d)
    (hgoes : Goes s path stale d) : e.unlink.SettledIn t := by
  have hnone : ∀ n ∈ t.nodes, ¬ e.unlink.Means n := by
    intro n hn hm
    obtain ⟨m, hmem, hmm, hstays⟩ := hr.means_from hn hm
    obtain ⟨n', hn', hmn', ht, -⟩ | ⟨-, ht, -⟩ := h
    · rw [ht, Option.some.injEq] at hd
      have heq : m = n' := hnames m hmem n' hn' (hmm.1.trans hmn'.1.symm)
      rw [heq, hd] at hstays
      exact hstays hgoes
    · rw [ht] at hd
      cases hd
  exact Or.inr ⟨hnone, rfl, rfl⟩

/-- An edge whose target does not go stays settled. -/
theorem kept (h : e.SettledIn s) (hr : Retracted path stale s t)
    (hstays : ∀ d, e.target = some d → ¬ Goes s path stale d) : e.SettledIn t := by
  obtain ⟨n, hn, hmeans, ht, hc⟩ | ⟨hnone, ht, hc⟩ := h
  · obtain ⟨m, hm, ha⟩ := hr.node_stays hn (hstays n.id ht)
    exact of_alike hm ha hmeans ht hc
  · have hstill : ∀ n ∈ t.nodes, ¬ e.Means n := by
      intro n hn hm
      obtain ⟨m, hmem, hmm, -⟩ := hr.means_from hn hm
      exact hnone m hmem hmm
    exact Or.inr ⟨hstill, ht, hc⟩

end Retracted

section NodeMerged

variable {n : Node}

/-- A node that is stored already changes nothing for an edge. -/
theorem nodeStored (h : e.SettledIn s) (hform : n.Formed) (hs : ∀ m ∈ s.nodes, m.Formed)
    (hm : NodeMerged n s t) (hin : s.nodes.contains n.id = true) : e.SettledIn t := by
  obtain ⟨m, hmem, hmeans, ht, hc⟩ | ⟨hnone, ht, hc⟩ := h
  · obtain ⟨m', hm', ha⟩ := hm.node_stays hform hmem (hs m hmem)
    exact of_alike hm' ha hmeans ht hc
  · have hstill : ∀ m ∈ t.nodes, ¬ e.Means m := by
      intro m hmem hmeans
      obtain ⟨m', hm', hmm'⟩ | ⟨hnew, -⟩ := hm.means_from hform hs hmem hmeans
      · exact hnone m' hm' hmm'
      · rw [hin] at hnew
        cases hnew
    exact Or.inr ⟨hstill, ht, hc⟩

/-- A node that is new is given to an edge that means it, and to no other one. -/
theorem linkedTo (h : e.SettledIn s) (hq : e.waitsQualified = true) (hform : n.Formed)
    (hsimple : isQualified n.name = false) (hs : ∀ m ∈ s.nodes, m.Formed)
    (hm : NodeMerged n s t) : (linkedTo t n e).SettledIn t := by
  rw [linkedTo_of_simple hq hsimple]
  obtain ⟨m, hmem, hmeans, ht, hc⟩ | ⟨hnone, ht, hc⟩ := h
  · obtain ⟨m', hm', ha⟩ := hm.node_stays hform hmem (hs m hmem)
    rw [ht, Option.isSome_some, if_pos rfl]
    exact of_alike hm' ha hmeans ht hc
  · rw [ht, Option.isSome_none, if_neg Bool.false_ne_true]
    split
    · next hmn => exact Or.inl ⟨n, hm.mem, hmn, rfl, rfl⟩
    · next hmn =>
      have hstill : ∀ m ∈ t.nodes, ¬ e.Means m := by
        intro m hmem hmeans
        obtain ⟨m', hm', hmm'⟩ | ⟨-, hmeans'⟩ := hm.means_from hform hs hmem hmeans
        · exact hnone m' hm' hmm'
        · exact hmn hmeans'
      exact Or.inr ⟨hstill, ht, hc⟩

end NodeMerged

end Edge.SettledIn

/-! ## The parts of a change -/

namespace Store.Settled

variable {s t : Store}

theorem empty : Store.Settled .empty :=
  ⟨fun n hn => absurd hn (Rows.not_mem_empty n), fun e he => absurd he (Rows.not_mem_empty e),
    fun e he => absurd he (Rows.not_mem_empty e)⟩

theorem retracted {path : String} {stale : List String} (h : s.Settled)
    (hnames : ∀ n ∈ s.nodes, ∀ m ∈ s.nodes, n.qualifiedName = m.qualifiedName → n = m)
    (hr : Retracted path stale s t) : t.Settled := by
  have hqualified : ∀ e ∈ t.edges, e.waitsQualified = true := by
    intro e he
    obtain ⟨old, hold, ⟨-, rfl⟩ | ⟨-, rfl⟩⟩ := hr.edge_from he
    · exact h.qualified old hold
    · exact h.qualified e hold
  have hsettled : ∀ e ∈ t.edges, e.SettledIn t := by
    intro e he
    obtain ⟨old, hold, ⟨⟨d, hd, hgoes⟩, rfl⟩ | ⟨hstays, rfl⟩⟩ := hr.edge_from he
    · exact (h.settled old hold).unlinked hnames hr hd hgoes
    · exact (h.settled e hold).kept hr hstays
  exact ⟨hr.formed h.formed, hqualified, hsettled⟩

theorem nodeMerged {n : Node} (h : s.Settled) (hform : n.Formed)
    (hsimple : isQualified n.name = false) (hm : NodeMerged n s t) : t.Settled := by
  have hqualified : ∀ e ∈ t.edges, e.waitsQualified = true := by
    intro e he
    obtain ⟨old, hold, ⟨-, rfl⟩ | ⟨-, rfl⟩⟩ := hm.edge_from he
    · exact h.qualified e hold
    · rw [Edge.waitsQualified_congr (linkedTo_unlink t n old)]
      exact h.qualified old hold
  have hsettled : ∀ e ∈ t.edges, e.SettledIn t := by
    intro e he
    obtain ⟨old, hold, ⟨hin, rfl⟩ | ⟨-, rfl⟩⟩ := hm.edge_from he
    · exact (h.settled e hold).nodeStored hform h.formed hm hin
    · exact (h.settled old hold).linkedTo (h.qualified old hold) hform hsimple h.formed hm
  exact ⟨hm.formed hform h.formed, hqualified, hsettled⟩

/-- A merged edge is validated against the nodes that are there, which do not change
any more. -/
theorem edgeMerged {g : Edge} (h : s.Settled) (hq : g.waitsQualified = true) (haim : g.Aimed)
    (hm : EdgeMerged g s t) : t.Settled := by
  have hform : ∀ n ∈ t.nodes, n.Formed := hm.nodes ▸ h.formed
  have hqualified : ∀ e ∈ t.edges, e.waitsQualified = true := by
    intro e he
    rcases hm.edge_from he with rfl | hold
    · rw [Edge.waitsQualified_congr (validIn_unlink t g)]
      exact hq
    · exact h.qualified e hold
  have hsettled : ∀ e ∈ t.edges, e.SettledIn t := by
    intro e he
    rcases hm.edge_from he with rfl | hold
    · exact Edge.SettledIn.validIn hform hq haim
    · rw [Edge.SettledIn, hm.nodes]
      exact h.settled e hold
  exact ⟨hform, hqualified, hsettled⟩

theorem replaced {path : String} {previous : Option FileRecord} {nodes : List Node}
    {edges : List Edge} (h : s.Settled)
    (hnames : ∀ n ∈ s.nodes, ∀ m ∈ s.nodes, n.qualifiedName = m.qualifiedName → n = m)
    (hnodes : ∀ n ∈ nodes, n.Formed ∧ isQualified n.name = false)
    (hedges : ∀ e ∈ edges, e.waitsQualified = true ∧ e.Aimed)
    (hr : Replaced path previous nodes edges s t) : t.Settled := by
  obtain ⟨u, v, hret, hn, he⟩ := hr
  have hu : u.Settled := h.retracted hnames hret
  have hv : v.Settled := hn.keep
    (fun n hn _ _ hm hs => hs.nodeMerged (hnodes n hn).1 (hnodes n hn).2 hm) hu
  exact he.keep (fun e he _ _ hm hs => hs.edgeMerged (hedges e he).1 (hedges e he).2 hm) hv

theorem congr (h : s.Settled) (hn : t.nodes = s.nodes) (he : t.edges = s.edges) : t.Settled := by
  refine ⟨hn ▸ h.formed, he ▸ h.qualified, fun e hmem => ?_⟩
  rw [Edge.SettledIn, hn]
  exact h.settled e (he ▸ hmem)

end Store.Settled

end CodeAtlas
