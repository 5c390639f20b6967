import CodeAtlas.Proofs.Upsert.Claims

/-!
# CodeAtlas.Proofs.Upsert.Replacement

To apply a contribution is to replace what one file contributes, and nothing else.

`Store.Replaces` says what becomes of each part of the store: what is given, what the file
gives up, and what it has nothing to do with.  Nodes and edges are known by their ids
alone, so what the file has to do with is told by ids, too: an edge of another file that
has the id of a given edge is taken for that one.
-/

namespace CodeAtlas

open Upsert

/-! ## Edges that have a target -/

namespace Upsert

variable {path : String} {nodes : List Node} {edges : List Edge} {s t : Store}

/-- An edge that is not given up stays as it is, unless its target goes. -/
theorem Retracted.edge_stays {stale : List String} (h : Retracted path stale s t) {e : Edge}
    (he : e ∈ s.edges) (hid : e.id ∉ stale) (hd : ∀ d, e.target = some d → ¬ Goes s path stale d) :
    e ∈ t.edges := by
  have hkeep : unlinkFrom s path (stale.filter fun id => !Edge.isId id) e = e := by
    refine if_neg fun hloses => ?_
    obtain ⟨d, htarget, hgoes⟩ := losesTarget_iff.1 hloses
    exact hd d htarget hgoes
  rw [Rows.mem_iff_get?, h.edges, if_neg fun hs => hid hs.1, Rows.mem_iff_get?.1 he,
    Option.map_some, hkeep]

/-- A new node is only given to edges that wait. -/
theorem NodeMerged.edge_stays {n : Node} (h : NodeMerged n s t) {e : Edge} (he : e ∈ s.edges)
    (htarget : e.target.isSome = true) : e ∈ t.edges := by
  rw [Rows.mem_iff_get?, h.edges, Rows.mem_iff_get?.1 he, Option.map_some]
  split
  · rfl
  · rw [linkedTo, if_pos htarget]

/-- What goes is not stored afterwards. -/
theorem Replaced.not_mem_of_goes {previous : Option FileRecord}
    (h : Replaced path previous nodes edges s t) {d : String}
    (hd : Goes s path (staleIds previous nodes edges) d) : t.nodes.get? d = none := by
  have hfresh : d ∉ contributionOf nodes edges := by
    have hmem := (List.mem_filter.1 hd.1).2
    simpa using hmem
  rcases h.nodes_get? d with ⟨n, hn, hid, -⟩ | ⟨-, hget⟩
  · exact absurd (mem_contributionOf.2 (Or.inl ⟨n, hn, hid⟩)) hfresh
  · rw [hget, if_pos ⟨hd.1, hd.2.1⟩, Option.bind_eq_none_iff]
    intro n hn
    rw [released_eq_none_iff, Rows.key_of_get? hn]
    exact hd.2.2

/-- An edge that the file has nothing to do with stays as it is while its target stays. -/
theorem Replaced.edge_stays {previous : Option FileRecord}
    (h : Replaced path previous nodes edges s t) {e : Edge} (he : e ∈ s.edges)
    (hstale : e.id ∉ staleIds previous nodes edges) (hgiven : ∀ g ∈ edges, g.id ≠ e.id) {d : String}
    (htarget : e.target = some d) (hd : ∃ n ∈ t.nodes, n.id = d) : e ∈ t.edges := by
  obtain ⟨n, hn, rfl⟩ := hd
  have hstays : ¬ Goes s path (staleIds previous nodes edges) n.id := by
    intro hgoes
    have hnone := h.not_mem_of_goes hgoes
    rw [Rows.mem_iff_get?.1 hn] at hnone
    cases hnone
  obtain ⟨u, v, hr, hnodes, hedges⟩ := h
  have heu : e ∈ u.edges := by
    refine hr.edge_stays he hstale fun d hd => ?_
    obtain rfl : n.id = d := Option.some.inj (htarget.symm.trans hd)
    exact hstays
  have hev : e ∈ v.edges :=
    hnodes.keep (fun x _ _ _ hx hmem => hx.edge_stays hmem (by rw [htarget]; rfl)) heu
  rcases hedges.edges_merged e.id with ⟨g, hg, hid, -⟩ | ⟨-, hget⟩
  · exact absurd hid (hgiven g hg)
  · rw [Rows.mem_iff_get?, hget, ← Rows.mem_iff_get?.1 hev]

end Upsert

/-! ## Replacing -/

/-- What is given to a file has taken the place of what its record claims.  Everything
else is as it was, but for the targets of edges that waited or lost theirs, and for the
file of a node that the file gave up and another file claims. -/
structure Store.Replaces (path : String) (nodes : List Node) (edges : List Edge) (s t : Store) :
    Prop where
  node_given : ∀ n ∈ nodes, n ∈ t.nodes
  edge_given : ∀ e ∈ edges, ∃ e' ∈ t.edges, e'.unlink = e.unlink
  edge_gone : ∀ id, s.Claims path id → id ∉ contributionOf nodes edges → Edge.isId id = true →
    t.edges.get? id = none
  node_gone : ∀ id, s.Claims path id → id ∉ contributionOf nodes edges → Edge.isId id = false →
    (∀ p, p ≠ path → ¬ s.Claims p id) → t.nodes.get? id = none
  node_shared : ∀ id, s.Claims path id → id ∉ contributionOf nodes edges → Edge.isId id = false →
    (∃ p, p ≠ path ∧ s.Claims p id) → ∃ heir, heir ≠ path ∧ s.Claims heir id ∧
      t.nodes.get? id =
        (s.nodes.get? id).map fun n => { n with file := if n.file = path then heir else n.file }
  record_other : ∀ p, p ≠ path → t.records.get? p = s.records.get? p
  node_other : ∀ id, ¬ s.Claims path id → id ∉ contributionOf nodes edges →
    t.nodes.get? id = s.nodes.get? id
  edge_other : ∀ e ∈ s.edges, ¬ s.Claims path e.id → e.id ∉ contributionOf nodes edges →
    ∃ e' ∈ t.edges, e'.unlink = e.unlink ∧
      ∀ d, e.target = some d → (∃ n ∈ t.nodes, n.id = d) → e' = e

/-- A released node that other files claim passes to the first of them, if it was declared
by the file that releases it. -/
theorem Upsert.released_of_claimants {s : Store} {path heir : String} {n : Node}
    {rest : List String} (h : s.otherClaimants n.id path = heir :: rest) :
    released s path n = some { n with file := if n.file = path then heir else n.file } := by
  rw [released, h]
  by_cases hf : n.file = path
  · simp only [if_pos hf]
  · simp only [if_neg hf]

namespace Upsert.Changed

variable {path : String} {nodes : List Node} {edges : List Edge} {s t : Store}

/-- An id that the file gives up finds what is left of the node. -/
theorem node_givenUp (h : Changed path nodes edges s t) {id : String} (hc : s.Claims path id)
    (hfresh : id ∉ contributionOf nodes edges) (hid : Edge.isId id = false) :
    t.nodes.get? id = (s.nodes.get? id).bind (released s path) := by
  rcases h.node id with ⟨n, hn, hn', -⟩ | ⟨-, hget⟩
  · exact absurd (mem_contributionOf.2 (Or.inl ⟨n, hn, hn'⟩)) hfresh
  · rw [hget, if_pos ⟨mem_staleIds.2 ⟨hc, hfresh⟩, hid⟩]

/-- What the file neither claimed nor is given stays. -/
theorem node_other (h : Changed path nodes edges s t) {id : String} (hc : ¬ s.Claims path id)
    (hfresh : id ∉ contributionOf nodes edges) : t.nodes.get? id = s.nodes.get? id := by
  rcases h.node id with ⟨n, hn, hn', -⟩ | ⟨-, hget⟩
  · exact absurd (mem_contributionOf.2 (Or.inl ⟨n, hn, hn'⟩)) hfresh
  · rw [hget, if_neg fun hs => hc (mem_staleIds.1 hs.1).1]

theorem edge_givenUp (h : Changed path nodes edges s t) {id : String} (hc : s.Claims path id)
    (hfresh : id ∉ contributionOf nodes edges) (hid : Edge.isId id = true) :
    t.edges.get? id = none := by
  rcases h.written id with ⟨e, he, he', -⟩ | ⟨-, hw⟩
  · exact absurd (mem_contributionOf.2 (Or.inr ⟨e, he, he'⟩)) hfresh
  · rw [if_pos ⟨mem_staleIds.2 ⟨hc, hfresh⟩, hid⟩] at hw
    exact Option.map_eq_none_iff.1 hw

/-- An edge that the file neither claimed nor is given stays, maybe with another target. -/
theorem edge_other (h : Changed path nodes edges s t) {e : Edge} (he : e ∈ s.edges)
    (hc : ¬ s.Claims path e.id) (hfresh : e.id ∉ contributionOf nodes edges) :
    ∃ e' ∈ t.edges, e'.id = e.id ∧ e'.unlink = e.unlink := by
  rcases h.written e.id with ⟨g, hg, hg', -⟩ | ⟨-, hw⟩
  · exact absurd (mem_contributionOf.2 (Or.inr ⟨g, hg, hg'⟩)) hfresh
  · rw [if_neg fun hs => hc (mem_staleIds.1 hs.1).1, Store.written_of_mem he] at hw
    exact Store.mem_of_written hw

end Upsert.Changed

/-- The effect of a call that replaces what its file contributes. -/
theorem Upsert.Effect.replaces {c : Call} {path : String} {nodes : List Node} {edges : List Edge}
    {s t : Store} (h : Effect c s t) (hg : c.given? = some (path, nodes, edges))
    (hn : (nodes.map Node.id).Nodup) (he : (edges.map Edge.id).Nodup) :
    Store.Replaces path nodes edges s t := by
  have hc := h.changed hg
  constructor
  case node_given =>
    intro n hmem
    obtain ⟨m, hm, hid, hstored⟩ := hc.node_given hmem
    rwa [List.inj_on_of_nodup_map hn hm hmem hid] at hstored
  case edge_given =>
    intro e hmem
    obtain ⟨g, hgiven, hid, e', he', hu⟩ := hc.edge_given hmem
    rw [List.inj_on_of_nodup_map he hgiven hmem hid] at hu
    exact ⟨e', he', hu⟩
  case edge_gone => exact fun id hclaim hfresh hid => hc.edge_givenUp hclaim hfresh hid
  case node_gone =>
    intro id hclaim hfresh hid hnone
    rw [hc.node_givenUp hclaim hfresh hid, Option.bind_eq_none_iff]
    intro n hget
    rw [released_eq_none_iff, Rows.key_of_get? hget, List.eq_nil_iff_forall_not_mem]
    intro p hp
    obtain ⟨hne, hcl⟩ := Store.mem_otherClaimants.1 hp
    exact hnone p hne hcl
  case node_shared =>
    rintro id hclaim hfresh hid ⟨p, hp, hcp⟩
    have hmem : p ∈ s.otherClaimants id path := Store.mem_otherClaimants.2 ⟨hp, hcp⟩
    cases hall : s.otherClaimants id path with
    | nil =>
        rw [hall] at hmem
        cases hmem
    | cons heir rest =>
        obtain ⟨hne, hcl⟩ := Store.mem_otherClaimants.1 (hall ▸ List.mem_cons_self)
        refine ⟨heir, hne, hcl, ?_⟩
        rw [hc.node_givenUp hclaim hfresh hid]
        cases hget : s.nodes.get? id with
        | none => rfl
        | some n =>
            rw [← Rows.key_of_get? hget] at hall
            rw [Option.bind_some, Option.map_some, released_of_claimants hall]
  case record_other => exact hc.other
  case node_other => exact fun id hclaim hfresh => hc.node_other hclaim hfresh
  case edge_other =>
    intro e hmem hclaim hfresh
    obtain ⟨e', he', hid, hu⟩ := hc.edge_other hmem hclaim hfresh
    refine ⟨e', he', hu, fun d hd hstored => ?_⟩
    obtain ⟨u, hr, hnodes, hedges⟩ := h.replaced hg
    rw [hnodes] at hstored
    rw [hedges] at he'
    have hstale : e.id ∉ staleIds (s.records.get? path) nodes edges :=
      fun hs => hclaim (mem_staleIds.1 hs).1
    have hgiven : ∀ g ∈ edges, g.id ≠ e.id :=
      fun g hg hid => hfresh (mem_contributionOf.2 (Or.inr ⟨g, hg, hid⟩))
    exact Rows.eq_of_key_eq he' (hr.edge_stays hmem hstale hgiven hd hstored) hid

/-- **To apply is to replace.**  A contribution with distinct ids that is applied takes the
place of what its file contributed before, and the rest of the store stays. -/
theorem apply_replaces {b b' : Backend} {record : FileRecord} {nodes : List Node}
    {edges : List Edge} {c : Commit} (hn : (nodes.map Node.id).Nodup)
    (he : (edges.map Edge.id).Nodup) (h : b.apply record nodes edges = (.ok c, b')) :
    Store.Replaces record.path nodes edges b.store b'.store := by
  rcases b.perform_cases (.apply record nodes edges) with ⟨-, heffect⟩ | ⟨⟨e, hfails⟩, -⟩
  · rw [Backend.perform, h] at heffect
    exact heffect.replaces rfl hn he
  · rw [Backend.perform, h] at hfails
    cases hfails

/-- Two files that define one function, and a third one that calls it. -/
def definedTwice : Backend :=
  Backend.new.performAll
    [.apply (.plain "b.py") [.plain .function "f" "m.f" "b.py"] [],
      .apply (.plain "a.py") [.plain .function "f" "m.f" "a.py"] [],
      .apply (.plain "c.py") [] [.plain .calls "module:c" "m.f" "c.py"]]

/-- The file that the function was declared by defines another one instead. -/
def renamedOnce : Except Error Commit × Backend :=
  definedTwice.apply { FileRecord.plain "a.py" with fingerprint := "2" }
    [.plain .function "g" "m.g" "a.py"] []

theorem apply_replaces_renamedOnce :
    renamedOnce.1 = .ok { (0 : Commit) with
        nodesAdded := 1, nodesUpdated := 1, recordWritten := true, heirs := ["b.py"] } ∧
      Store.Replaces "a.py" [.plain .function "g" "m.g" "a.py"] [] definedTwice.store
        renamedOnce.2.store := by
  have hok : renamedOnce.1 = .ok { (0 : Commit) with
      nodesAdded := 1, nodesUpdated := 1, recordWritten := true, heirs := ["b.py"] } := by
    decide +kernel
  exact ⟨hok, apply_replaces (by simp) (by simp) (Prod.ext hok rfl)⟩

/-- A store with a reference to `x@y` from the file `z.py`. -/
def referenceStored : Backend :=
  (Backend.new.perform (.apply (.plain "z.py") [.plain .function "f" "m.f" "z.py"]
    [.plain .calls "function:m.f" "x@y" "z.py"])).2

/-- The same function refers to `x` from the file `y@z.py`, which comes to the same id. -/
def sameIdApplied : Except Error Commit × Backend :=
  referenceStored.apply (.plain "y@z.py") [.plain .function "f" "m.f" "y@z.py"]
    [.plain .calls "function:m.f" "x" "y@z.py"]

/-- An edge of another file does not always stay: the reference from `z.py` is lost to the
one that has its id. -/
theorem apply_replaces_sameId :
    ¬ ∀ (b b' : Backend) (record : FileRecord) (nodes : List Node) (edges : List Edge) (c : Commit),
      Reachable (fun _ => True) b → (nodes.map Node.id).Nodup → (edges.map Edge.id).Nodup →
      b.apply record nodes edges = (.ok c, b') →
      ∀ e ∈ b.store.edges, e.file ≠ record.path → ∃ e' ∈ b'.store.edges, e'.unlink = e.unlink := by
  intro h
  have hreach : Reachable (fun _ => True) referenceStored := (Reachable.start rfl).call trivial
  have hok : sameIdApplied.1 =
      .ok { (0 : Commit) with nodesUpdated := 1, edgesUpdated := 1, recordWritten := true } := by
    decide +kernel
  have hstored : Edge.plain .calls "function:m.f" "x@y" "z.py" ∈ referenceStored.store.edges := by
    decide +kernel
  have hlost : ∀ e' ∈ sameIdApplied.2.store.edges.toList,
      e'.unlink ≠ (Edge.plain .calls "function:m.f" "x@y" "z.py").unlink := by
    decide +kernel
  obtain ⟨e', he', hu⟩ := h referenceStored sameIdApplied.2 _ _ _ _ hreach (by simp) (by simp)
    (Prod.ext hok rfl) _ hstored (by decide)
  exact hlost e' he' hu

end CodeAtlas
