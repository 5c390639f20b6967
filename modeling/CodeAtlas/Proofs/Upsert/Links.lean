import CodeAtlas.Proofs.Graph.Ids
import CodeAtlas.Proofs.Upsert.Calls

/-!
# CodeAtlas.Proofs.Upsert.Links

Links are sound: an edge either waits, and says so, or it points at a stored node of
a kind that it accepts; where it is resolved, that node has the name it asks for.

Targets are set or dropped by validation, by the linking of new nodes, by the
unlinking of nodes that go and by the sweep.  `LinkedIn` is what each of them leaves
for one edge; `Store.Linked` says it of all edges, and every effect keeps it.
-/

namespace CodeAtlas

open Upsert

/-- An edge of the store waits for its target, or has a good one. -/
structure Edge.LinkedIn (s : Store) (e : Edge) : Prop where
  waits : e.target = none ↔ e.confidence = .unresolved
  stored : ∀ d, e.target = some d → ∃ n ∈ s.nodes, n.id = d ∧
    e.relationship.accepts n.kind = true ∧
    (e.confidence = .resolved → n.qualifiedName = e.targetRef)

/-- All nodes are known by their ids, and all edges are soundly linked. -/
structure Store.Linked (s : Store) : Prop where
  formed : ∀ n ∈ s.nodes, n.Formed
  linked : ∀ e ∈ s.edges, e.LinkedIn s

/-- What is asked of an edge that is handed in: it tells whether it waits, and its
target, if that is the id of a node at all, is of a kind that it accepts, and of the
name that it asks for where it is resolved. -/
structure Edge.Fit (e : Edge) : Prop where
  waits : e.target = none ↔ e.confidence = .unresolved
  target : ∀ k q, e.target = some (Node.idOf k q) →
    e.relationship.accepts k = true ∧ (e.confidence = .resolved → q = e.targetRef)

/-- What is asked of a call. -/
def Call.Fit : Call → Prop
  | .apply _ nodes edges => (∀ n ∈ nodes, n.Formed) ∧ ∀ e ∈ edges, e.Fit
  | .delete _ => True
  | .relink => True

/-! ## One edge -/

namespace Edge.LinkedIn

variable {s t : Store} {e : Edge}

theorem unlink (s : Store) (e : Edge) : e.unlink.LinkedIn s :=
  ⟨⟨fun _ => rfl, fun _ => rfl⟩, fun d hd => by cases hd⟩

/-- A link stays sound while its target leaves a version of it. -/
theorem mono (h : e.LinkedIn s)
    (hn : ∀ n ∈ s.nodes, e.target = some n.id → ∃ m ∈ t.nodes, n.Alike m) : e.LinkedIn t := by
  refine ⟨h.waits, fun d hd => ?_⟩
  obtain ⟨n, hmem, rfl, hacc, hname⟩ := h.stored d hd
  obtain ⟨m, hm, hid, hkind, hq⟩ := hn n hmem hd
  rw [← hkind] at hacc
  rw [← hq] at hname
  exact ⟨m, hm, hid, hacc, hname⟩

theorem link {n : Node} {c : Confidence} (hn : n ∈ s.nodes)
    (hacc : e.relationship.accepts n.kind = true) (hc : c ≠ .unresolved)
    (hname : c = .resolved → n.qualifiedName = e.targetRef) : (e.link n.id c).LinkedIn s := by
  have hwaits : (e.link n.id c).target = none ↔ (e.link n.id c).confidence = .unresolved :=
    ⟨fun h => absurd h (Option.some_ne_none n.id), fun h => absurd h hc⟩
  refine ⟨hwaits, fun d hd => ?_⟩
  obtain rfl : n.id = d := Option.some.inj hd
  exact ⟨n, hn, rfl, hacc, hname⟩

/-- A target that is looked for is a good one. -/
theorem withTarget (h : e.LinkedIn s) : (withTarget s e).LinkedIn s := by
  rw [Upsert.withTarget]
  split
  · exact h
  · split
    · next id c hid =>
      obtain ⟨n, hn, rfl, hacc, ⟨-, rfl, hname⟩ | ⟨-, rfl, -⟩⟩ := targetIn_spec hid
      · exact link hn hacc (by simp) fun _ => hname
      · exact link hn hacc (by simp) fun hc => by cases hc
    · exact h

theorem linkedTo {n : Node} (h : e.LinkedIn s) (hn : n ∈ s.nodes) :
    (linkedTo s n e).LinkedIn s := by
  rw [Upsert.linkedTo]
  split
  · exact h
  · split
    · next hm => exact link hn hm.2 (by simp) fun _ => hm.1
    · split
      · next hl =>
        obtain ⟨m, hm, hid, -, -, hacc⟩ := uniqueTarget_spec hl.2.2.2.2
        rw [← hid]
        exact link (Store.mem_nodesNamed.1 hm).1 hacc (by simp) fun hc => by cases hc
      · exact h

/-- An edge that is handed in is soundly linked once it was validated. -/
theorem validIn (hs : ∀ n ∈ s.nodes, n.Formed) (h : e.Fit) : (validIn s e).LinkedIn s := by
  rw [Upsert.validIn]
  refine LinkedIn.withTarget ?_
  split
  · next hstored =>
    refine ⟨h.waits, fun d hd => ?_⟩
    rw [hd, Option.all_some, Rows.contains_iff] at hstored
    obtain ⟨n, hn, hid⟩ := hstored
    have hform : n.id = Node.idOf n.kind n.qualifiedName := hs n hn
    obtain ⟨hacc, hname⟩ := h.target n.kind n.qualifiedName (by rw [hd, ← hid, hform])
    exact ⟨n, hn, hid, hacc, hname⟩
  · exact LinkedIn.unlink s e

end Edge.LinkedIn

/-! ## The parts of a change -/

namespace Store.Linked

variable {s t : Store}

theorem empty : Store.Linked .empty :=
  ⟨fun n hn => absurd hn (Rows.not_mem_empty n), fun e he => absurd he (Rows.not_mem_empty e)⟩

theorem retracted {path : String} {stale : List String} (h : s.Linked)
    (hr : Retracted path stale s t) : t.Linked := by
  have hlinked : ∀ e ∈ t.edges, e.LinkedIn t := by
    intro e he
    obtain ⟨old, hold, ⟨-, rfl⟩ | ⟨hstays, rfl⟩⟩ := hr.edge_from he
    · exact Edge.LinkedIn.unlink t old
    · exact (h.linked e hold).mono fun n hn hd => hr.node_stays hn (hstays n.id hd)
  exact ⟨hr.formed h.formed, hlinked⟩

theorem nodeMerged {n : Node} (h : s.Linked) (hform : n.Formed) (hm : NodeMerged n s t) :
    t.Linked := by
  have hkeep : ∀ e ∈ s.edges, e.LinkedIn t := fun e he =>
    (h.linked e he).mono fun m hmem _ => hm.node_stays hform hmem (h.formed m hmem)
  have hlinked : ∀ e ∈ t.edges, e.LinkedIn t := by
    intro e he
    obtain ⟨old, hold, ⟨-, rfl⟩ | ⟨-, rfl⟩⟩ := hm.edge_from he
    · exact hkeep e hold
    · exact (hkeep old hold).linkedTo hm.mem
  exact ⟨hm.formed hform h.formed, hlinked⟩

theorem edgeMerged {e : Edge} (h : s.Linked) (hfit : e.Fit) (hm : EdgeMerged e s t) : t.Linked := by
  have hform : ∀ n ∈ t.nodes, n.Formed := hm.nodes ▸ h.formed
  have hlinked : ∀ e' ∈ t.edges, e'.LinkedIn t := by
    intro e' he'
    rcases hm.edge_from he' with rfl | hold
    · exact Edge.LinkedIn.validIn hform hfit
    · exact (h.linked e' hold).mono fun n hn _ => ⟨n, hm.nodes ▸ hn, Node.Alike.refl n⟩
  exact ⟨hform, hlinked⟩

theorem congr (h : s.Linked) (hn : t.nodes = s.nodes) (he : t.edges = s.edges) : t.Linked := by
  refine ⟨hn ▸ h.formed, fun e hmem => ?_⟩
  rw [he] at hmem
  exact (h.linked e hmem).mono fun n hold _ => ⟨n, hn ▸ hold, Node.Alike.refl n⟩

theorem replaced {path : String} {previous : Option FileRecord} {nodes : List Node}
    {edges : List Edge} (h : s.Linked) (hnodes : ∀ n ∈ nodes, n.Formed)
    (hedges : ∀ e ∈ edges, e.Fit) (hr : Replaced path previous nodes edges s t) : t.Linked := by
  obtain ⟨u, v, hret, hn, he⟩ := hr
  have hu : u.Linked := h.retracted hret
  have hv : v.Linked := hn.keep (fun n hn _ _ hm hl => hl.nodeMerged (hnodes n hn) hm) hu
  exact he.keep (fun e he _ _ hm hl => hl.edgeMerged (hedges e he) hm) hv

/-- The sweep links soundly. -/
theorem relinked (h : s.Linked) (hm : EdgesMapped (withTarget s) s t) : t.Linked := by
  refine ⟨hm.nodes ▸ h.formed, fun e he => ?_⟩
  obtain ⟨old, hold, rfl⟩ := hm.exists_of_mem he
  exact (h.linked old hold).withTarget.mono fun n hn _ => ⟨n, hm.nodes ▸ hn, Node.Alike.refl n⟩

theorem effect {c : Call} (h : s.Linked) (hc : c.Fit) (he : Effect c s t) : t.Linked := by
  cases c with
  | apply record nodes edges =>
      obtain ⟨u, hr, hn, hedges⟩ := he.replaced rfl
      exact (h.replaced hc.1 hc.2 hr).congr hn hedges
  | delete path =>
      obtain ⟨u, hr, hn, hedges⟩ := he.replaced rfl
      exact (h.replaced (fun _ hn => absurd hn List.not_mem_nil)
        (fun _ he => absurd he List.not_mem_nil) hr).congr hn hedges
  | relink =>
      cases he with
      | relink hm => exact h.relinked hm

end Store.Linked

/-! ## All reachable stores -/

/-- **Links are sound** in every store that calls lead to, as long as the edges that are
handed in tell whether they wait and point, if at all, at nodes that they may point
at. -/
theorem links_sound {b : Backend} (h : Reachable Call.Fit b) :
    ∀ e ∈ b.store.edges, (e.target = none ↔ e.confidence = .unresolved) ∧
      ∀ d, e.target = some d → ∃ n ∈ b.store.nodes, n.id = d ∧
        e.relationship.accepts n.kind = true ∧
        (e.confidence = .resolved → n.qualifiedName = e.targetRef) := by
  have hlinked : b.store.Linked :=
    h.keeps (I := Store.Linked) Store.Linked.empty fun s c t hs hc he => hs.effect hc he
  intro e he
  exact ⟨(hlinked.linked e he).waits, (hlinked.linked e he).stored⟩

/-- Two files that define one function, and a third one that calls it. -/
def sharedTarget : List Call :=
  [.apply (.plain "a.py") [.plain .function "f" "m.f" "a.py"] [],
    .apply (.plain "b.py") [.plain .function "f" "m.f" "b.py"] [],
    .apply (.plain "c.py") [] [.plain .calls "module:c" "m.f" "c.py"]]

/-- The link outlives the first of the two files that define its target. -/
theorem links_sound_sharedTarget :
    (Backend.new.performAll (sharedTarget ++ [.delete "a.py"])).store.edges.toList.map (·.target) =
        [some "function:m.f"] ∧
      ∀ e ∈ (Backend.new.performAll (sharedTarget ++ [.delete "a.py"])).store.edges,
        e.target = none ↔ e.confidence = .unresolved := by
  refine ⟨by decide +kernel, fun e he => (links_sound ?_ e he).1⟩
  refine (Reachable.start rfl).performAll fun c hc => ?_
  simp only [sharedTarget, List.cons_append, List.nil_append, List.mem_cons, List.not_mem_nil,
    or_false] at hc
  rcases hc with rfl | rfl | rfl | rfl
  · exact ⟨by decide, by simp⟩
  · exact ⟨by decide, by simp⟩
  · refine ⟨by decide, fun e he => ?_⟩
    rw [List.mem_singleton.1 he]
    exact ⟨⟨fun _ => rfl, fun _ => rfl⟩, fun _ _ h => absurd h.symm (Option.some_ne_none _)⟩
  · trivial

end CodeAtlas
