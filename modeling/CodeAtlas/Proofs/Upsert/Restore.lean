import CodeAtlas.Proofs.Upsert.Claims
import CodeAtlas.Proofs.Upsert.Total

/-!
# CodeAtlas.Proofs.Upsert.Restore

A file that is added and deleted again leaves no trace.

To add a file may give its nodes to any number of edges of other files that wait for them, one
after the other, by qualified and by simple names.  To delete it undoes just that: an edge that
was given one of these nodes waited before, and one that was given another node has it still.
Both rest on what calls keep of all stores (`Store.Intact`): an edge that waits says so, no edge
points at a node that is missing, and no file claims a node that is not stored.
-/

namespace CodeAtlas

open Upsert

/-! ## What calls keep -/

/-- An edge that waits for its target says so. -/
def Edge.SaysSo (e : Edge) : Prop := e.target = none → e.confidence = .unresolved

/-- What is asked of a call: the edges that it hands in say so if they wait. -/
def Call.SaysSo : Call → Prop
  | .apply _ _ edges => ∀ e ∈ edges, e.SaysSo
  | .delete _ => True
  | .relink => True

/-- An edge waits and says so, or it points at a stored node. -/
structure Edge.Placed (s : Store) (e : Edge) : Prop where
  waits : e.SaysSo
  target : ∀ d, e.target = some d → (s.nodes.get? d).isSome = true

/-- Whether an id is that of a stored node or edge. -/
def Store.Has (s : Store) (id : String) : Prop :=
  (s.nodes.get? id).isSome = true ∨ (s.edges.get? id).isSome = true

theorem Store.not_has_iff {s : Store} {id : String} :
    ¬ s.Has id ↔ s.nodes.get? id = none ∧ s.edges.get? id = none := by
  simp [Store.Has]

/-- All edges wait or point at stored nodes, and what is claimed under the id of a node is
stored. -/
structure Store.Intact (s : Store) : Prop where
  placed : ∀ e ∈ s.edges, e.Placed s
  claimed : ∀ p id, s.Claims p id → Edge.isId id = false → s.Has id

namespace Edge.Placed

variable {s t : Store} {e : Edge}

theorem unlink (s : Store) (e : Edge) : e.unlink.Placed s :=
  ⟨fun _ => rfl, fun d hd => by cases hd⟩

theorem link {d : String} {c : Confidence} (hd : (s.nodes.get? d).isSome = true) :
    (e.link d c).Placed s := by
  refine ⟨fun hnone => absurd hnone (Option.some_ne_none d), fun d' hd' => ?_⟩
  cases hd'
  exact hd

theorem mono (h : e.Placed s)
    (hnodes : ∀ d, (s.nodes.get? d).isSome = true → e.target = some d →
      (t.nodes.get? d).isSome = true) : e.Placed t :=
  ⟨h.waits, fun d hd => hnodes d (h.target d hd) hd⟩

theorem withTarget (h : e.Placed s) : (withTarget s e).Placed s := by
  rw [Upsert.withTarget]
  split
  · exact h
  · split
    · next id c hid =>
      obtain ⟨n, hn, rfl, -⟩ := targetIn_spec hid
      exact link (by rw [Rows.mem_iff_get?.1 hn]; rfl)
    · exact h

theorem validIn (h : e.SaysSo) : (validIn s e).Placed s := by
  rw [Upsert.validIn]
  refine withTarget ?_
  split
  · next hstored =>
    refine ⟨h, fun d hd => ?_⟩
    rw [hd, Option.all_some, Rows.contains_eq_isSome] at hstored
    exact hstored
  · exact unlink s e

end Edge.Placed

namespace Upsert

/-- A node that comes leaves an edge as it is, or is given to it, if it waits. -/
theorem linkedTo_cases (s : Store) (n : Node) (e : Edge) :
    linkedTo s n e = e ∨ (e.target = none ∧ ∃ c, linkedTo s n e = e.link n.id c) := by
  rw [linkedTo]
  split
  · exact .inl rfl
  · next hwaits =>
    have htarget : e.target = none := by simpa using hwaits
    split
    · exact .inr ⟨htarget, _, rfl⟩
    · split
      · exact .inr ⟨htarget, _, rfl⟩
      · exact .inl rfl

end Upsert

namespace Store.Intact

variable {s t : Store}

theorem empty : Store.Intact .empty := by
  refine ⟨fun e he => absurd he (Rows.not_mem_empty e), ?_⟩
  rintro p id ⟨r, hr, -⟩
  cases hr

/-- The edges that are left when a file is given another contribution are placed. -/
theorem placed_replaced {path : String} {previous : Option FileRecord} {nodes : List Node}
    {edges : List Edge} (h : ∀ e ∈ s.edges, e.Placed s) (hedges : ∀ e ∈ edges, e.SaysSo)
    (hr : Replaced path previous nodes edges s t) : ∀ e ∈ t.edges, e.Placed t := by
  obtain ⟨u, v, hret, hn, he⟩ := hr
  have hu : ∀ e ∈ u.edges, e.Placed u := by
    intro e hmem
    obtain ⟨old, hold, ⟨-, rfl⟩ | ⟨hstays, rfl⟩⟩ := hret.edge_from hmem
    · exact .unlink u old
    · refine (h e hold).mono fun d hd htarget => ?_
      obtain ⟨n, hget⟩ := Option.isSome_iff_exists.1 hd
      obtain rfl : n.id = d := Rows.key_of_get? hget
      obtain ⟨m, hm, hid, -⟩ := hret.node_stays (Rows.mem_of_get? hget) (hstays n.id htarget)
      rw [← hid, Rows.mem_iff_get?.1 hm]
      rfl
  have hv : ∀ e ∈ v.edges, e.Placed v := by
    refine hn.keep (I := fun w => ∀ e ∈ w.edges, e.Placed w) (fun n _ w x hm hw e hmem => ?_) hu
    have hnodes : ∀ d, (w.nodes.get? d).isSome = true → (x.nodes.get? d).isSome = true := by
      intro d hd
      rw [hm.nodes]
      split
      · rfl
      · exact hd
    obtain ⟨old, hold, ⟨-, rfl⟩ | ⟨-, rfl⟩⟩ := hm.edge_from hmem
    · exact (hw e hold).mono fun d hd _ => hnodes d hd
    · rcases linkedTo_cases x n old with heq | ⟨-, c, heq⟩
      · rw [heq]
        exact (hw old hold).mono fun d hd _ => hnodes d hd
      · rw [heq]
        exact .link (by rw [hm.nodes, if_pos rfl]; rfl)
  refine he.keep (I := fun w => ∀ e ∈ w.edges, e.Placed w) (fun g hg w x hm hw e hmem => ?_) hv
  rcases hm.edge_from hmem with rfl | hold
  · exact .validIn (hedges g hg)
  · refine (hw e hold).mono fun d hd _ => ?_
    rwa [hm.nodes]

/-- What other files claim stays, and what is given is stored. -/
theorem claimed_changed {path : String} {nodes : List Node} {edges : List Edge}
    (h : ∀ p id, s.Claims p id → Edge.isId id = false → s.Has id)
    (hc : Changed path nodes edges s t) {p id : String} (hclaims : t.Claims p id)
    (hid : Edge.isId id = false) : t.Has id := by
  have hnode : ∀ n ∈ t.nodes, n.id = id → t.Has id := by
    rintro n hn rfl
    exact .inl (by rw [Rows.mem_iff_get?.1 hn]; rfl)
  have hedge : ∀ e ∈ t.edges, e.id = id → t.Has id := by
    rintro e he rfl
    exact .inr (by rw [Rows.mem_iff_get?.1 he]; rfl)
  by_cases hp : p = path
  · subst hp
    rcases mem_contributionOf.1 ((hc.own id).1 hclaims) with ⟨n, hn, rfl⟩ | ⟨e, he, rfl⟩
    · obtain ⟨m, -, hmid, hm⟩ := hc.node_given hn
      exact hnode m hm hmid
    · obtain ⟨g, -, hgid, e', he', hu⟩ := hc.edge_given he
      exact hedge e' he' ((Edge.eq_of_unlink_eq hu).1.trans hgid)
  · have hbefore := (hc.claims_other hp).1 hclaims
    rcases h p id hbefore hid with hn | he
    · obtain ⟨n, hget⟩ := Option.isSome_iff_exists.1 hn
      obtain rfl : n.id = id := Rows.key_of_get? hget
      obtain ⟨m, hm, hmid⟩ := hc.node_stays (Rows.mem_of_get? hget) hp hbefore
      exact hnode m hm hmid
    · obtain ⟨e, hget⟩ := Option.isSome_iff_exists.1 he
      obtain rfl : e.id = id := Rows.key_of_get? hget
      rcases hc.written e.id with ⟨g, hg, hgid, hw⟩ | ⟨-, hw⟩
      · obtain ⟨e', he', hid', -⟩ := Store.mem_of_written hw
        exact hedge e' he' hid'
      · rw [if_neg fun hs => Bool.false_ne_true (hid.symm.trans hs.2),
          Store.written_of_mem (Rows.mem_of_get? hget)] at hw
        obtain ⟨e', he', hid', -⟩ := Store.mem_of_written hw
        exact hedge e' he' hid'

theorem effect {c : Call} (h : s.Intact) (hc : c.SaysSo) (he : Effect c s t) : t.Intact := by
  have hgiven : ∀ {path : String} {nodes : List Node} {edges : List Edge},
      c.given? = some (path, nodes, edges) → (∀ e ∈ edges, e.SaysSo) → t.Intact := by
    intro path nodes edges hg hedges
    obtain ⟨u, hr, hn, hu⟩ := he.replaced hg
    have hplaced := placed_replaced h.placed hedges hr
    refine ⟨fun e hmem => ?_, fun p id => claimed_changed h.claimed (he.changed hg)⟩
    rw [hu] at hmem
    exact (hplaced e hmem).mono fun d hd _ => by rwa [hn]
  cases c with
  | apply record nodes edges => exact hgiven rfl hc
  | delete path => exact hgiven rfl fun e hmem => absurd hmem List.not_mem_nil
  | relink =>
      cases he with
      | relink hm =>
        refine ⟨fun e hmem => ?_, fun p id hclaims hid => ?_⟩
        · obtain ⟨old, hold, rfl⟩ := hm.exists_of_mem hmem
          exact (h.placed old hold).withTarget.mono fun d hd _ => by rwa [hm.nodes]
        · rw [Store.Claims, hm.records] at hclaims
          refine (h.claimed p id hclaims hid).imp (fun hn => by rwa [hm.nodes]) fun hedge => ?_
          rw [hm.edges, Option.isSome_map]
          exact hedge

end Store.Intact

theorem Reachable.intact {b : Backend} (h : Reachable Call.SaysSo b) : b.store.Intact :=
  h.keeps Store.Intact.empty fun _ _ _ hs hc he => hs.effect hc he

/-! ## What is given to a new file -/

/-- Every id finds the same in two stores. -/
structure Store.SameContents (s t : Store) : Prop where
  nodes : ∀ k, t.nodes.get? k = s.nodes.get? k
  edges : ∀ k, t.edges.get? k = s.edges.get? k
  records : ∀ k, t.records.get? k = s.records.get? k

namespace Upsert

/-- Edges are left as they are, or one of some nodes is given to them, if they wait. -/
def GivesTargets (ns : List Node) (g : Edge → Edge) : Prop :=
  ∀ e, g e = e ∨ (e.target = none ∧ ∃ n ∈ ns, ∃ c, g e = e.link n.id c)

theorem NodeMerged.givesTargets {n : Node} {s t : Store} (h : NodeMerged n s t) :
    ∃ g, GivesTargets [n] g ∧ ∀ k, t.edges.get? k = (s.edges.get? k).map g := by
  refine ⟨_, fun e => ?_, h.edges⟩
  simp only [List.mem_singleton, exists_eq_left]
  split
  · exact .inl rfl
  · exact linkedTo_cases t n e

/-- What has got a target is left as it is from then on. -/
theorem GivesTargets.comp {n : Node} {ns : List Node} {f g : Edge → Edge}
    (hf : GivesTargets [n] f) (hg : GivesTargets ns g) : GivesTargets (n :: ns) (g ∘ f) := by
  intro e
  rw [Function.comp_apply]
  rcases hf e with heq | ⟨hwaits, m, hm, c, heq⟩
  · rw [heq]
    refine (hg e).imp_right fun hlinked => ?_
    obtain ⟨hwaits, m, hm, hc⟩ := hlinked
    exact ⟨hwaits, m, List.mem_cons_of_mem n hm, hc⟩
  · obtain rfl := List.mem_singleton.1 hm
    rw [heq]
    rcases hg (e.link m.id c) with hkept | ⟨hnone, -⟩
    · exact .inr ⟨hwaits, m, List.mem_cons_self, c, hkept⟩
    · exact absurd hnone (Option.some_ne_none m.id)

theorem nodes_merged_givesTargets {ns : List Node} {s t : Store} (h : Steps NodeMerged ns s t) :
    ∃ g, GivesTargets ns g ∧ ∀ k, t.edges.get? k = (s.edges.get? k).map g := by
  induction h with
  | nil s => exact ⟨id, fun e => .inl rfl, by simp⟩
  | @cons n ns s u t hn _ ih =>
      obtain ⟨f, hf, hfirst⟩ := hn.givesTargets
      obtain ⟨g, hg, hrest⟩ := ih
      refine ⟨g ∘ f, hf.comp hg, fun k => ?_⟩
      rw [hrest, hfirst, Option.map_map]

section Restore

variable {record : FileRecord} {nodes : List Node} {edges : List Edge} {s t u : Store}

/-- What a new file is given leaves all other nodes, and all other edges but for the targets of
those that wait. -/
theorem Replaced.added {path : String} (h : Replaced path none nodes edges s t) :
    (∀ k, (∀ n ∈ nodes, n.id ≠ k) → t.nodes.get? k = s.nodes.get? k) ∧
    ∃ g, GivesTargets nodes g ∧
      ∀ k, (∀ e ∈ edges, e.id ≠ k) → t.edges.get? k = (s.edges.get? k).map g := by
  have hstale : staleIds none nodes edges = [] := rfl
  refine ⟨fun k hk => ?_, ?_⟩
  · rcases h.nodes_get? k with ⟨n, hn, hid, -⟩ | ⟨-, hget⟩
    · exact absurd hid (hk n hn)
    · simpa [hstale] using hget
  · obtain ⟨u, v, hr, hn, he⟩ := h
    obtain ⟨g, hg, hmapped⟩ := nodes_merged_givesTargets hn
    have hkept : ∀ k, u.edges.get? k = s.edges.get? k := by
      intro k
      rw [hstale] at hr
      rw [hr.edges, ← (Retracted.nil path s).edges]
    refine ⟨g, hg, fun k hk => ?_⟩
    rcases he.edges_merged k with ⟨e, hmem, hid, -⟩ | ⟨-, hget⟩
    · exact absurd hid (hk e hmem)
    · rw [hget, hmapped, hkept]

/-- To delete a file is to retract what its record claims. -/
theorem Replaced.removed {path : String} {previous : Option FileRecord}
    (h : Replaced path previous [] [] s t) : Retracted path (staleIds previous [] []) s t := by
  obtain ⟨u, v, hr, hn, he⟩ := h
  cases hn
  cases he
  exact hr

/-- When the nodes that were given to edges go again, the edges are as they were. -/
theorem GivesTargets.undone {path : String} {stale : List String} {g : Edge → Edge} {e : Edge}
    (hg : GivesTargets nodes g) (he : e.Placed s) (hfresh : ∀ n ∈ nodes, s.nodes.get? n.id = none)
    (hgoes : ∀ d, Goes t path stale d ↔ ∃ n ∈ nodes, n.id = d) :
    unlinkFrom t path (stale.filter fun id => !Edge.isId id) (g e) = e := by
  rw [unlinkFrom]
  rcases hg e with heq | ⟨hwaits, n, hn, c, heq⟩
  · have hkept : ¬ LosesTarget t path (stale.filter fun id => !Edge.isId id) e := by
      intro hloses
      obtain ⟨d, htarget, hd⟩ := losesTarget_iff.1 hloses
      obtain ⟨n, hn, rfl⟩ := (hgoes d).1 hd
      have hstored := he.target n.id htarget
      simp [hfresh n hn] at hstored
    rw [heq, if_neg hkept]
  · have hloses : LosesTarget t path (stale.filter fun id => !Edge.isId id) (e.link n.id c) :=
      losesTarget_iff.2 ⟨n.id, rfl, (hgoes n.id).2 ⟨n, hn, rfl⟩⟩
    rw [heq, if_pos hloses]
    exact (Edge.eq_unlink rfl hwaits (he.waits hwaits)).symm

/-- A node that is given under an id that does not occur is not stored. -/
theorem fresh_node (hfresh : ∀ id ∈ contributionOf nodes edges, ¬ s.Has id) {n : Node}
    (hn : n ∈ nodes) : ¬ s.Has n.id :=
  hfresh n.id (mem_contributionOf.2 (.inl ⟨n, hn, rfl⟩))

/-- When a file is deleted, all that it was given is stale: its nodes are, under the ids of
nodes, -/
theorem stale_given_node_iff (hapart : Apart nodes edges)
    (happly : Effect (.apply record nodes edges) s t) (k : String) :
    (k ∈ staleIds (t.records.get? record.path) [] [] ∧ Edge.isId k = false) ↔
      ∃ n ∈ nodes, n.id = k := by
  have hnone : k ∉ contributionOf [] [] := by simp [mem_contributionOf]
  rw [mem_staleIds, happly.claims_own rfl, and_iff_left hnone, mem_contributionOf]
  constructor
  · rintro ⟨hn | ⟨e, he, rfl⟩, hid⟩
    · exact hn
    · simp [hapart.edge e he] at hid
  · rintro ⟨n, hn, rfl⟩
    exact ⟨.inl ⟨n, hn, rfl⟩, hapart.node n hn⟩

/-- and its edges, under the ids of edges. -/
theorem stale_given_edge_iff (hapart : Apart nodes edges)
    (happly : Effect (.apply record nodes edges) s t) (k : String) :
    (k ∈ staleIds (t.records.get? record.path) [] [] ∧ Edge.isId k = true) ↔
      ∃ e ∈ edges, e.id = k := by
  have hnone : k ∉ contributionOf [] [] := by simp [mem_contributionOf]
  rw [mem_staleIds, happly.claims_own rfl, and_iff_left hnone, mem_contributionOf]
  constructor
  · rintro ⟨⟨n, hn, rfl⟩ | he, hid⟩
    · simp [hapart.node n hn] at hid
    · exact he
  · rintro ⟨e, he, rfl⟩
    exact ⟨.inr ⟨e, he, rfl⟩, hapart.edge e he⟩

/-- No other file claims a node that was not stored before it was given. -/
theorem otherClaimants_given (hs : s.Intact) (hapart : Apart nodes edges)
    (happly : Effect (.apply record nodes edges) s t) {n : Node} (hn : n ∈ nodes)
    (hfresh : ¬ s.Has n.id) : t.otherClaimants n.id record.path = [] := by
  refine List.eq_nil_iff_forall_not_mem.2 fun p hp => ?_
  obtain ⟨hne, hclaims⟩ := Store.mem_otherClaimants.1 hp
  rw [Store.Claims, happly.records_other rfl hne] at hclaims
  exact hfresh (hs.claimed p n.id hclaims (hapart.node n hn))

/-- The nodes that go when the file is deleted are those that it was given. -/
theorem goes_given_iff (hs : s.Intact) (hapart : Apart nodes edges)
    (hfresh : ∀ id ∈ contributionOf nodes edges, ¬ s.Has id)
    (happly : Effect (.apply record nodes edges) s t) (d : String) :
    Goes t record.path (staleIds (t.records.get? record.path) [] []) d ↔
      ∃ n ∈ nodes, n.id = d := by
  constructor
  · rintro ⟨hstale, hid, -⟩
    exact (stale_given_node_iff hapart happly d).1 ⟨hstale, hid⟩
  · rintro ⟨n, hn, rfl⟩
    obtain ⟨hstale, hid⟩ := (stale_given_node_iff hapart happly n.id).2 ⟨n, hn, rfl⟩
    exact ⟨hstale, hid, otherClaimants_given hs hapart happly hn (fresh_node hfresh hn)⟩

/-! ## Adding and deleting -/

variable (hs : s.Intact) (hpath : s.records.get? record.path = none) (hapart : Apart nodes edges)
  (hfresh : ∀ id ∈ contributionOf nodes edges, ¬ s.Has id)
  (happly : Effect (.apply record nodes edges) s t) (hdelete : Effect (.delete record.path) t u)

include hs hpath hapart hfresh happly hdelete

/-- The nodes that were added are gone, and the others were left alone. -/
theorem Effect.undone_nodes (k : String) : u.nodes.get? k = s.nodes.get? k := by
  obtain ⟨v, hadd, hvnodes, -⟩ := happly.replaced rfl
  obtain ⟨w, hdel, hwnodes, -⟩ := hdelete.replaced rfl
  rw [hpath] at hadd
  rw [hwnodes, hdel.removed.nodes, hvnodes]
  by_cases hk : ∃ n ∈ nodes, n.id = k
  · obtain ⟨hstale, hid, hclaimants⟩ := (goes_given_iff hs hapart hfresh happly k).2 hk
    obtain ⟨n, hn, rfl⟩ := hk
    rw [if_pos ⟨hstale, hid⟩, (Store.not_has_iff.1 (fresh_node hfresh hn)).1,
      Option.bind_eq_none_iff]
    intro m hm
    rw [released_eq_none_iff, Rows.key_of_get? hm, hclaimants]
  · rw [if_neg fun hstale => hk ((stale_given_node_iff hapart happly k).1 hstale)]
    exact hadd.added.1 k fun n hn hid => hk ⟨n, hn, hid⟩

/-- The edges that were added are gone, and the others have the targets that they had. -/
theorem Effect.undone_edges (k : String) : u.edges.get? k = s.edges.get? k := by
  obtain ⟨v, hadd, -, hvedges⟩ := happly.replaced rfl
  obtain ⟨w, hdel, -, hwedges⟩ := hdelete.replaced rfl
  rw [hpath] at hadd
  rw [hwedges, hdel.removed.edges, hvedges]
  by_cases hk : ∃ e ∈ edges, e.id = k
  · rw [if_pos ((stale_given_edge_iff hapart happly k).2 hk)]
    obtain ⟨e, he, rfl⟩ := hk
    have hnew : ¬ s.Has e.id := hfresh e.id (mem_contributionOf.2 (.inr ⟨e, he, rfl⟩))
    exact (Store.not_has_iff.1 hnew).2.symm
  · obtain ⟨g, hg, hedges⟩ := hadd.added.2
    rw [if_neg fun hstale => hk ((stale_given_edge_iff hapart happly k).1 hstale),
      hedges k fun e he hid => hk ⟨e, he, hid⟩]
    cases hget : s.edges.get? k with
    | none => rfl
    | some e =>
        have hnew : ∀ n ∈ nodes, s.nodes.get? n.id = none := fun n hn =>
          (Store.not_has_iff.1 (fresh_node hfresh hn)).1
        rw [Option.map_some, Option.map_some, hg.undone (hs.placed e (Rows.mem_of_get? hget)) hnew
          (goes_given_iff hs hapart hfresh happly)]

omit hs hapart hfresh in
/-- The record that was added is gone, and the others were left alone. -/
theorem Effect.undone_records (p : String) : u.records.get? p = s.records.get? p := by
  by_cases hp : p = record.path
  · rw [hp, hpath]
    cases hdelete with
    | delete _ _ => rw [Store.deleteRecord, Rows.get?_erase, if_pos rfl]
    | deleteUnknown hnone => exact hnone
  · rw [hdelete.records_other rfl hp, happly.records_other rfl hp]

/-- What is added and deleted again leaves the store as it was. -/
theorem Effect.undone : s.SameContents u where
  nodes := Effect.undone_nodes hs hpath hapart hfresh happly hdelete
  edges := Effect.undone_edges hs hpath hapart hfresh happly hdelete
  records := Effect.undone_records hpath happly hdelete

end Restore

end Upsert

/-- **To add a file and to delete it again restores the store.**  Whatever calls led to the
store, as long as the edges that they handed in said so if they waited: if a file without a
record is given nodes and edges that are not stored, under ids that tell them apart, and is then
deleted, then all nodes, edges and records are as they were before, the targets of edges that
had waited for the nodes included. -/
theorem apply_delete_restores {b b' b'' : Backend} {record : FileRecord} {nodes : List Node}
    {edges : List Edge} {c c' : Commit} (h : Reachable Call.SaysSo b)
    (hpath : b.store.records.get? record.path = none) (hapart : Apart nodes edges)
    (hfresh : ∀ id ∈ contributionOf nodes edges, ¬ b.store.Has id)
    (happly : b.apply record nodes edges = (.ok c, b'))
    (hdelete : b'.deleteFile record.path = (.ok c', b'')) : b.store.SameContents b''.store := by
  have hadded : Effect (.apply record nodes edges) b.store b'.store := by
    rcases b.perform_cases (.apply record nodes edges) with ⟨-, heffect⟩ | ⟨⟨e, hfails⟩, -⟩
    · rwa [Backend.perform, happly] at heffect
    · rw [Backend.perform, happly] at hfails
      cases hfails
  have hdeleted : Effect (.delete record.path) b'.store b''.store := by
    rcases b'.perform_cases (.delete record.path) with ⟨-, heffect⟩ | ⟨⟨e, hfails⟩, -⟩
    · rwa [Backend.perform, hdelete] at heffect
    · rw [Backend.perform, hdelete] at hfails
      cases hfails
  exact Effect.undone h.intact hpath hapart hfresh hadded hdeleted

/-- A store with two edges that wait for a function, one of them by its simple name. -/
def twoWaiting : Backend :=
  Backend.new.performAll [.apply (.plain "z.py") []
    [.plain .calls "module:z" "m.f" "z.py", .plain .calls "module:z" "f" "z.py"]]

/-- The store when a file defines that function. -/
def twoLinked : Except Error Commit × Backend :=
  twoWaiting.apply (.plain "m.py") [.plain .function "f" "m.f" "m.py"]
    [.plain .calls "function:m.f" "g" "m.py"]

theorem apply_delete_restores_twoWaiting :
    twoLinked.2.store.edges.toList.map (fun e => (e.targetRef, e.target, e.confidence)) =
      [("m.f", some "function:m.f", .resolved), ("f", some "function:m.f", .heuristic),
        ("g", none, .unresolved)] ∧
      ∃ c b, twoLinked.2.deleteFile "m.py" = (.ok c, b) ∧
        twoWaiting.store.SameContents b.store := by
  have hreach : Reachable Call.SaysSo twoWaiting := by
    refine (Reachable.start rfl).performAll fun c hc => ?_
    rw [List.mem_singleton.1 hc]
    intro e he htarget
    simp only [List.mem_cons, List.not_mem_nil, or_false] at he
    rcases he with rfl | rfl <;> rfl
  have hfresh : ∀ id ∈ contributionOf [.plain .function "f" "m.f" "m.py"]
      [.plain .calls "function:m.f" "g" "m.py"], ¬ twoWaiting.store.Has id := by
    intro id hid
    rw [Store.not_has_iff]
    rcases mem_contributionOf.1 hid with ⟨n, hn, rfl⟩ | ⟨e, he, rfl⟩
    · rw [List.mem_singleton.1 hn]
      decide +kernel
    · rw [List.mem_singleton.1 he]
      decide +kernel
  have hok : twoLinked.1 = .ok { (0 : Commit) with
      nodesAdded := 1, edgesAdded := 1, edgesLinked := 2, recordWritten := true } := by
    decide +kernel
  have hadded : twoWaiting.apply (.plain "m.py") [.plain .function "f" "m.f" "m.py"]
      [.plain .calls "function:m.f" "g" "m.py"] = (.ok _, twoLinked.2) := Prod.ext hok rfl
  obtain ⟨c, b, hdeleted⟩ :=
    Backend.deleteFile_total (by decide +kernel) (by decide +kernel) (b := twoLinked.2) "m.py"
  exact ⟨by decide +kernel, c, b, hdeleted, apply_delete_restores hreach (by decide +kernel)
    ⟨by decide +kernel, by decide +kernel⟩ hfresh hadded hdeleted⟩

/-- Whether to add and to delete restores all stores that some calls lead to, as long as what is
given is as it is asked for. -/
def AddingIsUndone (allowed : Call → Prop) (asked : List Node → List Edge → Prop) : Prop :=
  ∀ (b b' b'' : Backend) (record : FileRecord) (nodes : List Node) (edges : List Edge)
    (c c' : Commit), Reachable allowed b → b.store.records.get? record.path = none →
    asked nodes edges → (nodes.map Node.id ++ edges.map Edge.id).Nodup →
    (∀ id ∈ contributionOf nodes edges, ¬ b.store.Has id) →
    b.apply record nodes edges = (.ok c, b') → b'.deleteFile record.path = (.ok c', b'') →
    b.store.SameContents b''.store

/-- On an open store that no outage meets, both calls succeed. -/
theorem AddingIsUndone.sameContents {allowed : Call → Prop} {asked : List Node → List Edge → Prop}
    (h : AddingIsUndone allowed asked) {b : Backend} (record : FileRecord) (nodes : List Node)
    (edges : List Edge) (hreach : Reachable allowed b) (hopen : b.isOpen = true)
    (hout : b.outages = []) (hpath : b.store.records.get? record.path = none)
    (hasked : asked nodes edges) (hnodup : (nodes.map Node.id ++ edges.map Edge.id).Nodup)
    (hfresh : ∀ id ∈ nodes.map Node.id ++ edges.map Edge.id, b.store.nodes.get? id = none ∧
      b.store.edges.get? id = none) :
    b.store.SameContents
      (b.performAll [.apply record nodes edges, .delete record.path]).store := by
  obtain ⟨c, b', hadded⟩ := Backend.apply_total hopen hout record nodes edges
  obtain ⟨hopen', hb'⟩ := Backend.transact_ok hadded
  obtain ⟨c', b'', hdeleted⟩ : ∃ c' b'', b'.deleteFile record.path = (.ok c', b'') := by
    refine Backend.deleteFile_total ?_ ?_ record.path
    · rw [hb']
      exact hopen
    · rw [hb']
      simp [hout]
  have hnew : ∀ id ∈ contributionOf nodes edges, ¬ b.store.Has id := by
    intro id hid
    rw [contributionOf, mem_sortedSet] at hid
    exact Store.not_has_iff.2 (hfresh id hid)
  have hsame := h b b' b'' record nodes edges c c' hreach hpath hasked hnodup hnew hadded hdeleted
  have hfirst : (b.perform (.apply record nodes edges)).2 = b' := congrArg Prod.snd hadded
  have hboth : b.performAll [.apply record nodes edges, .delete record.path] = b'' := by
    rw [Backend.performAll, List.foldl_cons, hfirst]
    exact congrArg Prod.snd hdeleted
  rwa [hboth]

/-- A store with an edge that waits and calls itself resolved. -/
def claimsResolved : Backend :=
  Backend.new.performAll [.apply (.plain "z.py") []
    [{ Edge.plain .calls "module:z" "m.f" "z.py" with confidence := .resolved }]]

/-- A node that has the id of an edge. -/
def misnamedNode : Node := { Node.plain .function "f" "m.f" "m.py" with id := "CALLS:f" }

/-- An edge that has the id of a node. -/
def misnamedEdge : Edge := { Edge.plain .calls "module:m" "m.g" "m.py" with id := "function:m.f" }

/-- It does not always: an edge that waits and does not say so does so afterwards, and what has
an id of the wrong kind stays when the file is deleted. -/
theorem adding_not_always_undone :
    ¬ AddingIsUndone (fun _ => True) (fun _ _ => True) ∧
      ¬ AddingIsUndone (fun _ => True) Apart ∧
      ¬ AddingIsUndone Call.SaysSo (fun _ edges => ∀ e ∈ edges, Edge.isId e.id = true) ∧
      ¬ AddingIsUndone Call.SaysSo (fun nodes _ => ∀ n ∈ nodes, Edge.isId n.id = false) := by
  have hconfidence : ¬ AddingIsUndone (fun _ => True) Apart := by
    intro h
    have hreach : Reachable (fun _ => True) claimsResolved := (Reachable.start rfl).call trivial
    have hsame := h.sameContents (.plain "m.py") [.plain .function "f" "m.f" "m.py"] [] hreach
      (by decide +kernel) (by decide +kernel) (by decide +kernel)
      ⟨by decide +kernel, by decide +kernel⟩ (by decide) (by decide +kernel)
    have hedge := hsame.edges "CALLS:module:z->m.f@z.py"
    revert hedge
    decide +kernel
  refine ⟨fun h => hconfidence fun b b' b'' record nodes edges c c' hreach hpath _ =>
    h b b' b'' record nodes edges c c' hreach hpath trivial, hconfidence, fun h => ?_, fun h => ?_⟩
  · have hsame := h.sameContents (.plain "m.py") [misnamedNode] [] (Reachable.start rfl : Reachable
      Call.SaysSo .new) rfl rfl rfl (by decide) (by decide) (by decide +kernel)
    have hnode := hsame.nodes misnamedNode.id
    revert hnode
    decide +kernel
  · have hsame := h.sameContents (.plain "m.py") [] [misnamedEdge] (Reachable.start rfl : Reachable
      Call.SaysSo .new) rfl rfl rfl (by decide) (by decide) (by decide +kernel)
    have hedge := hsame.edges misnamedEdge.id
    revert hedge
    decide +kernel

end CodeAtlas
