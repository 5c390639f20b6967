import CodeAtlas.Proofs.Explore.Frontier
import CodeAtlas.Proofs.Explore.Order
import CodeAtlas.Proofs.Graph.Ids
import CodeAtlas.Proofs.Store.Contents

/-!
# CodeAtlas.Proofs.Explore.Calls

The callers of one node and the callees of another one are told by the same edges.

Either answer is told by the edges of the nodes that a text asks for (`mem_callers`,
`mem_outgoing`), and an id asks for its node alone (`definition_id`).  A stored edge has one source
and one target, so it is listed once, however many nodes a name asks for.
-/

namespace CodeAtlas

/-! ## Ids as targets -/

/-- Whether a text has the form of a node's id: a word for a kind, a colon, and a qualified name
that does not start with another colon. -/
def IsNodeId (id : String) : Prop :=
  ∃ kind name, id = Node.idOf kind name ∧ name.toList.head? ≠ some ':'

theorem NodeKind.name_reads_back (k : NodeKind) :
    (NodeKind.ofText? k.name).toOption.isSome = true := by
  cases k <;> decide +kernel

theorem IsNodeId.looksLikeNodeId {id : String} (h : IsNodeId id) : looksLikeNodeId id = true := by
  obtain ⟨kind, name, rfl, hname⟩ := h
  have hstrip : Text.strip? ":" name = none := by
    refine Option.eq_none_iff_forall_ne_some.2 fun rest hrest => hname ?_
    rw [Text.strip?_eq_some_iff.1 hrest, String.toList_append]
    rfl
  rw [CodeAtlas.looksLikeNodeId, Node.idOf, Text.cut?_colon name kind.colon_not_mem_name]
  simp [hstrip, kind.name_reads_back]

namespace Store

variable {s : Store} {target : String}

theorem definition_cases (s : Store) (target : String) :
    (∃ n ∈ s.nodes, s.definition target = [n]) ∨
      ∃ p, s.definition target = (s.nodesWhere p).mergeSort Node.comesBy := by
  rw [definition]
  split
  · next n _ hfound =>
    refine .inl ⟨n, ?_, rfl⟩
    split at hfound
    · have hn : n ∈ (s.nodes.get? target).toList := hfound ▸ List.mem_cons_self
      exact Rows.mem_of_get? (Option.mem_toList.1 hn)
    · cases hfound
  · dsimp only
    split
    · exact .inr ⟨_, rfl⟩
    · exact .inr ⟨_, rfl⟩

/-- The nodes that a text asks for are stored, and each is listed once. -/
theorem definition_spec (s : Store) (target : String) :
    (∀ n ∈ s.definition target, n ∈ s.nodes) ∧ (s.definition target).Nodup := by
  obtain ⟨n, hn, hone⟩ | ⟨p, hall⟩ := definition_cases s target
  · rw [hone]
    exact ⟨fun k hk => List.mem_singleton.1 hk ▸ hn, List.nodup_singleton n⟩
  · rw [hall]
    exact ⟨fun n hn => (mem_nodesWhere.1 (List.mem_mergeSort.1 hn)).1,
      List.nodup_mergeSort.2 (nodup_nodesWhere s p)⟩

/-- The id of a stored node asks for it alone. -/
theorem definition_id {n : Node} (hn : n ∈ s.nodes) (hid : IsNodeId n.id) :
    s.definition n.id = [n] := by
  rw [definition, if_pos hid.looksLikeNodeId, Rows.mem_iff_get?.1 hn]
  rfl

/-! ## Relations -/

theorem mem_callers {r : Relation} :
    r ∈ s.callers target ↔ ∃ n ∈ s.definition target, r.edge ∈ s.edges ∧
      r.edge.relationship = .calls ∧ r.edge.target = some n.id ∧ r.node ∈ s.nodes ∧
      r.node.id = r.edge.source := by
  simp only [callers, List.mem_mergeSort, List.mem_flatMap, List.mem_filterMap, edgesTo,
    mem_edgesWhere, ofKind, Option.all_some, Bool.and_eq_true, beq_iff_eq, Option.map_eq_some_iff,
    Rows.get?_eq_some_iff]
  constructor
  · rintro ⟨n, hn, e, ⟨he, htarget, hkind⟩, source, ⟨hsource, hid⟩, rfl⟩
    exact ⟨n, hn, he, hkind.symm, htarget, hsource, hid⟩
  · rintro ⟨n, hn, he, hkind, htarget, hsource, hid⟩
    exact ⟨n, hn, r.edge, ⟨he, htarget, hkind.symm⟩, r.node, ⟨hsource, hid⟩, rfl⟩

theorem edgesOut_spec (s : Store) (target : String) (r : Relationship) :
    (s.edgesOut target r).Nodup ∧ ∀ e, e ∈ s.edgesOut target r ↔
      ∃ n ∈ s.definition target, e ∈ s.edges ∧ e.relationship = r ∧ e.source = n.id ∧
        e.target.isSome := by
  have hmem : ∀ e, e ∈ ((s.definition target).flatMap fun n =>
      (s.edgesFrom n.id (some r)).filter (·.target.isSome)) ↔
        ∃ n ∈ s.definition target, e ∈ s.edges ∧ e.relationship = r ∧ e.source = n.id ∧
          e.target.isSome := by
    intro e
    simp only [List.mem_flatMap, List.mem_filter, edgesFrom, mem_edgesWhere, ofKind,
      Option.all_some, Bool.and_eq_true, beq_iff_eq]
    constructor
    · rintro ⟨n, hn, ⟨he, hsource, hkind⟩, htarget⟩
      exact ⟨n, hn, he, hkind.symm, hsource, htarget⟩
    · rintro ⟨n, hn, he, hkind, hsource, htarget⟩
      exact ⟨n, hn, ⟨he, hsource, hkind.symm⟩, htarget⟩
  obtain ⟨hnodup, hiff⟩ := firstOfEach_spec Edge.id fun e he g hg =>
    have ⟨_, _, he, _⟩ := (hmem e).1 he
    have ⟨_, _, hg, _⟩ := (hmem g).1 hg
    Rows.eq_of_key_eq he hg
  exact ⟨hnodup, fun e => (hiff e).trans (hmem e)⟩

theorem mem_outgoing {relationship : Relationship} {r : Relation} :
    r ∈ s.outgoing target relationship ↔ ∃ n ∈ s.definition target, r.edge ∈ s.edges ∧
      r.edge.relationship = relationship ∧ r.edge.source = n.id ∧ r.node ∈ s.nodes ∧
      r.edge.target = some r.node.id := by
  simp only [outgoing, List.mem_mergeSort, List.mem_filterMap,
    (edgesOut_spec s target relationship).2, Option.map_eq_some_iff, Option.bind_eq_some_iff,
    Rows.get?_eq_some_iff]
  constructor
  · rintro ⟨e, ⟨n, hn, he, hkind, hsource, -⟩, found, ⟨id, htarget, hfound, rfl⟩, rfl⟩
    exact ⟨n, hn, he, hkind, hsource, hfound, htarget⟩
  · rintro ⟨n, hn, he, hkind, hsource, hfound, htarget⟩
    exact ⟨r.edge, ⟨n, hn, he, hkind, hsource, by simp [htarget]⟩, r.node,
      ⟨r.node.id, htarget, hfound, rfl⟩, rfl⟩

/-! ## Each edge once -/

/-- Where an edge tells the related node, relations that differ have different edges. -/
theorem nodup_edge_ids {rs : List Relation} (hnodup : rs.Nodup)
    (hstored : ∀ r ∈ rs, r.edge ∈ s.edges)
    (htold : ∀ r ∈ rs, ∀ r' ∈ rs, r.edge = r'.edge → r.node = r'.node) :
    (rs.map (·.edge.id)).Nodup := by
  refine hnodup.map_on fun r hr r' hr' hid => ?_
  have hedge : r.edge = r'.edge := Rows.eq_of_key_eq (hstored r hr) (hstored r' hr') hid
  have hnode : r.node = r'.node := htold r hr r' hr' hedge
  cases r
  cases r'
  cases hedge
  cases hnode
  rfl

theorem nodup_edgesWhere (s : Store) (p : Edge → Bool) : (s.edgesWhere p).Nodup :=
  List.nodup_mergeSort.2 (s.edges.nodup.of_map _ |>.filter p)

theorem nodup_callers (s : Store) (target : String) : (s.callers target).Nodup := by
  obtain ⟨hstored, hnodup⟩ := definition_spec s target
  refine List.nodup_mergeSort.2 (List.nodup_flatMap.2 ⟨fun n _ => ?_, ?_⟩)
  · refine List.Nodup.filterMap (fun e e' r hr hr' => ?_) (nodup_edgesWhere s _)
    obtain ⟨_, -, rfl⟩ := Option.map_eq_some_iff.1 hr
    obtain ⟨_, -, hsame⟩ := Option.map_eq_some_iff.1 hr'
    exact (congrArg Relation.edge hsame).symm
  · -- Two nodes share no call, since an edge has one target.
    refine hnodup.imp_of_mem fun {n k} hn hk hne r hr hr' => hne ?_
    obtain ⟨e, he, hsource⟩ := List.mem_filterMap.1 hr
    obtain ⟨g, hg, hsource'⟩ := List.mem_filterMap.1 hr'
    obtain ⟨_, -, rfl⟩ := Option.map_eq_some_iff.1 hsource
    obtain ⟨_, -, hsame⟩ := Option.map_eq_some_iff.1 hsource'
    cases congrArg Relation.edge hsame
    simp only [edgesTo, mem_edgesWhere, Bool.and_eq_true, beq_iff_eq] at he hg
    have hid : n.id = k.id := Option.some.inj (he.2.1.symm.trans hg.2.1)
    exact Rows.eq_of_key_eq (hstored n hn) (hstored k hk) hid

theorem nodup_outgoing (s : Store) (target : String) (r : Relationship) :
    (s.outgoing target r).Nodup := by
  refine List.nodup_mergeSort.2 ((edgesOut_spec s target r).1.filterMap fun e g r he hg => ?_)
  obtain ⟨_, -, rfl⟩ := Option.map_eq_some_iff.1 he
  obtain ⟨_, -, hsame⟩ := Option.map_eq_some_iff.1 hg
  exact (congrArg Relation.edge hsame).symm

/-- **Callers and callees are two views of the same edges.**  Of two stored nodes with ids of
the form of a node's id, the second is a callee of the first by an edge exactly if the first is
a caller of the second by it, and exactly if it is a stored call from the one to the other.
Whatever text is asked for, an answer lists each edge once, in the order of the related nodes'
positions and then of the edges' places. -/
theorem calls_from_both_ends (s : Store) :
    (∀ a ∈ s.nodes, ∀ b ∈ s.nodes, IsNodeId a.id → IsNodeId b.id → ∀ e,
      ((⟨b, e⟩ : Relation) ∈ s.callees a.id ↔ (⟨a, e⟩ : Relation) ∈ s.callers b.id) ∧
        ((⟨a, e⟩ : Relation) ∈ s.callers b.id ↔
          e ∈ s.edges ∧ e.relationship = .calls ∧ e.source = a.id ∧ e.target = some b.id)) ∧
      ∀ target,
        (((s.callers target).map (·.edge.id)).Nodup ∧
          ((s.callees target).map (·.edge.id)).Nodup) ∧
        ((s.callers target).map Relation.position).Pairwise (· ≤ ·) ∧
        ((s.callees target).map Relation.position).Pairwise (· ≤ ·) := by
  refine ⟨fun a ha b hb haid hbid e => ?_, fun target => ⟨⟨?_, ?_⟩, ?_, ?_⟩⟩
  · rw [callees, mem_outgoing, mem_callers, definition_id ha haid, definition_id hb hbid]
    simp only [List.mem_singleton, exists_eq_left]
    have hcall : (e ∈ s.edges ∧ e.relationship = .calls ∧ e.target = some b.id ∧ a ∈ s.nodes ∧
        a.id = e.source) ↔ e ∈ s.edges ∧ e.relationship = .calls ∧ e.source = a.id ∧
          e.target = some b.id := by
      constructor
      · rintro ⟨he, hkind, htarget, -, hsource⟩
        exact ⟨he, hkind, hsource.symm, htarget⟩
      · rintro ⟨he, hkind, hsource, htarget⟩
        exact ⟨he, hkind, htarget, ha, hsource.symm⟩
    refine ⟨Iff.trans ?_ hcall.symm, hcall⟩
    constructor
    · rintro ⟨he, hkind, hsource, -, htarget⟩
      exact ⟨he, hkind, hsource, htarget⟩
    · rintro ⟨he, hkind, hsource, htarget⟩
      exact ⟨he, hkind, hsource, hb, htarget⟩
  · refine nodup_edge_ids (s := s) (nodup_callers s target) (fun r hr => ?_)
      fun r hr r' hr' hedge => ?_
    · obtain ⟨_, _, he, _⟩ := mem_callers.1 hr
      exact he
    · obtain ⟨_, -, -, -, -, hr, hid⟩ := mem_callers.1 hr
      obtain ⟨_, -, -, -, -, hr', hid'⟩ := mem_callers.1 hr'
      exact Rows.eq_of_key_eq hr hr' (hid.trans (hedge ▸ hid'.symm))
  · refine nodup_edge_ids (s := s) (nodup_outgoing s target .calls) (fun r hr => ?_)
      fun r hr r' hr' hedge => ?_
    · obtain ⟨_, _, he, _⟩ := mem_outgoing.1 hr
      exact he
    · obtain ⟨_, -, -, -, -, hr, hid⟩ := mem_outgoing.1 hr
      obtain ⟨_, -, -, -, -, hr', hid'⟩ := mem_outgoing.1 hr'
      exact Rows.eq_of_key_eq hr hr' (Option.some.inj (hid.symm.trans (hedge ▸ hid')))
  · exact pairwise_mergeSort_of_iff Relation.comesBy Relation.position
      (fun _ _ => Relation.comesBy_iff) _
  · exact pairwise_mergeSort_of_iff Relation.comesBy Relation.position
      (fun _ _ => Relation.comesBy_iff) _

namespace TwoCallers

def function (file name : String) (line : Nat) : Node :=
  ⟨Node.idOf .function (file ++ "." ++ name), .function, name, file ++ "." ++ name, file ++ ".py",
    "python", ⟨line, 0, line + 1, 0⟩, none⟩

def main : Node := function "a" "main" 3

def helper : Node := function "b" "helper" 1

def retry : Node := function "b" "retry" 8

def call (a b : Node) : Edge :=
  ⟨Edge.idOf .calls a.id b.qualifiedName a.file, a.id, some b.id, .calls, .resolved,
    b.qualifiedName, a.file, ⟨4, 4, 4, 12⟩⟩

/-- Two functions that call a third one, and one of them itself. -/
def store : Store :=
  { Store.empty with
    nodes := Rows.putAll {} [main, helper, retry]
    edges := Rows.putAll {} [call main helper, call retry helper, call retry retry] }

end TwoCallers

open TwoCallers in
theorem calls_from_both_ends_twoCallers :
    (main ∈ store.nodes ∧ helper ∈ store.nodes ∧ IsNodeId main.id ∧ IsNodeId helper.id) ∧
      (⟨helper, call main helper⟩ : Relation) ∈ store.callees main.id ∧
      (⟨main, call main helper⟩ : Relation) ∈ store.callers helper.id ∧
      (⟨helper, call retry retry⟩ : Relation) ∉ store.callees retry.id ∧
      ((store.callers "b.helper").map (·.edge.id)).Nodup := by
  have hmain : main ∈ store.nodes := by decide
  have hhelper : helper ∈ store.nodes := by decide
  have hretry : retry ∈ store.nodes := by decide
  have hmainId : IsNodeId main.id := ⟨.function, "a.main", rfl, by decide⟩
  have hhelperId : IsNodeId helper.id := ⟨.function, "b.helper", rfl, by decide⟩
  have hretryId : IsNodeId retry.id := ⟨.function, "b.retry", rfl, by decide⟩
  obtain ⟨hviews, honce⟩ := calls_from_both_ends store
  have hcall := hviews main hmain helper hhelper hmainId hhelperId (call main helper)
  have hcaller := hcall.2.2 ⟨by decide, rfl, rfl, rfl⟩
  have hown := hviews retry hretry helper hhelper hretryId hhelperId (call retry retry)
  refine ⟨⟨hmain, hhelper, hmainId, hhelperId⟩, hcall.1.2 hcaller, hcaller, fun h => ?_,
    (honce "b.helper").1.1⟩
  exact absurd (hown.2.1 (hown.1.1 h)).2.2.2 (by decide)

end Store

end CodeAtlas
