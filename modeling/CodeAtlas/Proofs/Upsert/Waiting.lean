import CodeAtlas.Proofs.Resolve.Contribution
import CodeAtlas.Proofs.Upsert.Calls

/-!
# CodeAtlas.Proofs.Upsert.Waiting

When an edge waits for a qualified name that a stored node has.

Nothing is left waiting in this way by merging: a new node is given to the edges that
wait for it, and an edge that is merged is given a target that is stored.  What
remains is retracting.  An edge whose target goes waits again without another look at
the store, which is too little if a second node has the qualified name and is of
another kind that the edge accepts.  `Call.Strands` is that case, and
`Effect.noneWaits_iff` says that it is the only one.
-/

namespace CodeAtlas

open Upsert

/-- No edge waits for a qualified name while a node that it means is stored. -/
def Store.NoneWaits (s : Store) : Prop :=
  ∀ e ∈ s.edges, e.target = none → e.waitsQualified = true → ∀ n ∈ s.nodes, ¬ e.Means n

instance (s : Store) : Decidable s.NoneWaits :=
  inferInstanceAs (Decidable (∀ e ∈ s.edges.toList, e.target = none → e.waitsQualified = true →
    ∀ n ∈ s.nodes.toList, ¬ e.Means n))

theorem Store.NoneWaits.empty : Store.NoneWaits .empty :=
  fun e he => absurd he (Rows.not_mem_empty e)

namespace Upsert

variable {s t : Store}

/-! ## Where a waiting edge comes from -/

/-- An edge that waits after edges were merged was waiting before, if it could have
been given a target. -/
theorem waiting_of_edgeMerged {g : Edge} (h : EdgeMerged g s t) {e : Edge} {n : Node}
    (he : e ∈ t.edges) (ht : e.target = none) (hq : e.waitsQualified = true) (hn : n ∈ t.nodes)
    (hm : e.Means n) : e ∈ s.edges := by
  rcases h.edge_from he with rfl | hold
  · -- A merged edge that waits has no target in the store.
    obtain ⟨hsame, hnone⟩ := withTarget_waiting ht
    rw [validIn, hsame] at hq hm
    exact absurd hm ((targetIn_eq_none_iff hq).1 hnone n hn)
  · exact hold

theorem waiting_of_edge_steps {gs : List Edge} (h : Steps EdgeMerged gs s t) {e : Edge} {n : Node}
    (he : e ∈ t.edges) (ht : e.target = none) (hq : e.waitsQualified = true) (hn : n ∈ t.nodes)
    (hm : e.Means n) : e ∈ s.edges := by
  induction h with
  | nil => exact he
  | @cons g gs s u t hg hgs ih =>
      have heu : e ∈ u.edges := ih he hn
      rw [hgs.edges_merged_nodes] at hn
      exact waiting_of_edgeMerged hg heu ht hq hn hm

/-- An edge that waits after a node was merged was waiting before, and for a node that
was there before. -/
theorem waiting_of_nodeMerged {x : Node} (h : NodeMerged x s t) (hx : x.Formed)
    (hs : ∀ n ∈ s.nodes, n.Formed) {e : Edge} {n : Node} (he : e ∈ t.edges) (ht : e.target = none)
    (hn : n ∈ t.nodes) (hm : e.Means n) : e ∈ s.edges ∧ ∃ m ∈ s.nodes, e.Means m := by
  have hfrom := h.means_from hx hs hn hm
  obtain ⟨old, hold, ⟨hin, rfl⟩ | ⟨-, rfl⟩⟩ := h.edge_from he
  · rcases hfrom with hstored | ⟨hnew, -⟩
    · exact ⟨hold, hstored⟩
    · rw [hin] at hnew
      cases hnew
  · obtain ⟨hsame, hnot⟩ := linkedTo_waiting ht
    rw [hsame] at hfrom ⊢
    rcases hfrom with hstored | ⟨-, hmeans⟩
    · exact ⟨hold, hstored⟩
    · exact absurd hmeans hnot

theorem waiting_of_node_steps {ns : List Node} (h : Steps NodeMerged ns s t)
    (hns : ∀ n ∈ ns, n.Formed) (hs : ∀ n ∈ s.nodes, n.Formed) {e : Edge} {n : Node}
    (he : e ∈ t.edges) (ht : e.target = none) (hn : n ∈ t.nodes) (hm : e.Means n) :
    e ∈ s.edges ∧ ∃ m ∈ s.nodes, e.Means m := by
  induction h generalizing n with
  | nil => exact ⟨he, n, hn, hm⟩
  | @cons x xs s u t hx _ ih =>
      have hxf : x.Formed := hns x List.mem_cons_self
      obtain ⟨heu, m, hmu, hmm⟩ :=
        ih (fun y hy => hns y (List.mem_cons_of_mem x hy)) (hx.formed hxf hs) he hn hm
      exact waiting_of_nodeMerged hx hxf hs heu ht hmu hmm

/-- An edge that waits after a file has given up some ids either lost its target just
then, or was waiting before; and a node that it means was there before and did not
go. -/
theorem waiting_of_retracted {path : String} {stale : List String} (h : Retracted path stale s t)
    {e : Edge} {n : Node} (he : e ∈ t.edges) (ht : e.target = none) (hn : n ∈ t.nodes)
    (hm : e.Means n) : ∃ old ∈ s.edges, old.unlink = e.unlink ∧
      (old.target = none ∨ ∃ d, old.target = some d ∧ Goes s path stale d) ∧
      ∃ m ∈ s.nodes, old.Means m ∧ ¬ Goes s path stale m.id := by
  have hback := h.means_from hn hm
  obtain ⟨old, hold, ⟨hlost, rfl⟩ | ⟨-, rfl⟩⟩ := h.edge_from he
  · exact ⟨old, hold, rfl, Or.inr hlost, hback⟩
  · exact ⟨e, hold, rfl, Or.inl ht, hback⟩

end Upsert

/-! ## Stranded edges -/

/-- Whether a call makes a node go: its file claimed the node, is not given it again,
and no other file claims it. -/
def Call.Drops (c : Call) (s : Store) (id : String) : Prop :=
  ∃ path nodes edges, c.given? = some (path, nodes, edges) ∧
    Goes s path (staleIds (s.records.get? path) nodes edges) id

/-- A call strands an edge: it makes the edge's target go and leaves the edge waiting,
although a node that the edge means was there before and does not go. -/
def Call.Strands (c : Call) (s t : Store) : Prop :=
  ∃ e ∈ s.edges, e.waitsQualified = true ∧ (∃ d, e.target = some d ∧ c.Drops s d) ∧
    (∃ n ∈ s.nodes, e.Means n ∧ ¬ c.Drops s n.id) ∧
    ∃ e' ∈ t.edges, e'.unlink = e.unlink ∧ e'.target = none

namespace Upsert.Replaced

variable {path : String} {nodes : List Node} {edges : List Edge} {s t : Store}

/-- If an edge waits for a name that a stored node has after a change, and none did
before, then the change took the edge's target and left another node that the edge
means. -/
theorem stranded (h : Replaced path (s.records.get? path) nodes edges s t) (hs : s.NoneWaits)
    (hnodes : ∀ n ∈ nodes, n.Formed) (hform : ∀ n ∈ s.nodes, n.Formed) {e : Edge} {n : Node}
    (he : e ∈ t.edges) (ht : e.target = none) (hq : e.waitsQualified = true) (hn : n ∈ t.nodes)
    (hm : e.Means n) : ∃ old ∈ s.edges, old.unlink = e.unlink ∧
      (∃ d, old.target = some d ∧ Goes s path (staleIds (s.records.get? path) nodes edges) d) ∧
      ∃ m ∈ s.nodes, old.Means m ∧
        ¬ Goes s path (staleIds (s.records.get? path) nodes edges) m.id := by
  obtain ⟨u, v, hr, hv, hw⟩ := h
  have hev : e ∈ v.edges := waiting_of_edge_steps hw he ht hq hn hm
  rw [hw.edges_merged_nodes] at hn
  obtain ⟨heu, m, hmu, hmm⟩ := waiting_of_node_steps hv hnodes (hr.formed hform) hev ht hn hm
  obtain ⟨old, hold, hu, hlost, m', hm', hmeans, hstays⟩ := waiting_of_retracted hr heu ht hmu hmm
  rcases hlost with hwaits | hlost
  · have hqold : old.waitsQualified = true := (Edge.waitsQualified_congr hu).trans hq
    exact absurd hmeans (hs old hold hwaits hqold m' hm')
  · exact ⟨old, hold, hu, hlost, m', hm', hmeans, hstays⟩

end Upsert.Replaced

/-- Whether a call replaces what a file contributes, by nodes that are known by their
kinds and qualified names. -/
def Call.Formed (c : Call) : Prop :=
  ∃ path nodes edges, c.given? = some (path, nodes, edges) ∧ ∀ n ∈ nodes, n.Formed

namespace Upsert

variable {c : Call} {s t : Store}

theorem Effect.formed (h : Effect c s t) (hc : c.Formed) (hs : ∀ n ∈ s.nodes, n.Formed) :
    ∀ n ∈ t.nodes, n.Formed := by
  obtain ⟨path, nodes, edges, hg, hnodes⟩ := hc
  obtain ⟨u, hr, hn, -⟩ := h.replaced hg
  rw [hn]
  exact hr.formed hnodes hs

/-- The effect of a call leaves an edge waiting for what is stored exactly if it
strands one. -/
theorem Effect.noneWaits_iff (h : Effect c s t) (hc : c.Formed) (hform : ∀ n ∈ s.nodes, n.Formed)
    (hs : s.NoneWaits) : t.NoneWaits ↔ ¬ c.Strands s t := by
  obtain ⟨path, nodes, edges, hg, hnodes⟩ := hc
  obtain ⟨u, hr, htn, hte⟩ := h.replaced hg
  have hdrops : ∀ id,
      c.Drops s id ↔ Goes s path (staleIds (s.records.get? path) nodes edges) id := by
    intro id
    constructor
    · rintro ⟨p, ns, es, hg', hgoes⟩
      rw [hg, Option.some.injEq] at hg'
      cases hg'
      exact hgoes
    · exact fun hgoes => ⟨path, nodes, edges, hg, hgoes⟩
  constructor
  · rintro ht ⟨e, he, hq, -, ⟨n, hn, hm, hstays⟩, e', he', hu, hwaits⟩
    obtain ⟨m, hmem, ha⟩ := hr.node_stays hnodes hform hn (mt (hdrops n.id).2 hstays)
    have hmeans : e'.Means m := ((Edge.means_congr hu n).2 hm).alike ha
    exact ht e' he' hwaits ((Edge.waitsQualified_congr hu).trans hq) m (htn ▸ hmem) hmeans
  · intro hstrands e he ht hq n hn hm
    rw [hte] at he
    rw [htn] at hn
    obtain ⟨old, hold, hu, ⟨d, hd, hgoes⟩, m, hmem, hmeans, hstays⟩ :=
      hr.stranded hs hnodes hform he ht hq hn hm
    have hqold : old.waitsQualified = true := (Edge.waitsQualified_congr hu).trans hq
    have hdropped : c.Drops s d := (hdrops d).2 hgoes
    have hkept : ¬ c.Drops s m.id := mt (hdrops m.id).1 hstays
    exact hstrands ⟨old, hold, hqold, ⟨d, hd, hdropped⟩, ⟨m, hmem, hmeans, hkept⟩, e, hte ▸ he,
      hu.symm, ht⟩

end Upsert

/-! ## Runs -/

/-- A call that changes nothing strands no edge. -/
theorem Call.not_strands_self (c : Call) (s : Store) : ¬ c.Strands s s := by
  rintro ⟨e, he, -, ⟨d, hd, -⟩, -, e', he', hu, ht⟩
  have hid := congrArg Edge.id hu
  rw [Rows.eq_of_key_eq he' he hid, hd] at ht
  cases ht

/-- A call on a store in use leaves an edge waiting for what is stored exactly if it
strands one. -/
theorem Backend.noneWaits_perform {b : Backend} {c : Call} (hc : c.Formed)
    (hform : ∀ n ∈ b.store.nodes, n.Formed) (hs : b.store.NoneWaits) :
    (b.perform c).2.store.NoneWaits ↔ ¬ c.Strands b.store (b.perform c).2.store := by
  rcases b.perform_cases c with ⟨-, he⟩ | ⟨-, hsame⟩
  · exact he.noneWaits_iff hc hform hs
  · rw [hsame]
    exact ⟨fun _ => c.not_strands_self b.store, fun _ => hs⟩

/-- A class and a function of one qualified name, and a file that imports it; once the
class is gone the import waits, and the function is not looked at. -/
def homonyms : List Call :=
  [.apply (.plain "c.py") [.plain .classLike "f" "a.f" "c.py"] [],
    .apply (.plain "b.py") [] [.plain .imports "module:b" "a.f" "b.py"],
    .apply (.plain "a.py") [.plain .function "f" "a.f" "a.py"] [],
    .delete "c.py"]

example : ¬ (Backend.new.performAll homonyms).store.NoneWaits := by decide +kernel

/-! ## Contributions of resolved files -/

/-- Whether a call deletes a file, or applies what a file was resolved to with any
knowledge of other files. -/
def Call.Resolved : Call → Prop
  | .apply _ nodes edges => ∃ index f r, Resolve.resolve index f = .ok r ∧ r.nodes = nodes ∧
      r.edges = edges
  | .delete _ => True
  | .relink => False

theorem Call.Resolved.formed {c : Call} (h : c.Resolved) : c.Formed := by
  cases c with
  | apply record nodes edges =>
      obtain ⟨index, f, r, hr, rfl, rfl⟩ := h
      exact ⟨record.path, r.nodes, r.edges, rfl, Resolve.nodes_formed hr⟩
  | delete path => exact ⟨path, [], [], rfl, fun _ hn => absurd hn List.not_mem_nil⟩
  | relink => exact h.elim

/-- **An edge waits for a stored node only if a call stranded it.**  While the files of an
empty store are resolved, applied and deleted, no edge ever waits for a qualified name
that a stored node of an accepted kind has, if and only if no call strands an edge: takes
the target of an edge that stays, and leaves another node that the edge means. -/
theorem noneWaits_iff_not_strands {b : Backend} {cs : List Call} (hb : b.store = .empty)
    (hcs : ∀ c ∈ cs, c.Resolved) :
    (∀ pre, pre <+: cs → (b.performAll pre).store.NoneWaits) ↔
      ∀ pre c, pre ++ [c] <+: cs →
        ¬ c.Strands (b.performAll pre).store (b.performAll (pre ++ [c])).store := by
  have hform : ∀ pre, pre <+: cs → ∀ n ∈ (b.performAll pre).store.nodes, n.Formed := by
    intro pre hp
    have hreach : Reachable Call.Formed (b.performAll pre) :=
      (Reachable.start hb).performAll fun c hc => (hcs c (hp.subset hc)).formed
    exact hreach.keeps (I := fun s => ∀ n ∈ s.nodes, n.Formed)
      (fun n hn => absurd hn (Rows.not_mem_empty n)) fun s c t hs hc he => he.formed hc hs
  refine Backend.forall_prefix_iff (B := Call.Strands) (hb ▸ Store.NoneWaits.empty)
    fun pre c hp hpre => ?_
  have hc : c.Formed := (hcs c (hp.subset (by simp))).formed
  rw [Backend.performAll_concat]
  exact Backend.noneWaits_perform hc (hform pre ((List.prefix_append pre [c]).trans hp)) hpre

/-- A file that defines a class and a function of one name, and the same file without the
class. -/
def twoDefinitions : SourceFile × SourceFile :=
  let function : Fact := .definition .function "f" [] ⟨2, 0, 3, 8⟩ "def f():"
  let file : SourceFile := ⟨"a.py", "a.py", "python", ".", [function], ⟨0, 0, 4, 0⟩⟩
  ({ file with facts := [.definition .classLike "f" [] ⟨0, 0, 1, 8⟩ "class f:", function] }, file)

/-- A file that imports what has that name. -/
def importing : SourceFile :=
  ⟨"b.py", "b.py", "python", ".", [.imported "f" "a.f" [] ⟨0, 0, 0, 17⟩], ⟨0, 0, 1, 0⟩⟩

/-- The call that applies a file, resolved without knowledge of other files. -/
def applyResolved (f : SourceFile) : Call :=
  match Resolve.resolve ⟨fun _ => .ok [], fun _ => .ok []⟩ f with
  | .ok r => .apply (.plain f.filePath) r.nodes r.edges
  | .error _ => .delete f.filePath

/-- The import loses its target to the second version of the file. -/
def loseClass : List Call :=
  [applyResolved twoDefinitions.1, applyResolved importing, applyResolved twoDefinitions.2]

theorem noneWaits_iff_not_strands_loseClass :
    (∀ pre, pre <+: loseClass → (Backend.new.performAll pre).store.NoneWaits) ↔
      ∀ pre c, pre ++ [c] <+: loseClass →
        ¬ c.Strands (Backend.new.performAll pre).store
          (Backend.new.performAll (pre ++ [c])).store := by
  refine noneWaits_iff_not_strands rfl fun c hc => ?_
  have happly : ∀ f, (applyResolved f).Resolved := by
    intro f
    rw [applyResolved]
    split
    · next r hr => exact ⟨_, f, r, hr, rfl, rfl⟩
    · trivial
  simp only [loseClass, List.mem_cons, List.not_mem_nil, or_false] at hc
  rcases hc with rfl | rfl | rfl <;> exact happly _

end CodeAtlas
