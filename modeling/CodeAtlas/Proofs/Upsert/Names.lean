import CodeAtlas.Proofs.Indexing.Symbols
import CodeAtlas.Proofs.Resolve.Contribution
import CodeAtlas.Proofs.Upsert.Calls

/-!
# CodeAtlas.Proofs.Upsert.Names

When an edge that is linked by a simple name has the only node that it may mean.

An edge is linked by name only at a moment at which one node fits: while its file is
resolved, when it is merged, or when the node comes.  So at the end of a change its target
fitted in the store before the change or fits in the store after it, and of what else fits
afterwards nothing did before (`Edge.LinkedSince`).  Nobody looks at the edge again when
other nodes come or its target changes.  `Crowds` is that case, and `Effect.namesUnique_iff`
says that it is the only one in which a link by name is not to the only node.
-/

namespace CodeAtlas

open Upsert

/-! ## Links by name -/

/-- Whether an edge may mean a node by its simple name: one of another file that is no
module and of a kind that the edge accepts. -/
def Edge.MayMean (e : Edge) (n : Node) : Prop :=
  n.kind ≠ .module ∧ n.file ≠ e.file ∧ n.name = e.targetRef ∧ e.relationship.accepts n.kind = true

instance (e : Edge) (n : Node) : Decidable (e.MayMean n) :=
  inferInstanceAs (Decidable (_ ∧ _ ∧ _ ∧ _))

/-- The target of an edge is the only node that it may mean by its simple name. -/
def Edge.NamesOnly (s : Store) (e : Edge) : Prop :=
  ∃ n ∈ s.nodes, e.target = some n.id ∧ e.MayMean n ∧ ∀ m ∈ s.nodes, e.MayMean m → m = n

/-- All edges that are linked by name have the only node that they may mean. -/
def Store.NamesUnique (s : Store) : Prop :=
  ∀ e ∈ s.edges, e.confidence = .heuristic → e.NamesOnly s

theorem Store.NamesUnique.empty : Store.NamesUnique .empty :=
  fun e he => absurd he (Rows.not_mem_empty e)

/-- A change crowds an edge that is linked by name: a node comes that the edge may mean,
and that is not its target; or the target was a node that it may mean, and is not any
more. -/
def Crowds (s t : Store) : Prop :=
  ∃ e ∈ t.edges, e.confidence = .heuristic ∧
    ((∃ m ∈ t.nodes, e.MayMean m ∧ e.target ≠ some m.id ∧
        ∀ m' ∈ s.nodes, m'.id = m.id → ¬ e.MayMean m') ∨
      ∃ n ∈ s.nodes, e.MayMean n ∧ e.target = some n.id ∧
        ∀ n' ∈ t.nodes, n'.id = n.id → ¬ e.MayMean n')

/-- A store in which links by name are unique was not crowded. -/
theorem Store.NamesUnique.not_crowds {t : Store} (ht : t.NamesUnique) (s : Store) :
    ¬ Crowds s t := by
  rintro ⟨e, he, hguess, ⟨m, hm, hmay, htarget, -⟩ | ⟨n, -, -, htarget, hleft⟩⟩
  · obtain ⟨n, -, hn, -, honly⟩ := ht e he hguess
    rw [honly m hm hmay] at htarget
    exact htarget hn
  · obtain ⟨n', hn', ht', hmay, -⟩ := ht e he hguess
    exact hleft n' hn' (Option.some.inj (ht'.symm.trans htarget)) hmay

namespace Edge

variable {s t u : Store} {e : Edge}

/-- The only one of the nodes with a name that passes a test is the only one that the edge
may mean, if that is the test. -/
theorem namesOnly_of_filter {p : Node → Bool} {n : Node}
    (hp : ∀ m, m.name = e.targetRef → (p m = true ↔ e.MayMean m))
    (hone : (s.nodesNamed e.targetRef).filter p = [n]) (htarget : e.target = some n.id) :
    e.NamesOnly s := by
  have hmem : ∀ m, m ∈ (s.nodesNamed e.targetRef).filter p ↔ m ∈ s.nodes ∧ e.MayMean m := by
    intro m
    rw [List.mem_filter, Store.mem_nodesNamed]
    constructor
    · rintro ⟨⟨hm, hname⟩, hpm⟩
      exact ⟨hm, (hp m hname).1 hpm⟩
    · rintro ⟨hm, hmay⟩
      exact ⟨⟨hm, hmay.2.2.1⟩, (hp m hmay.2.2.1).2 hmay⟩
  simp only [hone, List.mem_singleton] at hmem
  obtain ⟨hn, hmay⟩ := (hmem n).1 rfl
  exact ⟨n, hn, htarget, hmay, fun m hm hm' => (hmem m).2 ⟨hm, hm'⟩⟩

/-- A target that is found by name is the only one. -/
theorem namesOnly_of_uniqueTarget {id : String} {c : Confidence}
    (h : uniqueTarget e (s.nodesNamed e.targetRef) = some id) : (e.link id c).NamesOnly s := by
  rw [uniqueTarget] at h
  split at h
  · next n hone =>
    cases h
    refine namesOnly_of_filter (e := e.link n.id c) (fun m hname => ?_) hone rfl
    simp only [MayMean, Edge.link, Bool.and_eq_true, bne_iff_ne, and_assoc, hname, true_and]
  · cases h

/-- Of an edge that is linked by name, in a store that comes after another one: its target
is what it may mean in one of them, and what else it may mean now it could not mean
before. -/
def LinkedSince (s t : Store) (e : Edge) : Prop :=
  ∃ d, e.target = some d ∧
    (∀ m ∈ t.nodes, e.MayMean m → m.id = d ∨ ∀ m' ∈ s.nodes, m'.id = m.id → ¬ e.MayMean m') ∧
    ((∃ n ∈ s.nodes, n.id = d ∧ e.MayMean n) ∨ ∃ n ∈ t.nodes, n.id = d ∧ e.MayMean n)

theorem NamesOnly.before (h : e.NamesOnly s) (t : Store) : e.LinkedSince s t := by
  obtain ⟨n, hn, htarget, hmay, honly⟩ := h
  refine ⟨n.id, htarget, fun m _ _ => ?_, Or.inl ⟨n, hn, rfl, hmay⟩⟩
  by_cases hid : m.id = n.id
  · exact Or.inl hid
  · refine Or.inr fun m' hm' hid' hmay' => hid ?_
    rw [← hid', honly m' hm' hmay']

theorem NamesOnly.after (h : e.NamesOnly t) (s : Store) : e.LinkedSince s t := by
  obtain ⟨n, hn, htarget, hmay, honly⟩ := h
  exact ⟨n.id, htarget, fun m hm hm' => Or.inl (by rw [honly m hm hm']),
    Or.inr ⟨n, hn, rfl, hmay⟩⟩

theorem LinkedSince.congr (h : e.LinkedSince s t) (hn : u.nodes = t.nodes) :
    e.LinkedSince s u := by
  rw [LinkedSince, hn]
  exact h

/-- What is linked by name and not crowded has the only node. -/
theorem LinkedSince.namesOnly (h : e.LinkedSince s t) (he : e ∈ t.edges)
    (hguess : e.confidence = .heuristic) (hcrowds : ¬ Crowds s t) : e.NamesOnly t := by
  obtain ⟨d, htarget, hcome, hstored⟩ := h
  have honly : ∀ m ∈ t.nodes, e.MayMean m → m.id = d := by
    intro m hm hmay
    by_contra hid
    have hnew := (hcome m hm hmay).resolve_left hid
    refine hcrowds ⟨e, he, hguess, Or.inl ⟨m, hm, hmay, fun ht => hid ?_, hnew⟩⟩
    exact Option.some.inj (ht.symm.trans htarget)
  obtain ⟨n, hn, rfl, hmay⟩ : ∃ n ∈ t.nodes, n.id = d ∧ e.MayMean n := by
    rcases hstored with ⟨n, hn, rfl, hmay⟩ | hstored
    · by_contra hleft
      exact hcrowds ⟨e, he, hguess, Or.inr ⟨n, hn, hmay, htarget,
        fun n' hn' hid hmay' => hleft ⟨n', hn', hid, hmay'⟩⟩⟩
    · exact hstored
  exact ⟨n, hn, htarget, hmay, fun m hm hm' => Rows.eq_of_key_eq hm hn (honly m hm hm')⟩

end Edge

namespace Upsert

variable {s t u v : Store}

/-! ## The parts of a change -/

/-- Merging a node of which the store had the version of the beginning. -/
theorem NodeMerged.linkedSince {x : Node} {e : Edge} (h : NodeMerged x u v)
    (hsame : u.nodes.get? x.id = s.nodes.get? x.id) (hu : e.LinkedSince s u) :
    e.LinkedSince s v := by
  obtain ⟨d, htarget, hcome, hstored⟩ := hu
  refine ⟨d, htarget, fun m hm hmay => ?_, ?_⟩
  · rcases h.node_from hm with rfl | ⟨-, hold⟩
    · -- The node may have been what the edge means all along.
      by_cases hbefore : ∃ m' ∈ s.nodes, m'.id = m.id ∧ e.MayMean m'
      · obtain ⟨m', hm', hid, hmay'⟩ := hbefore
        have hmu : m' ∈ u.nodes := by
          rw [Rows.mem_iff_get?, hid, hsame, ← hid, Rows.mem_iff_get?.1 hm']
        refine Or.inl (hid ▸ (hcome m' hmu hmay').elim (fun hd => hd) fun hnew => ?_)
        exact absurd hmay' (hnew m' hm' rfl)
      · exact Or.inr fun m' hm' hid hmay' => hbefore ⟨m', hm', hid, hmay'⟩
    · exact hcome m hold hmay
  · rcases hstored with hstored | ⟨n, hn, rfl, hmay⟩
    · exact Or.inl hstored
    · by_cases hid : x.id = n.id
      · rw [hid, Rows.mem_iff_get?.1 hn] at hsame
        exact Or.inl ⟨n, Rows.mem_of_get? hsame.symm, rfl, hmay⟩
      · refine Or.inr ⟨n, ?_, rfl, hmay⟩
        rw [Rows.mem_iff_get?, h.nodes, if_neg hid, Rows.mem_iff_get?.1 hn]

/-- Linking by name is to the only node. -/
theorem linkedTo_guess {n : Node} {e : Edge} (h : (linkedTo s n e).confidence = .heuristic) :
    linkedTo s n e = e ∨ (linkedTo s n e).NamesOnly s := by
  rw [linkedTo] at h ⊢
  split
  · exact Or.inl rfl
  · next hr =>
    rw [if_neg hr] at h
    split
    · next hm =>
      rw [if_pos hm] at h
      cases h
    · split
      · next hl => exact Or.inr (Edge.namesOnly_of_uniqueTarget hl.2.2.2.2)
      · exact Or.inl rfl

theorem linkedSince_of_node_steps {nodes : List Node} (h : Steps NodeMerged nodes u v)
    (hids : (nodes.map Node.id).Nodup)
    (hsame : ∀ x ∈ nodes, u.nodes.get? x.id = s.nodes.get? x.id)
    (hu : ∀ e ∈ u.edges, e.confidence = .heuristic → e.LinkedSince s u) :
    ∀ e ∈ v.edges, e.confidence = .heuristic → e.LinkedSince s v := by
  induction h with
  | nil => exact hu
  | @cons x xs u w v hx _ ih =>
      rw [List.map_cons, List.nodup_cons] at hids
      refine ih hids.2 (fun y hy => ?_) fun e he hguess => ?_
      · have hne : x.id ≠ y.id := fun hid => hids.1 (hid ▸ List.mem_map_of_mem hy)
        rw [hx.nodes, if_neg hne]
        exact hsame y (List.mem_cons_of_mem x hy)
      · have hkept : ∀ g ∈ u.edges, g.confidence = .heuristic → g.LinkedSince s w :=
          fun g hg hgg => hx.linkedSince (hsame x List.mem_cons_self) (hu g hg hgg)
        obtain ⟨old, hold, ⟨-, rfl⟩ | ⟨-, rfl⟩⟩ := hx.edge_from he
        · exact hkept e hold hguess
        · rcases linkedTo_guess hguess with hself | honly
          · rw [hself] at hguess ⊢
            exact hkept old hold hguess
          · exact honly.after s

/-- A target that is looked for is found by name only if it is the only one. -/
theorem withTarget_guess {e : Edge} (h : (withTarget s e).confidence = .heuristic) :
    withTarget s e = e ∨ (withTarget s e).NamesOnly s := by
  rw [withTarget] at h ⊢
  split
  · exact Or.inl rfl
  · next hr =>
    rw [if_neg hr] at h
    split
    · next id c hfound =>
      rw [hfound] at h
      obtain rfl : c = .heuristic := h
      rw [targetIn] at hfound
      split at hfound
      · obtain ⟨n, -, hn⟩ := Option.map_eq_some_iff.1 hfound
        cases hn
      · obtain ⟨id', hunique, hid⟩ := Option.map_eq_some_iff.1 hfound
        cases hid
        exact Or.inr (Edge.namesOnly_of_uniqueTarget hunique)
    · exact Or.inl rfl

/-- An edge that is linked by name when it is merged was handed in so, or is given the only
node. -/
theorem validIn_guess {g : Edge} (h : (validIn s g).confidence = .heuristic) :
    (validIn s g = g ∧ g.confidence = .heuristic) ∨ (validIn s g).NamesOnly s := by
  rw [validIn] at h ⊢
  rcases withTarget_guess h with hsame | honly
  · rw [hsame] at h ⊢
    split
    · next hstored =>
      rw [if_pos hstored] at h
      exact Or.inl ⟨rfl, h⟩
    · next hstored =>
      rw [if_neg hstored] at h
      cases h
  · exact Or.inr honly

theorem linkedSince_of_edge_steps {edges : List Edge} (h : Steps EdgeMerged edges u v)
    (hedges : ∀ g ∈ edges, g.confidence = .heuristic → g.NamesOnly s)
    (hu : ∀ e ∈ u.edges, e.confidence = .heuristic → e.LinkedSince s u) :
    ∀ e ∈ v.edges, e.confidence = .heuristic → e.LinkedSince s v := by
  refine h.keep (I := fun w => ∀ e ∈ w.edges, e.confidence = .heuristic → e.LinkedSince s w)
    (fun g hg w x hgx hw e he hguess => ?_) hu
  rcases hgx.edge_from he with rfl | hold
  · rcases validIn_guess hguess with ⟨hsame, hgiven⟩ | honly
    · rw [hsame]
      exact (hedges g hg hgiven).before x
    · exact honly.after s
  · exact (hw e hold hguess).congr hgx.nodes

/-- At the end of a change whatever is linked by name is so since it began. -/
theorem Replaced.linkedSince {path : String} {nodes : List Node} {edges : List Edge}
    (h : Replaced path (s.records.get? path) nodes edges s t) (hs : s.NamesUnique)
    (hids : (nodes.map Node.id).Nodup)
    (hedges : ∀ g ∈ edges, g.confidence = .heuristic → g.NamesOnly s) :
    ∀ e ∈ t.edges, e.confidence = .heuristic → e.LinkedSince s t := by
  obtain ⟨u, v, hr, hv, ht⟩ := h
  refine linkedSince_of_edge_steps ht hedges (linkedSince_of_node_steps hv hids ?_ ?_)
  · -- A node that is given is not stale, so it was not released.
    intro x hx
    rw [hr.nodes, if_neg fun hstale => ?_]
    exact (mem_staleIds.1 hstale.1).2 (mem_contributionOf.2 (Or.inl ⟨x, hx, rfl⟩))
  · intro e he hguess
    obtain ⟨old, hold, ⟨-, rfl⟩ | ⟨-, rfl⟩⟩ := hr.edge_from he
    · cases hguess
    · exact (hs e hold hguess).before u

end Upsert

/-! ## Calls of resolved files -/

/-- Whether a call deletes a file, or applies what a file was resolved to with the
knowledge of the nodes that are published. -/
def Call.ResolvedIn (b : Backend) : Call → Prop
  | .apply _ nodes edges => ∃ f r, Resolve.resolve b.symbols f = .ok r ∧ r.nodes = nodes ∧
      r.edges = edges
  | .delete _ => True
  | .relink => False

/-- What a file is resolved to is linked by name only to the only node. -/
theorem Resolve.MadeFrom.namesOnly {b : Backend} {f : SourceFile} {r : Resolution}
    (h : MadeFrom f (FileScope.ofFile f) b.symbols r) {e : Edge} (he : e ∈ r.edges)
    (hguess : e.confidence = .heuristic) : e.NamesOnly b.store := by
  obtain ⟨rel, source, t, span, rfl, ⟨-, n, -, rfl⟩ | ⟨fact, hfact⟩⟩ := h.edge e he
  · cases hguess
  · obtain ⟨named, sym, hnamed, hone, hid⟩ := reference?_onlyOne hfact hguess
    rw [Backend.byName_eq hnamed, List.filter_map] at hone
    obtain ⟨n, hn, rfl⟩ := List.map_eq_singleton_iff.1 hone
    refine Edge.namesOnly_of_filter (fun m hname => ?_) hn hid
    simp only [Edge.MayMean, edgeTo, Function.comp_apply, Node.symbol, Bool.and_eq_true, bne_iff_ne,
      hname, true_and]
    constructor
    · rintro ⟨⟨hfile, hkind⟩, hacc⟩
      exact ⟨hkind, hfile, hacc⟩
    · rintro ⟨hkind, hfile, hacc⟩
      exact ⟨⟨hfile, hkind⟩, hacc⟩

/-- The effect of a call of a resolved file leaves a link by name that is not to the only
node exactly if it crowds an edge. -/
theorem Upsert.Effect.namesUnique_iff {b : Backend} {c : Call} {t : Store}
    (h : Effect c b.store t) (hc : c.ResolvedIn b) (hs : b.store.NamesUnique) :
    t.NamesUnique ↔ ¬ Crowds b.store t := by
  refine ⟨fun ht => ht.not_crowds b.store, fun hcrowds e he hguess => ?_⟩
  obtain ⟨path, nodes, edges, hg, hids, hedges⟩ : ∃ path nodes edges,
      c.given? = some (path, nodes, edges) ∧ (nodes.map Node.id).Nodup ∧
        ∀ g ∈ edges, g.confidence = .heuristic → g.NamesOnly b.store := by
    cases c with
    | apply record nodes edges =>
        obtain ⟨f, r, hr, rfl, rfl⟩ := hc
        have hmade := Resolve.resolve_madeFrom hr
        exact ⟨_, _, _, rfl, hmade.nodeIds, fun g hg hgg => hmade.namesOnly hg hgg⟩
    | delete path =>
        exact ⟨_, _, _, rfl, List.nodup_nil, fun g hg => absurd hg List.not_mem_nil⟩
    | relink => exact hc.elim
  obtain ⟨u, hr, hn, hedges'⟩ := h.replaced hg
  have hsince := hr.linkedSince hs hids hedges e (hedges' ▸ he) hguess
  exact (hsince.congr hn).namesOnly he hguess hcrowds

/-- A call of a resolved file on a store in use leaves a link by name that is not to the
only node exactly if it crowds an edge. -/
theorem Backend.namesUnique_perform {b : Backend} {c : Call} (hc : c.ResolvedIn b)
    (hs : b.store.NamesUnique) :
    (b.perform c).2.store.NamesUnique ↔ ¬ Crowds b.store (b.perform c).2.store := by
  rcases b.perform_cases c with ⟨-, he⟩ | ⟨-, hsame⟩
  · exact he.namesUnique_iff hc hs
  · rw [hsame]
    exact ⟨fun h => h.not_crowds b.store, fun _ => hs⟩

/-! ## Runs -/

/-- **A link by name goes wrong only if it is crowded.**  While the files of an empty store
are resolved with the knowledge of what is published, applied and deleted, every edge that
is linked by its simple name has the only node that it may mean, if and only if no call
crowds an edge. -/
theorem namesUnique_iff_not_crowds {b : Backend} {cs : List Call} (hb : b.store = .empty)
    (hcs : ∀ pre c, pre ++ [c] <+: cs → c.ResolvedIn (b.performAll pre)) :
    (∀ pre, pre <+: cs → (b.performAll pre).store.NamesUnique) ↔
      ∀ pre c, pre ++ [c] <+: cs →
        ¬ Crowds (b.performAll pre).store (b.performAll (pre ++ [c])).store := by
  refine Backend.forall_prefix_iff (B := fun _ => Crowds) (hb ▸ Store.NamesUnique.empty)
    fun pre c hp hpre => ?_
  rw [Backend.performAll_concat]
  exact Backend.namesUnique_perform (hcs pre c hp) hpre

/-- The call that applies a file, resolved with the knowledge of what is published. -/
def applyIn (b : Backend) (f : SourceFile) : Call :=
  match Resolve.resolve b.symbols f with
  | .ok r => .apply (.plain f.filePath) r.nodes r.edges
  | .error _ => .delete f.filePath

/-- The calls that apply files one after the other. -/
def applyEach (b : Backend) : List SourceFile → List Call
  | [] => []
  | f :: fs => applyIn b f :: applyEach (b.perform (applyIn b f)).2 fs

theorem applyIn_resolvedIn (b : Backend) (f : SourceFile) : (applyIn b f).ResolvedIn b := by
  rw [applyIn]
  split
  · next r hr => exact ⟨f, r, hr, rfl, rfl⟩
  · trivial

theorem applyEach_resolvedIn {b : Backend} {fs : List SourceFile} {pre : List Call} {c : Call}
    (h : pre ++ [c] <+: applyEach b fs) : c.ResolvedIn (b.performAll pre) := by
  induction fs generalizing b pre with
  | nil => exact absurd (List.prefix_nil.1 h) (by simp)
  | cons f fs ih =>
      cases pre with
      | nil =>
          obtain ⟨rfl, -⟩ := List.cons_prefix_cons.1 h
          exact applyIn_resolvedIn b f
      | cons d pre =>
          obtain ⟨rfl, hrest⟩ := List.cons_prefix_cons.1 h
          change c.ResolvedIn (Backend.performAll (b.perform (applyIn b f)).2 pre)
          exact ih hrest

/-- A file that calls `run`, and a file with two classes that each have a method of that
name. -/
def callAndTwoMethods : List SourceFile :=
  let type (name : String) (line : Nat) : List Fact :=
    [.definition .classLike name [] ⟨line, 0, line + 2, 12⟩ ("class " ++ name ++ ":"),
      .definition .method "run" [name] ⟨line + 1, 4, line + 2, 12⟩ "def run(self):"]
  [⟨"b.py", "b.py", "python", ".", [.call "run" [] ⟨0, 0, 0, 5⟩], ⟨0, 0, 1, 0⟩⟩,
    ⟨"a.py", "a.py", "python", ".", type "A" 0 ++ type "B" 3, ⟨0, 0, 6, 0⟩⟩]

theorem namesUnique_iff_not_crowds_callAndTwoMethods :
    (∀ pre, pre <+: applyEach .new callAndTwoMethods →
        (Backend.new.performAll pre).store.NamesUnique) ↔
      ∀ pre c, pre ++ [c] <+: applyEach .new callAndTwoMethods →
        ¬ Crowds (Backend.new.performAll pre).store (Backend.new.performAll (pre ++ [c])).store :=
  namesUnique_iff_not_crowds rfl fun _ _ h => applyEach_resolvedIn h

/-- The call is linked to the first of the two methods when that one comes, and the second
one does not change that. -/
example : ((Backend.new.performAll (applyEach .new callAndTwoMethods)).store.edges.toList.filter
    (·.confidence == .heuristic)).map (fun e => (e.id, e.target)) =
      [("CALLS:module:b->run@b.py", some "method:a.A.run")] := by
  decide +kernel

end CodeAtlas
