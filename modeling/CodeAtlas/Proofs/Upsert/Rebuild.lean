import CodeAtlas.Proofs.Upsert.Claims
import CodeAtlas.Proofs.Upsert.Settled

/-!
# CodeAtlas.Proofs.Upsert.Rebuild

Changing the graph file by file comes to the same as building it from scratch.

While no two files contribute one node and no two nodes share a qualified name, the
graph is a function of the latest contribution of each file: the nodes are those that
were contributed, and every edge points at the one node that it means, or waits if
there is none.  A run keeps note of these contributions (`Latest`).

`Follows` is the invariant of a run: it says what is stored, claimed and recorded, and
that the targets are settled (`Store.Settled`).
-/

namespace CodeAtlas

open Upsert

/-! ## Contributions -/

/-- What is asked of the contribution of a file: ids tell what nodes and edges are and
are not repeated, no other file uses the ids of its edges (`owner` tells which one
does), the names of nodes have one segment and those that edges ask for have several
unless a module is imported, and an edge waits or points at what it asks for. -/
structure PlainContribution (owner : String → String) (path : String) (nodes : List Node)
    (edges : List Edge) : Prop where
  formed : ∀ n ∈ nodes, n.Formed
  edgeId : ∀ e ∈ edges, e.id = Edge.idOf e.relationship e.source e.targetRef path
  nodup : (nodes.map (·.id) ++ edges.map (·.id)).Nodup
  owned : ∀ e ∈ edges, owner e.id = path
  simple : ∀ n ∈ nodes, isQualified n.name = false
  qualified : ∀ e ∈ edges, e.relationship ≠ .imports → isQualified e.targetRef = true
  aimed : ∀ e ∈ edges, e.Aimed

/-- No node is claimed by two files, and no two nodes share a qualified name. -/
structure Store.Unambiguous (s : Store) : Prop where
  claimedOnce : ∀ n ∈ s.nodes, ∀ r ∈ s.records, ∀ r' ∈ s.records,
    n.id ∈ r.contributions → n.id ∈ r'.contributions → r = r'
  namedOnce : ∀ n ∈ s.nodes, ∀ m ∈ s.nodes, n.qualifiedName = m.qualifiedName → n = m

/-- The latest contribution of each file that has one. -/
abbrev Latest := String → Option (List Node × List Edge)

namespace Latest

def nodes (l : Latest) (path : String) : List Node := (l path).elim [] (·.1)

def edges (l : Latest) (path : String) : List Edge := (l path).elim [] (·.2)

/-- The contributions after a call that succeeds. -/
def after (l : Latest) : Call → Latest
  | .apply record nodes edges => fun p => if p = record.path then some (nodes, edges) else l p
  | .delete path => fun p => if p = path then none else l p
  | .relink => l

variable {l : Latest} {c : Call} {path : String} {ns : List Node} {es : List Edge}

theorem nodes_congr {l' : Latest} {p : String} (h : l' p = l p) : l'.nodes p = l.nodes p := by
  rw [nodes, nodes, h]

theorem edges_congr {l' : Latest} {p : String} (h : l' p = l p) : l'.edges p = l.edges p := by
  rw [edges, edges, h]

theorem after_own (hg : c.given? = some (path, ns, es)) :
    (l.after c).nodes path = ns ∧ (l.after c).edges path = es := by
  cases c with
  | apply record nodes edges =>
      cases hg
      simp [after, Latest.nodes, Latest.edges]
  | delete path =>
      cases hg
      simp [after, Latest.nodes, Latest.edges]
  | relink => cases hg

theorem after_other (hg : c.given? = some (path, ns, es)) {p : String} (hp : p ≠ path) :
    l.after c p = l p := by
  cases c with
  | apply record nodes edges =>
      cases hg
      exact if_neg hp
  | delete path =>
      cases hg
      exact if_neg hp
  | relink => cases hg

end Latest

/-- After a call the file has a record exactly if it has a latest contribution. -/
theorem Upsert.Effect.record_isSome {c : Call} {path : String} {ns : List Node} {es : List Edge}
    {s t : Store} (h : Effect c s t) (hg : c.given? = some (path, ns, es)) (l : Latest) :
    (t.records.get? path).isSome = (l.after c path).isSome := by
  cases h with
  | @apply record ns es _ u hr =>
      cases hg
      obtain ⟨r, hget, -⟩ := recorded_own u record ns es
      simp [hget, Latest.after]
  | @delete path previous _ u _ _ =>
      cases hg
      simp [Store.deleteRecord, Rows.get?_erase, Latest.after]
  | deleteUnknown hp =>
      cases hg
      simp [hp, Latest.after]
  | relink _ => cases hg

/-- Whether a call replaces the contribution of a file by a plain one. -/
def Call.Plain (owner : String → String) (c : Call) : Prop :=
  ∃ path nodes edges, c.given? = some (path, nodes, edges) ∧
    PlainContribution owner path nodes edges

/-- Runs of calls from an empty store, with the latest contributions.  A call that fails
changes nothing; after one that succeeds the store is unambiguous. -/
inductive Run (owner : String → String) : Latest → Backend → Prop
  | start {b : Backend} : b.store = .empty → Run owner (fun _ => none) b
  | done {l : Latest} {b : Backend} {c : Call} : Run owner l b → c.Plain owner →
      (b.perform c).1 = .ok () → (b.perform c).2.store.Unambiguous →
      Run owner (l.after c) (b.perform c).2
  | failed {l : Latest} {b : Backend} {c : Call} {e : Error} : Run owner l b →
      (b.perform c).1 = .error e → Run owner l (b.perform c).2

/-! ## What is stored, claimed and recorded -/

namespace PlainContribution

variable {owner : String → String} {path : String} {nodes : List Node} {edges : List Edge}

theorem nil (owner : String → String) (path : String) : PlainContribution owner path [] [] := by
  constructor
  case nodup => exact List.nodup_nil
  all_goals
    intro x hx
    exact absurd hx List.not_mem_nil

theorem apart (h : PlainContribution owner path nodes edges) : Apart nodes edges := by
  refine ⟨fun n hn => (h.formed n hn).isId_eq_false, fun e he => ?_⟩
  rw [h.edgeId e he, Edge.isId_idOf]

theorem waitsQualified (h : PlainContribution owner path nodes edges) {e : Edge}
    (he : e ∈ edges) : e.waitsQualified = true := by
  rw [Edge.waitsQualified, Bool.or_eq_true, beq_iff_eq]
  by_cases himp : e.relationship = .imports
  · exact Or.inr himp
  · exact Or.inl (h.qualified e he himp)

theorem node_unique (h : PlainContribution owner path nodes edges) {n m : Node} (hn : n ∈ nodes)
    (hm : m ∈ nodes) (hid : n.id = m.id) : n = m :=
  List.inj_on_of_nodup_map h.nodup.of_append_left hn hm hid

theorem edge_unique (h : PlainContribution owner path nodes edges) {e g : Edge} (he : e ∈ edges)
    (hg : g ∈ edges) (hid : e.id = g.id) : e = g :=
  List.inj_on_of_nodup_map h.nodup.of_append_right he hg hid

end PlainContribution

/-- Only one file claims the id of a node. -/
theorem Store.Unambiguous.claims_unique {s : Store} (h : s.Unambiguous) {n : Node} {p q : String}
    (hn : n ∈ s.nodes) (hp : s.Claims p n.id) (hq : s.Claims q n.id) : p = q := by
  obtain ⟨r, hr, rfl, hid⟩ := Store.claims_iff.1 hp
  obtain ⟨r', hr', rfl, hid'⟩ := Store.claims_iff.1 hq
  rw [h.claimedOnce n hn r hr r' hr' hid hid']

/-- The store holds the latest contributions, with the targets that they mean. -/
structure Follows (owner : String → String) (l : Latest) (s : Store) : Prop where
  plain : ∀ p, PlainContribution owner p (l.nodes p) (l.edges p)
  recorded : ∀ p, (s.records.get? p).isSome = (l p).isSome
  claims : ∀ p id, s.Claims p id ↔ id ∈ contributionOf (l.nodes p) (l.edges p)
  nodes : ∀ n, n ∈ s.nodes ↔ ∃ p, n ∈ l.nodes p
  edges : ∀ w, (∃ e ∈ s.edges, e.unlink = w) ↔ ∃ p, ∃ g ∈ l.edges p, g.unlink = w
  unambiguous : s.Unambiguous
  settled : s.Settled

namespace Follows

variable {owner : String → String} {l : Latest} {s t : Store}

theorem empty (owner : String → String) : Follows owner (fun _ => none) .empty where
  plain p := .nil owner p
  recorded _ := rfl
  claims p id := by
    rw [mem_contributionOf]
    simp [Store.Claims, Store.empty, Latest.nodes, Latest.edges]
  nodes n := by
    simp only [Latest.nodes, Option.elim_none, List.not_mem_nil, exists_const, iff_false]
    exact Rows.not_mem_empty n
  edges w := by
    simp only [Latest.edges, Option.elim_none, List.not_mem_nil, false_and, exists_const,
      iff_false]
    rintro ⟨e, he, -⟩
    exact Rows.not_mem_empty e he
  unambiguous :=
    ⟨fun n hn => absurd hn (Rows.not_mem_empty n), fun n hn => absurd hn (Rows.not_mem_empty n)⟩
  settled := .empty

theorem claims_node (h : Follows owner l s) {p : String} {n : Node} (hn : n ∈ l.nodes p) :
    s.Claims p n.id :=
  (h.claims p n.id).2 (mem_contributionOf.2 (Or.inl ⟨n, hn, rfl⟩))

theorem claims_edge (h : Follows owner l s) {p : String} {e : Edge} (he : e ∈ l.edges p) :
    s.Claims p e.id :=
  (h.claims p e.id).2 (mem_contributionOf.2 (Or.inr ⟨e, he, rfl⟩))

/-- The id of an edge is claimed by the one file that uses it. -/
theorem owner_of_claims (h : Follows owner l s) {p id : String} (hc : s.Claims p id)
    (hid : Edge.isId id = true) : owner id = p := by
  rcases mem_contributionOf.1 ((h.claims p id).1 hc) with ⟨n, hn, rfl⟩ | ⟨e, he, rfl⟩
  · rw [(h.plain p).apart.node n hn] at hid
    cases hid
  · exact (h.plain p).owned e he

theorem edge_isId (h : Follows owner l s) {e : Edge} (he : e ∈ s.edges) :
    Edge.isId e.id = true := by
  obtain ⟨p, g, hg, hu⟩ := (h.edges e.unlink).1 ⟨e, he, rfl⟩
  rw [← (Edge.eq_of_unlink_eq hu).1]
  exact (h.plain p).apart.edge g hg

section Change

variable {path : String} {ns : List Node} {es : List Edge} {l' : Latest}

/-- After a change the nodes are those of the latest contributions. -/
theorem nodes_changed (h : Follows owner l s) (hp : PlainContribution owner path ns es)
    (hc : Changed path ns es s t) (hun : t.Unambiguous) (hown : l'.nodes path = ns)
    (hother : ∀ p, p ≠ path → l' p = l p) (n : Node) : n ∈ t.nodes ↔ ∃ p, n ∈ l'.nodes p := by
  have hsame : ∀ p, p ≠ path → l'.nodes p = l.nodes p :=
    fun p hne => Latest.nodes_congr (hother p hne)
  constructor
  · intro hn
    rcases hc.node_cases hp.apart (fun m hm => (h.settled.formed m hm).isId_eq_false) hn with
      hgiven | ⟨-, ⟨hunclaimed, hold⟩ | ⟨hclaimed, old, hold, hrel⟩⟩
    · exact ⟨path, hown ▸ hgiven⟩
    · obtain ⟨p, hmem⟩ := (h.nodes n).1 hold
      have hne : p ≠ path := fun he => hunclaimed (he ▸ h.claims_node hmem)
      exact ⟨p, (hsame p hne) ▸ hmem⟩
    · -- No other file claims a node that is given up, so nothing is left of it.
      obtain ⟨q, hq, hclaims⟩ := claimed_of_released hrel
      rw [(released_alike hrel).1] at hclaimed
      exact absurd (h.unambiguous.claims_unique hold hclaims hclaimed) hq
  · rintro ⟨p, hmem⟩
    by_cases hne : p = path
    · subst hne
      rw [hown] at hmem
      obtain ⟨m, hm, hid, hmt⟩ := hc.node_given hmem
      rw [hp.node_unique hmem hm hid.symm]
      exact hmt
    · rw [hsame p hne] at hmem
      have hold : n ∈ s.nodes := (h.nodes n).2 ⟨p, hmem⟩
      have hclaims : s.Claims p n.id := h.claims_node hmem
      have hunclaimed : ¬ s.Claims path n.id :=
        fun hcl => hne (h.unambiguous.claims_unique hold hclaims hcl)
      have hfresh : ∀ m ∈ ns, m.id ≠ n.id := by
        intro m hm hid
        obtain ⟨m', -, hid', hmt⟩ := hc.node_given hm
        have hother' : t.Claims p m'.id := by
          rw [hid', hid]
          exact (hc.claims_other hne).2 hclaims
        have hgiven : t.Claims path m'.id := by
          rw [hid']
          exact hc.claims_node hm
        exact hne (hun.claims_unique hmt hother' hgiven)
      exact hc.node_kept hp.apart hold (h.settled.formed n hold).isId_eq_false hfresh hunclaimed

/-- After a change the edges are those of the latest contributions, targets aside. -/
theorem edges_changed (h : Follows owner l s) (hp : PlainContribution owner path ns es)
    (hc : Changed path ns es s t) (hown : l'.edges path = es)
    (hother : ∀ p, p ≠ path → l' p = l p) (w : Edge) :
    (∃ e ∈ t.edges, e.unlink = w) ↔ ∃ p, ∃ g ∈ l'.edges p, g.unlink = w := by
  have hsame : ∀ p, p ≠ path → l'.edges p = l.edges p :=
    fun p hne => Latest.edges_congr (hother p hne)
  constructor
  · rintro ⟨e, he, rfl⟩
    rcases hc.edge_cases hp.apart (fun _ => h.edge_isId) he with
      ⟨g, hg, hu⟩ | ⟨-, hunclaimed, old, hold, hu⟩
    · exact ⟨path, g, hown ▸ hg, hu⟩
    · obtain ⟨p, g, hg, hgu⟩ := (h.edges old.unlink).1 ⟨old, hold, rfl⟩
      rw [hu] at hgu
      have hne : p ≠ path := by
        rintro rfl
        rw [← (Edge.eq_of_unlink_eq hgu).1] at hunclaimed
        exact hunclaimed (h.claims_edge hg)
      exact ⟨p, g, (hsame p hne) ▸ hg, hgu⟩
  · rintro ⟨p, g, hg, rfl⟩
    by_cases hne : p = path
    · subst hne
      rw [hown] at hg
      obtain ⟨g', hg', hid, e, he, hu⟩ := hc.edge_given hg
      rw [hp.edge_unique hg hg' hid.symm]
      exact ⟨e, he, hu⟩
    · rw [hsame p hne] at hg
      obtain ⟨e, he, hu⟩ := (h.edges g.unlink).2 ⟨p, g, hg, rfl⟩
      have hid : e.id = g.id := (Edge.eq_of_unlink_eq hu).1
      have howner : owner e.id = p := hid ▸ (h.plain p).owned g hg
      have hfresh : ∀ g' ∈ es, g'.id ≠ e.id :=
        fun g' hg' hge => hne (howner.symm.trans (hge ▸ hp.owned g' hg'))
      have hunclaimed : ¬ s.Claims path e.id :=
        fun hcl => hne (howner.symm.trans (h.owner_of_claims hcl (h.edge_isId he)))
      obtain ⟨e', he', hu'⟩ := hc.edge_kept hp.apart he (h.edge_isId he) hfresh hunclaimed
      exact ⟨e', he', hu'.trans hu⟩

end Change

/-- A call that succeeds is followed. -/
theorem effect {c : Call} (h : Follows owner l s) (hc : c.Plain owner) (he : Effect c s t)
    (hun : t.Unambiguous) : Follows owner (l.after c) t := by
  obtain ⟨path, ns, es, hg, hp⟩ := hc
  obtain ⟨hns, hes⟩ := Latest.after_own (l := l) hg
  have hother : ∀ p, p ≠ path → l.after c p = l p := fun p hne => Latest.after_other hg hne
  have hch := he.changed hg
  obtain ⟨u, hr, hn, hedges⟩ := he.replaced hg
  constructor
  case plain =>
    intro p
    by_cases hne : p = path
    · rw [hne, hns, hes]
      exact hp
    · rw [Latest.nodes_congr (hother p hne), Latest.edges_congr (hother p hne)]
      exact h.plain p
  case recorded =>
    intro p
    by_cases hne : p = path
    · rw [hne]
      exact he.record_isSome hg l
    · rw [he.records_other hg hne, hother p hne, h.recorded p]
  case claims =>
    intro p id
    by_cases hne : p = path
    · rw [hne, hns, hes]
      exact hch.own id
    · rw [hch.claims_other hne, h.claims, Latest.nodes_congr (hother p hne),
        Latest.edges_congr (hother p hne)]
  case nodes => exact h.nodes_changed hp hch hun hns hother
  case edges => exact h.edges_changed hp hch hes hother
  case unambiguous => exact hun
  case settled =>
    have hu : u.Settled := h.settled.replaced h.unambiguous.namedOnce
      (fun n hn => ⟨hp.formed n hn, hp.simple n hn⟩)
      (fun e he => ⟨hp.waitsQualified he, hp.aimed e he⟩) hr
    exact hu.congr hn hedges

/-- The stored edges are those of the latest contributions, each with the target that it
means, if one is stored. -/
theorem mem_edges_iff (h : Follows owner l s) (e : Edge) :
    e ∈ s.edges ↔ ∃ p, ∃ g ∈ l.edges p,
      (∃ n ∈ s.nodes, g.Means n ∧ e = g.link n.id .resolved) ∨
        ((∀ n ∈ s.nodes, ¬ g.Means n) ∧ e = g.unlink) := by
  constructor
  · intro he
    obtain ⟨p, g, hg, hu⟩ := (h.edges e.unlink).1 ⟨e, he, rfl⟩
    refine ⟨p, g, hg, ?_⟩
    obtain ⟨n, hn, hm, ht, hc⟩ | ⟨hnone, ht, hc⟩ := h.settled.settled e he
    · exact Or.inl ⟨n, hn, (Edge.means_congr hu n).2 hm, Edge.eq_link hu ht hc⟩
    · exact Or.inr ⟨fun n hn hm => hnone n hn ((Edge.means_congr hu n).1 hm),
        Edge.eq_unlink hu ht hc⟩
  · rintro ⟨p, g, hg, hcase⟩
    obtain ⟨e', he', hu⟩ := (h.edges g.unlink).2 ⟨p, g, hg, rfl⟩
    suffices hsame : e = e' by
      rw [hsame]
      exact he'
    obtain ⟨n', hn', hm', ht, hc⟩ | ⟨hnone', ht, hc⟩ := h.settled.settled e' he'
    · have hgm : g.Means n' := (Edge.means_congr hu n').1 hm'
      rcases hcase with ⟨n, hn, hm, rfl⟩ | ⟨hnone, -⟩
      · rw [h.unambiguous.namedOnce n hn n' hn' (hm.1.trans hgm.1.symm)]
        exact (Edge.eq_link hu.symm ht hc).symm
      · exact absurd hgm (hnone n' hn')
    · rcases hcase with ⟨n, hn, hm, -⟩ | ⟨-, rfl⟩
      · exact absurd ((Edge.means_congr hu n).2 hm) (hnone' n hn)
      · exact (Edge.eq_unlink hu.symm ht hc).symm

end Follows

/-! ## All runs -/

theorem Run.follows {owner : String → String} {l : Latest} {b : Backend} (h : Run owner l b) :
    Follows owner l b.store := by
  induction h with
  | start hb => rw [hb]; exact Follows.empty owner
  | @done l b c _ hc hok hun ih =>
      rcases b.perform_cases c with ⟨-, he⟩ | ⟨⟨e, herr⟩, -⟩
      · exact ih.effect hc he hun
      · rw [hok] at herr
        cases herr
  | @failed l b c e _ herr ih =>
      rcases b.perform_cases c with ⟨hok, -⟩ | ⟨-, hs⟩
      · rw [hok] at herr
        cases herr
      · rw [hs]
        exact ih

/-- Two runs that end with the same latest contributions end with the same graph, so it
does not matter how a run came to them. -/
theorem Run.same_graph {owner owner' : String → String} {l : Latest} {b b' : Backend}
    (h : Run owner l b) (h' : Run owner' l b') :
    (∀ n, n ∈ b.store.nodes ↔ n ∈ b'.store.nodes) ∧
      ∀ e, e ∈ b.store.edges ↔ e ∈ b'.store.edges := by
  have hnodes : ∀ n, n ∈ b.store.nodes ↔ n ∈ b'.store.nodes := by
    intro n
    rw [h.follows.nodes, h'.follows.nodes]
  refine ⟨hnodes, fun e => ?_⟩
  rw [h.follows.mem_edges_iff, h'.follows.mem_edges_iff]
  simp only [hnodes]

/-- **Incremental equals from scratch.**  After any run the files that have a record are
those with a latest contribution, the nodes are those of the latest contributions, and
the edges are those of the latest contributions, each pointing at the stored node that
it means, or waiting if there is none. -/
theorem incremental_eq_scratch {owner : String → String} {l : Latest} {b : Backend}
    (h : Run owner l b) :
    (∀ p, (∃ r ∈ b.store.records, r.path = p) ↔ (l p).isSome = true) ∧
      (∀ n, n ∈ b.store.nodes ↔ ∃ p, n ∈ l.nodes p) ∧
      ∀ e, e ∈ b.store.edges ↔ ∃ p, ∃ g ∈ l.edges p,
        (∃ n ∈ b.store.nodes, g.Means n ∧ e = g.link n.id .resolved) ∨
          ((∀ n ∈ b.store.nodes, ¬ g.Means n) ∧ e = g.unlink) := by
  have hf := h.follows
  refine ⟨fun p => ?_, hf.nodes, hf.mem_edges_iff⟩
  rw [← hf.recorded p, ← Rows.contains_eq_isSome, Rows.contains_iff]

instance (s : Store) : Decidable s.Unambiguous :=
  decidable_of_iff
    ((∀ n ∈ s.nodes.toList, ∀ r ∈ s.records.toList, ∀ r' ∈ s.records.toList,
        n.id ∈ r.contributions → n.id ∈ r'.contributions → r = r') ∧
      ∀ n ∈ s.nodes.toList, ∀ m ∈ s.nodes.toList, n.qualifiedName = m.qualifiedName → n = m)
    ⟨fun h => ⟨h.1, h.2⟩, fun h => ⟨h.1, h.2⟩⟩

/-- A class, a file that imports it, and a function in the place of the class. -/
def retyped : Call × Call × Call :=
  (.apply (.plain "a.py") [.plain .classLike "f" "a.f" "a.py"] [],
    .apply (.plain "b.py") [] [.plain .imports "module:b" "a.f" "b.py"],
    .apply (.plain "a.py") [.plain .function "f" "a.f" "a.py"] [])

theorem incremental_eq_scratch_retyped :
    let b := Backend.new.performAll [retyped.1, retyped.2.1, retyped.2.2]
    let l := ((Latest.after (fun _ => none) retyped.1).after retyped.2.1).after retyped.2.2
    b.store.edges.toList.map (·.target) = [some "function:a.f"] ∧
      ∀ n, n ∈ b.store.nodes ↔ ∃ p, n ∈ l.nodes p := by
  intro b l
  have hnode : ∀ k, PlainContribution (fun _ => "b.py") "a.py" [.plain k "f" "a.f" "a.py"] [] := by
    intro k
    constructor
    case formed =>
      intro n hn
      rw [List.mem_singleton.1 hn]
      rfl
    case nodup => simp
    case simple =>
      have hname : isQualified "f" = false := by decide +kernel
      intro n hn
      rw [List.mem_singleton.1 hn]
      exact hname
    all_goals exact fun e he => absurd he List.not_mem_nil
  have hedge : PlainContribution (fun _ => "b.py") "b.py" []
      [.plain .imports "module:b" "a.f" "b.py"] := by
    constructor
    case aimed =>
      intro e he
      rw [List.mem_singleton.1 he]
      exact Or.inl ⟨rfl, rfl⟩
    all_goals decide +kernel
  have hrun : Run (fun _ => "b.py") l b := by
    refine .done (.done (.done (.start rfl) ⟨_, _, _, rfl, hnode .classLike⟩ ?_ ?_)
      ⟨_, _, _, rfl, hedge⟩ ?_ ?_) ⟨_, _, _, rfl, hnode .function⟩ ?_ ?_
    all_goals decide +kernel
  exact ⟨by decide +kernel, (incremental_eq_scratch hrun).2.1⟩

end CodeAtlas
