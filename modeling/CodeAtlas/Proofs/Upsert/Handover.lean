import CodeAtlas.Proofs.Upsert.Claims

/-!
# CodeAtlas.Proofs.Upsert.Handover

When a change hands no node from one file to another.

A node changes hands in two ways.  A file that releases a node passes it on to another file
that claims it, which the commit tells (`Commit.heirs`); and a file takes over a node that
another file declared when it contributes the same node.  Where neither happens, the nodes
that other files declare are those that they declared before (`Changed.sameOutside`).
-/

namespace CodeAtlas

open Work Upsert

theorem Commit.mem_heirs_add {a b : Commit} {heir : String} :
    heir ∈ (a + b).heirs ↔ heir ∈ a.heirs ∨ heir ∈ b.heirs := by
  change heir ∈ sortedSet (a.heirs ++ b.heirs) ↔ _
  rw [mem_sortedSet, List.mem_append]

theorem Commit.heirs_add_eq_nil {a b : Commit} :
    (a + b).heirs = [] ↔ a.heirs = [] ∧ b.heirs = [] := by
  simp only [List.eq_nil_iff_forall_not_mem, mem_heirs_add, not_or, forall_and]

namespace Upsert

/-! ## Passing on -/

/-- A file passes a node on to an heir: it declares the node and gives it up, and the heir is
the first of the other files that claim it. -/
def PassesTo (s : Store) (path : String) (ids : List String) (heir : String) : Prop :=
  ∃ n ∈ s.nodes, n.id ∈ ids ∧ n.file = path ∧ (s.otherClaimants n.id path).head? = some heir

/-- A file passes a node on: it declares the node and gives it up, and another file claims
it. -/
def PassesOn (s : Store) (path : String) (ids : List String) : Prop :=
  ∃ n ∈ s.nodes, n.id ∈ ids ∧ n.file = path ∧ s.otherClaimants n.id path ≠ []

theorem passesOn_iff {s : Store} {path : String} {ids : List String} :
    PassesOn s path ids ↔ ∃ heir, PassesTo s path ids heir := by
  simp only [PassesOn, PassesTo, Ne, ← List.head?_eq_none_iff, ← Option.isSome_iff_ne_none,
    Option.isSome_iff_exists]
  constructor
  · rintro ⟨n, hn, hid, hfile, heir, h⟩
    exact ⟨heir, n, hn, hid, hfile, h⟩
  · rintro ⟨heir, n, hn, hid, hfile, h⟩
    exact ⟨n, hn, hid, hfile, heir, h⟩

/-- An heir claims a node that the file gives up. -/
theorem PassesTo.claims {s : Store} {path heir : String} {ids : List String}
    (h : PassesTo s path ids heir) : heir ≠ path ∧ ∃ id ∈ ids, s.Claims heir id := by
  obtain ⟨n, -, hid, -, hhead⟩ := h
  obtain ⟨hne, hclaims⟩ := Store.mem_otherClaimants.1 (List.mem_of_mem_head? hhead)
  exact ⟨hne, n.id, hid, hclaims⟩

theorem PassesTo.congr {s t : Store} (hnodes : t.nodes = s.nodes) (hrecords : t.records = s.records)
    {path heir : String} {ids : List String} :
    PassesTo t path ids heir ↔ PassesTo s path ids heir := by
  simp only [PassesTo, hnodes, Store.otherClaimants_congr hrecords]

/-! ### What is told -/

/-- A loop whose steps tell no heirs tells none. -/
theorem forAll_no_heirs {α : Type} {f : α → Work Commit} {xs : List α} {s t : Store} {c : Commit}
    (h : (forAll xs f).Gives s c t)
    (hf : ∀ x u a v, (f x).Gives u a v → a.heirs = []) : c.heirs = [] := by
  induction xs generalizing s c with
  | nil =>
      obtain ⟨rfl, -⟩ := Gives.of_pure h
      rfl
  | cons x xs ih =>
      obtain ⟨a, u, hx, h⟩ := Gives.of_bind h
      obtain ⟨b, v, hxs, h⟩ := Gives.of_bind h
      obtain ⟨rfl, rfl⟩ := Gives.of_pure h
      exact Commit.heirs_add_eq_nil.2 ⟨hf x s a u hx, ih hxs⟩

theorem retractEdge_no_heirs {id : String} {s t : Store} {c : Commit}
    (h : (retractEdge id).Gives s c t) : c.heirs = [] := by
  obtain ⟨_, u, _, h⟩ := Gives.of_bind h
  obtain ⟨rfl, -⟩ := Gives.of_pure h
  rfl

theorem unlink_no_heirs {e : Edge} {s t : Store} {c : Commit} (h : (unlink e).Gives s c t) :
    c.heirs = [] := by
  obtain ⟨_, u, _, h⟩ := Gives.of_bind h
  obtain ⟨rfl, -⟩ := Gives.of_pure h
  rfl

theorem link_no_heirs {e : Edge} {id : String} {confidence : Confidence} {s t : Store} {c : Commit}
    (h : (link e id confidence).Gives s c t) : c.heirs = [] := by
  obtain ⟨_, u, _, h⟩ := Gives.of_bind h
  obtain ⟨rfl, -⟩ := Gives.of_pure h
  rfl

theorem linkWaiting_no_heirs {n : Node} {s t : Store} {c : Commit}
    (h : (linkWaiting n).Gives s c t) : c.heirs = [] := by
  obtain ⟨es, u, -, h⟩ := Gives.of_bind h
  obtain ⟨qualified, v, hq, h⟩ := Gives.of_bind h
  have hqualified : qualified.heirs = [] := by
    refine forAll_no_heirs hq fun e u a v he => ?_
    split at he
    · exact link_no_heirs he
    · obtain ⟨rfl, -⟩ := Gives.of_pure he
      rfl
  split at h
  · obtain ⟨rfl, -⟩ := Gives.of_pure h
    exact hqualified
  · obtain ⟨es, w, -, h⟩ := Gives.of_bind h
    obtain ⟨simple, x, hs, h⟩ := Gives.of_bind h
    obtain ⟨rfl, -⟩ := Gives.of_pure h
    refine Commit.heirs_add_eq_nil.2 ⟨hqualified, forAll_no_heirs hs fun e u a v he => ?_⟩
    split at he
    · obtain ⟨rfl, -⟩ := Gives.of_pure he
      rfl
    · obtain ⟨found, w, -, he⟩ := Gives.of_bind he
      split at he
      · split at he
        · exact link_no_heirs he
        · obtain ⟨rfl, -⟩ := Gives.of_pure he
          rfl
      · obtain ⟨rfl, -⟩ := Gives.of_pure he
        rfl

theorem mergeNew_no_heirs {n : Node} {s t : Store} {c : Commit} (h : (mergeNew n).Gives s c t) :
    c.heirs = [] := by
  obtain ⟨m, u, -, h⟩ := Gives.of_bind h
  cases m with
  | created =>
      obtain ⟨linked, v, hl, h⟩ := Gives.of_bind h
      obtain ⟨rfl, -⟩ := Gives.of_pure h
      exact Commit.heirs_add_eq_nil.2 ⟨rfl, linkWaiting_no_heirs hl⟩
  | updated =>
      obtain ⟨rfl, -⟩ := Gives.of_pure h
      rfl
  | unchanged =>
      obtain ⟨rfl, -⟩ := Gives.of_pure h
      rfl

theorem mergeValid_no_heirs {e : Edge} {s t : Store} {c : Commit}
    (h : (mergeValid e).Gives s c t) : c.heirs = [] := by
  obtain ⟨valid, u, -, h⟩ := Gives.of_bind h
  obtain ⟨m, v, -, h⟩ := Gives.of_bind h
  cases m <;>
  · obtain ⟨rfl, -⟩ := Gives.of_pure h
    rfl

/-- A node that is released is told to pass to its heir, and nothing else is told. -/
theorem retractNode_heirs {path id : String} {s t : Store} {c : Commit}
    (h : (retractNode path id).Gives s c t) {heir : String} :
    heir ∈ c.heirs ↔ PassesTo s path [id] heir := by
  have hstays : ∀ {n : Node}, n ∈ s.nodes → n.id = id → (PassesTo s path [id] heir ↔
      n.file = path ∧ (s.otherClaimants id path).head? = some heir) := by
    rintro n hn rfl
    constructor
    · rintro ⟨m, hm, hid, h⟩
      rwa [Rows.eq_of_key_eq hm hn (List.mem_singleton.1 hid)] at h
    · rintro ⟨hfile, hhead⟩
      exact ⟨n, hn, List.mem_singleton_self _, hfile, hhead⟩
  obtain ⟨claimants, u, ha, h⟩ := Gives.of_bind h
  obtain ⟨rfl, rfl⟩ := Gives.of_ask ha
  split at h
  · next first rest hclaimed =>
    obtain ⟨found, v, ha, h⟩ := Gives.of_bind h
    obtain ⟨rfl, rfl⟩ := Gives.of_ask ha
    split at h
    · next n hget =>
      rw [hstays (Rows.mem_of_get? hget) (Rows.key_of_get? hget), hclaimed]
      split at h
      · next hfile =>
        obtain ⟨m, w, -, h⟩ := Gives.of_bind h
        obtain ⟨rfl, -⟩ := Gives.of_pure h
        simp [beq_iff_eq.1 hfile, eq_comm]
      · next hfile =>
        obtain ⟨rfl, -⟩ := Gives.of_pure h
        exact ⟨nofun, fun hpass => absurd (beq_iff_eq.2 hpass.1) hfile⟩
    · next hget =>
      obtain ⟨rfl, -⟩ := Gives.of_pure h
      refine ⟨nofun, ?_⟩
      rintro ⟨n, hn, hid, -⟩
      rw [← List.mem_singleton.1 hid, Rows.mem_iff_get?.1 hn] at hget
      cases hget
  · next hnone =>
    obtain ⟨es, v, -, h⟩ := Gives.of_bind h
    obtain ⟨unlinked, w, hu, h⟩ := Gives.of_bind h
    obtain ⟨gone, x, -, h⟩ := Gives.of_bind h
    obtain ⟨rfl, -⟩ := Gives.of_pure h
    have hunlinked := forAll_no_heirs hu fun _ _ _ _ he => unlink_no_heirs he
    rw [Commit.heirs_add_eq_nil.2 ⟨hunlinked, rfl⟩]
    refine ⟨nofun, ?_⟩
    rintro ⟨n, -, hid, -, hhead⟩
    rw [List.mem_singleton.1 hid, hnone] at hhead
    cases hhead

theorem passesTo_cons {s : Store} {path x heir : String} {ids : List String} :
    PassesTo s path (x :: ids) heir ↔ PassesTo s path [x] heir ∨ PassesTo s path ids heir := by
  simp only [PassesTo, List.mem_cons, List.not_mem_nil, or_false, or_and_right, and_or_left,
    exists_or]

/-- What is released before does not change who else is an heir. -/
theorem Released.passesTo {path x heir : String} {ids : List String} {s t : Store}
    (h : Released path [x] s t) (hx : ¬ PassesTo s path [x] heir) :
    PassesTo t path ids heir ↔ PassesTo s path ids heir := by
  have hkeep : ∀ n : Node, n.id ≠ x → (n ∈ t.nodes ↔ n ∈ s.nodes) := by
    intro n hn
    rw [Rows.mem_iff_get?, Rows.mem_iff_get?, h.nodes, if_neg (by simpa using hn)]
  simp only [PassesTo, Store.otherClaimants_congr h.records]
  constructor
  · rintro ⟨n, hn, hid, hfile, hhead⟩
    by_cases hnx : n.id = x
    · have hget := h.nodes n.id
      rw [Rows.mem_iff_get?.1 hn, if_pos (by simp [hnx])] at hget
      obtain ⟨old, -, hrel⟩ := Option.bind_eq_some_iff.1 hget.symm
      obtain ⟨heir', hheir, rfl⟩ | ⟨rfl, hother⟩ := released_spec hrel
      · exact absurd hfile (Store.mem_otherClaimants.1 hheir).1
      · exact absurd hfile hother
    · exact ⟨n, (hkeep n hnx).1 hn, hid, hfile, hhead⟩
  · rintro ⟨n, hn, hid, hfile, hhead⟩
    by_cases hnx : n.id = x
    · exact absurd ⟨n, hn, by simp [hnx], hfile, hhead⟩ hx
    · exact ⟨n, (hkeep n hnx).2 hn, hid, hfile, hhead⟩

theorem retractNodes_heirs {path : String} {ids : List String} {s t : Store} {c : Commit}
    (h : (forAll ids (retractNode path)).Gives s c t) {heir : String} :
    heir ∈ c.heirs ↔ PassesTo s path ids heir := by
  induction ids generalizing s c with
  | nil =>
      obtain ⟨rfl, -⟩ := Gives.of_pure h
      refine ⟨nofun, ?_⟩
      rintro ⟨n, -, hid, -⟩
      cases hid
  | cons x ids ih =>
      obtain ⟨a, u, hx, h⟩ := Gives.of_bind h
      obtain ⟨b, v, hrest, h⟩ := Gives.of_bind h
      obtain ⟨rfl, rfl⟩ := Gives.of_pure h
      rw [Commit.mem_heirs_add, retractNode_heirs hx, ih hrest, @passesTo_cons s path x heir ids]
      by_cases hfirst : PassesTo s path [x] heir
      · simp only [hfirst, true_or]
      · rw [(retractNode_released hx).passesTo hfirst]

theorem retract_heirs {path : String} {stale : List String} {s t : Store} {c : Commit}
    (h : (retract path stale).Gives s c t) {heir : String} :
    heir ∈ c.heirs ↔ PassesTo s path (stale.filter fun id => !Edge.isId id) heir := by
  obtain ⟨a, u, he, h⟩ := Gives.of_bind h
  obtain ⟨b, v, hn, h⟩ := Gives.of_bind h
  obtain ⟨rfl, -⟩ := Gives.of_pure h
  obtain ⟨hnodes, hrecords, -⟩ := dropEdges_of_steps
    (forAll_steps he fun _ _ _ _ _ hx => retractEdge_gives hx)
  have hedges := forAll_no_heirs he fun _ _ _ _ hx => retractEdge_no_heirs hx
  rw [Commit.mem_heirs_add, hedges, retractNodes_heirs hn, PassesTo.congr hnodes hrecords]
  simp

/-- The node ids that a file gives up when it contributes nodes and edges from now on. -/
def givenUp (s : Store) (path : String) (nodes : List Node) (edges : List Edge) : List String :=
  (staleIds (s.records.get? path) nodes edges).filter fun id => !Edge.isId id

theorem mem_givenUp {s : Store} {path id : String} {nodes : List Node} {edges : List Edge} :
    id ∈ givenUp s path nodes edges ↔
      s.Claims path id ∧ id ∉ contributionOf nodes edges ∧ Edge.isId id = false := by
  rw [givenUp, List.mem_filter, mem_staleIds, Bool.not_eq_true', and_assoc]

theorem replace_heirs {path : String} {s t : Store} {nodes : List Node} {edges : List Edge}
    {c : Commit} (h : (replace path (s.records.get? path) nodes edges).Gives s c t)
    {heir : String} : heir ∈ c.heirs ↔ PassesTo s path (givenUp s path nodes edges) heir := by
  obtain ⟨retracted, u, hr, h⟩ := Gives.of_bind h
  obtain ⟨merged, v, hm, h⟩ := Gives.of_bind h
  obtain ⟨added, w, ha, h⟩ := Gives.of_bind h
  obtain ⟨rfl, -⟩ := Gives.of_pure h
  have hmerged := forAll_no_heirs hm fun _ _ _ _ hx => mergeNew_no_heirs hx
  have hadded := forAll_no_heirs ha fun _ _ _ _ hx => mergeValid_no_heirs hx
  rw [Commit.mem_heirs_add, Commit.mem_heirs_add, hmerged, hadded, retract_heirs hr]
  simp only [List.not_mem_nil, or_false]
  exact Iff.rfl

/-- A contribution that is applied tells the heirs of the nodes that the file passes on. -/
theorem mem_applyWork_heirs {record : FileRecord} {nodes : List Node} {edges : List Edge}
    {s t : Store} {c : Commit} (h : (applyWork record nodes edges).Gives s c t) {heir : String} :
    heir ∈ c.heirs ↔ PassesTo s record.path (givenUp s record.path nodes edges) heir := by
  obtain ⟨previous, u, ha, h⟩ := Gives.of_bind h
  obtain ⟨rfl, rfl⟩ := Gives.of_ask ha
  obtain ⟨done, v, hdone, h⟩ := Gives.of_bind h
  rw [← replace_heirs hdone]
  simp only [] at h
  split at h
  · obtain ⟨_, w, -, h⟩ := Gives.of_bind h
    obtain ⟨rfl, -⟩ := Gives.of_pure h
    rfl
  · obtain ⟨rfl, -⟩ := Gives.of_pure h
    rfl

/-- A contribution that is applied without heirs passes no node on. -/
theorem applyWork_heirs {record : FileRecord} {nodes : List Node} {edges : List Edge} {s t : Store}
    {c : Commit} (h : (applyWork record nodes edges).Gives s c t) (hc : c.heirs = []) :
    ¬ PassesOn s record.path (givenUp s record.path nodes edges) := by
  rw [passesOn_iff]
  rintro ⟨heir, hheir⟩
  rw [← mem_applyWork_heirs h, hc] at hheir
  cases hheir

/-- A file that is deleted tells the heirs of its nodes; the record is dropped if there is
one, and without one nobody inherits. -/
theorem deleteWork_heirs {path : String} {s t : Store} {c : Commit} {published : Bool}
    (h : (deleteWork path).Gives s (c, published) t) :
    c.recordWritten = (s.records.get? path).isSome ∧
      ∀ heir, heir ∈ c.heirs ↔ PassesTo s path (givenUp s path [] []) heir := by
  obtain ⟨previous, u, ha, hrest⟩ := Gives.of_bind h
  obtain ⟨hget, rfl⟩ := Gives.of_ask ha
  split at hrest
  · obtain ⟨hc, -⟩ := Gives.of_pure hrest
    cases hc
    refine ⟨by rw [← hget]; rfl, fun heir => ⟨nofun, ?_⟩⟩
    rintro ⟨n, -, hid, -⟩
    obtain ⟨⟨r, hr, -⟩, -⟩ := mem_givenUp.1 hid
    rw [← hget] at hr
    cases hr
  · obtain ⟨done, v, hdone, hrest⟩ := Gives.of_bind hrest
    obtain ⟨gone, w, hg, hrest⟩ := Gives.of_bind hrest
    obtain ⟨rfl, -⟩ := Gives.of_change hg
    obtain ⟨hc, -⟩ := Gives.of_pure hrest
    cases hc
    rw [hget] at hdone
    refine ⟨?_, fun heir => replace_heirs (c := done) hdone⟩
    change v.records.contains path = _
    rw [Rows.contains_eq_isSome, (replace_replaced hdone).records]

/-! ## What stays with its file -/

/-- A node of another file stays with it when it is released. -/
theorem released_eq_self {s : Store} {path : String} {n m : Node} (hfile : n.file ≠ path)
    (h : released s path n = some m) : m = n := by
  rw [released] at h
  split at h
  · cases h
  · rw [if_neg hfile] at h
    exact (Option.some.inj h).symm

namespace Changed

variable {path : String} {nodes : List Node} {edges : List Edge} {s t : Store}

/-- A file that passes nothing on and takes nothing over leaves the nodes that other files
declare. -/
theorem sameOutside (h : Changed path nodes edges s t) (ha : Apart nodes edges)
    (hnodes : ∀ n ∈ nodes, n.file = path) (hs : s.Declared)
    (hpasses : ¬ PassesOn s path (givenUp s path nodes edges))
    (htakes : ∀ n ∈ nodes, ∀ m ∈ s.nodes, m.file ≠ path → n.id ≠ m.id) :
    s.SameOutside path t := by
  have hshape : ∀ n ∈ s.nodes, Edge.isId n.id = false := fun n hn => (hs.formed n hn).isId_eq_false
  intro n hfile
  constructor
  · intro hn
    rcases h.node_cases ha hshape hn with hgiven | ⟨hne, ⟨-, hold⟩ | ⟨hclaims, old, hold, hrel⟩⟩
    · exact absurd (hnodes n hgiven) hfile
    · exact hold
    · have hid : n.id = old.id := (released_alike hrel).1
      by_cases hown : old.file = path
      · have hstale := (stale_node_iff ha (hid ▸ hshape old hold) hne).2 hclaims
        rw [hid] at hstale
        refine absurd ⟨old, hold, ?_, hown, ?_⟩ hpasses
        · exact List.mem_filter.2 ⟨hstale.1, by simp [hstale.2]⟩
        · rw [Ne, ← released_eq_none_iff, hrel]
          exact Option.some_ne_none n
      · rwa [released_eq_self hown hrel]
  · intro hn
    have hne : ∀ m ∈ nodes, m.id ≠ n.id := fun m hm => htakes m hm n hn hfile
    by_cases hclaims : s.Claims path n.id
    · -- The node's own file claims it, too, so it stays.
      have hstale := (stale_node_iff ha (hshape n hn) hne).2 hclaims
      have hother : s.otherClaimants n.id path ≠ [] :=
        List.ne_nil_of_mem (Store.mem_otherClaimants.2 ⟨hfile, hs.claimed n hn⟩)
      obtain ⟨m, hm⟩ := Option.ne_none_iff_exists'.1 (mt released_eq_none_iff.1 hother)
      rcases h.node n.id with ⟨g, hg, hid, -⟩ | ⟨-, hget⟩
      · exact absurd hid (hne g hg)
      · rw [if_pos hstale, Rows.mem_iff_get?.1 hn, Option.bind_some, hm,
          released_eq_self hfile hm] at hget
        exact Rows.mem_of_get? hget
    · exact h.node_kept ha hn (hshape n hn) hne hclaims

end Changed

end Upsert

end CodeAtlas
