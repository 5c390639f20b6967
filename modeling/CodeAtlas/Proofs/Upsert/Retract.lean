import CodeAtlas.Proofs.Upsert.Target

/-!
# CodeAtlas.Proofs.Upsert.Retract

What is left of what a file gives up, as a relation between the store before and
after.

* `Released`: nodes go or pass to an heir, and the edges that pointed at a node that
  goes wait again;
* `Retracted`: stale edges go first, and then stale nodes are released.

A node goes exactly if no other file claims it (`Goes`), and what is left of it
otherwise is a version of it.
-/

namespace CodeAtlas

open Work

namespace Upsert

/-! ## Releasing nodes -/

/-- What becomes of a node that a file releases: it stays if another file claims it,
and then is declared by the first such file instead of the one that releases it. -/
def released (s : Store) (path : String) (n : Node) : Option Node :=
  match s.otherClaimants n.id path with
  | [] => none
  | heir :: _ => some (if n.file = path then { n with file := heir } else n)

/-- Whether the target of an edge goes when a file releases some ids. -/
def LosesTarget (s : Store) (path : String) (ids : List String) (e : Edge) : Prop :=
  ∃ id, e.target = some id ∧ id ∈ ids ∧ s.otherClaimants id path = []

instance (s : Store) (path : String) (ids : List String) (e : Edge) :
    Decidable (LosesTarget s path ids e) :=
  decidable_of_iff (e.target.any fun id => id ∈ ids && s.otherClaimants id path = []) <| by
    cases h : e.target <;> simp [LosesTarget, h]

/-- The edge after a file has released some ids. -/
def unlinkFrom (s : Store) (path : String) (ids : List String) (e : Edge) : Edge :=
  if LosesTarget s path ids e then e.unlink else e

@[simp] theorem unlinkFrom_unlink (s : Store) (path : String) (ids : List String) (e : Edge) :
    (unlinkFrom s path ids e).unlink = e.unlink := by
  rw [unlinkFrom]
  split <;> rfl

/-- What is released depends on the records alone. -/
theorem released_congr {s t : Store} (h : t.records = s.records) (path : String) :
    released t path = released s path := by
  funext n
  rw [released, released, Store.otherClaimants_congr h]

theorem unlinkFrom_congr {s t : Store} (h : t.records = s.records) (path : String) :
    unlinkFrom t path = unlinkFrom s path := by
  funext ids e
  have hiff : LosesTarget t path ids e ↔ LosesTarget s path ids e := by
    simp only [LosesTarget, Store.otherClaimants_congr h]
  simp only [unlinkFrom, hiff]

/-- A released node keeps all but the file that declares it, which claims it. -/
theorem released_spec {s : Store} {path : String} {n m : Node} (h : released s path n = some m) :
    (∃ heir ∈ s.otherClaimants n.id path, m = { n with file := heir }) ∨
      (m = n ∧ n.file ≠ path) := by
  rw [released] at h
  split at h
  · cases h
  · next heir rest hc =>
    rw [Option.some.injEq] at h
    subst h
    by_cases hf : n.file = path
    · rw [if_pos hf, hc]
      exact Or.inl ⟨heir, List.mem_cons_self, rfl⟩
    · rw [if_neg hf]
      exact Or.inr ⟨rfl, hf⟩

theorem released_eq_none_iff {s : Store} {path : String} {n : Node} :
    released s path n = none ↔ s.otherClaimants n.id path = [] := by
  rw [released]
  split
  · next h => simp [h]
  · next h => simp [h]

/-- What is left of a released node is a version of it. -/
theorem released_alike {s : Store} {path : String} {n m : Node} (h : released s path n = some m) :
    n.Alike m := by
  obtain ⟨heir, -, rfl⟩ | ⟨rfl, -⟩ := released_spec h
  · exact ⟨rfl, rfl, rfl⟩
  · exact Node.Alike.refl m

/-- A node that is released and stays is claimed by another file. -/
theorem claimed_of_released {s : Store} {path : String} {n m : Node}
    (h : released s path n = some m) : ∃ p, p ≠ path ∧ s.Claims p n.id := by
  cases hc : s.otherClaimants n.id path with
  | nil =>
      rw [released_eq_none_iff.2 hc] at h
      cases h
  | cons p rest => exact ⟨p, Store.mem_otherClaimants.1 (hc ▸ List.mem_cons_self)⟩

/-- To release a node twice is to release it once. -/
theorem released_again {s : Store} {path : String} {n m : Node} (h : released s path n = some m) :
    released s path m = some m := by
  have hfile : m.file ≠ path := by
    obtain ⟨heir, hc, rfl⟩ | ⟨rfl, hf⟩ := released_spec h
    · exact (Store.mem_otherClaimants.1 hc).1
    · exact hf
  have hsome : s.otherClaimants m.id path ≠ [] := by
    rw [(released_alike h).1]
    intro hc
    rw [released_eq_none_iff.2 hc] at h
    cases h
  rw [released]
  split
  · next hc => exact absurd hc hsome
  · rw [if_neg hfile]

/-- The ids of some nodes were released by a file. -/
structure Released (path : String) (ids : List String) (s t : Store) : Prop where
  records : t.records = s.records
  nodes : ∀ k, t.nodes.get? k =
    if k ∈ ids then (s.nodes.get? k).bind (released s path) else s.nodes.get? k
  edges : ∀ k, t.edges.get? k = (s.edges.get? k).map (unlinkFrom s path ids)

theorem Released.nil (path : String) (s : Store) : Released path [] s s := by
  refine ⟨rfl, fun k => by simp, fun k => ?_⟩
  have hid : unlinkFrom s path [] = id := by
    funext e
    exact if_neg fun ⟨_, _, hmem, _⟩ => absurd hmem List.not_mem_nil
  rw [hid, Option.map_id_apply]

theorem losesTarget_cons {s : Store} {path x : String} {ids : List String} {e : Edge} :
    LosesTarget s path (x :: ids) e ↔ LosesTarget s path [x] e ∨ LosesTarget s path ids e := by
  simp only [LosesTarget, List.mem_cons, List.not_mem_nil, or_false]
  constructor
  · rintro ⟨d, ht, hd | hd, hc⟩
    · exact Or.inl ⟨d, ht, hd, hc⟩
    · exact Or.inr ⟨d, ht, hd, hc⟩
  · rintro (⟨d, ht, hd, hc⟩ | ⟨d, ht, hd, hc⟩)
    · exact ⟨d, ht, Or.inl hd, hc⟩
    · exact ⟨d, ht, Or.inr hd, hc⟩

theorem unlinkFrom_cons (s : Store) (path x : String) (ids : List String) (e : Edge) :
    unlinkFrom s path ids (unlinkFrom s path [x] e) = unlinkFrom s path (x :: ids) e := by
  rw [unlinkFrom, unlinkFrom, unlinkFrom]
  by_cases hx : LosesTarget s path [x] e
  · have hwaits : ¬ LosesTarget s path ids e.unlink := fun ⟨_, ht, _⟩ => by cases ht
    rw [if_pos hx, if_neg hwaits, if_pos (losesTarget_cons.2 (Or.inl hx))]
  · rw [if_neg hx]
    simp only [losesTarget_cons, hx, false_or]

theorem Released.cons {path x : String} {ids : List String} {s u t : Store}
    (h : Released path [x] s u) (h' : Released path ids u t) : Released path (x :: ids) s t := by
  refine ⟨h'.records.trans h.records, fun k => ?_, fun k => ?_⟩
  · rw [h'.nodes, h.nodes, released_congr h.records]
    by_cases hx : k = x
    · subst hx
      rw [if_pos (List.mem_singleton_self k), if_pos List.mem_cons_self]
      split
      · cases hn : (s.nodes.get? k).bind (released s path) with
        | none => rfl
        | some m =>
            obtain ⟨n, -, hm⟩ := Option.bind_eq_some_iff.1 hn
            exact released_again hm
      · rfl
    · simp [hx]
  · rw [h'.edges, h.edges, Option.map_map, unlinkFrom_congr h.records]
    congr 1
    funext e
    exact unlinkFrom_cons s path x ids e

theorem unlink_gives {e : Edge} {s t : Store} {c : Commit} (h : (unlink e).Gives s c t) :
    t = (s.mergeEdge e.unlink).2 := by
  obtain ⟨m, u, hm, h⟩ := Gives.of_bind h
  obtain ⟨-, rfl⟩ := Gives.of_change hm
  exact (Gives.of_pure h).2

/-- The loop over the edges to a node that goes. -/
theorem unlinkAll_mapped {id : String} {s t : Store} {c : Commit}
    (h : (forAll (s.edgesTo id none) unlink).Gives s c t) :
    EdgesMapped (fun e => if e.target = some id then e.unlink else e) s t := by
  refine (forAll_edges (g := Edge.unlink) h (fun e he => (Store.mem_edgesTo.1 he).1)
    (fun _ _ => rfl)
    (fun _ _ _ _ _ _ hg => Or.inr (unlink_gives hg))).congr fun e he => ?_
  simp only [Store.mem_edgesTo, he, true_and]

/-- A released id that another file claims loses nothing, so only what is left of its node
counts. -/
theorem Released.of_claimed {path id : String} {s t : Store}
    (hclaim : s.otherClaimants id path ≠ []) (hrecords : t.records = s.records)
    (hedges : t.edges = s.edges) (hother : ∀ k, k ≠ id → t.nodes.get? k = s.nodes.get? k)
    (hid : t.nodes.get? id = (s.nodes.get? id).bind (released s path)) :
    Released path [id] s t := by
  refine ⟨hrecords, fun k => ?_, fun k => ?_⟩
  · split
    · next hk => rw [List.mem_singleton.1 hk, hid]
    · next hk => exact hother k fun heq => hk (List.mem_singleton.2 heq)
  · have hkeep : unlinkFrom s path [id] = fun e => e := by
      funext e
      have hnot : ¬ LosesTarget s path [id] e := by
        rintro ⟨d, -, hd, hc⟩
        rw [List.mem_singleton.1 hd] at hc
        exact hclaim hc
      exact if_neg hnot
    rw [hedges, hkeep, Option.map_id']

/-- A node that another file claims passes to the first such file, if it was declared
by the one that releases it. -/
theorem passOn_released {path id heir : String} {rest : List String} {s t : Store} {c : Commit}
    (hclaim : s.otherClaimants id path = heir :: rest)
    (h : (do
      match ← ask (·.nodes.get? id) with
      | some n =>
        if n.file == path then
          let _ ← mergeNode { n with file := heir }
          return { (0 : Commit) with nodesUpdated := 1, heirs := [heir] }
        else return 0
      | none => return 0 : Work Commit).Gives s c t) : Released path [id] s t := by
  have hclaimed : s.otherClaimants id path ≠ [] := by
    rw [hclaim]
    exact List.cons_ne_nil heir rest
  obtain ⟨found, u, ha, hfound⟩ := Gives.of_bind h
  obtain ⟨hget, rfl⟩ := Gives.of_ask ha
  split at hfound
  · next n =>
    obtain rfl : n.id = id := Rows.key_of_get? hget.symm
    have hrel :
        released u path n = some (if n.file = path then { n with file := heir } else n) := by
      rw [released, hclaim]
    split at hfound
    · next hfile =>
      obtain ⟨m, w, hm, hdone⟩ := Gives.of_bind hfound
      obtain ⟨-, rfl⟩ := Gives.of_change hm
      obtain ⟨-, rfl⟩ := Gives.of_pure hdone
      refine Released.of_claimed hclaimed (Store.mergeNode_records u _) (Store.mergeNode_edges u _)
        (fun k hk => ?_) ?_
      · rw [Store.get?_mergeNode, if_neg fun heq => hk heq.symm]
      · rw [Store.get?_mergeNode, if_pos rfl, ← hget, Option.bind_some, hrel,
          if_pos (beq_iff_eq.1 hfile)]
    · next hfile =>
      obtain ⟨-, rfl⟩ := Gives.of_pure hfound
      refine Released.of_claimed hclaimed rfl rfl (fun _ _ => rfl) ?_
      rw [← hget, Option.bind_some, hrel, if_neg fun hf => hfile (beq_iff_eq.2 hf)]
  · obtain ⟨-, rfl⟩ := Gives.of_pure hfound
    refine Released.of_claimed hclaimed rfl rfl (fun _ _ => rfl) ?_
    rw [← hget, Option.bind_none]

/-- A node that no other file claims goes, once nothing points at it. -/
theorem drop_released {path id : String} {s t : Store} {c : Commit}
    (hclaim : s.otherClaimants id path = [])
    (h : (do
      let unlinked ← forAll (← ask (·.edgesTo id none)) unlink
      let gone ← deleteNode id
      return unlinked + { (0 : Commit) with nodesRemoved := gone.toNat } :
        Work Commit).Gives s c t) :
    Released path [id] s t := by
  obtain ⟨es, u, ha, h⟩ := Gives.of_bind h
  obtain ⟨rfl, rfl⟩ := Gives.of_ask ha
  obtain ⟨unlinked, v, hu, h⟩ := Gives.of_bind h
  obtain ⟨gone, w, hd, h⟩ := Gives.of_bind h
  obtain ⟨-, rfl⟩ := Gives.of_change hd
  obtain ⟨-, rfl⟩ := Gives.of_pure h
  have hmap := unlinkAll_mapped hu
  refine ⟨hmap.records, fun k => ?_, fun k => ?_⟩
  · rw [Store.deleteNode, Rows.get?_erase, hmap.nodes]
    simp only [List.mem_singleton]
    split
    · next hk =>
      symm
      rw [Option.bind_eq_none_iff]
      intro n hn
      rw [released_eq_none_iff, Rows.key_of_get? hn, hk, hclaim]
    · rfl
  · rw [Store.deleteNode, hmap.edges]
    congr 1
    funext e
    have hiff : LosesTarget u path [id] e ↔ e.target = some id := by
      constructor
      · rintro ⟨d, ht, hd, -⟩
        rw [ht, List.mem_singleton.1 hd]
      · exact fun ht => ⟨id, ht, List.mem_singleton_self id, hclaim⟩
    simp only [unlinkFrom, hiff]

theorem retractNode_released {path id : String} {s t : Store} {c : Commit}
    (h : (retractNode path id).Gives s c t) : Released path [id] s t := by
  obtain ⟨claimants, u, ha, hrest⟩ := Gives.of_bind h
  obtain ⟨hclaim, hus⟩ := Gives.of_ask ha
  rw [hus] at hrest
  split at hrest
  · exact passOn_released hclaim.symm hrest
  · exact drop_released hclaim.symm hrest

theorem released_of_steps {path : String} {ids : List String} {s t : Store}
    (h : Steps (fun id u v => Released path [id] u v) ids s t) : Released path ids s t := by
  induction h with
  | nil s => exact Released.nil path s
  | cons hx _ ih => exact hx.cons ih

/-! ## Retracting -/

/-- Stale ids were retracted: edges went, nodes were released. -/
structure Retracted (path : String) (stale : List String) (s t : Store) : Prop where
  records : t.records = s.records
  nodes : ∀ k, t.nodes.get? k =
    if k ∈ stale ∧ Edge.isId k = false then (s.nodes.get? k).bind (released s path)
    else s.nodes.get? k
  edges : ∀ k, t.edges.get? k =
    if k ∈ stale ∧ Edge.isId k = true then none
    else (s.edges.get? k).map (unlinkFrom s path (stale.filter fun id => !Edge.isId id))

/-- Whether the node with an id goes when a file gives up some ids. -/
def Goes (s : Store) (path : String) (stale : List String) (id : String) : Prop :=
  id ∈ stale ∧ Edge.isId id = false ∧ s.otherClaimants id path = []

theorem losesTarget_iff {s : Store} {path : String} {stale : List String} {e : Edge} :
    LosesTarget s path (stale.filter fun id => !Edge.isId id) e ↔
      ∃ d, e.target = some d ∧ Goes s path stale d := by
  simp only [LosesTarget, Goes, List.mem_filter, Bool.not_eq_true', and_assoc]

namespace Retracted

variable {path : String} {stale : List String} {s t : Store}

/-- A node that is left is a version of one that did not go. -/
theorem node_from (h : Retracted path stale s t) {n : Node} (hn : n ∈ t.nodes) :
    ∃ old ∈ s.nodes, old.Alike n ∧ ¬ Goes s path stale old.id := by
  have hget := h.nodes n.id
  rw [Rows.mem_iff_get?.1 hn] at hget
  split at hget
  · obtain ⟨old, hold, hrel⟩ := Option.bind_eq_some_iff.1 hget.symm
    have hstays : ¬ Goes s path stale old.id := by
      intro hg
      rw [released_eq_none_iff.2 hg.2.2] at hrel
      cases hrel
    exact ⟨old, Rows.mem_of_get? hold, released_alike hrel, hstays⟩
  · next hkeep =>
    have hstays : ¬ Goes s path stale n.id := fun hg => hkeep ⟨hg.1, hg.2.1⟩
    exact ⟨n, Rows.mem_of_get? hget.symm, Node.Alike.refl n, hstays⟩

/-- What an edge means afterwards it meant before, and it did not go. -/
theorem means_from (h : Retracted path stale s t) {e : Edge} {n : Node} (hn : n ∈ t.nodes)
    (hm : e.Means n) : ∃ m ∈ s.nodes, e.Means m ∧ ¬ Goes s path stale m.id := by
  obtain ⟨m, hmem, ha, hstays⟩ := h.node_from hn
  exact ⟨m, hmem, hm.alike ha.symm, hstays⟩

/-- A node that does not go leaves a version of it. -/
theorem node_stays (h : Retracted path stale s t) {n : Node} (hn : n ∈ s.nodes)
    (hg : ¬ Goes s path stale n.id) : ∃ m ∈ t.nodes, n.Alike m := by
  have hget := h.nodes n.id
  rw [Rows.mem_iff_get?.1 hn, Option.bind_some] at hget
  split at hget
  · next hstale =>
    cases hrel : released s path n with
    | none => exact absurd ⟨hstale.1, hstale.2, released_eq_none_iff.1 hrel⟩ hg
    | some m =>
        rw [hrel] at hget
        exact ⟨m, Rows.mem_of_get? hget, released_alike hrel⟩
  · exact ⟨n, Rows.mem_of_get? hget, Node.Alike.refl n⟩

theorem formed (h : Retracted path stale s t) (hs : ∀ n ∈ s.nodes, n.Formed) :
    ∀ n ∈ t.nodes, n.Formed := by
  intro n hn
  obtain ⟨old, hold, ha, -⟩ := h.node_from hn
  exact ha.formed (hs old hold)

/-- To give up nothing is to change nothing. -/
theorem nil (path : String) (s : Store) : Retracted path [] s s := by
  refine ⟨rfl, fun k => by simp, fun k => ?_⟩
  rw [List.filter_nil, ← (Released.nil path s).edges k]
  simp

/-- An edge that is left waits because its target went, or is as it was. -/
theorem edge_from (h : Retracted path stale s t) {e : Edge} (he : e ∈ t.edges) :
    ∃ old ∈ s.edges, ((∃ d, old.target = some d ∧ Goes s path stale d) ∧ e = old.unlink) ∨
      ((∀ d, old.target = some d → ¬ Goes s path stale d) ∧ e = old) := by
  have hget := h.edges e.id
  rw [Rows.mem_iff_get?.1 he] at hget
  split at hget
  · cases hget
  · obtain ⟨old, hold, hu⟩ := Option.map_eq_some_iff.1 hget.symm
    refine ⟨old, Rows.mem_of_get? hold, ?_⟩
    rw [unlinkFrom] at hu
    split at hu
    · next hl => exact Or.inl ⟨losesTarget_iff.1 hl, hu.symm⟩
    · next hl =>
      have hstays : ∀ d, old.target = some d → ¬ Goes s path stale d :=
        fun d hd hg => hl (losesTarget_iff.2 ⟨d, hd, hg⟩)
      exact Or.inr ⟨hstays, hu.symm⟩

end Retracted

theorem dropEdges_of_steps {ids : List String} {s t : Store}
    (h : Steps (fun id u v => v = (u.deleteEdge id).2) ids s t) :
    t.nodes = s.nodes ∧ t.records = s.records ∧
      ∀ k, t.edges.get? k = if k ∈ ids then none else s.edges.get? k := by
  induction h with
  | nil s => exact ⟨rfl, rfl, fun k => by simp⟩
  | @cons x xs s u t hx _ ih =>
      subst hx
      obtain ⟨hn, hr, he⟩ := ih
      refine ⟨hn, hr, fun k => ?_⟩
      rw [he, Store.deleteEdge, Rows.get?_erase]
      by_cases hk : k = x <;> simp [hk]

theorem retractEdge_gives {id : String} {s t : Store} {c : Commit}
    (h : (retractEdge id).Gives s c t) : t = (s.deleteEdge id).2 := by
  obtain ⟨m, u, hm, h⟩ := Gives.of_bind h
  obtain ⟨-, rfl⟩ := Gives.of_change hm
  exact (Gives.of_pure h).2

theorem retract_retracted {path : String} {stale : List String} {s t : Store} {c : Commit}
    (h : (retract path stale).Gives s c t) : Retracted path stale s t := by
  obtain ⟨a, u, he, h⟩ := Gives.of_bind h
  obtain ⟨b, v, hn, h⟩ := Gives.of_bind h
  obtain ⟨-, rfl⟩ := Gives.of_pure h
  obtain ⟨hnodes, hrecords, hedges⟩ := dropEdges_of_steps
    (forAll_steps he fun _ _ _ _ _ hx => retractEdge_gives hx)
  have hrel := released_of_steps (forAll_steps hn fun _ _ _ _ _ hx => retractNode_released hx)
  refine ⟨hrel.records.trans hrecords, fun k => ?_, fun k => ?_⟩
  · rw [hrel.nodes, hnodes, released_congr hrecords]
    simp only [List.mem_filter, Bool.not_eq_true']
  · rw [hrel.edges, hedges, unlinkFrom_congr hrecords]
    simp only [List.mem_filter]
    split <;> rfl

end Upsert

end CodeAtlas
