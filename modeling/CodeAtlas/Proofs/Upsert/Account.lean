import CodeAtlas.Proofs.Upsert.Idle
import CodeAtlas.Proofs.Upsert.Restore
import Mathlib.Data.Finset.Card

/-!
# CodeAtlas.Proofs.Upsert.Account

What a commit reports is what has changed.

A transaction touches an edge in several places: it may lose its target, be given another one
and be written once more.  Each place counts for itself, so the counts are followed through
the work step by step: every step reports by how much it changes the number of nodes and of
edges, and one that reports nothing changes nothing (`Commit.Tallies`).  Steps that retract
add nothing, steps that merge remove nothing, and what is retracted is not given, so that
nothing that goes comes back (`Passage`).

The other way round, a call that leaves everything as it was has found what it was given, and
then it has done nothing (`Backend.apply_held`).
-/

namespace CodeAtlas

open Work Upsert

/-! ## The ids of rows -/

namespace Rows

variable {α : Type} {key : α → String} (r : Rows α key)

/-- The keys that are in use. -/
def ids : Finset String := (r.toList.map key).toFinset

variable {r}

theorem mem_ids {k : String} : k ∈ r.ids ↔ (r.get? k).isSome = true := by
  rw [ids, List.mem_toFinset, List.mem_map, Option.isSome_iff_exists]
  exact exists_congr fun a => get?_eq_some_iff.symm

/-- There are as many keys as rows. -/
theorem card_ids : r.ids.card = r.size := by
  rw [ids, List.toFinset_card_of_nodup r.nodup, List.length_map]
  rfl

theorem ids_put (a : α) : (r.put a).ids = insert (key a) r.ids := by
  ext k
  rw [Finset.mem_insert, mem_ids, mem_ids, get?_put]
  split
  · next h => simp [h]
  · next h => simp [Ne.symm h]

theorem ids_erase (k : String) : (r.erase k).ids = r.ids.erase k := by
  ext j
  rw [Finset.mem_erase, mem_ids, mem_ids, get?_erase]
  split
  · next h => simp [h]
  · next h => simp [h]

/-- Writing adds a row if its key is not in use. -/
theorem size_put (a : α) : (r.put a).size = r.size + if key a ∈ r.ids then 0 else 1 := by
  rw [← card_ids, ← card_ids, ids_put]
  split
  · next h => rw [Finset.insert_eq_of_mem h, Nat.add_zero]
  · next h => rw [Finset.card_insert_of_notMem h]

/-- Dropping removes a row if its key is in use. -/
theorem size_erase (k : String) : (r.erase k).size + (r.contains k).toNat = r.size := by
  rw [← card_ids, ← card_ids, ids_erase, contains_eq_isSome]
  cases h : (r.get? k).isSome with
  | true => exact Finset.card_erase_add_one (mem_ids.2 h)
  | false =>
      rw [Finset.erase_eq_of_notMem fun hmem => Bool.false_ne_true (h.symm.trans (mem_ids.1 hmem))]
      rfl

/-- To drop a key that is not in use changes nothing. -/
theorem erase_of_not_contains {k : String} (h : r.contains k = false) : r.erase k = r := by
  have hall : r.toList.filter (key · != k) = r.toList := by
    refine List.filter_eq_self.2 fun a ha => ?_
    simpa using List.any_eq_false.1 h a ha
  cases r
  simpa [erase, filter] using hall

end Rows

/-- A set that came from another one by taking away and then adding, where nothing that was
taken away came back: `U` is what was left in between. -/
structure Passage (S U T : Finset String) : Prop where
  taken : U ⊆ S
  added : U ⊆ T
  apart : S ∩ T ⊆ U

namespace Passage

variable {S U T : Finset String}

theorem symm (h : Passage S U T) : Passage T U S :=
  ⟨h.added, h.taken, Finset.inter_comm S T ▸ h.apart⟩

/-- What was added is what is there only afterwards. -/
theorem card_added (h : Passage S U T) : U.card + (T \ S).card = T.card := by
  have hnew : T \ S = T \ U := by
    ext k
    simp only [Finset.mem_sdiff]
    exact and_congr_right fun ht =>
      not_congr ⟨fun hs => h.apart (Finset.mem_inter.2 ⟨hs, ht⟩), fun hu => h.taken hu⟩
  rw [hnew, Nat.add_comm, Finset.card_sdiff_add_card_eq_card h.added]

end Passage

/-! ## Commits -/

namespace Commit

/-- The nodes and edges that came and went are as many as a commit reports. -/
structure Counts (c : Commit) (s t : Store) : Prop where
  nodesAdded : c.nodesAdded = (t.nodes.ids \ s.nodes.ids).card
  nodesRemoved : c.nodesRemoved = (s.nodes.ids \ t.nodes.ids).card
  edgesAdded : c.edgesAdded = (t.edges.ids \ s.edges.ids).card
  edgesRemoved : c.edgesRemoved = (s.edges.ids \ t.edges.ids).card

/-- What a commit reports has changed from one store to another, and nothing else: it counts
what came and went, and it reports no write exactly if nothing has changed. -/
structure Accounts (c : Commit) (s t : Store) : Prop extends c.Counts s t where
  silent : c.writes = 0 ↔ s.SameContents t

/-- The numbers of nodes and edges change by as much as is reported, and where nothing is
reported nothing changes. -/
structure Tallies (c : Commit) (s t : Store) : Prop where
  nodes : t.nodes.size + c.nodesRemoved = s.nodes.size + c.nodesAdded
  edges : t.edges.size + c.edgesRemoved = s.edges.size + c.edgesAdded
  silent : c.writes = 0 → t = s

/-- Nothing is reported as added. -/
def AddsNone (c : Commit) : Prop := c.nodesAdded = 0 ∧ c.edgesAdded = 0

/-- Nothing is reported as removed. -/
def RemovesNone (c : Commit) : Prop := c.nodesRemoved = 0 ∧ c.edgesRemoved = 0

variable {a b : Commit} {s t u : Store}

@[simp] theorem nodesAdded_add : (a + b).nodesAdded = a.nodesAdded + b.nodesAdded := rfl

@[simp] theorem nodesRemoved_add : (a + b).nodesRemoved = a.nodesRemoved + b.nodesRemoved := rfl

@[simp] theorem edgesAdded_add : (a + b).edgesAdded = a.edgesAdded + b.edgesAdded := rfl

@[simp] theorem edgesRemoved_add : (a + b).edgesRemoved = a.edgesRemoved + b.edgesRemoved := rfl

theorem writes_add_eq_zero : (a + b).writes = 0 ↔ a.writes = 0 ∧ b.writes = 0 := by
  change (Commit.add a b).writes = 0 ↔ _
  simp only [writes, add, Nat.add_eq_zero_iff, Bool.toNat_eq_zero, Bool.or_eq_false_iff]
  tauto

theorem Tallies.zero (s : Store) : Tallies 0 s s := ⟨rfl, rfl, fun _ => rfl⟩

theorem Tallies.add (h : a.Tallies s t) (h' : b.Tallies t u) : (a + b).Tallies s u := by
  have hnodes := h.nodes
  have hnodes' := h'.nodes
  have hedges := h.edges
  have hedges' := h'.edges
  refine ⟨?_, ?_, fun hw => ?_⟩
  · rw [nodesRemoved_add, nodesAdded_add]
    omega
  · rw [edgesRemoved_add, edgesAdded_add]
    omega
  · obtain ⟨ha, hb⟩ := writes_add_eq_zero.1 hw
    rw [h'.silent hb, h.silent ha]

theorem AddsNone.add (h : a.AddsNone) (h' : b.AddsNone) : (a + b).AddsNone :=
  ⟨Nat.add_eq_zero_iff.2 ⟨h.1, h'.1⟩, Nat.add_eq_zero_iff.2 ⟨h.2, h'.2⟩⟩

theorem RemovesNone.add (h : a.RemovesNone) (h' : b.RemovesNone) : (a + b).RemovesNone :=
  ⟨Nat.add_eq_zero_iff.2 ⟨h.1, h'.1⟩, Nat.add_eq_zero_iff.2 ⟨h.2, h'.2⟩⟩

/-- A step of retracting: it tallies, and adds nothing. -/
def Shrinks (c : Commit) (s t : Store) : Prop := c.Tallies s t ∧ c.AddsNone

/-- A step of merging: it tallies, and removes nothing. -/
def Grows (c : Commit) (s t : Store) : Prop := c.Tallies s t ∧ c.RemovesNone

theorem Shrinks.zero (s : Store) : Shrinks 0 s s := ⟨.zero s, rfl, rfl⟩

theorem Shrinks.add (h : a.Shrinks s t) (h' : b.Shrinks t u) : (a + b).Shrinks s u :=
  ⟨h.1.add h'.1, h.2.add h'.2⟩

theorem Grows.zero (s : Store) : Grows 0 s s := ⟨.zero s, rfl, rfl⟩

theorem Grows.add (h : a.Grows s t) (h' : b.Grows t u) : (a + b).Grows s u :=
  ⟨h.1.add h'.1, h.2.add h'.2⟩

end Commit

/-! ## Merging a row -/

namespace Store

variable {α : Type} {key : α → String} [DecidableEq α] {s : Store}

theorem mergeOf_eq_created_iff {rows : Rows α key} {a : α} :
    mergeOf rows a = .created ↔ key a ∉ rows.ids := by
  rw [Rows.mem_ids, mergeOf]
  cases h : rows.get? (key a) with
  | none => simp
  | some old => by_cases ho : old = a <;> simp [ho]

/-- Merging adds a row exactly if it is reported as created. -/
theorem size_mergeOf (rows : Rows α key) (a : α) :
    (if mergeOf rows a = .unchanged then rows else rows.put a).size =
      rows.size + if mergeOf rows a = .created then 1 else 0 := by
  by_cases hid : key a ∈ rows.ids
  · have hold : mergeOf rows a ≠ .created := fun h => mergeOf_eq_created_iff.1 h hid
    rw [if_neg hold]
    split
    · rfl
    · rw [Rows.size_put, if_pos hid]
  · have hnew := mergeOf_eq_created_iff.2 hid
    rw [hnew, if_neg (by simp), if_pos rfl, Rows.size_put, if_neg hid]

theorem mergeNode_fst (n : Node) : (s.mergeNode n).1 = mergeOf s.nodes n := by
  rw [mergeNode]
  cases mergeOf s.nodes n <;> rfl

theorem mergeEdge_fst (e : Edge) : (s.mergeEdge e).1 = mergeOf s.edges e := by
  rw [mergeEdge]
  cases mergeOf s.edges e <;> rfl

theorem mergeNode_size (n : Node) : (s.mergeNode n).2.nodes.size =
    s.nodes.size + if (s.mergeNode n).1 = .created then 1 else 0 := by
  rw [mergeNode_fst, ← size_mergeOf, mergeNode]
  cases mergeOf s.nodes n <;> rfl

theorem mergeEdge_size (e : Edge) : (s.mergeEdge e).2.edges.size =
    s.edges.size + if (s.mergeEdge e).1 = .created then 1 else 0 := by
  rw [mergeEdge_fst, ← size_mergeOf, mergeEdge]
  cases mergeOf s.edges e <;> rfl

theorem mergeNode_unchanged {n : Node} (h : (s.mergeNode n).1 = .unchanged) :
    (s.mergeNode n).2 = s := by
  rw [mergeNode_fst] at h
  rw [mergeNode, h]

theorem mergeEdge_unchanged {e : Edge} (h : (s.mergeEdge e).1 = .unchanged) :
    (s.mergeEdge e).2 = s := by
  rw [mergeEdge_fst] at h
  rw [mergeEdge, h]

end Store

namespace Upsert

open Commit

variable {s t u v : Store} {c : Commit}

/-! ## Loops -/

/-- What holds of no change, and of two changes together, holds of a loop if it holds of each
of its steps.  An invariant of the store may be used and is kept on the way. -/
theorem forAll_compose {α : Type} {R : Commit → Store → Store → Prop} (hzero : ∀ s, R 0 s s)
    (hadd : ∀ {a b : Commit} {s t u : Store}, R a s t → R b t u → R (a + b) s u)
    {I : Store → Prop} {f : α → Work Commit} {xs : List α} (hs : I s)
    (hf : ∀ x ∈ xs, ∀ u a v, I u → (f x).Gives u a v → R a u v ∧ I v)
    (h : (forAll xs f).Gives s c t) : R c s t := by
  induction xs generalizing s c with
  | nil =>
      obtain ⟨rfl, rfl⟩ := Gives.of_pure h
      exact hzero t
  | cons x xs ih =>
      obtain ⟨a, u, hx, h⟩ := Gives.of_bind h
      obtain ⟨b, v, hxs, h⟩ := Gives.of_bind h
      obtain ⟨rfl, rfl⟩ := Gives.of_pure h
      obtain ⟨ha, hu⟩ := hf x List.mem_cons_self s a u hs hx
      exact hadd ha (ih hu (fun y hy => hf y (List.mem_cons_of_mem x hy)) hxs)

/-! ## Other targets -/

/-- A stored edge was written with another target. -/
structure Retargeted (e : Edge) (s t : Store) : Prop where
  nodes : t.nodes = s.nodes
  size : t.edges.size = s.edges.size
  ids : ∀ k ∈ s.edges.ids, k ∈ t.edges.ids

theorem retargeted_of_mem {e : Edge} (h : e.id ∈ s.edges.ids) :
    Retargeted e s (s.mergeEdge e).2 := by
  refine ⟨Store.mergeEdge_nodes s e, ?_, fun k hk => ?_⟩
  · rw [Store.mergeEdge_size, if_neg, Nat.add_zero]
    rw [Store.mergeEdge_fst, Store.mergeOf_eq_created_iff]
    exact fun hnot => hnot h
  · rw [Rows.mem_ids, Store.get?_mergeEdge]
    split
    · rfl
    · exact Rows.mem_ids.1 hk

/-- A commit that reports a write of some kind, and neither comings nor goings, tallies if the
numbers stay. -/
theorem Retargeted.tallies {e : Edge} (h : Retargeted e s t) (ha : c.AddsNone)
    (hr : c.RemovesNone) (hw : c.writes ≠ 0) : c.Tallies s t := by
  refine ⟨?_, ?_, fun h0 => absurd h0 hw⟩
  · rw [h.nodes, hr.1, ha.1]
  · rw [h.size, hr.2, ha.2]

theorem unlink_retargeted {e : Edge} (he : e.id ∈ s.edges.ids) (h : (unlink e).Gives s c t) :
    Retargeted e.unlink s t ∧ c.Shrinks s t := by
  obtain ⟨m, u, hm, h⟩ := Gives.of_bind h
  obtain ⟨-, rfl⟩ := Gives.of_change hm
  obtain ⟨rfl, rfl⟩ := Gives.of_pure h
  have hr : Retargeted e.unlink s (s.mergeEdge e.unlink).2 := retargeted_of_mem he
  exact ⟨hr, hr.tallies ⟨rfl, rfl⟩ ⟨rfl, rfl⟩ (by decide), rfl, rfl⟩

theorem link_retargeted {e : Edge} {id : String} {confidence : Confidence}
    (he : e.id ∈ s.edges.ids) (h : (link e id confidence).Gives s c t) :
    Retargeted (e.link id confidence) s t ∧ c.Grows s t := by
  obtain ⟨m, u, hm, h⟩ := Gives.of_bind h
  obtain ⟨-, rfl⟩ := Gives.of_change hm
  obtain ⟨rfl, rfl⟩ := Gives.of_pure h
  have hr : Retargeted (e.link id confidence) s (s.mergeEdge (e.link id confidence)).2 :=
    retargeted_of_mem he
  exact ⟨hr, hr.tallies ⟨rfl, rfl⟩ ⟨rfl, rfl⟩ (by decide), rfl, rfl⟩

/-- The edges that a question lists are stored. -/
theorem ids_of_listed {p : Edge → Bool} : ∀ e ∈ s.edgesWhere p, e.id ∈ s.edges.ids := by
  intro e he
  rw [Rows.mem_ids, Rows.mem_iff_get?.1 (Store.mem_edgesWhere.1 he).1]
  rfl

/-! ## Retracting -/

theorem retractEdge_shrinks {id : String} (h : (retractEdge id).Gives s c t) : c.Shrinks s t := by
  obtain ⟨gone, u, hd, h⟩ := Gives.of_bind h
  obtain ⟨rfl, rfl⟩ := Gives.of_change hd
  obtain ⟨rfl, rfl⟩ := Gives.of_pure h
  refine ⟨⟨rfl, Rows.size_erase id, fun hw => ?_⟩, rfl, rfl⟩
  have hcount : 0 + (s.edges.contains id).toNat = 0 := hw
  have hgone : s.edges.contains id = false := Bool.toNat_eq_zero.1 (by omega)
  change { s with edges := s.edges.erase id } = s
  rw [Rows.erase_of_not_contains hgone]

/-- A node that passes to another file stays. -/
theorem passOn_shrinks {heir : String} {n : Node} (hn : n ∈ s.nodes)
    (h : (do
      let _ ← mergeNode { n with file := heir }
      return { (0 : Commit) with nodesUpdated := 1, heirs := [heir] } : Work Commit).Gives s c t) :
    c.Shrinks s t := by
  obtain ⟨m, u, hm, h⟩ := Gives.of_bind h
  obtain ⟨-, rfl⟩ := Gives.of_change hm
  obtain ⟨rfl, rfl⟩ := Gives.of_pure h
  refine ⟨⟨?_, ?_, fun hw => absurd hw Nat.one_ne_zero⟩, rfl, rfl⟩
  · have hold : (s.mergeNode { n with file := heir }).1 ≠ .created := by
      rw [Store.mergeNode_fst, Ne, Store.mergeOf_eq_created_iff, not_not, Rows.mem_ids,
        Rows.mem_iff_get?.1 hn]
      rfl
    rw [Store.mergeNode_size, if_neg hold]
    rfl
  · rw [Store.mergeNode_edges]
    rfl

/-- A node goes after the edges that point at it have lost their target. -/
theorem drop_shrinks {id : String}
    (h : (do
      let unlinked ← forAll (← ask (·.edgesTo id none)) unlink
      let gone ← deleteNode id
      return unlinked + { (0 : Commit) with nodesRemoved := gone.toNat } :
        Work Commit).Gives s c t) : c.Shrinks s t := by
  obtain ⟨es, u, ha, h⟩ := Gives.of_bind h
  obtain ⟨rfl, rfl⟩ := Gives.of_ask ha
  obtain ⟨unlinked, v, hu, h⟩ := Gives.of_bind h
  obtain ⟨gone, w, hd, h⟩ := Gives.of_bind h
  obtain ⟨rfl, rfl⟩ := Gives.of_change hd
  obtain ⟨rfl, rfl⟩ := Gives.of_pure h
  have hunlinked : unlinked.Shrinks u v := by
    refine forAll_compose (I := fun w => ∀ e ∈ u.edgesTo id none, e.id ∈ w.edges.ids)
      Shrinks.zero Shrinks.add ids_of_listed (fun e he w a x hw hx => ?_) hu
    obtain ⟨hr, hs⟩ := unlink_retargeted (hw e he) hx
    exact ⟨hs, fun e' he' => hr.ids e'.id (hw e' he')⟩
  refine hunlinked.add ⟨⟨Rows.size_erase id, rfl, fun hw => ?_⟩, rfl, rfl⟩
  have hcount : 0 + (v.nodes.contains id).toNat = 0 := hw
  have hgone : v.nodes.contains id = false := Bool.toNat_eq_zero.1 (by omega)
  change { v with nodes := v.nodes.erase id } = v
  rw [Rows.erase_of_not_contains hgone]

theorem retractNode_shrinks {path id : String} (h : (retractNode path id).Gives s c t) :
    c.Shrinks s t := by
  obtain ⟨claimants, u, ha, hrest⟩ := Gives.of_bind h
  obtain ⟨-, rfl⟩ := Gives.of_ask ha
  split at hrest
  · obtain ⟨found, w, hf, hpass⟩ := Gives.of_bind hrest
    obtain ⟨hfound, rfl⟩ := Gives.of_ask hf
    split at hpass
    · split at hpass
      · exact passOn_shrinks (Rows.mem_of_get? hfound.symm) hpass
      · obtain ⟨rfl, rfl⟩ := Gives.of_pure hpass
        exact .zero t
    · obtain ⟨rfl, rfl⟩ := Gives.of_pure hpass
      exact .zero t
  · exact drop_shrinks hrest

theorem retract_shrinks {path : String} {stale : List String}
    (h : (retract path stale).Gives s c t) : c.Shrinks s t := by
  obtain ⟨a, u, he, h⟩ := Gives.of_bind h
  obtain ⟨b, v, hn, h⟩ := Gives.of_bind h
  obtain ⟨rfl, rfl⟩ := Gives.of_pure h
  have hedges : a.Shrinks s u := forAll_compose (I := fun _ => True) Shrinks.zero Shrinks.add
    trivial (fun _ _ _ _ _ _ hx => ⟨retractEdge_shrinks hx, trivial⟩) he
  have hnodes : b.Shrinks u t := forAll_compose (I := fun _ => True) Shrinks.zero Shrinks.add
    trivial (fun _ _ _ _ _ _ hx => ⟨retractNode_shrinks hx, trivial⟩) hn
  exact hedges.add hnodes

/-! ## Merging -/

/-- A loop that links some of the edges of a list, or none. -/
theorem linkAll_grows {es : List Edge} {f : Edge → Work Commit} (hes : ∀ e ∈ es, e.id ∈ s.edges.ids)
    (hf : ∀ e ∈ es, ∀ u a v, (f e).Gives u a v →
      (a = 0 ∧ v = u) ∨ ∃ id confidence, (link e id confidence).Gives u a v)
    (h : (forAll es f).Gives s c t) : c.Grows s t := by
  refine forAll_compose (I := fun w => ∀ e ∈ es, e.id ∈ w.edges.ids) Grows.zero Grows.add hes
    (fun e he u a v hu hx => ?_) h
  rcases hf e he u a v hx with ⟨rfl, rfl⟩ | ⟨id, confidence, hl⟩
  · exact ⟨.zero v, hu⟩
  · obtain ⟨hr, hg⟩ := link_retargeted (hu e he) hl
    exact ⟨hg, fun e' he' => hr.ids e'.id (hu e' he')⟩

theorem linkWaiting_grows {n : Node} (h : (linkWaiting n).Gives s c t) : c.Grows s t := by
  obtain ⟨es, u, ha, h⟩ := Gives.of_bind h
  obtain ⟨rfl, rfl⟩ := Gives.of_ask ha
  obtain ⟨qualified, v, hq, h⟩ := Gives.of_bind h
  have hfirst : qualified.Grows u v := by
    refine linkAll_grows ids_of_listed (fun e _ w a x hx => ?_) hq
    split at hx
    · exact .inr ⟨_, _, hx⟩
    · exact .inl (Gives.of_pure hx)
  split at h
  · obtain ⟨rfl, rfl⟩ := Gives.of_pure h
    exact hfirst
  · obtain ⟨es, w, ha, h⟩ := Gives.of_bind h
    obtain ⟨rfl, rfl⟩ := Gives.of_ask ha
    obtain ⟨simple, x, hp, h⟩ := Gives.of_bind h
    obtain ⟨rfl, rfl⟩ := Gives.of_pure h
    refine hfirst.add (linkAll_grows ids_of_listed (fun e _ y a z hx => ?_) hp)
    split at hx
    · exact .inl (Gives.of_pure hx)
    · obtain ⟨found, y', hf, hfound⟩ := Gives.of_bind hx
      obtain ⟨-, rfl⟩ := Gives.uniqueByName hf
      split at hfound
      · split at hfound
        · exact .inr ⟨_, _, hfound⟩
        · exact .inl (Gives.of_pure hfound)
      · exact .inl (Gives.of_pure hfound)

theorem mergeNew_grows {n : Node} (h : (mergeNew n).Gives s c t) : c.Grows s t := by
  obtain ⟨m, u, hm, h⟩ := Gives.of_bind h
  obtain ⟨rfl, rfl⟩ := Gives.of_change hm
  have hsize := Store.mergeNode_size (s := s) n
  have hedges := Store.mergeNode_edges s n
  cases hmerge : (s.mergeNode n).1 with
  | created =>
      rw [hmerge, if_pos rfl] at hsize
      rw [hmerge] at h
      obtain ⟨linked, v, hl, h⟩ := Gives.of_bind h
      obtain ⟨rfl, rfl⟩ := Gives.of_pure h
      refine Grows.add ⟨⟨hsize, ?_, fun hw => absurd hw (by decide)⟩, rfl, rfl⟩
        (linkWaiting_grows hl)
      rw [hedges]
      rfl
  | updated =>
      rw [hmerge, if_neg (by decide)] at hsize
      rw [hmerge] at h
      obtain ⟨rfl, rfl⟩ := Gives.of_pure h
      refine ⟨⟨hsize, ?_, fun hw => absurd hw (by decide)⟩, rfl, rfl⟩
      rw [hedges]
      rfl
  | unchanged =>
      rw [hmerge] at h
      obtain ⟨rfl, rfl⟩ := Gives.of_pure h
      rw [Store.mergeNode_unchanged hmerge]
      exact .zero s

theorem mergeValid_grows {e : Edge} (h : (mergeValid e).Gives s c t) : c.Grows s t := by
  obtain ⟨valid, u, hv, h⟩ := Gives.of_bind h
  obtain ⟨rfl, rfl⟩ := Gives.validate hv
  obtain ⟨m, w, hm, h⟩ := Gives.of_bind h
  obtain ⟨rfl, rfl⟩ := Gives.of_change hm
  have hsize := Store.mergeEdge_size (s := u) (validIn u e)
  have hnodes := Store.mergeEdge_nodes u (validIn u e)
  cases hmerge : (u.mergeEdge (validIn u e)).1 with
  | created =>
      rw [hmerge, if_pos rfl] at hsize
      rw [hmerge] at h
      obtain ⟨rfl, rfl⟩ := Gives.of_pure h
      refine ⟨⟨?_, hsize, fun hw => absurd hw (by decide)⟩, rfl, rfl⟩
      rw [hnodes]
      rfl
  | updated =>
      rw [hmerge, if_neg (by decide)] at hsize
      rw [hmerge] at h
      obtain ⟨rfl, rfl⟩ := Gives.of_pure h
      refine ⟨⟨?_, hsize, fun hw => absurd hw (by decide)⟩, rfl, rfl⟩
      rw [hnodes]
      rfl
  | unchanged =>
      rw [hmerge] at h
      obtain ⟨rfl, rfl⟩ := Gives.of_pure h
      rw [Store.mergeEdge_unchanged hmerge]
      exact .zero u

/-! ## Replacing -/

variable {path : String} {previous : Option FileRecord} {nodes : List Node} {edges : List Edge}

/-- What is given is not stale. -/
theorem not_mem_staleIds {k : String} (h : k ∈ contributionOf nodes edges) :
    k ∉ staleIds previous nodes edges := by
  intro hstale
  have hnot := (List.mem_filter.1 hstale).2
  simp [h] at hnot

/-- Nodes are retracted and then given, and no node that is retracted is given. -/
theorem nodes_passage (hr : Retracted path (staleIds previous nodes edges) s u)
    (hn : Steps NodeMerged nodes u v) : Passage s.nodes.ids u.nodes.ids v.nodes.ids := by
  constructor
  case taken =>
    intro k hk
    rw [Rows.mem_ids, hr.nodes] at hk
    rw [Rows.mem_ids]
    split at hk
    · exact Option.isSome_of_isSome_bind hk
    · exact hk
  case added =>
    intro k hk
    rw [Rows.mem_ids] at hk ⊢
    rcases hn.nodes_merged k with ⟨n, -, -, hget⟩ | ⟨-, hget⟩
    · rw [hget]
      rfl
    · rwa [hget]
  case apart =>
    intro k hk
    simp only [Finset.mem_inter, Rows.mem_ids] at hk ⊢
    rcases hn.nodes_merged k with ⟨n, hmem, hid, -⟩ | ⟨-, hget⟩
    · have hkeep : k ∉ staleIds previous nodes edges :=
        not_mem_staleIds (mem_contributionOf.2 (.inl ⟨n, hmem, hid⟩))
      rw [hr.nodes, if_neg fun h => hkeep h.1]
      exact hk.1
    · rw [← hget]
      exact hk.2

/-- Edges are retracted and then given, and no edge that is retracted is given. -/
theorem edges_passage (hr : Retracted path (staleIds previous nodes edges) s u)
    (hn : Steps NodeMerged nodes u v) (he : Steps EdgeMerged edges v t) :
    Passage s.edges.ids u.edges.ids t.edges.ids := by
  -- The nodes that come in between only change targets.
  have hsame : ∀ k, (v.edges.get? k).isSome = (u.edges.get? k).isSome := by
    intro k
    have hw := congrArg Option.isSome (hn.nodes_merged_written k)
    rwa [Store.written, Store.written, Option.isSome_map, Option.isSome_map] at hw
  constructor
  case taken =>
    intro k hk
    rw [Rows.mem_ids, hr.edges] at hk
    rw [Rows.mem_ids]
    split at hk
    · cases hk
    · rwa [Option.isSome_map] at hk
  case added =>
    intro k hk
    rw [Rows.mem_ids] at hk ⊢
    rcases he.edges_merged k with ⟨e, -, -, hget⟩ | ⟨-, hget⟩
    · rw [hget]
      rfl
    · rw [hget, hsame, hk]
  case apart =>
    intro k hk
    simp only [Finset.mem_inter, Rows.mem_ids] at hk ⊢
    rcases he.edges_merged k with ⟨e, hmem, hid, -⟩ | ⟨-, hget⟩
    · have hkeep : k ∉ staleIds previous nodes edges :=
        not_mem_staleIds (mem_contributionOf.2 (.inr ⟨e, hmem, hid⟩))
      rw [hr.edges, if_neg fun h => hkeep h.1, Option.isSome_map]
      exact hk.1
    · rw [← hsame, ← hget]
      exact hk.2

/-- What is reported as removed before and as added after a store in between has come and
gone. -/
theorem counts_of_phases {a b d : Commit} (ha : a.Shrinks s u)
    (hb : (b + d).Grows u t) (hnodes : Passage s.nodes.ids u.nodes.ids t.nodes.ids)
    (hedges : Passage s.edges.ids u.edges.ids t.edges.ids) : (a + b + d).Counts s t := by
  obtain ⟨ha, hanodes, haedges⟩ := ha
  obtain ⟨hb, hbnodes, hbedges⟩ := hb
  have hnodesLeft := ha.nodes
  have hnodesGiven := hb.nodes
  have hedgesLeft := ha.edges
  have hedgesGiven := hb.edges
  have hnodesNew := hnodes.card_added
  have hnodesGone := hnodes.symm.card_added
  have hedgesNew := hedges.card_added
  have hedgesGone := hedges.symm.card_added
  simp only [Rows.card_ids, nodesAdded_add, nodesRemoved_add, edgesAdded_add,
    edgesRemoved_add] at *
  constructor
  case nodesAdded => rw [nodesAdded_add, nodesAdded_add]; omega
  case nodesRemoved => rw [nodesRemoved_add, nodesRemoved_add]; omega
  case edgesAdded => rw [edgesAdded_add, edgesAdded_add]; omega
  case edgesRemoved => rw [edgesRemoved_add, edgesRemoved_add]; omega

/-- What replacing reports has come and gone, and where it reports nothing it did nothing. -/
theorem replace_counts (h : (replace path previous nodes edges).Gives s c t) :
    c.Counts s t ∧ (c.writes = 0 → t = s) := by
  obtain ⟨a, u, ha, h⟩ := Gives.of_bind h
  obtain ⟨b, v, hb, h⟩ := Gives.of_bind h
  obtain ⟨d, w, hd, h⟩ := Gives.of_bind h
  obtain ⟨rfl, rfl⟩ := Gives.of_pure h
  have hr : Retracted path (staleIds previous nodes edges) s u := retract_retracted ha
  have hn : Steps NodeMerged nodes u v := forAll_steps hb fun _ _ _ _ _ hx => mergeNew_merged hx
  have he : Steps EdgeMerged edges v t := forAll_steps hd fun _ _ _ _ _ hx => mergeValid_merged hx
  have hretracted : a.Shrinks s u := retract_shrinks ha
  have hmerged : b.Grows u v := forAll_compose (I := fun _ => True) Grows.zero Grows.add trivial
    (fun _ _ _ _ _ _ hx => ⟨mergeNew_grows hx, trivial⟩) hb
  have hadded : d.Grows v t := forAll_compose (I := fun _ => True) Grows.zero Grows.add trivial
    (fun _ _ _ _ _ _ hx => ⟨mergeValid_grows hx, trivial⟩) hd
  have hnodes := nodes_passage hr hn
  rw [← he.edges_merged_nodes] at hnodes
  exact ⟨counts_of_phases hretracted (hmerged.add hadded) hnodes (edges_passage hr hn he),
    ((hretracted.1.add hmerged.1).add hadded.1).silent⟩

/-! ## Stores with the same contents -/

theorem mem_nodes_congr (h : s.SameContents t) (n : Node) : n ∈ t.nodes ↔ n ∈ s.nodes := by
  rw [Rows.mem_iff_get?, Rows.mem_iff_get?, h.nodes]

/-- Whether an edge has one target only does not depend on the order of the candidates. -/
theorem uniqueTarget_perm {ns ms : List Node} (h : ns.Perm ms) (e : Edge) :
    uniqueTarget e ns = uniqueTarget e ms := by
  rw [uniqueTarget, uniqueTarget]
  have hp := h.filter fun n =>
    n.kind != .module && n.file != e.file && e.relationship.accepts n.kind
  generalize ns.filter _ = xs at hp ⊢
  generalize ms.filter _ = ys at hp ⊢
  have hlength := hp.length_eq
  rcases xs with _ | ⟨n, _ | ⟨n', xs⟩⟩
  · rw [hp.nil_eq]
  · rw [List.singleton_perm.1 hp]
  · rcases ys with _ | ⟨m, _ | ⟨m', ys⟩⟩
    · simp at hlength
    · simp at hlength
    · rfl

/-- Targets are the same in stores with the same contents, however these are kept. -/
theorem targetIn_sameContents (h : s.SameContents t) (e : Edge) : targetIn t e = targetIn s e := by
  have hmem : ∀ p n, n ∈ t.nodesWhere p ↔ n ∈ s.nodesWhere p := fun p n => by
    rw [Store.mem_nodesWhere, Store.mem_nodesWhere, mem_nodes_congr h]
  have hperm : (t.nodesNamed e.targetRef).Perm (s.nodesNamed e.targetRef) :=
    (List.perm_ext_iff_of_nodup (Store.nodup_nodesWhere t _) (Store.nodup_nodesWhere s _)).2
      (hmem _)
  have hbest :
      best? ((t.nodesQualified e.targetRef).filter fun n => e.relationship.accepts n.kind) =
        best? ((s.nodesQualified e.targetRef).filter fun n => e.relationship.accepts n.kind) := by
    refine best?_congr (fun n => ?_) fun n hn m hm hid => ?_
    · rw [List.mem_filter, List.mem_filter, Store.nodesQualified, Store.nodesQualified, hmem]
    · exact Rows.eq_of_key_eq (Store.mem_nodesQualified.1 (List.mem_filter.1 hn).1).1
        (Store.mem_nodesQualified.1 (List.mem_filter.1 hm).1).1 hid
  rw [targetIn, targetIn, uniqueTarget_perm hperm, hbest]

theorem validIn_sameContents (h : s.SameContents t) (e : Edge) : validIn t e = validIn s e := by
  have hcontains : t.nodes.contains = s.nodes.contains := by
    funext k
    rw [Rows.contains_eq_isSome, Rows.contains_eq_isSome, h.nodes]
  simp only [validIn, withTarget, hcontains, targetIn_sameContents h]

/-- What a store holds is held by one with the same contents. -/
theorem holds_of_sameContents {record : FileRecord}
    (ht : t.Holds record nodes edges) (h : s.SameContents t) : s.Holds record nodes edges := by
  constructor
  case node => exact fun n hn => (mem_nodes_congr h n).1 (ht.node n hn)
  case edge =>
    intro e he
    have hmem := ht.edge e he
    rwa [validIn_sameContents h, Rows.mem_iff_get?, h.edges, ← Rows.mem_iff_get?] at hmem
  case record => rw [← h.records]; exact ht.record

/-! ## Whole transactions -/

/-- To apply counts what comes and goes, and reports no write only if it did nothing. -/
theorem applyWork_counts {record : FileRecord}
    (h : (applyWork record nodes edges).Gives s c t) : c.Counts s t ∧ (c.writes = 0 → t = s) := by
  obtain ⟨previous, u, hp, hreplace⟩ := Gives.of_bind h
  obtain ⟨-, rfl⟩ := Gives.of_ask hp
  obtain ⟨done, v, hd, hrest⟩ := Gives.of_bind hreplace
  obtain ⟨hcounts, hsilent⟩ := replace_counts hd
  simp only [] at hrest
  split at hrest
  · obtain ⟨_, w, hw, hdone⟩ := Gives.of_bind hrest
    obtain ⟨-, rfl⟩ := Gives.of_change hw
    obtain ⟨rfl, rfl⟩ := Gives.of_pure hdone
    refine ⟨⟨hcounts.1, hcounts.2, hcounts.3, hcounts.4⟩, fun h0 => ?_⟩
    exact absurd (Nat.eq_zero_of_add_eq_zero_left h0) Nat.one_ne_zero
  · obtain ⟨rfl, rfl⟩ := Gives.of_pure hrest
    exact ⟨hcounts, hsilent⟩

/-- To apply what changes nothing reports no write. -/
theorem applyWork_silent {record : FileRecord} (hn : (nodes.map Node.id).Nodup)
    (he : (edges.map Edge.id).Nodup) (h : (applyWork record nodes edges).Gives s c t)
    (hsame : s.SameContents t) : c.writes = 0 := by
  have hheld : s.Holds record nodes edges :=
    holds_of_sameContents ((applyWork_effect h).holds hn he) hsame
  rw [((applyWork_yields hheld).unique (applyWork_built record nodes edges) h).1]
  rfl

/-- To delete the contribution of a file counts what comes and goes; there is none of it if the
file has no record, and otherwise the record goes. -/
theorem deleteWork_counts {published : Bool} (h : (deleteWork path).Gives s (c, published) t) :
    (published = true → c.Counts s t ∧ c.writes ≠ 0 ∧ ¬ s.SameContents t) ∧
      (published = false → c = 0) := by
  obtain ⟨previous, u, hp, hrest⟩ := Gives.of_bind h
  obtain ⟨hget, rfl⟩ := Gives.of_ask hp
  split at hrest
  · obtain ⟨hc, -⟩ := Gives.of_pure hrest
    cases hc
    exact ⟨fun hf => absurd hf Bool.false_ne_true, fun _ => rfl⟩
  · obtain ⟨done, v, hd, hrest⟩ := Gives.of_bind hrest
    obtain ⟨gone, w, hg, hrest⟩ := Gives.of_bind hrest
    obtain ⟨rfl, rfl⟩ := Gives.of_change hg
    obtain ⟨hc, rfl⟩ := Gives.of_pure hrest
    cases hc
    obtain ⟨hcounts, -⟩ := replace_counts hd
    have hgone : v.records.contains path = true := by
      rw [Rows.contains_eq_isSome, (replace_replaced hd).records, ← hget]
      rfl
    refine ⟨fun _ => ⟨⟨hcounts.1, hcounts.2, hcounts.3, hcounts.4⟩, fun h0 => ?_, fun hsame => ?_⟩,
      fun hf => absurd hf.symm Bool.false_ne_true⟩
    · have hone : (v.records.contains path).toNat = 0 := Nat.eq_zero_of_add_eq_zero_left h0
      rw [hgone] at hone
      cases hone
    · have hnone := hsame.records path
      rw [← hget, Store.deleteRecord, Rows.get?_erase, if_pos rfl] at hnone
      cases hnone

end Upsert

/-! ## Whole calls -/

theorem Store.SameContents.refl (s : Store) : s.SameContents s :=
  ⟨fun _ => rfl, fun _ => rfl, fun _ => rfl⟩

theorem Commit.Counts.zero (s : Store) : (0 : Commit).Counts s s := by
  constructor <;> rw [Finset.sdiff_self, Finset.card_empty] <;> rfl

/-- **A commit accounts for the change.**  What is reported of a contribution with distinct ids
that was applied, or of one that was deleted, is what has changed. -/
theorem commit_accounts (b : Backend) :
    (∀ record nodes edges c, (nodes.map Node.id).Nodup → (edges.map Edge.id).Nodup →
      (b.apply record nodes edges).1 = .ok c →
        c.Accounts b.store (b.apply record nodes edges).2.store) ∧
      ∀ path c, (b.deleteFile path).1 = .ok c → c.Accounts b.store (b.deleteFile path).2.store := by
  refine ⟨fun record nodes edges c hn he h => ?_, fun path c h => ?_⟩
  · have hgives := Backend.apply_gives (Prod.ext h rfl)
    obtain ⟨hcounts, hsilent⟩ := applyWork_counts hgives
    refine ⟨hcounts, fun h0 => ?_, applyWork_silent hn he hgives⟩
    rw [hsilent h0]
    exact .refl b.store
  · rcases b.transact_cases (deleteWork path) with ⟨a, hok, hgives⟩ | ⟨hstore, hdropped⟩
    · obtain rfl : a = c := Except.ok.inj (hok.symm.trans h)
      obtain ⟨hcounts, hwrites, hchanged⟩ := (deleteWork_counts hgives).1 rfl
      exact ⟨hcounts, fun h0 => absurd h0 hwrites, fun hsame => absurd hsame hchanged⟩
    · obtain ⟨t, hgives⟩ := hdropped c h
      obtain rfl := (deleteWork_counts hgives).2 rfl
      rw [Backend.deleteFile, hstore]
      exact ⟨.zero b.store, fun _ => .refl b.store, fun _ => rfl⟩

/-- A file that defines a function, and another one that refers to it. -/
def functionDefined : Backend :=
  Backend.new.performAll
    [.apply (.plain "a.py") [.plain .function "f" "m.f" "a.py"] [],
      .apply (.plain "c.py") [] [.plain .calls "module:c" "m.f" "c.py"]]

/-- The function becomes a class: the reference loses its target and is given the new one. -/
def functionRetyped : Except Error Commit × Backend :=
  functionDefined.apply (.plain "a.py") [.plain .classLike "f" "m.f" "a.py"] []

theorem commit_accounts_functionRetyped :
    functionRetyped.1 = .ok { (0 : Commit) with
        nodesAdded := 1, nodesRemoved := 1, edgesLinked := 1, edgesUnlinked := 1,
        recordWritten := true } ∧
      Commit.Accounts { (0 : Commit) with
        nodesAdded := 1, nodesRemoved := 1, edgesLinked := 1, edgesUnlinked := 1,
        recordWritten := true } functionDefined.store functionRetyped.2.store := by
  have hok : functionRetyped.1 = .ok { (0 : Commit) with
      nodesAdded := 1, nodesRemoved := 1, edgesLinked := 1, edgesUnlinked := 1,
      recordWritten := true } := by
    decide +kernel
  exact ⟨hok, (commit_accounts functionDefined).1 _ _ _ _ (by decide) (by decide) hok⟩

end CodeAtlas
