import CodeAtlas.Proofs.Graph.Ids
import CodeAtlas.Proofs.Upsert.Loop

/-!
# CodeAtlas.Proofs.Upsert.Target

What a waiting edge is given for its target.

Whether a reference may wait for a qualified name (`Edge.waitsQualified`) decides how
its target is looked for.  `targetIn` and `validIn` say as functions of the store
what looking for a target and validating an edge give (`Gives.findTarget`,
`Gives.validate`), and `linkedTo` what a new node does to an edge
(`linkWaiting_mapped`).  None of them touches what was written in the file: they all
keep the edge without its target.
-/

namespace CodeAtlas

open Work

/-- Whether the edge waits for a qualified name: an import always does, any other
reference if its name has several segments. -/
def Edge.waitsQualified (e : Edge) : Bool :=
  Upsert.isQualified e.targetRef || e.relationship == .imports

/-- Whether a node is what a qualified reference means. -/
def Edge.Means (e : Edge) (n : Node) : Prop :=
  n.qualifiedName = e.targetRef ∧ e.relationship.accepts n.kind = true

theorem Edge.Means.alike {e : Edge} {n m : Node} (h : e.Means n) (ha : n.Alike m) : e.Means m := by
  rw [Edge.Means, ha.2.1, ha.2.2]
  exact h

/-- The edge with an id as it was written, without its target. -/
def Store.written (s : Store) (id : String) : Option Edge := (s.edges.get? id).map Edge.unlink

namespace Edge

/-- What was written tells all of an edge but its target and its place. -/
theorem eq_of_unlink_eq {e g : Edge} (h : e.unlink = g.unlink) :
    e.id = g.id ∧ e.source = g.source ∧ e.relationship = g.relationship ∧
      e.targetRef = g.targetRef ∧ e.file = g.file := by
  simp only [unlink, mk.injEq] at h
  exact ⟨h.1, h.2.1, h.2.2.2.1, h.2.2.2.2.2.1, h.2.2.2.2.2.2.1⟩

/-- An edge is what was written, with its target. -/
theorem eq_link {e g : Edge} {d : String} {c : Confidence} (h : g.unlink = e.unlink)
    (ht : e.target = some d) (hc : e.confidence = c) : e = g.link d c := by
  have hself : e = e.link d c := by rw [link, ← ht, ← hc]
  calc e = e.link d c := hself
    _ = e.unlink.link d c := rfl
    _ = g.unlink.link d c := by rw [h]
    _ = g.link d c := rfl

/-- An edge that waits is what was written. -/
theorem eq_unlink {e g : Edge} (h : g.unlink = e.unlink) (ht : e.target = none)
    (hc : e.confidence = .unresolved) : e = g.unlink := by
  rw [h, unlink, ← ht, ← hc]

/-- Edges that were written alike mean the same nodes. -/
theorem means_congr {e g : Edge} (h : e.unlink = g.unlink) (n : Node) : e.Means n ↔ g.Means n := by
  obtain ⟨-, -, hrel, href, -⟩ := eq_of_unlink_eq h
  rw [Means, Means, hrel, href]

theorem waitsQualified_congr {e g : Edge} (h : e.unlink = g.unlink) :
    e.waitsQualified = g.waitsQualified := by
  obtain ⟨-, -, hrel, href, -⟩ := eq_of_unlink_eq h
  rw [waitsQualified, waitsQualified, hrel, href]

end Edge

namespace Store

theorem written_of_mem {s : Store} {e : Edge} (h : e ∈ s.edges) :
    s.written e.id = some e.unlink := by
  rw [written, Rows.mem_iff_get?.1 h, Option.map_some]

theorem mem_of_written {s : Store} {k : String} {w : Edge} (h : s.written k = some w) :
    ∃ e ∈ s.edges, e.id = k ∧ e.unlink = w := by
  obtain ⟨e, he, hw⟩ := Option.map_eq_some_iff.1 h
  exact ⟨e, Rows.mem_of_get? he, Rows.key_of_get? he, hw⟩

end Store

namespace Upsert

/-! ## Preference -/

theorem best?_mem {ns : List Node} {n : Node} (h : best? ns = some n) : n ∈ ns := by
  induction ns with
  | nil => cases h
  | cons m ns ih =>
      rw [best?] at h
      split at h
      · cases h
        exact List.mem_cons_self
      · next b hb =>
        split at h
        · cases h
          exact List.mem_cons_self
        · cases h
          exact List.mem_cons_of_mem m (ih hb)

/-- Some node is preferred as soon as there is one. -/
theorem best?_eq_none_iff {ns : List Node} : best? ns = none ↔ ns = [] := by
  cases ns with
  | nil => exact ⟨fun _ => rfl, fun _ => rfl⟩
  | cons m ns =>
      rw [best?]
      split
      · simp
      · split <;> simp

theorem preferred_iff {a b : Node} : preferred a b = true ↔
    a.kind.rank < b.kind.rank ∨ (a.kind.rank = b.kind.rank ∧ a.id ≤ b.id) := by
  simp [preferred]

theorem preferred_trans {a b c : Node} (hab : preferred a b = true) (hbc : preferred b c = true) :
    preferred a c = true := by
  rw [preferred_iff] at hab hbc ⊢
  rcases hab with hab | ⟨hab, hid⟩
  · exact Or.inl (hbc.elim (Nat.lt_trans hab) fun hbc => hbc.1 ▸ hab)
  · rcases hbc with hbc | ⟨hbc, hid'⟩
    · exact Or.inl (hab ▸ hbc)
    · exact Or.inr ⟨hab.trans hbc, String.le_trans hid hid'⟩

theorem preferred_total (a b : Node) : preferred a b = true ∨ preferred b a = true := by
  rw [preferred_iff, preferred_iff]
  rcases Nat.lt_trichotomy a.kind.rank b.kind.rank with h | h | h
  · exact Or.inl (Or.inl h)
  · rcases String.le_total a.id b.id with hid | hid
    · exact Or.inl (Or.inr ⟨h, hid⟩)
    · exact Or.inr (Or.inr ⟨h.symm, hid⟩)
  · exact Or.inr (Or.inl h)

theorem preferred_antisymm {a b : Node} (hab : preferred a b = true) (hba : preferred b a = true) :
    a.id = b.id := by
  rw [preferred_iff] at hab hba
  rcases hab with hab | ⟨hab, hid⟩
  · rcases hba with hba | ⟨hba, -⟩ <;> omega
  · rcases hba with hba | ⟨-, hid'⟩
    · omega
    · exact String.le_antisymm hid hid'

theorem best?_preferred {ns : List Node} {b : Node} (h : best? ns = some b) :
    ∀ n ∈ ns, preferred b n = true := by
  induction ns generalizing b with
  | nil => cases h
  | cons m ns ih =>
      have hself : preferred m m = true := (preferred_total m m).elim id id
      rw [best?] at h
      cases hrest : best? ns with
      | none =>
          rw [hrest] at h
          obtain rfl := Option.some.inj h
          rw [best?_eq_none_iff.1 hrest]
          simpa using hself
      | some d =>
          simp only [hrest] at h
          split at h
          · next hmd =>
            obtain rfl := Option.some.inj h
            exact List.forall_mem_cons.2 ⟨hself, fun n hn => preferred_trans hmd (ih hrest n hn)⟩
          · next hmd =>
            obtain rfl := Option.some.inj h
            exact List.forall_mem_cons.2 ⟨(preferred_total m d).resolve_left hmd, ih hrest⟩

/-- Which id is preferred does not depend on the order. -/
theorem best?_id_congr {xs ys : List Node} (h : ∀ n, n ∈ xs ↔ n ∈ ys) :
    (best? xs).map Node.id = (best? ys).map Node.id := by
  cases hx : best? xs with
  | none =>
      have hnil : ys = [] := by
        rw [best?_eq_none_iff] at hx
        simpa [hx, List.eq_nil_iff_forall_not_mem] using h
      rw [hnil]
      rfl
  | some a =>
      have ha := best?_mem hx
      cases hy : best? ys with
      | none =>
          rw [best?_eq_none_iff.1 hy] at h
          exact absurd ((h a).1 ha) List.not_mem_nil
      | some b =>
          have hb := (h b).2 (best?_mem hy)
          exact congrArg some (preferred_antisymm (best?_preferred hx b hb)
            (best?_preferred hy a ((h a).1 ha)))

/-- The preferred node does not depend on the order, as its id is its own. -/
theorem best?_congr {xs ys : List Node} (h : ∀ n, n ∈ xs ↔ n ∈ ys)
    (hid : ∀ n ∈ xs, ∀ m ∈ xs, n.id = m.id → n = m) : best? xs = best? ys := by
  have hsame := best?_id_congr h
  cases hx : best? xs with
  | none =>
      rw [hx] at hsame
      exact (Option.map_eq_none_iff.1 hsame.symm).symm
  | some a =>
      rw [hx] at hsame
      obtain ⟨b, hb, hba⟩ := Option.map_eq_some_iff.1 hsame.symm
      rw [hb, hid a (best?_mem hx) b ((h b).2 (best?_mem hb)) hba.symm]

theorem uniqueTarget_spec {e : Edge} {named : List Node} {id : String}
    (h : uniqueTarget e named = some id) :
    ∃ n ∈ named, n.id = id ∧ n.kind ≠ .module ∧ n.file ≠ e.file ∧
      e.relationship.accepts n.kind = true := by
  rw [uniqueTarget] at h
  split at h
  · next n hn =>
    cases h
    have hmem : n ∈ named.filter fun n =>
        n.kind != .module && n.file != e.file && e.relationship.accepts n.kind := by
      rw [hn]
      exact List.mem_singleton_self n
    obtain ⟨hnamed, hp⟩ := List.mem_filter.1 hmem
    rw [Bool.and_eq_true, Bool.and_eq_true, bne_iff_ne, bne_iff_ne] at hp
    exact ⟨n, hnamed, rfl, hp.1.1, hp.1.2, hp.2⟩
  · cases h

/-! ## Looking for a target -/

/-- The target that a store has for a waiting edge. -/
def targetIn (s : Store) (e : Edge) : Option (String × Confidence) :=
  if e.waitsQualified then
    (best? ((s.nodesQualified e.targetRef).filter fun n => e.relationship.accepts n.kind)).map
      fun n => (n.id, .resolved)
  else (uniqueTarget e (s.nodesNamed e.targetRef)).map (·, .heuristic)

theorem Gives.uniqueByName {e : Edge} {s t : Store} {r : Option String}
    (h : (uniqueByName e).Gives s r t) : r = uniqueTarget e (s.nodesNamed e.targetRef) ∧ t = s := by
  obtain ⟨ns, u, ha, h⟩ := Gives.of_bind h
  obtain ⟨rfl, rfl⟩ := Gives.of_ask ha
  exact Gives.of_pure h

theorem Gives.findTarget {e : Edge} {s t : Store} {r : Option (String × Confidence)}
    (h : (findTarget e).Gives s r t) : r = targetIn s e ∧ t = s := by
  rw [Upsert.findTarget] at h
  rw [targetIn, Edge.waitsQualified]
  split at h
  · next hq =>
    obtain ⟨ns, u, ha, h⟩ := Gives.of_bind h
    obtain ⟨rfl, rfl⟩ := Gives.of_ask ha
    rw [if_pos hq]
    exact Gives.of_pure h
  · next hq =>
    obtain ⟨found, u, ha, h⟩ := Gives.of_bind h
    obtain ⟨rfl, rfl⟩ := Gives.uniqueByName ha
    rw [if_neg hq]
    exact Gives.of_pure h

/-- What is found is stored and accepted, and is named as the edge asks. -/
theorem targetIn_spec {s : Store} {e : Edge} {id : String} {c : Confidence}
    (h : targetIn s e = some (id, c)) :
    ∃ n ∈ s.nodes, n.id = id ∧ e.relationship.accepts n.kind = true ∧
      ((e.waitsQualified = true ∧ c = .resolved ∧ n.qualifiedName = e.targetRef) ∨
        (e.waitsQualified = false ∧ c = .heuristic ∧ n.kind ≠ .module ∧ n.name = e.targetRef ∧
          n.file ≠ e.file)) := by
  rw [targetIn] at h
  split at h
  · next hq =>
    obtain ⟨n, hn, hid⟩ := Option.map_eq_some_iff.1 h
    cases hid
    obtain ⟨hmem, hacc⟩ := List.mem_filter.1 (best?_mem hn)
    obtain ⟨hs, hname⟩ := Store.mem_nodesQualified.1 hmem
    exact ⟨n, hs, rfl, hacc, Or.inl ⟨hq, rfl, hname⟩⟩
  · next hq =>
    obtain ⟨id', hn, hid⟩ := Option.map_eq_some_iff.1 h
    cases hid
    obtain ⟨n, hnamed, rfl, hmod, hfile, hacc⟩ := uniqueTarget_spec hn
    obtain ⟨hs, hname⟩ := Store.mem_nodesNamed.1 hnamed
    exact ⟨n, hs, rfl, hacc, Or.inr ⟨by simpa using hq, rfl, hmod, hname, hfile⟩⟩

/-- A qualified reference finds a target exactly if the store has a node that it
means. -/
theorem targetIn_eq_none_iff {s : Store} {e : Edge} (hq : e.waitsQualified = true) :
    targetIn s e = none ↔ ∀ n ∈ s.nodes, ¬ e.Means n := by
  rw [targetIn, if_pos hq, Option.map_eq_none_iff, best?_eq_none_iff, List.filter_eq_nil_iff]
  constructor
  · intro h n hn hm
    exact h n (Store.mem_nodesQualified.2 ⟨hn, hm.1⟩) hm.2
  · intro h n hn hacc
    obtain ⟨hs, hname⟩ := Store.mem_nodesQualified.1 hn
    exact h n hs ⟨hname, hacc⟩

/-! ## Validating -/

/-- The edge with the target that the store has for it, if it has none yet. -/
def withTarget (s : Store) (e : Edge) : Edge :=
  if e.isResolved then e
  else
    match targetIn s e with
    | some (id, confidence) => e.link id confidence
    | none => e

/-- The edge as it is merged: without a target that is not stored, and with one that
is found if it has none. -/
def validIn (s : Store) (e : Edge) : Edge :=
  withTarget s (if e.target.all s.nodes.contains then e else e.unlink)

theorem Gives.withTarget {e e' : Edge} {s t : Store}
    (h : (if e.isResolved then pure e else do
      match ← Upsert.findTarget e with
      | some (id, confidence) => return e.link id confidence
      | none => return e : Work Edge).Gives s e' t) : e' = withTarget s e ∧ t = s := by
  rw [Upsert.withTarget]
  split at h
  · next hr =>
    rw [if_pos hr]
    exact Gives.of_pure h
  · next hr =>
    rw [if_neg hr]
    obtain ⟨found, u, hf, h⟩ := Gives.of_bind h
    obtain ⟨rfl, rfl⟩ := Gives.findTarget hf
    split at h <;> exact Gives.of_pure h

theorem Gives.validate {e e' : Edge} {s t : Store} (h : (validate e).Gives s e' t) :
    e' = validIn s e ∧ t = s := by
  rw [validIn]
  simp only [Upsert.validate] at h
  split at h
  · next ht =>
    obtain ⟨kept, u, hk, h⟩ := Gives.of_bind h
    obtain ⟨rfl, rfl⟩ := Gives.of_pure hk
    rw [ht, Option.all_none, if_pos rfl]
    exact Gives.withTarget h
  · next id ht =>
    obtain ⟨found, u, ha, h⟩ := Gives.of_bind h
    obtain ⟨rfl, rfl⟩ := Gives.of_ask ha
    rw [ht, Option.all_some, Rows.contains_eq_isSome]
    split at h
    · next n hn =>
      obtain ⟨kept, v, hk, h⟩ := Gives.of_bind h
      obtain ⟨rfl, rfl⟩ := Gives.of_pure hk
      rw [hn, Option.isSome_some, if_pos rfl]
      exact Gives.withTarget h
    · next hn =>
      obtain ⟨kept, v, hk, h⟩ := Gives.of_bind h
      obtain ⟨rfl, rfl⟩ := Gives.of_pure hk
      rw [hn, Option.isSome_none, if_neg Bool.false_ne_true]
      exact Gives.withTarget h

theorem withTarget_unlink (s : Store) (e : Edge) : (withTarget s e).unlink = e.unlink := by
  rw [withTarget]
  split
  · rfl
  · split <;> rfl

@[simp] theorem validIn_unlink (s : Store) (e : Edge) : (validIn s e).unlink = e.unlink := by
  rw [validIn, withTarget_unlink]
  split <;> rfl

@[simp] theorem validIn_id (s : Store) (e : Edge) : (validIn s e).id = e.id :=
  (Edge.eq_of_unlink_eq (validIn_unlink s e)).1

/-- An edge that still waits after a target was looked for has none in the store. -/
theorem withTarget_waiting {s : Store} {e : Edge} (h : (withTarget s e).target = none) :
    withTarget s e = e ∧ targetIn s e = none := by
  rw [withTarget] at h ⊢
  by_cases hr : e.isResolved = true
  · rw [if_pos hr] at h
    rw [Edge.isResolved, h] at hr
    cases hr
  · rw [if_neg hr] at h ⊢
    cases ht : targetIn s e with
    | none => exact ⟨rfl, rfl⟩
    | some target =>
        rw [ht] at h
        cases h

/-- Targets depend on the nodes alone. -/
theorem targetIn_congr {s t : Store} (h : t.nodes = s.nodes) (e : Edge) :
    targetIn t e = targetIn s e := by
  simp only [targetIn, Store.nodesQualified, Store.nodesNamed, Store.nodesWhere_congr h]

theorem withTarget_congr {s t : Store} (h : t.nodes = s.nodes) (e : Edge) :
    withTarget t e = withTarget s e := by
  rw [withTarget, withTarget, targetIn_congr h]

theorem validIn_congr {s t : Store} (h : t.nodes = s.nodes) (e : Edge) :
    validIn t e = validIn s e := by
  rw [validIn, validIn, withTarget_congr h, h]

/-! ## Linking the edges that wait for a node -/

/-- Whether a node that is new is given to an edge by its simple name. -/
def LinksByName (s : Store) (n : Node) (e : Edge) : Prop :=
  n.kind ≠ .module ∧ n.name ≠ n.qualifiedName ∧ e.targetRef = n.name ∧
    e.relationship ≠ .imports ∧ uniqueTarget e (s.nodesNamed e.targetRef) = some n.id

instance (s : Store) (n : Node) (e : Edge) : Decidable (LinksByName s n e) :=
  inferInstanceAs (Decidable (_ ∧ _ ∧ _ ∧ _ ∧ _))

instance (e : Edge) (n : Node) : Decidable (e.Means n) := inferInstanceAs (Decidable (_ ∧ _))

/-- The edge after a node that is new was given to those that wait for it. -/
def linkedTo (s : Store) (n : Node) (e : Edge) : Edge :=
  if e.target.isSome then e
  else if e.Means n then e.link n.id .resolved
  else if LinksByName s n e then e.link n.id .heuristic
  else e

@[simp] theorem linkedTo_unlink (s : Store) (n : Node) (e : Edge) :
    (linkedTo s n e).unlink = e.unlink := by
  rw [linkedTo]
  split
  · rfl
  · split
    · rfl
    · split <;> rfl

/-- An edge that still waits after a node came is as it was and does not mean it. -/
theorem linkedTo_waiting {s : Store} {n : Node} {e : Edge} (h : (linkedTo s n e).target = none) :
    linkedTo s n e = e ∧ ¬ e.Means n := by
  rw [linkedTo] at h ⊢
  by_cases hr : e.target.isSome = true
  · rw [if_pos hr] at h
    rw [h] at hr
    cases hr
  · rw [if_neg hr] at h ⊢
    by_cases hm : e.Means n
    · rw [if_pos hm] at h
      cases h
    · rw [if_neg hm] at h ⊢
      by_cases hl : LinksByName s n e
      · rw [if_pos hl] at h
        cases h
      · exact ⟨if_neg hl, hm⟩

/-- An edge that waits for a qualified name is not linked by a name of one segment. -/
theorem linkedTo_of_simple {s : Store} {n : Node} {e : Edge} (hq : e.waitsQualified = true)
    (hsimple : isQualified n.name = false) : linkedTo s n e =
      if e.target.isSome then e else if e.Means n then e.link n.id .resolved else e := by
  have hnot : ¬ LinksByName s n e := by
    intro hl
    rw [Edge.waitsQualified, hl.2.2.1, hsimple, Bool.false_or, beq_iff_eq] at hq
    exact hl.2.2.2.1 hq
  rw [linkedTo, if_neg hnot]

theorem linkedTo_congr {s t : Store} (h : t.nodes = s.nodes) (n : Node) (e : Edge) :
    linkedTo t n e = linkedTo s n e := by
  have hiff : LinksByName t n e ↔ LinksByName s n e := by
    rw [LinksByName, LinksByName, Store.nodesNamed, Store.nodesWhere_congr h]
    rfl
  simp only [linkedTo, hiff]

theorem Gives.link {e : Edge} {id : String} {confidence : Confidence} {s t : Store} {c : Commit}
    (h : (link e id confidence).Gives s c t) : t = (s.mergeEdge (e.link id confidence)).2 := by
  obtain ⟨m, u, hm, h⟩ := Gives.of_bind h
  obtain ⟨-, rfl⟩ := Gives.of_change hm
  exact (Gives.of_pure h).2

/-- The first pass, over the edges that wait for the qualified name. -/
theorem linkQualified_mapped {n : Node} {s t : Store} {c : Commit}
    (h : (forAll (s.unresolvedFor n.qualifiedName) fun e =>
      if e.relationship.accepts n.kind then Upsert.link e n.id .resolved else pure 0).Gives s c t) :
    EdgesMapped (fun e => if e.target = none ∧ e.Means n then e.link n.id .resolved else e)
      s t := by
  refine (forAll_edges (g := fun e => if e.relationship.accepts n.kind then e.link n.id .resolved
    else e) h (fun e he => (Store.mem_unresolvedFor.1 he).1) (fun e _ => ?_)
    (fun e _ u a v _ hg => ?_)).congr fun e he => ?_
  · split <;> rfl
  · split at hg
    · next hacc => exact Or.inr (by rw [if_pos hacc]; exact Gives.link hg)
    · next hacc => exact Or.inl ⟨(Gives.of_pure hg).2, if_neg hacc⟩
  · simp only [Store.mem_unresolvedFor]
    by_cases ht : e.target = none ∧ e.targetRef = n.qualifiedName
    · simp [he, ht.1, ht.2, Edge.Means]
    · rw [if_neg fun hm => ht hm.2, if_neg fun hm => ht ⟨hm.1, hm.2.1.symm⟩]

/-- One step of the second pass: the edge is given the node if that is the only one of
its name. -/
theorem linkNamed_step {n : Node} {e : Edge} {s u v : Store} {c : Commit}
    (hn : n.kind ≠ .module ∧ n.name ≠ n.qualifiedName) (href : e.targetRef = n.name)
    (hu : u.nodes = s.nodes)
    (h : (do
      if e.relationship == .imports then return 0
      match ← Upsert.uniqueByName e with
      | some id => if id == n.id then Upsert.link e id .heuristic else return 0
      | none => return 0 : Work Commit).Gives u c v) :
    (LinksByName s n e ∧ v = (u.mergeEdge (e.link n.id .heuristic)).2) ∨
      (¬ LinksByName s n e ∧ v = u) := by
  have hnamed : u.nodesNamed e.targetRef = s.nodesNamed e.targetRef := Store.nodesWhere_congr hu _
  split at h
  · next himp =>
    have hnot : ¬ LinksByName s n e := fun hl => hl.2.2.2.1 (beq_iff_eq.1 himp)
    exact Or.inr ⟨hnot, (Gives.of_pure h).2⟩
  · next himp =>
    obtain ⟨found, w, hf, h⟩ := Gives.of_bind h
    obtain ⟨rfl, rfl⟩ := Gives.uniqueByName hf
    rw [hnamed] at h
    split at h
    · next id hid =>
      split at h
      · next hid' =>
        rw [beq_iff_eq] at hid'
        subst hid'
        have hl : LinksByName s n e := ⟨hn.1, hn.2, href, fun hi => himp (beq_iff_eq.2 hi), hid⟩
        exact Or.inl ⟨hl, Gives.link h⟩
      · next hid' =>
        have hnot : ¬ LinksByName s n e := by
          intro hl
          have hsame : id = n.id := Option.some.inj (hid.symm.trans hl.2.2.2.2)
          exact hid' (beq_iff_eq.2 hsame)
        exact Or.inr ⟨hnot, (Gives.of_pure h).2⟩
    · next hnone =>
      have hnot : ¬ LinksByName s n e := by
        intro hl
        rw [hl.2.2.2.2] at hnone
        cases hnone
      exact Or.inr ⟨hnot, (Gives.of_pure h).2⟩

/-- The second pass, over the edges that wait for the simple name. -/
theorem linkNamed_mapped {n : Node} {s t : Store} {c : Commit}
    (hn : n.kind ≠ .module ∧ n.name ≠ n.qualifiedName)
    (h : (forAll (s.unresolvedFor n.name) fun e => do
      if e.relationship == .imports then return 0
      match ← Upsert.uniqueByName e with
      | some id => if id == n.id then Upsert.link e id .heuristic else return 0
      | none => return 0).Gives s c t) :
    EdgesMapped (fun e => if e.target = none ∧ LinksByName s n e then e.link n.id .heuristic
      else e) s t := by
  refine (forAll_edges (g := fun e => if LinksByName s n e then e.link n.id .heuristic else e) h
    (fun e he => (Store.mem_unresolvedFor.1 he).1) (fun e _ => ?_)
    (fun e he u a v hu hg => ?_)).congr fun e he => ?_
  · split <;> rfl
  · have href : e.targetRef = n.name := (Store.mem_unresolvedFor.1 he).2.2
    rcases linkNamed_step hn href hu hg with ⟨hl, hv⟩ | ⟨hl, hv⟩
    · rw [if_pos hl]
      exact Or.inr hv
    · rw [if_neg hl]
      exact Or.inl ⟨hv, rfl⟩
  · simp only [Store.mem_unresolvedFor]
    by_cases ht : e.target = none ∧ e.targetRef = n.name
    · simp [he, ht.1, ht.2]
    · rw [if_neg fun hm => ht hm.2, if_neg fun hm => ht ⟨hm.1, hm.2.2.2.1⟩]

/-- The two passes come to one: an edge that the first one linked does not wait any
more. -/
theorem linkedTo_passes (s : Store) (n : Node) (e : Edge) :
    (fun e => if e.target = none ∧ LinksByName s n e then e.link n.id .heuristic else e)
      (if e.target = none ∧ e.Means n then e.link n.id .resolved else e) = linkedTo s n e := by
  simp only [linkedTo]
  cases ht : e.target with
  | some d => simp [ht]
  | none =>
      by_cases hm : e.Means n
      · simp [hm, Edge.link]
      · simp [hm, ht]

/-- A new node is given to the edges that wait for it, and nothing else changes. -/
theorem linkWaiting_mapped {n : Node} {s t : Store} {c : Commit}
    (h : (linkWaiting n).Gives s c t) : EdgesMapped (linkedTo s n) s t := by
  obtain ⟨es, u, ha, h⟩ := Gives.of_bind h
  obtain ⟨rfl, rfl⟩ := Gives.of_ask ha
  obtain ⟨q, v, hq, h⟩ := Gives.of_bind h
  have hfirst := linkQualified_mapped hq
  split at h
  · next hplain =>
    obtain ⟨-, rfl⟩ := Gives.of_pure h
    refine hfirst.congr fun e _ => ?_
    have hnot : ∀ e', ¬ LinksByName u n e' := by
      intro e' hl
      rw [Bool.or_eq_true, beq_iff_eq, beq_iff_eq] at hplain
      exact hplain.elim hl.1 hl.2.1
    rw [← linkedTo_passes]
    simp only [hnot, and_false, if_false]
  · next hplain =>
    rw [Bool.or_eq_true, beq_iff_eq, beq_iff_eq, not_or] at hplain
    obtain ⟨es', w, ha, h⟩ := Gives.of_bind h
    obtain ⟨rfl, rfl⟩ := Gives.of_ask ha
    obtain ⟨p, x, hp, h⟩ := Gives.of_bind h
    obtain ⟨-, rfl⟩ := Gives.of_pure h
    refine (hfirst.trans (linkNamed_mapped hplain hp)).congr fun e _ => ?_
    have hname : ∀ e', LinksByName w n e' ↔ LinksByName u n e' := by
      intro e'
      rw [LinksByName, LinksByName, Store.nodesNamed, Store.nodesWhere_congr hfirst.nodes]
      rfl
    rw [← linkedTo_passes]
    simp only [hname]

end Upsert

end CodeAtlas
