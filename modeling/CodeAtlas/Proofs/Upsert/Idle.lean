import CodeAtlas.Proofs.Upsert.Claims
import CodeAtlas.Proofs.Upsert.Total

/-!
# CodeAtlas.Proofs.Upsert.Idle

To apply a contribution that the store holds writes nothing.

`Store.Holds` says of a store that a contribution is in it: nodes and edges as they would
be written, and a record that claims their ids.  A call that succeeds leaves such a store
(`Effect.holds`), and a call on such a store does nothing (`Backend.apply_held`).  Together
they say that a contribution that was applied can be applied again to no effect.
-/

namespace CodeAtlas

open Work Upsert

/-- A store holds what a file contributes: the nodes as they are given, the edges with the
targets that the store has for them, and a record that would not be changed. -/
structure Store.Holds (s : Store) (record : FileRecord) (nodes : List Node) (edges : List Edge) :
    Prop where
  node : ∀ n ∈ nodes, n ∈ s.nodes
  edge : ∀ e ∈ edges, validIn s e ∈ s.edges
  record : recordChanged (s.records.get? record.path)
    { record with contributions := contributionOf nodes edges } = false

namespace Upsert

variable {s t : Store} {record : FileRecord} {nodes : List Node} {edges : List Edge}

/-! ## Single steps -/

theorem zero_add_zero : (0 : Commit) + 0 = 0 := by
  have hheirs : sortedSet ((0 : Commit).heirs ++ (0 : Commit).heirs) = [] :=
    sortedSet_eq_nil_iff.2 rfl
  change Commit.add 0 0 = 0
  rw [Commit.add, hheirs]
  rfl

theorem forAll_yields {α : Type} {xs : List α} {f : α → Work Commit}
    (h : ∀ x ∈ xs, (f x).Yields s 0 s) : (forAll xs f).Yields s 0 s := by
  induction xs with
  | nil => exact .pure
  | cons x xs ih =>
      have hx := h x List.mem_cons_self
      have hxs := ih fun y hy => h y (List.mem_cons_of_mem x hy)
      refine .bind hx (.bind hxs ?_)
      rw [zero_add_zero]
      exact .pure

theorem findTarget_yields (s : Store) (e : Edge) : (findTarget e).Yields s (targetIn s e) s := by
  rw [findTarget, targetIn, Edge.waitsQualified]
  split
  · exact .bind .ask .pure
  · exact .bind (.bind .ask .pure) .pure

theorem withTarget_yields (s : Store) (e : Edge) :
    (if e.isResolved then pure e else do
      match ← findTarget e with
      | some (id, confidence) => return e.link id confidence
      | none => return e : Work Edge).Yields s (withTarget s e) s := by
  rw [withTarget]
  split
  · exact .pure
  · refine .bind (findTarget_yields s e) ?_
    cases targetIn s e with
    | none => exact .pure
    | some target => exact .pure

theorem validate_yields (s : Store) (e : Edge) : (validate e).Yields s (validIn s e) s := by
  rw [validIn]
  simp only [validate]
  cases htarget : e.target with
  | none => exact .bind .pure (withTarget_yields s e)
  | some id =>
      refine .bind .ask ?_
      rw [Option.all_some, Rows.contains_eq_isSome]
      cases s.nodes.get? id with
      | none => exact .bind .pure (withTarget_yields s _)
      | some n => exact .bind .pure (withTarget_yields s e)

theorem mergeOf_eq_unchanged {α : Type} {key : α → String} [DecidableEq α] {rows : Rows α key}
    {a : α} (h : a ∈ rows) : Store.mergeOf rows a = .unchanged := by
  rw [Store.mergeOf, Rows.mem_iff_get?.1 h]
  exact if_pos rfl

theorem mergeNew_yields {n : Node} (h : n ∈ s.nodes) : (mergeNew n).Yields s 0 s := by
  have hmerge : s.mergeNode n = (.unchanged, s) := by
    rw [Store.mergeNode, mergeOf_eq_unchanged h]
  exact .bind (.change hmerge) .pure

theorem mergeValid_yields {e : Edge} (h : validIn s e ∈ s.edges) : (mergeValid e).Yields s 0 s := by
  have hmerge : s.mergeEdge (validIn s e) = (.unchanged, s) := by
    rw [Store.mergeEdge, mergeOf_eq_unchanged h]
  exact .bind (validate_yields s e) (.bind (.change hmerge) .pure)

/-! ## Whole calls -/

/-- What is put in the place of itself changes nothing. -/
theorem replace_yields {previous : FileRecord} (hnodes : ∀ n ∈ nodes, n ∈ s.nodes)
    (hedges : ∀ e ∈ edges, validIn s e ∈ s.edges)
    (hprevious : previous.contributions = contributionOf nodes edges) :
    (replace record.path (some previous) nodes edges).Yields s 0 s := by
  have hstale : (((some previous).map (·.contributions)).getD []).filter
      (fun id => !(contributionOf nodes edges).contains id) = [] := by
    simp [hprevious]
  rw [replace, hstale]
  refine .bind (u := s) (a := 0) ?_ (.bind (forAll_yields fun n hn => mergeNew_yields (hnodes n hn))
    (.bind (forAll_yields fun e he => mergeValid_yields (hedges e he)) ?_))
  · refine .bind .pure (.bind .pure ?_)
    rw [zero_add_zero]
    exact .pure
  · rw [zero_add_zero, zero_add_zero]
    exact .pure

theorem applyWork_yields (h : s.Holds record nodes edges) :
    (applyWork record nodes edges).Yields s 0 s := by
  have hchanged := h.record
  refine .bind .ask ?_
  cases hprevious : s.records.get? record.path with
  | none =>
      rw [hprevious] at hchanged
      cases hchanged
  | some previous =>
      rw [hprevious] at hchanged
      have hsame : previous.contributions = contributionOf nodes edges := by
        simp only [recordChanged, Option.all_some, Bool.or_eq_false_iff, bne_eq_false_iff_eq]
          at hchanged
        exact hchanged.2
      refine .bind (replace_yields h.node h.edge hsame) ?_
      simp only [hchanged]
      exact .pure

/-! ## What a call leaves -/

/-- The record of a file that was written would not be written again. -/
theorem recordChanged_recorded (s : Store) (record : FileRecord) (nodes : List Node)
    (edges : List Edge) :
    recordChanged ((recorded s record nodes edges).records.get? record.path)
      { record with contributions := contributionOf nodes edges } = false := by
  have hsorted : sortedSet (contributionOf nodes edges) = contributionOf nodes edges := by
    rw [contributionOf, sortedSet_sortedSet]
  simp only [recorded]
  split
  · rw [Store.get?_putRecord, if_pos rfl]
    simp [recordChanged, hsorted]
  · next h => exact Bool.not_eq_true _ ▸ h

/-- A call that applies a contribution with distinct ids leaves a store that holds it. -/
theorem Effect.holds (h : Effect (.apply record nodes edges) s t)
    (hn : (nodes.map Node.id).Nodup) (he : (edges.map Edge.id).Nodup) :
    t.Holds record nodes edges := by
  have hc := h.changed rfl
  cases h with
  | @apply record nodes edges s u hr =>
      constructor
      case node =>
        intro n hmem
        obtain ⟨m, hm, hid, hstored⟩ := hc.node_given hmem
        rwa [List.inj_on_of_nodup_map hn hm hmem hid] at hstored
      case edge =>
        intro e hmem
        obtain ⟨v, w, -, -, hedges⟩ := hr
        rw [validIn_congr (recorded_nodes u record nodes edges), recorded_edges]
        rcases hedges.edges_merged e.id with ⟨g, hg, hid, hget⟩ | ⟨hne, -⟩
        · rw [List.inj_on_of_nodup_map he hg hmem hid] at hget
          exact Rows.mem_of_get? hget
        · exact absurd rfl (hne e hmem)
      case record => exact recordChanged_recorded u record nodes edges

end Upsert

/-- **What is held is not written again.**  An open store that nothing happens to stays as
it is when it is given what it holds. -/
theorem Backend.apply_held {b : Backend} {record : FileRecord} {nodes : List Node}
    {edges : List Edge} (hopen : b.isOpen = true) (hout : b.outages = [])
    (h : b.store.Holds record nodes edges) : b.apply record nodes edges = (.ok 0, b) :=
  b.transact_yields hopen hout (.bind (applyWork_yields h) .pure)

/-- **To apply twice is to apply once.**  A contribution with distinct ids that was applied is
not written when it is applied again: whatever meets the second call, the store stays as it
is, and a call that succeeds reports no write; one that no outage meets succeeds. -/
theorem apply_idempotent {b b' : Backend} {record : FileRecord} {nodes : List Node}
    {edges : List Edge} {c : Commit} (hn : (nodes.map Node.id).Nodup)
    (he : (edges.map Edge.id).Nodup) (h : b.apply record nodes edges = (.ok c, b')) :
    (b'.apply record nodes edges).2.store = b'.store ∧
      (∀ c', (b'.apply record nodes edges).1 = .ok c' → c'.writes = 0) ∧
      (b'.outages = [] → b'.apply record nodes edges = (.ok 0, b')) := by
  have hheld : b'.store.Holds record nodes edges :=
    (applyWork_effect (Backend.apply_gives h)).holds hn he
  obtain ⟨hopen, hb'⟩ := Backend.transact_ok h
  have hopen' : b'.isOpen = true := by
    rw [hb']
    exact hopen
  have hagain : ∀ c', (b'.apply record nodes edges).1 = .ok c' →
      c' = 0 ∧ (b'.apply record nodes edges).2.store = b'.store := fun c' hok =>
    (applyWork_yields hheld).unique (applyWork_built record nodes edges)
      (Backend.apply_gives (Prod.ext hok rfl))
  refine ⟨?_, fun c' hok => ?_, fun hout => Backend.apply_held hopen' hout hheld⟩
  · cases hr : (b'.apply record nodes edges).1 with
    | ok c' => exact (hagain c' hr).2
    | error e => exact Backend.transact_error hr
  · rw [(hagain c' hok).1]
    rfl

/-- A store with two edges that wait for a function, when a file defines that function and
refers to it and to another one. -/
def linkedOnce : Except Error Commit × Backend :=
  (Backend.new.performAll [.apply (.plain "z.py") []
    [.plain .calls "module:z" "m.f" "z.py", .plain .calls "module:z" "f" "z.py"]]).apply
    (.plain "m.py") [.plain .function "f" "m.f" "m.py"]
    [.plain .calls "function:m.f" "m.f" "m.py", .plain .calls "function:m.f" "g" "m.py"]

/-- The links of other files were made by the first call, and are not made again. -/
theorem apply_idempotent_linkedOnce :
    linkedOnce.1 = .ok { (0 : Commit) with
        nodesAdded := 1, edgesAdded := 2, edgesLinked := 2, recordWritten := true } ∧
      linkedOnce.2.apply (.plain "m.py") [.plain .function "f" "m.f" "m.py"]
        [.plain .calls "function:m.f" "m.f" "m.py", .plain .calls "function:m.f" "g" "m.py"] =
          (.ok 0, linkedOnce.2) := by
  have hok : linkedOnce.1 = .ok { (0 : Commit) with
      nodesAdded := 1, edgesAdded := 2, edgesLinked := 2, recordWritten := true } := by
    decide +kernel
  exact ⟨hok, (apply_idempotent (by decide) (by decide) (Prod.ext hok rfl)).2.2 (by decide +kernel)⟩

end CodeAtlas
