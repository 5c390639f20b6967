import CodeAtlas.Proofs.Upsert.Change
import Mathlib.Data.List.Induction

/-!
# CodeAtlas.Proofs.Upsert.Calls

Calls on a store in use, what they do to it, and the stores they lead to.

`Effect` says what a call that succeeds does to the published store.
`Backend.perform_cases` is the one place where a call is taken apart: it had its
effect, or it failed and the store is as it was, whatever the circumstances.  From it
`Reachable.keeps` carries what every effect keeps over all orders of calls.
-/

namespace CodeAtlas

open Work Upsert

/-! ## Calls -/

/-- A call on a store in use. -/
inductive Call where
  | apply (record : FileRecord) (nodes : List Node) (edges : List Edge)
  | delete (path : String)
  | relink
deriving DecidableEq

/-- The file whose contribution a call replaces, and what it contributes from then on. -/
def Call.given? : Call → Option (String × List Node × List Edge)
  | .apply record nodes edges => some (record.path, nodes, edges)
  | .delete path => some (path, [], [])
  | .relink => none

/-- Carries out a call, whatever it reports. -/
def Backend.perform (b : Backend) : Call → Except Error Unit × Backend
  | .apply record nodes edges =>
    ((b.apply record nodes edges).1.map fun _ => (), (b.apply record nodes edges).2)
  | .delete path => ((b.deleteFile path).1.map fun _ => (), (b.deleteFile path).2)
  | .relink => (b.relink.1.map fun _ => (), b.relink.2)

namespace Upsert

/-! ## Effects -/

/-- The store with the record of a file that contributes nodes and edges, written only
if it changes. -/
def recorded (s : Store) (record : FileRecord) (nodes : List Node) (edges : List Edge) : Store :=
  let r := { record with contributions := contributionOf nodes edges }
  if recordChanged (s.records.get? record.path) r then s.putRecord r else s

theorem recorded_nodes (s : Store) (record : FileRecord) (nodes : List Node) (edges : List Edge) :
    (recorded s record nodes edges).nodes = s.nodes := by
  rw [recorded]
  split <;> rfl

theorem recorded_edges (s : Store) (record : FileRecord) (nodes : List Node) (edges : List Edge) :
    (recorded s record nodes edges).edges = s.edges := by
  rw [recorded]
  split <;> rfl

theorem recorded_other {s : Store} {record : FileRecord} {nodes : List Node} {edges : List Edge}
    {path : String} (h : path ≠ record.path) :
    (recorded s record nodes edges).records.get? path = s.records.get? path := by
  rw [recorded]
  split
  · rw [Store.get?_putRecord, if_neg fun hp => h hp.symm]
  · rfl

/-- Written or not, the record of the file claims what the file contributes. -/
theorem recorded_own (s : Store) (record : FileRecord) (nodes : List Node) (edges : List Edge) :
    ∃ r, (recorded s record nodes edges).records.get? record.path = some r ∧
      ∀ id, id ∈ r.contributions ↔ id ∈ contributionOf nodes edges := by
  rw [recorded]
  split
  · rw [Store.get?_putRecord, if_pos rfl]
    exact ⟨_, rfl, fun id => mem_sortedSet⟩
  · next h =>
    cases hp : s.records.get? record.path with
    | none =>
        rw [recordChanged, hp, Option.all_none] at h
        exact absurd rfl h
    | some p =>
        rw [recordChanged, hp, Option.all_some] at h
        simp only [Bool.or_eq_true, bne_iff_ne, not_or, Decidable.not_not] at h
        exact ⟨p, rfl, fun id => by rw [h.2]⟩

/-- What a call that succeeds does to the published store. -/
inductive Effect : Call → Store → Store → Prop
  | apply {record : FileRecord} {nodes : List Node} {edges : List Edge} {s t : Store} :
      Replaced record.path (s.records.get? record.path) nodes edges s t →
      Effect (.apply record nodes edges) s (recorded t record nodes edges)
  | delete {path : String} {previous : FileRecord} {s t : Store} :
      s.records.get? path = some previous → Replaced path (some previous) [] [] s t →
      Effect (.delete path) s (t.deleteRecord path).2
  | deleteUnknown {path : String} {s : Store} :
      s.records.get? path = none → Effect (.delete path) s s
  | relink {s t : Store} : EdgesMapped (withTarget s) s t → Effect .relink s t

theorem applyWork_effect {record : FileRecord} {nodes : List Node} {edges : List Edge} {s t : Store}
    {c : Commit} (h : (applyWork record nodes edges).Gives s c t) :
    Effect (.apply record nodes edges) s t := by
  obtain ⟨previous, u, hp, h⟩ := Gives.of_bind h
  obtain ⟨rfl, rfl⟩ := Gives.of_ask hp
  obtain ⟨done, v, hd, hrest⟩ := Gives.of_bind h
  have hrep := replace_replaced hd
  have ht : t = recorded v record nodes edges := by
    rw [recorded, hrep.records]
    simp only [] at hrest
    split at hrest
    · next hc =>
      obtain ⟨_, w, hw, hdone⟩ := Gives.of_bind hrest
      obtain ⟨-, rfl⟩ := Gives.of_change hw
      rw [if_pos hc]
      exact (Gives.of_pure hdone).2
    · next hc =>
      rw [if_neg hc]
      exact (Gives.of_pure hrest).2
  rw [ht]
  exact .apply hrep

theorem deleteWork_effect {path : String} {s t : Store} {c : Commit} {published : Bool}
    (h : (deleteWork path).Gives s (c, published) t) :
    (published = true → Effect (.delete path) s t) ∧
      (published = false → Effect (.delete path) s s) := by
  obtain ⟨previous, u, hp, hrest⟩ := Gives.of_bind h
  obtain ⟨hget, hu⟩ := Gives.of_ask hp
  rw [hu] at hrest
  split at hrest
  · obtain ⟨hc, -⟩ := Gives.of_pure hrest
    cases hc
    exact ⟨fun hf => absurd hf Bool.false_ne_true, fun _ => .deleteUnknown hget.symm⟩
  · obtain ⟨done, v, hd, hrest⟩ := Gives.of_bind hrest
    obtain ⟨gone, w, hg, hrest⟩ := Gives.of_bind hrest
    obtain ⟨-, rfl⟩ := Gives.of_change hg
    obtain ⟨hc, rfl⟩ := Gives.of_pure hrest
    cases hc
    exact ⟨fun _ => .delete hget.symm (replace_replaced hd),
      fun hf => absurd hf.symm Bool.false_ne_true⟩

/-- One step of the sweep, over edges that wait: nodes do not change on the way, so the
target is the one that the store had to begin with. -/
theorem relink_step {e : Edge} {s u v : Store} {c : Commit} (hwaits : e.target = none)
    (hu : u.nodes = s.nodes)
    (h : (do
      match ← findTarget e with
      | some (id, confidence) => link e id confidence
      | none => return 0 : Work Commit).Gives u c v) :
    (v = u ∧ withTarget s e = e) ∨ v = (u.mergeEdge (withTarget s e)).2 := by
  obtain ⟨found, w, hf, h⟩ := Gives.of_bind h
  obtain ⟨hfound, hw⟩ := Gives.findTarget hf
  rw [hw, hfound, targetIn_congr hu] at h
  have hr : ¬ e.isResolved = true := by
    rw [Edge.isResolved, hwaits]
    exact Bool.false_ne_true
  rw [withTarget, if_neg hr]
  cases htarget : targetIn s e with
  | none =>
      rw [htarget] at h
      exact Or.inl ⟨(Gives.of_pure h).2, rfl⟩
  | some target =>
      rw [htarget] at h
      exact Or.inr (Gives.link h)

/-- The sweep gives every waiting edge the target that the store has for it. -/
theorem relinkWork_effect {s t : Store} {n : Nat} (h : relinkWork.Gives s n t) :
    Effect .relink s t := by
  obtain ⟨es, u, ha, h⟩ := Gives.of_bind h
  obtain ⟨rfl, rfl⟩ := Gives.of_ask ha
  obtain ⟨c, v, hl, h⟩ := Gives.of_bind h
  obtain ⟨-, rfl⟩ := Gives.of_pure h
  have hmap := forAll_edges (g := withTarget u) hl (fun e he => (Store.mem_unresolved.1 he).1)
    (fun e _ => (Edge.eq_of_unlink_eq (withTarget_unlink u e)).1)
    (fun e he w a x hw hg => relink_step (Store.mem_unresolved.1 he).2 hw hg)
  refine .relink (hmap.congr fun e he => ?_)
  simp only [Store.mem_unresolved]
  split
  · rfl
  · next hn =>
    have hr : e.isResolved = true := by
      rw [Edge.isResolved, Option.isSome_iff_ne_none]
      exact fun ht => hn ⟨he, ht⟩
    rw [withTarget, if_pos hr]

/-- Of the nodes and edges that were stored before, a call changes what its file
contributes and nothing else; the records are written apart. -/
theorem Effect.replaced {c : Call} {path : String} {nodes : List Node} {edges : List Edge}
    {s t : Store} (h : Effect c s t) (hg : c.given? = some (path, nodes, edges)) :
    ∃ u, Replaced path (s.records.get? path) nodes edges s u ∧ t.nodes = u.nodes ∧
      t.edges = u.edges := by
  cases h with
  | @apply record nodes edges _ u hr =>
      cases hg
      exact ⟨u, hr, recorded_nodes _ _ _ _, recorded_edges _ _ _ _⟩
  | @delete path previous _ u hp hr =>
      cases hg
      exact ⟨u, hp ▸ hr, rfl, rfl⟩
  | deleteUnknown hp =>
      cases hg
      exact ⟨_, hp ▸ ⟨_, _, Retracted.nil path s, .nil s, .nil s⟩, rfl, rfl⟩
  | relink _ => cases hg

end Upsert

/-! ## Whole calls -/

/-- Work whose outcome, published or not, is the effect of a call has that effect as a
transaction, or it fails and the store is as it was. -/
theorem Backend.transact_effect {α : Type} {b : Backend} {w : Work (α × Bool)} {c : Call}
    (hw : ∀ a published t, w.Gives b.store (a, published) t →
      (published = true → Effect c b.store t) ∧
        (published = false → Effect c b.store b.store)) :
    (((b.transact w).1.map fun _ => ()) = .ok () ∧ Effect c b.store (b.transact w).2.store) ∨
      ((∃ e, ((b.transact w).1.map fun _ => ()) = .error e) ∧
        (b.transact w).2.store = b.store) := by
  rcases b.transact_cases w with ⟨a, hok, h⟩ | ⟨hs, hdropped⟩
  · refine Or.inl ⟨?_, (hw a true _ h).1 rfl⟩
    rw [hok]
    rfl
  · cases hr : (b.transact w).1 with
    | error e => exact Or.inr ⟨⟨e, rfl⟩, hs⟩
    | ok a =>
        obtain ⟨t, h⟩ := hdropped a hr
        rw [hs]
        exact Or.inl ⟨rfl, (hw a false t h).2 rfl⟩

/-- Work that is always published. -/
theorem Work.Gives.of_published {α : Type} {w : Work α} {s t : Store} {a : α} {published : Bool}
    (h : (do return (← w, true) : Work (α × Bool)).Gives s (a, published) t) :
    published = true ∧ w.Gives s a t := by
  obtain ⟨x, u, hw, h⟩ := Gives.of_bind h
  obtain ⟨hx, rfl⟩ := Gives.of_pure h
  cases hx
  exact ⟨rfl, hw⟩

/-- Work that is always published is what a transaction that succeeds did. -/
theorem Backend.transact_gives {α : Type} {b b' : Backend} {w : Work α} {a : α}
    (h : b.transact (do return (← w, true)) = (.ok a, b')) : w.Gives b.store a b'.store := by
  rcases b.transact_cases _ with ⟨x, hok, hgives⟩ | ⟨-, hdropped⟩
  · rw [h] at hok hgives
    cases hok
    exact (Gives.of_published hgives).2
  · obtain ⟨t, hgives⟩ := hdropped a (congrArg Prod.fst h)
    cases (Gives.of_published hgives).1

/-- A contribution that was applied was published. -/
theorem Backend.apply_gives {b b' : Backend} {record : FileRecord} {nodes : List Node}
    {edges : List Edge} {c : Commit} (h : b.apply record nodes edges = (.ok c, b')) :
    (applyWork record nodes edges).Gives b.store c b'.store := Backend.transact_gives h

/-- A call has its effect, or it fails and the store is as it was. -/
theorem Backend.perform_cases (b : Backend) (c : Call) :
    ((b.perform c).1 = .ok () ∧ Effect c b.store (b.perform c).2.store) ∨
      ((∃ e, (b.perform c).1 = .error e) ∧ (b.perform c).2.store = b.store) := by
  cases c with
  | apply record nodes edges =>
      refine Backend.transact_effect fun a published t h => ?_
      obtain ⟨rfl, hw⟩ := Gives.of_published h
      exact ⟨fun _ => applyWork_effect hw, fun hf => absurd hf.symm Bool.false_ne_true⟩
  | delete path => exact Backend.transact_effect fun a published t h => deleteWork_effect h
  | relink =>
      refine Backend.transact_effect fun a published t h => ?_
      obtain ⟨rfl, hw⟩ := Gives.of_published h
      exact ⟨fun _ => relinkWork_effect hw, fun hf => absurd hf.symm Bool.false_ne_true⟩

/-! ## Reachable stores -/

/-- Carries out calls one after the other. -/
def Backend.performAll (b : Backend) (cs : List Call) : Backend :=
  cs.foldl (fun b c => (b.perform c).2) b

/-- The stores in use that allowed calls lead to, in any order and under any
circumstances, from an empty one. -/
inductive Reachable (allowed : Call → Prop) : Backend → Prop
  | start {b : Backend} : b.store = .empty → Reachable allowed b
  | call {b : Backend} {c : Call} : Reachable allowed b → allowed c →
      Reachable allowed (b.perform c).2

theorem Backend.performAll_concat (b : Backend) (cs : List Call) (c : Call) :
    b.performAll (cs ++ [c]) = ((b.performAll cs).perform c).2 := by
  rw [Backend.performAll, List.foldl_append]
  rfl

/-- What holds of a store and is only lost by bad steps holds after every call of a run, if
and only if no step of the run is bad. -/
theorem Backend.forall_prefix_iff {b : Backend} {cs : List Call} {I : Store → Prop}
    {B : Call → Store → Store → Prop} (hb : I b.store)
    (hstep : ∀ pre c, pre ++ [c] <+: cs → I (b.performAll pre).store →
      (I (b.performAll (pre ++ [c])).store ↔
        ¬ B c (b.performAll pre).store (b.performAll (pre ++ [c])).store)) :
    (∀ pre, pre <+: cs → I (b.performAll pre).store) ↔
      ∀ pre c, pre ++ [c] <+: cs →
        ¬ B c (b.performAll pre).store (b.performAll (pre ++ [c])).store := by
  constructor
  · intro h pre c hp
    have hpre : pre <+: cs := (List.prefix_append pre [c]).trans hp
    exact (hstep pre c hp (h pre hpre)).1 (h (pre ++ [c]) hp)
  · intro h pre
    induction pre using List.reverseRec with
    | nil => exact fun _ => hb
    | append_singleton pre c ih =>
        intro hp
        have hpre : pre <+: cs := (List.prefix_append pre [c]).trans hp
        exact (hstep pre c hp (ih hpre)).2 (h pre c hp)

namespace Reachable

variable {allowed : Call → Prop} {b : Backend}

/-- What holds of the empty store and is kept by the effect of every allowed call holds
of all reachable stores. -/
theorem keeps {I : Store → Prop} (h : Reachable allowed b) (hempty : I .empty)
    (hstep : ∀ s c t, I s → allowed c → Effect c s t → I t) : I b.store := by
  induction h with
  | start hb => rw [hb]; exact hempty
  | @call b c _ hc ih =>
      rcases b.perform_cases c with ⟨-, he⟩ | ⟨-, hs⟩
      · exact hstep b.store c _ ih hc he
      · rw [hs]; exact ih

theorem performAll {cs : List Call} (h : Reachable allowed b) (hcs : ∀ c ∈ cs, allowed c) :
    Reachable allowed (b.performAll cs) := by
  induction cs generalizing b with
  | nil => exact h
  | cons c cs ih =>
      exact ih (h.call (hcs c List.mem_cons_self)) fun d hd => hcs d (List.mem_cons_of_mem c hd)

end Reachable

/-! ## Small contributions

Nodes, edges and records with nothing but what tells them apart, for runs that are
written out. -/

/-- A node of a file. -/
def Node.plain (kind : NodeKind) (name qualifiedName file : String) : Node where
  id := Node.idOf kind qualifiedName
  kind := kind
  name := name
  qualifiedName := qualifiedName
  file := file
  language := "python"
  span := default
  signature := none

/-- An edge of a file that waits for its target. -/
def Edge.plain (relationship : Relationship) (source targetRef file : String) : Edge where
  id := Edge.idOf relationship source targetRef file
  source := source
  target := none
  relationship := relationship
  confidence := .unresolved
  targetRef := targetRef
  file := file
  span := default

/-- The record of a file. -/
def FileRecord.plain (path : String) : FileRecord := ⟨path, "python", "", 0, []⟩

end CodeAtlas
