import CodeAtlas.Proofs.Store.Contents
import CodeAtlas.Proofs.Store.Work
import CodeAtlas.Upsert

/-!
# CodeAtlas.Proofs.Upsert.Loop

Changes made for all members of a list.

* `forAll_steps` turns a loop into the chain of stores that it goes through, so that
  what one step does is carried along the list by an induction on `Steps`;
* `forAll_edges` is about loops that rewrite stored edges one by one: afterwards each
  edge of the list has been mapped, all others are as they were, and so are the nodes
  and records (`EdgesMapped`).
-/

namespace CodeAtlas

open Work

/-! ## Chains of stores -/

/-- A relation between stores, followed along a list. -/
inductive Steps {α : Type} (R : α → Store → Store → Prop) : List α → Store → Store → Prop
  | nil (s : Store) : Steps R [] s s
  | cons {x : α} {xs : List α} {s t u : Store} : R x s t → Steps R xs t u → Steps R (x :: xs) s u

/-- What every step keeps is kept by all of them. -/
theorem Steps.keep {α : Type} {R : α → Store → Store → Prop} {I : Store → Prop} {xs : List α}
    {s t : Store} (h : Steps R xs s t)
    (hstep : ∀ x ∈ xs, ∀ u v, R x u v → I u → I v) (hs : I s) : I t := by
  induction h with
  | nil => exact hs
  | @cons x xs s u t hx _ ih =>
      have hu : I u := hstep x List.mem_cons_self s u hx hs
      exact ih (fun y hy => hstep y (List.mem_cons_of_mem x hy)) hu

namespace Upsert

theorem forAll_steps {α : Type} {f : α → Work Commit} {R : α → Store → Store → Prop}
    {xs : List α} {s t : Store} {c : Commit} (h : (forAll xs f).Gives s c t)
    (hf : ∀ x ∈ xs, ∀ u a v, (f x).Gives u a v → R x u v) : Steps R xs s t := by
  induction xs generalizing s c with
  | nil =>
      obtain ⟨-, rfl⟩ := Gives.of_pure h
      exact .nil t
  | cons x xs ih =>
      obtain ⟨a, u, hx, h⟩ := Gives.of_bind h
      obtain ⟨b, v, hxs, h⟩ := Gives.of_bind h
      obtain ⟨-, rfl⟩ := Gives.of_pure h
      exact .cons (hf x List.mem_cons_self s a u hx)
        (ih hxs fun y hy => hf y (List.mem_cons_of_mem x hy))

end Upsert

/-! ## Stores with rewritten edges -/

/-- One store is another one with its edges mapped. -/
structure EdgesMapped (g : Edge → Edge) (s t : Store) : Prop where
  nodes : t.nodes = s.nodes
  records : t.records = s.records
  edges : ∀ k, t.edges.get? k = (s.edges.get? k).map g

namespace EdgesMapped

variable {g g' : Edge → Edge} {s t u : Store}

theorem refl (s : Store) : EdgesMapped (fun e => e) s s :=
  ⟨rfl, rfl, fun k => by simp⟩

theorem trans (h : EdgesMapped g s t) (h' : EdgesMapped g' t u) :
    EdgesMapped (fun e => g' (g e)) s u := by
  have hedges : ∀ k, u.edges.get? k = (s.edges.get? k).map fun e => g' (g e) := by
    intro k
    rw [h'.edges, h.edges, Option.map_map]
    rfl
  exact ⟨h'.nodes.trans h.nodes, h'.records.trans h.records, hedges⟩

/-- Only what is done to stored edges counts. -/
theorem congr (h : EdgesMapped g s t) (hg : ∀ e ∈ s.edges, g e = g' e) : EdgesMapped g' s t := by
  have hedges : ∀ k, t.edges.get? k = (s.edges.get? k).map g' := by
    intro k
    rw [h.edges]
    cases he : s.edges.get? k with
    | none => rfl
    | some e => rw [Option.map_some, Option.map_some, hg e (Rows.mem_of_get? he)]
  exact ⟨h.nodes, h.records, hedges⟩

/-- An edge of the new store comes from one of the old store. -/
theorem exists_of_mem (h : EdgesMapped g s t) {e : Edge} (he : e ∈ t.edges) :
    ∃ old ∈ s.edges, g old = e := by
  have hk := h.edges e.id
  rw [Rows.mem_iff_get?.1 he] at hk
  obtain ⟨old, hold, rfl⟩ := Option.map_eq_some_iff.1 hk.symm
  exact ⟨old, Rows.mem_of_get? hold, rfl⟩

/-- One more stored edge was rewritten, or left as it was because it stays the same.  Ids
are not repeated among stored edges, so this undoes nothing that was done before. -/
theorem snoc {done : List Edge} {x : Edge}
    (h : EdgesMapped (fun e => if e ∈ done then g e else e) s t) (hx : x ∈ s.edges)
    (hid : (g x).id = x.id) (hstep : (u = t ∧ g x = x) ∨ u = (t.mergeEdge (g x)).2) :
    EdgesMapped (fun e => if e ∈ done ++ [x] then g e else e) s u := by
  rcases hstep with ⟨rfl, hgx⟩ | rfl
  · refine h.congr fun e _ => ?_
    by_cases hex : e = x
    · subst hex
      simp [hgx]
    · simp [hex]
  · have hnodes := (Store.mergeEdge_nodes t (g x)).trans h.nodes
    have hrecords := (Store.mergeEdge_records t (g x)).trans h.records
    refine ⟨hnodes, hrecords, fun k => ?_⟩
    rw [Store.get?_mergeEdge, hid, h.edges]
    split
    · next hk =>
      rw [← hk, Rows.mem_iff_get?.1 hx]
      simp
    · next hk =>
      cases he : s.edges.get? k with
      | none => rfl
      | some e =>
          have hex : e ≠ x := fun hex => hk (hex ▸ Rows.key_of_get? he)
          simp [hex]

end EdgesMapped

/-! ## Loops over stored edges -/

namespace Upsert

/-- A loop that rewrites each edge of a list of stored edges, or leaves it as it is,
maps these edges. -/
theorem forAll_edges {f : Edge → Work Commit} {g : Edge → Edge} {es : List Edge} {s t : Store}
    {c : Commit} (h : (forAll es f).Gives s c t) (hes : ∀ e ∈ es, e ∈ s.edges)
    (hid : ∀ e ∈ es, (g e).id = e.id)
    (hf : ∀ e ∈ es, ∀ u a v, u.nodes = s.nodes → (f e).Gives u a v →
      (v = u ∧ g e = e) ∨ v = (u.mergeEdge (g e)).2) :
    EdgesMapped (fun e => if e ∈ es then g e else e) s t := by
  suffices H : ∀ (rest done : List Edge) (u : Store) (b : Commit),
      (∀ e ∈ rest, e ∈ es) → EdgesMapped (fun e => if e ∈ done then g e else e) s u →
      (forAll rest f).Gives u b t →
      EdgesMapped (fun e => if e ∈ done ++ rest then g e else e) s t by
    have h0 : EdgesMapped (fun e => if e ∈ ([] : List Edge) then g e else e) s s :=
      (EdgesMapped.refl s).congr fun e _ => by simp
    exact H es [] s c (fun _ he => he) h0 h
  intro rest
  induction rest with
  | nil =>
      intro done u b _ hu h
      obtain ⟨-, rfl⟩ := Gives.of_pure h
      rw [List.append_nil]
      exact hu
  | cons x rest ih =>
      intro done u b hsub hu h
      obtain ⟨a, v, hx, h⟩ := Gives.of_bind h
      obtain ⟨b', w, hrest, h⟩ := Gives.of_bind h
      obtain ⟨-, rfl⟩ := Gives.of_pure h
      have hxe : x ∈ es := hsub x List.mem_cons_self
      have hv : EdgesMapped (fun e => if e ∈ done ++ [x] then g e else e) s v :=
        hu.snoc (hes x hxe) (hid x hxe) (hf x hxe u a v hu.nodes hx)
      have hall := ih (done ++ [x]) v b' (fun e he => hsub e (List.mem_cons_of_mem x he)) hv hrest
      rwa [List.append_assoc, List.singleton_append] at hall

end Upsert

end CodeAtlas
