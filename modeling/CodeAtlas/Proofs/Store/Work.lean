import CodeAtlas.Store.Transaction

/-!
# CodeAtlas.Proofs.Store.Work

What work in a transaction can come to.

`Work.Gives w s a t` says that `w`, begun on the store `s`, can give `a` and leave
the store `t`.  The circumstances decide whether work gives anything at all, but
never what it gives, so they are not part of the relation.  Work is taken apart step
by step: `Gives.of_bind` for a sequence, and one lemma for each kind of single step.

`Backend.transact_cases` is the statement about whole transactions: what the work
left is published as a whole, or the store stays as it was.

Where nothing fails, work gives something.  `Work.Yields w s a t` says so, and is put
together along the text of the work.
-/

namespace CodeAtlas

namespace Work

variable {α β : Type}

/-- Begun on the store `s`, the work can give `a` and leave the store `t`. -/
def Gives (w : Work α) (s : Store) (a : α) (t : Store) : Prop :=
  ∃ outage n m, w outage ⟨s, n⟩ = .ok (a, ⟨t, m⟩)

namespace Gives

variable {s t : Store} {a : α} {b : β}

theorem of_pure {x : α} (h : (pure x : Work α).Gives s a t) : a = x ∧ t = s := by
  obtain ⟨outage, n, m, h⟩ := h
  cases h
  exact ⟨rfl, rfl⟩

/-- A sequence passes through a store between its two parts. -/
theorem of_bind {w : Work α} {f : α → Work β} (h : (w >>= f).Gives s b t) :
    ∃ a u, w.Gives s a u ∧ (f a).Gives u b t := by
  obtain ⟨outage, n, m, h⟩ := h
  change (w outage ⟨s, n⟩).bind (fun r => f r.1 outage r.2) = .ok (b, ⟨t, m⟩) at h
  cases hw : w outage ⟨s, n⟩ with
  | error e =>
      rw [hw] at h
      cases h
  | ok r =>
      rw [hw] at h
      obtain ⟨a, u, k⟩ := r
      exact ⟨a, u, ⟨outage, n, k, hw⟩, ⟨outage, k, m, h⟩⟩

/-- One operation gives what it computes from the store before it. -/
theorem of_operation {f : Store → Except Error (α × Store)} (h : (operation f).Gives s a t) :
    f s = .ok (a, t) := by
  obtain ⟨outage, n, m, h⟩ := h
  rw [operation] at h
  split at h
  · cases h
  · split at h
    · cases h
    · next b u hf =>
      cases h
      exact hf

theorem of_ask {f : Store → α} (h : (ask f).Gives s a t) : a = f s ∧ t = s := by
  have hf := of_operation h
  cases hf
  exact ⟨rfl, rfl⟩

theorem of_change {f : Store → α × Store} (h : (change f).Gives s a t) :
    a = (f s).1 ∧ t = (f s).2 := by
  have hf := of_operation h
  rw [Except.ok.injEq] at hf
  exact ⟨by rw [hf], by rw [hf]⟩

end Gives

/-- Begun on the store `s`, the work gives `a` and leaves the store `t` if nothing
fails. -/
def Yields (w : Work α) (s : Store) (a : α) (t : Store) : Prop :=
  ∀ n, ∃ m, w .none ⟨s, n⟩ = .ok (a, ⟨t, m⟩)

namespace Yields

variable {s t u : Store} {a : α} {b : β}

theorem pure : (pure a : Work α).Yields s a s := fun n => ⟨n, rfl⟩

theorem bind {w : Work α} {f : α → Work β} (hw : w.Yields s a u) (hf : (f a).Yields u b t) :
    (w >>= f).Yields s b t := by
  intro n
  obtain ⟨k, hk⟩ := hw n
  obtain ⟨m, hm⟩ := hf k
  refine ⟨m, ?_⟩
  change (w .none ⟨s, n⟩).bind (fun r => f r.1 .none r.2) = _
  rw [hk]
  exact hm

theorem ask {f : Store → α} : (ask f).Yields s (f s) s := fun n => ⟨n + 1, rfl⟩

theorem change {f : Store → α × Store} (h : f s = (a, t)) : (change f).Yields s a t := by
  intro n
  refine ⟨n + 1, ?_⟩
  change Except.ok ((f s).1, (⟨(f s).2, n + 1⟩ : Progress)) = _
  rw [h]

end Yields

end Work

namespace Backend

/-- A transaction publishes all that its work left, or nothing of it. -/
theorem transact_cases {α : Type} (b : Backend) (w : Work (α × Bool)) :
    (∃ a, (b.transact w).1 = .ok a ∧ w.Gives b.store (a, true) (b.transact w).2.store) ∨
      ((b.transact w).2.store = b.store ∧
        ∀ a, (b.transact w).1 = .ok a → ∃ t, w.Gives b.store (a, false) t) := by
  rw [transact]
  split
  · exact Or.inr ⟨rfl, fun a h => by cases h⟩
  · split
    · exact Or.inr ⟨rfl, fun a h => by cases h⟩
    · split
      · exact Or.inr ⟨rfl, fun a h => by cases h⟩
      · next a p hw =>
        refine Or.inr ⟨rfl, fun a' h => ?_⟩
        cases h
        exact ⟨p.store, _, 0, p.operations, hw⟩
      · next a p hw =>
        split
        · exact Or.inr ⟨rfl, fun a h => by cases h⟩
        · exact Or.inl ⟨a, rfl, _, 0, p.operations, hw⟩

/-- A transaction that fails leaves the published store as it was. -/
theorem transact_error {α : Type} {b : Backend} {w : Work (α × Bool)} {e : Error}
    (h : (b.transact w).1 = .error e) : (b.transact w).2.store = b.store := by
  rcases b.transact_cases w with ⟨a, hok, -⟩ | ⟨hs, -⟩
  · rw [hok] at h
    cases h
  · exact hs

/-- Only an open store has transactions that succeed, and they change nothing but what is
published, and one outage is behind. -/
theorem transact_ok {α : Type} {b b' : Backend} {w : Work (α × Bool)} {a : α}
    (h : b.transact w = (.ok a, b')) :
    b.isOpen = true ∧ b' = { b with store := b'.store, outages := b.outages.tail } := by
  rw [transact] at h
  split at h
  · cases h
  · split at h
    · cases h
    · next hopen =>
      have hopen : b.isOpen = true := by simpa using hopen
      split at h
      · cases h
      · cases h
        exact ⟨hopen, rfl⟩
      · split at h
        · cases h
        · cases h
          exact ⟨hopen, rfl⟩

/-- An open store that nothing happens to publishes what work yields. -/
theorem transact_yields {α : Type} {b : Backend} {w : Work (α × Bool)} {a : α} {t : Store}
    (hopen : b.isOpen = true) (hout : b.outages = []) (hw : w.Yields b.store (a, true) t) :
    b.transact w = (.ok a, { b with store := t }) := by
  obtain ⟨m, hm⟩ := hw 0
  have hrun : (w.run .none).run ⟨b.store, 0⟩ = .ok ((a, true), ⟨t, m⟩) := hm
  have hbegin : Outage.none.begin = none := rfl
  have hcommit : Outage.none.commit = none := rfl
  simp only [transact, hout, List.headD_nil, List.tail_nil, hbegin, hopen, hrun, hcommit]
  rfl

end Backend

end CodeAtlas
