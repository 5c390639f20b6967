import CodeAtlas.Explore
import Mathlib.Data.List.Nodup
import Mathlib.Data.List.Perm.Subperm
import Mathlib.Logic.Relation

/-!
# CodeAtlas.Proofs.Explore.Frontier

A search that takes up what it has not found yet, first come first served, finds all that can be
reached.

The search runs in a list that it never leaves, in which no two things have one key.  What it
keeps (`Frontier.Searching`) is that it found only what can be reached, each once, and that all
that is next to what it has gone on from is found.  One step goes on from one thing more, so
after as many steps as the list is long nothing waits, and then all is found (`run_spec`).
-/

namespace CodeAtlas

namespace Frontier

variable {α : Type} {key : α → String} {next : α → List α} {all : List α}

/-- Whether one thing is next to another one in a search. -/
def LeadsBy (next : α → List α) (a b : α) : Prop := b ∈ next a

/-! ## Taking up -/

/-- Of what is taken up, that is added to what was found and to what waits which was not found
before, each once. -/
theorem foldl_take (hkey : ∀ a ∈ all, ∀ b ∈ all, key a = key b → a = b) {xs : List α}
    (hxs : ∀ a ∈ xs, a ∈ all) {q : Frontier α} (hq : ∀ a ∈ q.found, a ∈ all)
    (hnodup : q.found.Nodup) :
    ∃ fresh, xs.foldl (take key) q = ⟨q.found ++ fresh, q.waiting ++ fresh⟩ ∧
      (q.found ++ fresh).Nodup ∧ ∀ a, a ∈ q.found ++ fresh ↔ a ∈ q.found ∨ a ∈ xs := by
  induction xs generalizing q with
  | nil => exact ⟨[], by simpa using hnodup⟩
  | cons x xs ih =>
      obtain ⟨hx, hxs⟩ := List.forall_mem_cons.1 hxs
      rw [List.foldl_cons, take]
      split
      · next hany =>
        obtain ⟨y, hy, hsame⟩ := List.any_eq_true.1 hany
        have hmem : x ∈ q.found := hkey y (hq y hy) x hx (beq_iff_eq.1 hsame) ▸ hy
        obtain ⟨fresh, hfold, hd, hiff⟩ := ih hxs hq hnodup
        refine ⟨fresh, hfold, hd, fun a => ?_⟩
        rw [hiff, List.mem_cons]
        exact ⟨Or.imp_right .inr, Or.rec .inl (Or.rec (fun h => .inl (h ▸ hmem)) .inr)⟩
      · next hany =>
        have hnew : x ∉ q.found :=
          fun hmem => hany (List.any_eq_true.2 ⟨x, hmem, beq_self_eq_true _⟩)
        have hwithin : ∀ a ∈ q.found ++ [x], a ∈ all := fun a ha =>
          (List.mem_append.1 ha).elim (hq a) fun h => List.mem_singleton.1 h ▸ hx
        obtain ⟨fresh, hfold, hd, hiff⟩ := ih (q := ⟨q.found ++ [x], q.waiting ++ [x]⟩) hxs hwithin
          (List.nodup_append_comm.1 (List.nodup_cons.2 ⟨hnew, hnodup⟩))
        rw [List.append_assoc, List.singleton_append] at hd
        refine ⟨x :: fresh, by simpa using hfold, hd, fun a => ?_⟩
        rw [List.append_cons, hiff, List.mem_append, List.mem_singleton, List.mem_cons, or_assoc]

/-! ## The search -/

/-- What a search from one thing keeps, in a list that it does not leave. -/
structure Searching (next : α → List α) (all : List α) (origin : α) (q : Frontier α) : Prop where
  /-- What waits was found last. -/
  waiting : q.waiting <:+ q.found
  begun : origin ∈ q.found
  nodup : q.found.Nodup
  within : ∀ a ∈ q.found, a ∈ all
  sound : ∀ a ∈ q.found, Relation.ReflTransGen (LeadsBy next) origin a
  /-- All that is next to what does not wait was found. -/
  closed : ∀ a ∈ q.found, a ∈ q.waiting ∨ ∀ b, LeadsBy next a b → b ∈ q.found

namespace Searching

variable {origin : α} {q : Frontier α}

theorem start (h : origin ∈ all) : Searching next all origin (.start origin) where
  waiting := List.suffix_rfl
  begun := List.mem_singleton_self origin
  nodup := List.nodup_singleton origin
  within _ ha := List.mem_singleton.1 ha ▸ h
  sound _ ha := List.mem_singleton.1 ha ▸ .refl
  closed _ ha := .inl ha

/-- Going on from what has waited longest. -/
theorem step (hkey : ∀ a ∈ all, ∀ b ∈ all, key a = key b → a = b)
    (hnext : ∀ a ∈ all, ∀ b, LeadsBy next a b → b ∈ all) (h : Searching next all origin q)
    {a : α} {waiting : List α} (hwaiting : q.waiting = a :: waiting) :
    ∃ fresh, (next a).foldl (take key) { q with waiting } =
        ⟨q.found ++ fresh, waiting ++ fresh⟩ ∧
      Searching next all origin ⟨q.found ++ fresh, waiting ++ fresh⟩ := by
  obtain ⟨gone, hfound⟩ := h.waiting
  rw [hwaiting] at hfound
  have ha : a ∈ q.found := hfound ▸ by simp
  obtain ⟨fresh, hfold, hnodup, hiff⟩ := foldl_take (q := { q with waiting }) hkey
    (hnext a (h.within a ha)) h.within h.nodup
  refine ⟨fresh, hfold, ⟨gone ++ [a], by simp [← hfound]⟩, ?_, hnodup, ?_, ?_, ?_⟩
  · exact List.mem_append_left _ h.begun
  · exact fun b hb => ((hiff b).1 hb).elim (h.within b) (hnext a (h.within a ha) b)
  · exact fun b hb => ((hiff b).1 hb).elim (h.sound b) fun hb => (h.sound a ha).tail hb
  · intro c hc
    rcases List.mem_append.1 hc with hold | hfresh
    · rcases h.closed c hold with hwaits | hclosed
      · rw [hwaiting, List.mem_cons] at hwaits
        rcases hwaits with rfl | hwaits
        · exact .inr fun b hb => (hiff b).2 (.inr hb)
        · exact .inl (List.mem_append_left _ hwaits)
      · exact .inr fun b hb => List.mem_append_left _ (hclosed b hb)
    · exact .inl (List.mem_append_right _ hfresh)

/-- No more is found than there is. -/
theorem length_le (h : Searching next all origin q) : q.found.length ≤ all.length :=
  (h.nodup.subperm h.within).length_le

/-- A search keeps what it keeps, and nothing waits after as many steps as there are things. -/
theorem run (hkey : ∀ a ∈ all, ∀ b ∈ all, key a = key b → a = b)
    (hnext : ∀ a ∈ all, ∀ b, LeadsBy next a b → b ∈ all) (h : Searching next all origin q)
    {steps : Nat} (hsteps : all.length + q.waiting.length ≤ steps + q.found.length) :
    Searching next all origin (q.run key next steps) ∧ (q.run key next steps).waiting = [] := by
  induction steps generalizing q with
  | zero =>
      have hlength := h.length_le
      exact ⟨h, List.length_eq_zero_iff.1 (by rw [Frontier.run]; omega)⟩
  | succ steps ih =>
      rw [Frontier.run]
      split
      · next hnone => exact ⟨h, hnone⟩
      · next a waiting hwaiting =>
        obtain ⟨fresh, hfold, hstep⟩ := h.step hkey hnext hwaiting
        rw [hfold]
        refine ih hstep ?_
        simp only [hwaiting, List.length_cons, List.length_append] at hsteps ⊢
        omega

/-- Where nothing waits, all that can be reached is found. -/
theorem complete (h : Searching next all origin q) (hdone : q.waiting = []) (a : α) :
    a ∈ q.found ↔ Relation.ReflTransGen (LeadsBy next) origin a := by
  refine ⟨h.sound a, fun ha => ?_⟩
  induction ha with
  | refl => exact h.begun
  | tail _ hb hfound =>
      refine (h.closed _ hfound).elim (fun hwaits => ?_) fun hclosed => hclosed _ hb
      rw [hdone] at hwaits
      cases hwaits

end Searching

/-- A search with as many steps as there are things ends because nothing waits any more, and
what it found is what can be reached, each once. -/
theorem run_spec (key : α → String) (next : α → List α) (all : List α)
    (hkey : ∀ a ∈ all, ∀ b ∈ all, key a = key b → a = b)
    (hnext : ∀ a ∈ all, ∀ b, LeadsBy next a b → b ∈ all) {origin : α} (h : origin ∈ all)
    {steps : Nat} (hsteps : all.length ≤ steps) :
    ((start origin).run key next steps).waiting = [] ∧
      ((start origin).run key next steps).found.Nodup ∧
      ∀ a, a ∈ ((start origin).run key next steps).found ↔
        Relation.ReflTransGen (LeadsBy next) origin a := by
  have hstart : Searching next all origin (.start origin) := .start h
  obtain ⟨hsearch, hdone⟩ := hstart.run hkey hnext (Nat.add_le_add_right hsteps 1)
  exact ⟨hdone, hsearch.nodup, hsearch.complete hdone⟩

end Frontier

/-- Where things with one key are the same, each is kept once. -/
theorem firstOfEach_spec {α : Type} (key : α → String) {xs : List α}
    (hkey : ∀ a ∈ xs, ∀ b ∈ xs, key a = key b → a = b) :
    (firstOfEach key xs).Nodup ∧ ∀ a, a ∈ firstOfEach key xs ↔ a ∈ xs := by
  obtain ⟨fresh, hfold, hnodup, hiff⟩ := Frontier.foldl_take (q := ⟨[], []⟩) hkey (fun _ h => h)
    (by simp) List.nodup_nil
  rw [firstOfEach, hfold]
  exact ⟨hnodup, fun a => (hiff a).trans (or_iff_right List.not_mem_nil)⟩

end CodeAtlas
