import CodeAtlas.Store.Rows
import Mathlib.Data.List.Nodup

/-!
# CodeAtlas.Proofs.Store.Rows

Tables seen through their keys: what `get?` finds after a row was written or
dropped.

Keys are distinct, so a row is in a table exactly if it is what its key finds
(`mem_iff_get?`), and two tables that find the same rows have the same rows.  All
later statements about stores are made through `get?` and membership, never through
the order in which rows are kept.
-/

namespace CodeAtlas.Rows

variable {α : Type} {key : α → String}

instance : Membership α (Rows α key) := ⟨fun r a => a ∈ r.toList⟩

instance [DecidableEq α] (r : Rows α key) (a : α) : Decidable (a ∈ r) :=
  inferInstanceAs (Decidable (a ∈ r.toList))

theorem mem_toList {r : Rows α key} {a : α} : a ∈ r.toList ↔ a ∈ r := Iff.rfl

/-! ## Finding a row -/

/-- A key finds the one row that has it. -/
theorem get?_eq_some_iff {r : Rows α key} {k : String} {a : α} :
    r.get? k = some a ↔ a ∈ r ∧ key a = k := by
  constructor
  · intro h
    have hk : (key a == k) = true := List.find?_some (p := (key · == k)) h
    exact ⟨List.mem_of_find?_eq_some h, beq_iff_eq.1 hk⟩
  · rintro ⟨ha, rfl⟩
    cases hf : r.get? (key a) with
    | none =>
        have hne := List.find?_eq_none.1 hf a ha
        rw [beq_self_eq_true] at hne
        contradiction
    | some b =>
        have hb : b ∈ r.toList := List.mem_of_find?_eq_some hf
        have hk : (key b == key a) = true := List.find?_some (p := (key · == key a)) hf
        rw [List.inj_on_of_nodup_map r.nodup hb ha (beq_iff_eq.1 hk)]

theorem key_of_get? {r : Rows α key} {k : String} {a : α} (h : r.get? k = some a) : key a = k :=
  (get?_eq_some_iff.1 h).2

theorem mem_of_get? {r : Rows α key} {k : String} {a : α} (h : r.get? k = some a) : a ∈ r :=
  (get?_eq_some_iff.1 h).1

theorem mem_iff_get? {r : Rows α key} {a : α} : a ∈ r ↔ r.get? (key a) = some a := by
  rw [get?_eq_some_iff]
  exact ⟨fun h => ⟨h, rfl⟩, fun h => h.1⟩

/-- Two rows of one key are the same row. -/
theorem eq_of_key_eq {r : Rows α key} {a b : α} (ha : a ∈ r) (hb : b ∈ r) (h : key a = key b) :
    a = b := by
  have hab : some a = some b := by rw [← mem_iff_get?.1 ha, ← mem_iff_get?.1 hb, h]
  exact Option.some.inj hab

theorem contains_eq_isSome (r : Rows α key) (k : String) : r.contains k = (r.get? k).isSome := by
  rw [contains, get?, List.isSome_find?]

/-- A key is in use exactly if a row has it. -/
theorem contains_iff {r : Rows α key} {k : String} : r.contains k = true ↔ ∃ a ∈ r, key a = k := by
  rw [contains_eq_isSome, Option.isSome_iff_exists]
  exact exists_congr fun a => get?_eq_some_iff

@[simp] theorem get?_empty (k : String) : (∅ : Rows α key).get? k = none := rfl

theorem not_mem_empty (a : α) : a ∉ (∅ : Rows α key) := List.not_mem_nil

/-! ## Writing and dropping rows -/

theorem mem_put {r : Rows α key} {a b : α} : b ∈ r.put a ↔ b = a ∨ (b ∈ r ∧ key b ≠ key a) := by
  rw [← mem_toList, put]
  split
  · next h =>
    obtain ⟨c, hc, hk⟩ := contains_iff.1 h
    simp only [replace, List.mem_map]
    constructor
    · rintro ⟨x, hx, rfl⟩
      by_cases hxa : key x = key a
      · exact Or.inl (if_pos hxa)
      · rw [if_neg hxa]
        exact Or.inr ⟨hx, hxa⟩
    · rintro (rfl | ⟨hb, hne⟩)
      · exact ⟨c, hc, if_pos hk⟩
      · exact ⟨b, hb, if_neg hne⟩
  · next h =>
    have hnew : ∀ x ∈ r, key x ≠ key a := fun x hx hk => h (contains_iff.2 ⟨x, hx, hk⟩)
    rw [List.mem_append, List.mem_singleton]
    constructor
    · rintro (hb | rfl)
      · exact Or.inr ⟨hb, hnew b hb⟩
      · exact Or.inl rfl
    · rintro (rfl | ⟨hb, -⟩)
      · exact Or.inr rfl
      · exact Or.inl hb

/-- A row with a new key is added at the end. -/
theorem toList_put_of_fresh {r : Rows α key} {a : α} (h : ∀ b ∈ r, key b ≠ key a) :
    (r.put a).toList = r.toList ++ [a] := by
  rw [put, dif_neg]
  rw [contains_iff]
  exact fun ⟨b, hb, hk⟩ => h b hb hk

/-- After a row is written its key finds it, and other keys find what they found. -/
theorem get?_put (r : Rows α key) (a : α) (k : String) :
    (r.put a).get? k = if key a = k then some a else r.get? k := by
  split
  · next h => exact get?_eq_some_iff.2 ⟨mem_put.2 (Or.inl rfl), h⟩
  · next h =>
    apply Option.ext
    intro b
    rw [get?_eq_some_iff, get?_eq_some_iff, mem_put]
    constructor
    · rintro ⟨rfl | ⟨hb, -⟩, hk⟩
      · exact absurd hk h
      · exact ⟨hb, hk⟩
    · rintro ⟨hb, rfl⟩
      exact ⟨Or.inr ⟨hb, fun hk => h hk.symm⟩, rfl⟩

theorem mem_filter {r : Rows α key} {p : α → Bool} {a : α} :
    a ∈ r.filter p ↔ a ∈ r ∧ p a = true := List.mem_filter

/-- After a key is dropped it finds nothing, and other keys find what they found. -/
theorem get?_erase (r : Rows α key) (j k : String) :
    (r.erase j).get? k = if k = j then none else r.get? k := by
  apply Option.ext
  intro b
  rw [get?_eq_some_iff, erase, mem_filter, bne_iff_ne]
  split
  · next h =>
    subst h
    constructor
    · rintro ⟨⟨-, hne⟩, hk⟩
      exact absurd hk hne
    · intro h
      contradiction
  · next h =>
    rw [get?_eq_some_iff]
    constructor
    · rintro ⟨⟨hb, -⟩, hk⟩
      exact ⟨hb, hk⟩
    · rintro ⟨hb, hk⟩
      exact ⟨⟨hb, fun hj => h (hk.symm.trans hj)⟩, hk⟩

/-- What a key finds after several rows were written is one of them, or what it found. -/
theorem get?_putAll {r : Rows α key} {xs : List α} {k : String} {a : α}
    (h : (r.putAll xs).get? k = some a) : a ∈ xs ∨ r.get? k = some a := by
  induction xs generalizing r with
  | nil => exact .inr h
  | cons x xs ih =>
      rcases ih h with hmem | hput
      · exact .inl (List.mem_cons_of_mem x hmem)
      · rw [get?_put] at hput
        split at hput
        · cases hput
          exact .inl List.mem_cons_self
        · exact .inr hput

/-- The key of a row that was written finds a row. -/
theorem isSome_get?_putAll {r : Rows α key} {xs : List α} {k : String}
    (h : (∃ a ∈ xs, key a = k) ∨ (r.get? k).isSome) : ((r.putAll xs).get? k).isSome := by
  induction xs generalizing r with
  | nil => exact h.resolve_left fun ⟨_, hmem, _⟩ => List.not_mem_nil hmem
  | cons x xs ih =>
      refine ih ?_
      rw [get?_put]
      rcases h with ⟨a, hmem, hk⟩ | hold
      · rcases List.mem_cons.1 hmem with rfl | hmem
        · rw [if_pos hk]
          exact .inr rfl
        · exact .inl ⟨a, hmem, hk⟩
      · split
        · exact .inr rfl
        · exact .inr hold

end CodeAtlas.Rows

namespace CodeAtlas.Dict

variable {α : Type} (d : Dict α)

theorem value?_insert (j k : String) (a : α) :
    (d.insert j a).value? k = if j = k then some a else d.value? k := by
  rw [value?, insert, Rows.get?_put]
  split <;> rfl

theorem value?_erase (j k : String) :
    Dict.value? (d.erase j) k = if k = j then none else d.value? k := by
  rw [value?, Rows.get?_erase]
  split <;> rfl

theorem mem_keys {k : String} : k ∈ d.keys ↔ (d.value? k).isSome := by
  rw [keys, List.mem_mergeSort, List.mem_map, value?, Option.isSome_map, Option.isSome_iff_exists]
  exact exists_congr fun a => Rows.get?_eq_some_iff.symm

end CodeAtlas.Dict
