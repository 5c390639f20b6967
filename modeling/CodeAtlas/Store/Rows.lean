/-!
# CodeAtlas.Store.Rows

Tables with one row per key.

1. writing a row replaces the row with its key, in its place, or adds the row at
   the end;
2. what was added and then erased leaves no trace.
-/

namespace CodeAtlas

/-- Rows with distinct keys, in the order in which the keys were first written. -/
structure Rows (α : Type) (key : α → String) where
  toList : List α
  nodup : (toList.map key).Nodup

namespace Rows

variable {α : Type} {key : α → String}

def empty : Rows α key := ⟨[], by simp⟩

instance : Inhabited (Rows α key) := ⟨empty⟩

instance : EmptyCollection (Rows α key) := ⟨empty⟩

def size (r : Rows α key) : Nat := r.toList.length

/-- The row with a key. -/
def get? (r : Rows α key) (k : String) : Option α := r.toList.find? (key · == k)

def contains (r : Rows α key) (k : String) : Bool := r.toList.any (key · == k)

/-- A list with `a` in the place of the row with its key. -/
def replace (key : α → String) (a : α) (xs : List α) : List α :=
  xs.map fun x => if key x = key a then a else x

theorem map_key_replace (a : α) (xs : List α) : (replace key a xs).map key = xs.map key := by
  simp only [replace, List.map_map]
  apply List.map_congr_left
  intro x _
  by_cases h : key x = key a <;> simp [h]

/-- Writes a row. -/
def put (r : Rows α key) (a : α) : Rows α key :=
  if h : r.contains (key a) then
    ⟨replace key a r.toList, by rw [map_key_replace]; exact r.nodup⟩
  else
    ⟨r.toList ++ [a], by
      simp only [contains, List.any_eq_true, beq_iff_eq, not_exists, not_and] at h
      simp only [List.map_append, List.map_cons, List.map_nil]
      refine List.nodup_append.2 ⟨r.nodup, by simp, ?_⟩
      intro x hx y hy
      obtain ⟨b, hb, rfl⟩ := List.mem_map.1 hx
      simp only [List.mem_singleton] at hy
      exact hy ▸ h b hb⟩

/-- Keeps the rows with a property. -/
def filter (r : Rows α key) (p : α → Bool) : Rows α key :=
  ⟨r.toList.filter p, (r.nodup.sublist (List.filter_sublist.map key))⟩

/-- Drops the row with a key. -/
def erase (r : Rows α key) (k : String) : Rows α key := r.filter (key · != k)

/-- Writes rows one after the other. -/
def putAll (r : Rows α key) (xs : List α) : Rows α key := xs.foldl put r

end Rows

/-- Values by text. -/
abbrev Dict (α : Type) := Rows (String × α) Prod.fst

namespace Dict

variable {α : Type}

def value? (d : Dict α) (k : String) : Option α := (d.get? k).map Prod.snd

def insert (d : Dict α) (k : String) (a : α) : Dict α := d.put (k, a)

/-- The keys in ascending order. -/
def keys (d : Dict α) : List String := (d.toList.map Prod.fst).mergeSort (· ≤ ·)

end Dict

end CodeAtlas
