import CodeAtlas.Parsing.Source
import Mathlib.Data.List.Basic

/-!
# CodeAtlas.Proofs.Parsing.Places

Lines and columns of the places in a text.

The places are those of a cursor that goes over the characters (`Source.ofString_eq`), and a cursor
never goes back; so a place that comes later has no earlier line and column
(`Source.startsBy_of_le`).
-/

namespace CodeAtlas.Parsing.Source

namespace Cursor

/-- The cursors after each of some characters. -/
def along (p : Cursor) : List Char → List Cursor
  | [] => []
  | c :: cs => p.step c :: along (p.step c) cs

/-- Whether a cursor has come no further than another one. -/
def StartsBy (p q : Cursor) : Prop := p.row < q.row ∨ (p.row = q.row ∧ p.column ≤ q.column)

theorem StartsBy.trans {p q r : Cursor} (h : p.StartsBy q) (h' : q.StartsBy r) : p.StartsBy r := by
  unfold StartsBy at *
  omega

theorem startsBy_step (p : Cursor) (c : Char) : p.StartsBy (p.step c) := by
  unfold StartsBy step
  split <;> simp

theorem startsBy_of_mem_along {p q : Cursor} {cs : List Char} (h : q ∈ p.along cs) :
    p.StartsBy q := by
  induction cs generalizing p with
  | nil => cases h
  | cons c cs ih =>
      rcases List.mem_cons.1 h with rfl | h
      · exact p.startsBy_step c
      · exact (p.startsBy_step c).trans (ih h)

theorem pairwise_along (p : Cursor) (cs : List Char) :
    (p :: p.along cs).Pairwise StartsBy := by
  induction cs generalizing p with
  | nil => exact List.pairwise_singleton _ _
  | cons c cs ih => exact List.pairwise_cons.2 ⟨fun q hq => startsBy_of_mem_along hq, ih _⟩

theorem length_along (p : Cursor) (cs : List Char) : (p.along cs).length = cs.length := by
  induction cs generalizing p with
  | nil => rfl
  | cons c cs ih => rw [along, List.length_cons, List.length_cons, ih]

end Cursor

/-- The place before the first character. -/
def origin : Cursor := ⟨0, 0, 0⟩

/-- The places of a text are those of a cursor that goes over it. -/
theorem ofString_eq (s : String) : ofString s =
    ⟨s.toList.toArray, ((origin :: origin.along s.toList).map Cursor.offset).toArray,
      ((origin :: origin.along s.toList).map Cursor.row).toArray,
      ((origin :: origin.along s.toList).map Cursor.column).toArray⟩ := by
  have hfold : ∀ (cs : List Char) (p : Cursor) (chars : Array Char)
      (offsets rows columns : Array Nat), ∃ last,
      cs.foldl (fun b a => (b.1.step a, b.2.1.push a, b.2.2.1.push (b.1.step a).offset,
        b.2.2.2.1.push (b.1.step a).row, b.2.2.2.2.push (b.1.step a).column))
        (p, chars, offsets, rows, columns) =
      (last, chars ++ cs.toArray, offsets ++ ((p.along cs).map Cursor.offset).toArray,
        rows ++ ((p.along cs).map Cursor.row).toArray,
        columns ++ ((p.along cs).map Cursor.column).toArray) := by
    intro cs
    induction cs with
    | nil => exact fun p _ _ _ _ => ⟨p, by simp [Cursor.along]⟩
    | cons c cs ih =>
        intro p chars offsets rows columns
        obtain ⟨last, hlast⟩ := ih (p.step c) (chars.push c) (offsets.push (p.step c).offset)
          (rows.push (p.step c).row) (columns.push (p.step c).column)
        exact ⟨last, by simp [Cursor.along, hlast]⟩
  obtain ⟨last, hlast⟩ := hfold s.toList ⟨0, 0, 0⟩ #[] #[0] #[0] #[0]
  simp [ofString, hlast, origin]

theorem size_ofString (s : String) : (ofString s).size = s.toList.length := by
  simp [ofString_eq, size]

/-- A place that comes later has no earlier line and column. -/
theorem startsBy_of_le {s : String} {i j : Nat} (h : i ≤ j) (hj : j ≤ (ofString s).size) :
    (ofString s).row i < (ofString s).row j ∨ (ofString s).row i = (ofString s).row j ∧
      (ofString s).column i ≤ (ofString s).column j := by
  have hlength := origin.length_along s.toList
  rw [size_ofString] at hj
  have hcursor : ∀ k ≤ s.toList.length, ∃ p, (origin :: origin.along s.toList)[k]? = some p ∧
      (ofString s).row k = p.row ∧ (ofString s).column k = p.column := by
    intro k hk
    have hin : k < (origin :: origin.along s.toList).length := by
      rw [List.length_cons, hlength]
      omega
    refine ⟨_, List.getElem?_eq_getElem hin, ?_, ?_⟩ <;>
      simp only [ofString_eq, row, column, Array.getD_eq_getD_getElem?, List.getElem?_toArray,
        List.getElem?_map, List.getElem?_eq_getElem hin, Option.map_some, Option.getD_some]
  obtain ⟨p, hp, hprow, hpcolumn⟩ := hcursor i (by omega)
  obtain ⟨q, hq, hqrow, hqcolumn⟩ := hcursor j hj
  rw [hprow, hpcolumn, hqrow, hqcolumn]
  rcases Nat.eq_or_lt_of_le h with rfl | hlt
  · rw [hp, Option.some.injEq] at hq
    exact .inr ⟨by rw [hq], Nat.le_of_eq (by rw [hq])⟩
  · obtain ⟨hi, rfl⟩ := List.getElem?_eq_some_iff.1 hp
    obtain ⟨hj', rfl⟩ := List.getElem?_eq_some_iff.1 hq
    exact List.pairwise_iff_getElem.1 (Cursor.pairwise_along origin s.toList) i j hi hj' hlt

end CodeAtlas.Parsing.Source
