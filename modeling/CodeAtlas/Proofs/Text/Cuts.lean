import CodeAtlas.Text.Segments
import Mathlib.Data.List.Infix

/-!
# CodeAtlas.Proofs.Text.Cuts

Where a text is cut at a separator that may overlap with itself, as `::` does in `:::`.

The first separator of a text is the one that no other one starts before
(`cutChars_append_iff`), the last one the one that no other one ends behind
(`cutLastChars_append_iff`).  The segments of a text are those in which, read from the left, no
separator starts but where it is cut (`Segmented`, `splitChars_eq_iff`).  Read from the right, a
text may have other segments: from `a:::b` the left cuts off `a`, the right `b`.
-/

namespace CodeAtlas.Text

variable {separator : List Char}

/-! ## From the left -/

theorem after?_eq_some_iff {start s rest : List Char} :
    after? start s = some rest ↔ s = start ++ rest := by
  induction start generalizing s with
  | nil => simp [after?, eq_comm]
  | cons c start ih =>
      cases s with
      | nil => simp [after?]
      | cons d s =>
          rw [after?]
          split
          · next heq => simp [heq, ih]
          · next hne => simp [eq_comm, hne]

theorem strip?_eq_some_iff {start s rest : String} :
    strip? start s = some rest ↔ s = start ++ rest := by
  simp only [strip?, Option.map_eq_some_iff, after?_eq_some_iff]
  constructor
  · rintro ⟨cs, h, rfl⟩
    exact String.toList_inj.1 (by simp [h])
  · rintro rfl
    exact ⟨rest.toList, String.toList_append, String.ofList_toList⟩

theorem after?_eq_none_iff {start s : List Char} : after? start s = none ↔ ¬ start <+: s := by
  rw [← not_iff_not, not_not, ← ne_eq, Option.ne_none_iff_exists']
  constructor
  · rintro ⟨rest, h⟩
    exact ⟨rest, (after?_eq_some_iff.1 h).symm⟩
  · rintro ⟨rest, h⟩
    exact ⟨rest, after?_eq_some_iff.2 h.symm⟩

/-- Nothing is lost by a cut. -/
theorem cutChars_eq_some {separator s before rest : List Char}
    (h : cutChars separator s = some (before, rest)) : s = before ++ (separator ++ rest) := by
  induction s generalizing before with
  | nil =>
      rw [cutChars] at h
      split at h
      · next hempty =>
        cases h
        simp [List.isEmpty_iff.1 hempty]
      · cases h
  | cons c s ih =>
      rw [cutChars] at h
      split at h
      · next hafter =>
        cases h
        rw [List.nil_append]
        exact after?_eq_some_iff.1 hafter
      · obtain ⟨⟨front, back⟩, hcut, heq⟩ := Option.map_eq_some_iff.1 h
        cases heq
        rw [ih hcut, List.cons_append]

theorem cutChars_eq_none_iff (hne : separator ≠ []) {s : List Char} :
    cutChars separator s = none ↔ ¬ separator <:+: s := by
  induction s with
  | nil => simp [cutChars, hne]
  | cons c s ih =>
      rw [cutChars, List.infix_cons_iff, not_or]
      cases hafter : after? separator (c :: s) with
      | none =>
          rw [Option.map_eq_none_iff, ih]
          simp [after?_eq_none_iff.1 hafter]
      | some rest =>
          have hstarts : separator <+: c :: s := ⟨rest, (after?_eq_some_iff.1 hafter).symm⟩
          simp [hstarts]

theorem occurs_eq_false_iff {part s : String} (hne : part ≠ "") :
    occurs part s = false ↔ ¬ part.toList <:+: s.toList := by
  rw [occurs, Option.isSome_eq_false_iff, Option.isNone_iff_eq_none,
    cutChars_eq_none_iff (by simpa using hne)]

/-- A text is cut at a separator if no other one starts before it. -/
theorem cutChars_append_iff (hne : separator ≠ []) {before rest : List Char} :
    cutChars separator (before ++ (separator ++ rest)) = some (before, rest) ↔
      ¬ separator <:+: before ++ separator.dropLast := by
  have hlength : separator.dropLast.length + 1 = separator.length := by
    have hpos := List.length_pos_iff.2 hne
    rw [List.length_dropLast]
    omega
  induction before with
  | nil =>
      have hcut : cutChars separator (separator ++ rest) = some ([], rest) := by
        cases separator with
        | nil => exact absurd rfl hne
        | cons c cs => rw [List.cons_append, cutChars, ← List.cons_append, after?_eq_some_iff.2 rfl]
      simp only [List.nil_append, hcut, true_iff]
      intro h
      have hle := h.length_le
      omega
  | cons b before ih =>
      -- what a separator that starts here would lie in
      have hshort : b :: (before ++ separator.dropLast) <+:
          b :: (before ++ (separator ++ rest)) := by
        refine List.cons_prefix_cons.2 ⟨rfl, List.prefix_append_right_inj before |>.2 ?_⟩
        exact (List.dropLast_prefix separator).trans (List.prefix_append separator rest)
      rw [List.cons_append, List.cons_append, cutChars, List.infix_cons_iff, not_or]
      cases hafter : after? separator (b :: (before ++ (separator ++ rest))) with
      | none =>
          have hno := after?_eq_none_iff.1 hafter
          have hnot : ¬ separator <+: b :: (before ++ separator.dropLast) := fun h =>
            hno (h.trans hshort)
          simp [hnot, ← ih, Prod.ext_iff]
      | some after =>
          have hstarts : separator <+: b :: (before ++ separator.dropLast) := by
            refine List.prefix_of_prefix_length_le ⟨after, (after?_eq_some_iff.1 hafter).symm⟩
              hshort ?_
            simp only [List.length_cons, List.length_append]
            omega
          simp [hstarts]

/-! ## From the right -/

theorem stripEnd?_eq_some_iff {stop s rest : String} :
    stripEnd? stop s = some rest ↔ s = rest ++ stop := by
  simp only [stripEnd?, Option.map_eq_some_iff, after?_eq_some_iff]
  constructor
  · rintro ⟨cs, h, rfl⟩
    have hs := congrArg List.reverse h
    exact String.toList_inj.1 (by simpa using hs)
  · rintro rfl
    exact ⟨rest.toList.reverse, by simp, by simp⟩

theorem cutLastChars_eq_none_iff (hne : separator ≠ []) {s : List Char} :
    cutLastChars separator s = none ↔ ¬ separator <:+: s := by
  rw [cutLastChars, Option.map_eq_none_iff,
    cutChars_eq_none_iff (List.reverse_ne_nil_iff.2 hne), List.reverse_infix]

/-- A text is cut at a separator from the right if no other one ends behind it. -/
theorem cutLastChars_append_iff (hne : separator ≠ []) {front last : List Char} :
    cutLastChars separator (front ++ (separator ++ last)) = some (front, last) ↔
      ¬ separator <:+: separator.tail ++ last := by
  have hreverse : (front ++ (separator ++ last)).reverse =
      last.reverse ++ (separator.reverse ++ front.reverse) := by simp
  have hcut := @cutChars_append_iff separator.reverse (List.reverse_ne_nil_iff.2 hne) last.reverse
    front.reverse
  rw [← List.reverse_infix, List.reverse_append, ← List.dropLast_reverse,
    ← hcut, cutLastChars, hreverse]
  cases cutChars separator.reverse (last.reverse ++ (separator.reverse ++ front.reverse)) with
  | none => simp
  | some cut =>
      obtain ⟨back, front'⟩ := cut
      simp [List.reverse_eq_iff, and_comm]

theorem cutLast?_eq_none_iff {separator s : String} (hne : separator ≠ "") :
    cutLast? separator s = none ↔ ¬ separator.toList <:+: s.toList := by
  rw [cutLast?, Option.map_eq_none_iff, cutLastChars_eq_none_iff (by simpa using hne)]

theorem cutLast?_append_of_not_infix {separator front last : String} (hne : separator ≠ "")
    (h : ¬ separator.toList <:+: separator.toList.tail ++ last.toList) :
    cutLast? separator (front ++ separator ++ last) = some (front, last) := by
  have hcut : cutLastChars separator.toList (front.toList ++ (separator.toList ++ last.toList)) =
      some (front.toList, last.toList) := (cutLastChars_append_iff (by simpa using hne)).2 h
  rw [cutLast?, String.toList_append, String.toList_append, List.append_assoc, hcut]
  simp

theorem parentOf_of_not_infix {separator s : String} (hne : separator ≠ "")
    (h : ¬ separator.toList <:+: s.toList) : parentOf separator s = "" := by
  rw [parentOf, (cutLast?_eq_none_iff hne).2 h]

/-- The last segment is cut off if no separator ends in it. -/
theorem parentOf_append_of_not_infix {separator front last : String} (hne : separator ≠ "")
    (h : ¬ separator.toList <:+: separator.toList.tail ++ last.toList) :
    parentOf separator (front ++ separator ++ last) = front := by
  rw [parentOf, cutLast?_append_of_not_infix hne h]

/-! ## Segments -/

/-- Whether no separator starts in some segments that separators are put between, but those that
are put there. -/
def Segmented (separator : List Char) : List (List Char) → Prop
  | [] => False
  | [last] => ¬ separator <:+: last
  | s :: t :: segments =>
    ¬ separator <:+: s ++ separator.dropLast ∧ Segmented separator (t :: segments)

theorem Segmented.not_infix_of_mem {segments : List (List Char)} (h : Segmented separator segments)
    {s : List Char} (hs : s ∈ segments) : ¬ separator <:+: s := by
  induction segments with
  | nil => cases hs
  | cons first segments ih =>
      cases segments with
      | nil =>
          rw [List.mem_singleton.1 hs]
          exact h
      | cons next segments =>
          rcases List.mem_cons.1 hs with rfl | hmem
          · exact fun hinside => h.1 (hinside.trans (List.prefix_append _ _).isInfix)
          · exact ih h.2 hmem

theorem segmented_append_cons_iff {front segments : List (List Char)} {s : List Char} :
    Segmented separator (front ++ s :: segments) ↔
      (∀ t ∈ front, ¬ separator <:+: t ++ separator.dropLast) ∧
        Segmented separator (s :: segments) := by
  induction front with
  | nil => simp
  | cons t front ih =>
      have hcons : Segmented separator (t :: (front ++ s :: segments)) ↔
          ¬ separator <:+: t ++ separator.dropLast ∧
            Segmented separator (front ++ s :: segments) := by
        cases front <;> exact Iff.rfl
      rw [List.cons_append, hcons, ih, List.forall_mem_cons, and_assoc]

theorem segmented_of_forall {segments : List (List Char)} (hne : segments ≠ [])
    (h : ∀ s ∈ segments, ¬ separator <:+: s ++ separator.dropLast) :
    Segmented separator segments := by
  rcases List.eq_nil_or_concat segments with rfl | ⟨front, last, rfl⟩
  · exact absurd rfl hne
  · rw [List.concat_eq_append] at h ⊢
    refine segmented_append_cons_iff.2 ⟨fun t ht => h t (by simp [ht]), fun hinside => ?_⟩
    exact h last (by simp) (hinside.trans (List.prefix_append _ _).isInfix)

/-- A text tells its segments. -/
theorem Segmented.unique (hne : separator ≠ []) {xs ys : List (List Char)}
    (hx : Segmented separator xs) (hy : Segmented separator ys)
    (h : separator.intercalate xs = separator.intercalate ys) : xs = ys := by
  -- a text with a separator in it is not a single segment
  have hsingle : ∀ {x y y' : List Char} {ys : List (List Char)}, ¬ separator <:+: x →
      x ≠ separator.intercalate (y :: y' :: ys) := by
    rintro x y y' ys hx rfl
    refine hx ⟨y, separator.intercalate (y' :: ys), ?_⟩
    simp
  induction xs generalizing ys with
  | nil => exact hx.elim
  | cons x xs ih =>
      match xs, ys with
      | _, [] => exact hy.elim
      | [], [y] => simpa using h
      | [], y :: y' :: ys =>
          rw [List.intercalate_singleton] at h
          exact absurd h (hsingle hx)
      | x' :: xs, [y] =>
          rw [List.intercalate_singleton] at h
          exact absurd h.symm (hsingle hy)
      | x' :: xs, y :: y' :: ys =>
          rw [List.intercalate_cons_cons, List.intercalate_cons_cons, List.append_assoc,
            List.append_assoc] at h
          have hcut : cutChars separator (x ++ (separator ++ separator.intercalate (x' :: xs))) =
              some (x, separator.intercalate (x' :: xs)) := (cutChars_append_iff hne).2 hx.1
          rw [h, (cutChars_append_iff hne).2 hy.1, Option.some.injEq, Prod.mk.injEq] at hcut
          rw [← hcut.1, ih hx.2 hy.2 hcut.2.symm]

theorem splitCharsFuel_segmented (hne : separator ≠ []) {fuel : Nat} {s : List Char}
    (hfuel : s.length ≤ fuel) : Segmented separator (splitCharsFuel separator fuel s) ∧
      s = separator.intercalate (splitCharsFuel separator fuel s) := by
  induction fuel generalizing s with
  | zero =>
      rw [List.length_eq_zero_iff.1 (Nat.le_zero.1 hfuel)]
      simp [splitCharsFuel, Segmented, hne]
  | succ fuel ih =>
      rw [splitCharsFuel]
      cases hcut : cutChars separator s with
      | none => simpa [Segmented] using (cutChars_eq_none_iff hne).1 hcut
      | some cut =>
          obtain ⟨before, rest⟩ := cut
          have hs := cutChars_eq_some hcut
          have hpos := List.length_pos_iff.2 hne
          have hlength := congrArg List.length hs
          simp only [List.length_append] at hlength
          obtain ⟨hsegmented, hrest⟩ := ih (s := rest) (by omega)
          rw [hs, cutChars_append_iff hne] at hcut
          simp only []
          cases hsegments : splitCharsFuel separator fuel rest with
          | nil =>
              rw [hsegments] at hsegmented
              exact hsegmented.elim
          | cons t segments =>
              rw [hsegments] at hsegmented hrest
              refine ⟨⟨hcut, hsegmented⟩, ?_⟩
              rw [List.intercalate_cons_cons, List.append_assoc, ← hrest]
              exact hs

/-- The segments of a text are told by the separators that start in it. -/
theorem splitChars_eq_iff (hne : separator ≠ []) {s : List Char} {segments : List (List Char)} :
    splitChars separator s = segments ↔
      Segmented separator segments ∧ s = separator.intercalate segments := by
  have hsplit := splitCharsFuel_segmented hne (Nat.le_refl s.length)
  constructor
  · rintro rfl
    exact hsplit
  · rintro ⟨hsegmented, hs⟩
    exact hsplit.1.unique hne hsegmented (hsplit.2.symm.trans hs)

theorem split_eq_iff {separator s : String} (hne : separator ≠ "") {segments : List String} :
    split separator s = segments ↔
      Segmented separator.toList (segments.map String.toList) ∧
        s = separator.intercalate segments := by
  have hchars : separator.toList ≠ [] := by simpa using hne
  have hmap : split separator s = segments ↔
      splitChars separator.toList s.toList = segments.map String.toList := by
    rw [split]
    constructor
    · rintro rfl
      simp
    · intro h
      rw [h]
      simp
  rw [hmap, splitChars_eq_iff hchars, ← String.toList_intercalate, String.toList_inj]

end CodeAtlas.Text
