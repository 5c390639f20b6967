import CodeAtlas.Indexing.Indexer
import CodeAtlas.Proofs.Files.Steps

/-!
# CodeAtlas.Proofs.Indexing.Paths

Paths that are given to a source tree, and the paths below its root that are made of them.

A path below the root keeps the names of the steps and leaves out the rest, so it tells the place
that the path leads to unless a `..` takes a name back, or the path finds another way to the root
than the one that the root is written with (`Indexer.relativePath_denotes`).
-/

namespace CodeAtlas

namespace Indexer

variable {i : Indexer} {here : List String} {path relative : String}
  {steps : List FilePath.Component}

open FilePath

/-- Where the root is, seen from a working directory. -/
def place (i : Indexer) (here : List String) : List String := placeOf here i.root

/-- Whether a path, read from the root, leads to the place of that name below the root. -/
def Denotes (i : Indexer) (here : List String) (path relative : String) : Prop :=
  ∃ ns, ns ≠ [] ∧ placeOf (i.place here) path = i.place here ++ ns ∧ relative = "/".intercalate ns

/-- The steps from the root that a path is written with; none for an absolute path that is not
written as the root is. -/
def stepsOf? (i : Indexer) (path : String) : Option (List Component) :=
  if isAbsolute path then stepsBelow (components i.root) (components path)
  else some (components path)

/-- Whether the names of a path do not tell where it leads: on the way one of them is taken back,
or it comes below the root by another way than through the root as it is written. -/
def Misread (i : Indexer) (here : List String) (path : String) : Prop :=
  (∃ steps, i.stepsOf? path = some steps ∧ names steps ≠ [] ∧ TurnsBack (i.place here) steps) ∨
    i.stepsOf? path = none ∧ ∃ relative, i.Denotes here path relative

/-! ## Steps below the root -/

theorem stepsBelow_eq_some_iff {root : List Component} {below : List Component} :
    stepsBelow root steps = some below ↔ steps = root ++ below := by
  induction root generalizing steps with
  | nil => simp [stepsBelow]
  | cons r root ih =>
      cases steps with
      | nil => simp [stepsBelow]
      | cons s steps =>
          rw [stepsBelow]
          split
          · next heq => rw [heq, ih, List.cons_append, List.cons.injEq, eq_self, true_and]
          · next hne => simp [eq_comm, hne]

theorem relativePath?_eq_some_iff : i.relativePath? path = some relative ↔
    ∃ steps, i.stepsOf? path = some steps ∧ names steps ≠ [] ∧
      relative = "/".intercalate (names steps) := by
  cases hsteps : i.stepsOf? path with
  | none =>
      have hbelow := hsteps
      rw [stepsOf?] at hbelow
      simp [relativePath?, hbelow]
  | some steps =>
      have hread : i.relativePath? path = some relative ↔
          names steps ≠ [] ∧ relative = "/".intercalate (names steps) := by
        have hbelow := hsteps
        rw [stepsOf?] at hbelow
        rw [relativePath?]
        simp only [hbelow, Option.getD_some]
        split
        · next hnil =>
          exact iff_of_false (Option.some_ne_none relative).symm fun h => h.1 hnil
        · next hcons =>
          rw [Option.some.injEq, eq_comm]
          exact (and_iff_right hcons).symm
      rw [hread]
      simp

/-- The steps from the root lead where the path leads. -/
theorem placeOf_eq_follow (h : i.stepsOf? path = some steps) :
    placeOf (i.place here) path = follow (i.place here) steps := by
  rw [stepsOf?] at h
  split at h
  · next habsolute =>
    rw [stepsBelow_eq_some_iff] at h
    rw [placeOf, h, follow_append]
    congr 1
    rw [components_of_isAbsolute habsolute] at h
    cases hroot : components i.root with
    | nil => rfl
    | cons r root =>
        rw [hroot, List.cons_append] at h
        obtain rfl := (List.cons.inj h).1
        rw [place, placeOf, hroot]
        rfl
  · rw [placeOf, Option.some.inj h]

theorem names_ne_nil_of_denotes (hsteps : i.stepsOf? path = some steps)
    (h : i.Denotes here path relative) : names steps ≠ [] := by
  obtain ⟨ns, hne, hplace, -⟩ := h
  have hle := length_follow_le (i.place here) steps
  have hpos := List.length_pos_iff.2 hne
  rw [← placeOf_eq_follow hsteps, hplace, List.length_append] at hle
  exact List.length_pos_iff.1 (by omega)

theorem denotes_iff_of_not_turnsBack (hsteps : i.stepsOf? path = some steps)
    (hnames : names steps ≠ []) (h : ¬ TurnsBack (i.place here) steps) :
    i.Denotes here path relative ↔ relative = "/".intercalate (names steps) := by
  have hplace : placeOf (i.place here) path = i.place here ++ names steps := by
    rw [placeOf_eq_follow hsteps, follow_of_not_turnsBack h]
  constructor
  · rintro ⟨ns, -, hns, rfl⟩
    rw [hplace, List.append_cancel_left_eq] at hns
    rw [hns]
  · rintro rfl
    exact ⟨names steps, hnames, hplace, rfl⟩

/-- Where a name is taken back, the names of the path tell another place. -/
theorem not_denotes_of_turnsBack (hsteps : i.stepsOf? path = some steps)
    (h : TurnsBack (i.place here) steps) :
    ¬ i.Denotes here path ("/".intercalate (names steps)) := by
  rintro ⟨ns, hne, hplace, heq⟩
  rw [placeOf_eq_follow hsteps] at hplace
  obtain ⟨hsublist, hlt⟩ := sublist_of_turnsBack h hplace
  exact intercalate_ne_of_sublist hne hsublist hlt heq.symm

theorem denotes_iff_not_misread : (∀ relative, i.relativePath? path = some relative ↔
    i.Denotes here path relative) ↔ ¬ i.Misread here path := by
  constructor
  · rintro hread (⟨steps, hsteps, hnames, hback⟩ | ⟨hnone, relative, hdenotes⟩)
    · exact not_denotes_of_turnsBack hsteps hback
        ((hread _).1 (relativePath?_eq_some_iff.2 ⟨steps, hsteps, hnames, rfl⟩))
    · obtain ⟨steps, hsteps, -⟩ := relativePath?_eq_some_iff.1 ((hread relative).2 hdenotes)
      rw [hnone] at hsteps
      cases hsteps
  · intro hplain relative
    rw [relativePath?_eq_some_iff]
    constructor
    · rintro ⟨steps, hsteps, hnames, rfl⟩
      have hforth : ¬ TurnsBack (i.place here) steps := fun hback =>
        hplain (.inl ⟨steps, hsteps, hnames, hback⟩)
      exact (denotes_iff_of_not_turnsBack hsteps hnames hforth).2 rfl
    · intro hdenotes
      cases hsteps : i.stepsOf? path with
      | none => exact (hplain (.inr ⟨hsteps, relative, hdenotes⟩)).elim
      | some steps =>
          have hnames := names_ne_nil_of_denotes hsteps hdenotes
          have hforth : ¬ TurnsBack (i.place here) steps := fun hback =>
            hplain (.inl ⟨steps, hsteps, hnames, hback⟩)
          exact ⟨steps, rfl, hnames,
            (denotes_iff_of_not_turnsBack hsteps hnames hforth).1 hdenotes⟩

/-! ## Paths without `..` -/

/-- What is read from any path is the path of a place below the root. -/
theorem denotes_of_relativePath? (h : i.relativePath? path = some relative) :
    i.Denotes here relative relative := by
  obtain ⟨steps, hsteps, hnames, rfl⟩ := relativePath?_eq_some_iff.1 h
  have hplain : ∀ n ∈ names steps, Plain n := by
    intro n hn
    rw [stepsOf?] at hsteps
    split at hsteps
    · rw [stepsBelow_eq_some_iff] at hsteps
      have hmem : n ∈ names (components path) := by
        rw [hsteps, names, List.filterMap_append]
        exact List.mem_append_right _ hn
      exact plain_of_mem_names hmem
    · rw [← Option.some.inj hsteps] at hn
      exact plain_of_mem_names hn
  refine ⟨names steps, hnames, ?_, rfl⟩
  rw [placeOf, components_intercalate hnames hplain,
    follow_of_not_turnsBack (not_turnsBack_map_name _ _), names_map_name]

/-- A path without `..`, absolute only if the root is, is read as the place it leads to. -/
theorem not_misread (hpath : .parent ∉ components path) (hroot : .parent ∉ components i.root)
    (habsolute : isAbsolute path = true → isAbsolute i.root = true) : ¬ i.Misread here path := by
  by_cases hform : isAbsolute path = true
  · obtain ⟨below, hbelow⟩ := exists_components_eq hform hpath
    obtain ⟨top, htop⟩ := exists_components_eq (habsolute hform) hroot
    rintro (⟨steps, hsteps, -, hback⟩ | ⟨hnone, relative, ns, -, hplace, -⟩)
    · rw [stepsOf?, if_pos hform, stepsBelow_eq_some_iff, hbelow, htop, List.cons_append,
        List.cons.injEq] at hsteps
      have hnames : ∀ step ∈ steps, step ∈ below.map Component.name := by
        intro step hstep
        rw [hsteps.2]
        exact List.mem_append_right _ hstep
      rcases mem_of_turnsBack hback with hmem | hmem
      · simpa using hnames .root hmem
      · simpa using hnames .parent hmem
    · -- names alone lead below the root only through it
      have hplaces : below = top ++ ns := by
        rw [place, placeOf, placeOf, hbelow, htop] at hplace
        simpa [follow, follow_of_not_turnsBack, not_turnsBack_map_name] using hplace
      have hsteps : stepsBelow (components i.root) (components path) =
          some (ns.map Component.name) := by
        rw [stepsBelow_eq_some_iff, hbelow, htop, hplaces, List.map_append, List.cons_append]
      rw [stepsOf?, if_pos hform, hsteps] at hnone
      cases hnone
  · rintro (⟨steps, hsteps, -, hback⟩ | ⟨hnone, -⟩)
    · rw [stepsOf?, if_neg hform, Option.some.injEq] at hsteps
      subst hsteps
      exact (mem_of_turnsBack hback).elim (root_notMem_components hform) hpath
    · rw [stepsOf?, if_neg hform] at hnone
      cases hnone

/-- A path is read as the path below the root of the place that it leads to, and not at all if it
leads elsewhere, unless it is misread, which takes a `..` in it or in the root, or a root that is
not absolute.  Whatever is read from a path is the path of a place below the root. -/
theorem relativePath_denotes (i : Indexer) (here : List String) (path : String) :
    ((∀ relative, i.relativePath? path = some relative ↔ i.Denotes here path relative) ↔
      ¬ i.Misread here path) ∧
    (∀ relative, i.relativePath? path = some relative → i.Denotes here relative relative) ∧
    (.parent ∉ components path → .parent ∉ components i.root →
      (isAbsolute path = true → isAbsolute i.root = true) → ¬ i.Misread here path) :=
  ⟨denotes_iff_not_misread, fun _ => denotes_of_relativePath?, not_misread⟩

/-- An indexer for the tree below `/r`. -/
def oneRoot : Indexer := ⟨.build (), "/r", "/r", [.python], .of [] [], 0⟩

theorem relativePath_denotes_besideRoot :
    (oneRoot.relativePath? "../x.py" = some "x.py" ∧ oneRoot.Misread [] "../x.py" ∧
      ∀ relative, ¬ oneRoot.Denotes [] "../x.py" relative) ∧
    (oneRoot.relativePath? "/r/p/m.py" = some "p/m.py" ∧
      oneRoot.Denotes [] "/r/p/m.py" "p/m.py") ∧
    oneRoot.Denotes [] "x.py" "x.py" := by
  have hread : oneRoot.relativePath? "../x.py" = some "x.py" := by decide +kernel
  have hreadBelow : oneRoot.relativePath? "/r/p/m.py" = some "p/m.py" := by decide +kernel
  have hplace : oneRoot.place [] = ["r"] := by decide +kernel
  have hbeside : FilePath.placeOf ["r"] "../x.py" = ["x.py"] := by decide +kernel
  have helsewhere : ∀ relative, ¬ oneRoot.Denotes [] "../x.py" relative := by
    rintro relative ⟨ns, -, hns, -⟩
    rw [hplace, hbeside] at hns
    exact absurd (List.cons.inj hns).1 (by decide)
  have hbelow : ¬ oneRoot.Misread [] "/r/p/m.py" :=
    (relativePath_denotes oneRoot [] "/r/p/m.py").2.2 (by decide +kernel) (by decide +kernel)
      fun _ => by decide +kernel
  refine ⟨⟨hread, ?_, helsewhere⟩, ⟨hreadBelow, ?_⟩, ?_⟩
  · by_contra hplain
    exact helsewhere "x.py"
      (((relativePath_denotes oneRoot [] "../x.py").1.2 hplain "x.py").1 hread)
  · exact ((relativePath_denotes oneRoot [] "/r/p/m.py").1.2 hbelow "p/m.py").1 hreadBelow
  · exact (relativePath_denotes oneRoot [] "../x.py").2.1 "x.py" hread

end Indexer

end CodeAtlas
