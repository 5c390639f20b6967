import CodeAtlas.Files.Tree
import CodeAtlas.Proofs.Text.Segments
import Mathlib.Algebra.Order.BigOperators.Group.List
import Mathlib.Algebra.Order.Group.Nat
import Mathlib.Algebra.Ring.Nat
import Mathlib.Data.List.Basic

/-!
# CodeAtlas.Proofs.Files.Steps

Where the steps of a path lead.

The steps lead from one place to another, told by the names on the way from the top
(`FilePath.follow`), and what a tree of files finds under a path stands there
(`FileTree.locate_eq_placeOf`).  Steps that never turn back add their names to the place
(`FilePath.follow_of_not_turnsBack`); others that come out below it do so by fewer names than they
have (`FilePath.sublist_of_turnsBack`).  Plain names that are joined to a path are its steps
(`FilePath.components_intercalate`).
-/

namespace CodeAtlas

namespace FilePath

/-! ## Places -/

/-- Where steps lead from a place; `..` leads one name back, and nowhere from the top. -/
def follow (place : List String) : List Component → List String
  | [] => place
  | .root :: steps => follow [] steps
  | .current :: steps => follow place steps
  | .parent :: steps => follow place.dropLast steps
  | .name n :: steps => follow (place ++ [n]) steps

/-- Where a path leads from a place. -/
def placeOf (place : List String) (path : String) : List String := follow place (components path)

/-- The names among some steps. -/
def names (steps : List Component) : List String :=
  steps.filterMap fun
    | .name n => some n
    | _ => none

/-- Whether one of the steps leads back from somewhere. -/
def TurnsBack (place : List String) : List Component → Prop
  | [] => False
  | .root :: steps => place ≠ [] ∨ TurnsBack [] steps
  | .current :: steps => TurnsBack place steps
  | .parent :: steps => place ≠ [] ∨ TurnsBack [] steps
  | .name n :: steps => TurnsBack (place ++ [n]) steps

variable {place : List String} {steps : List Component}

theorem follow_append (place : List String) (steps steps' : List Component) :
    follow place (steps ++ steps') = follow (follow place steps) steps' := by
  induction steps generalizing place with
  | nil => rfl
  | cons step steps ih => cases step <;> simp only [List.cons_append, follow, ih]

/-- Steps that never lead back add their names to the place. -/
theorem follow_of_not_turnsBack (h : ¬ TurnsBack place steps) :
    follow place steps = place ++ names steps := by
  induction steps generalizing place with
  | nil => simp [follow, names]
  | cons step steps ih =>
      cases step with
      | root =>
          rw [TurnsBack, not_or, not_not] at h
          obtain ⟨rfl, h⟩ := h
          simpa [follow, names] using ih h
      | current => simpa [follow, names] using ih h
      | parent =>
          rw [TurnsBack, not_or, not_not] at h
          obtain ⟨rfl, h⟩ := h
          simpa [follow, names] using ih h
      | name n => simpa [follow, names] using ih h

/-- What is left of the place comes before names of the steps. -/
theorem follow_split (place : List String) (steps : List Component) :
    ∃ kept new, kept <+: place ∧ new.Sublist (names steps) ∧ follow place steps = kept ++ new := by
  induction steps generalizing place with
  | nil => exact ⟨place, [], List.prefix_rfl, List.nil_sublist _, by simp [follow]⟩
  | cons step steps ih =>
      cases step with
      | root =>
          obtain ⟨kept, new, hkept, hnew, hfollow⟩ := ih []
          exact ⟨kept, new, hkept.trans List.nil_prefix, hnew, hfollow⟩
      | current => exact ih place
      | parent =>
          obtain ⟨kept, new, hkept, hnew, hfollow⟩ := ih place.dropLast
          exact ⟨kept, new, hkept.trans (List.dropLast_prefix place), hnew, hfollow⟩
      | name n =>
          obtain ⟨kept, new, hkept, hnew, hfollow⟩ := ih (place ++ [n])
          rcases List.prefix_concat_iff.1 hkept with rfl | hkept
          · refine ⟨place, n :: new, List.prefix_rfl, hnew.cons_cons n, ?_⟩
            simpa [follow] using hfollow
          · exact ⟨kept, new, hkept, hnew.trans (List.sublist_cons_self n _), hfollow⟩

theorem length_follow_le (place : List String) (steps : List Component) :
    (follow place steps).length ≤ place.length + (names steps).length := by
  obtain ⟨kept, new, hkept, hnew, hfollow⟩ := follow_split place steps
  have hplace := hkept.length_le
  have hnames := hnew.length_le
  rw [hfollow, List.length_append]
  omega

/-- Steps that lead back add fewer names than they have. -/
theorem length_follow_lt (h : TurnsBack place steps) :
    (follow place steps).length < place.length + (names steps).length := by
  induction steps generalizing place with
  | nil => exact h.elim
  | cons step steps ih =>
      have hback : ∀ place' : List String, place'.length < place.length →
          (follow place' steps).length < place.length + (names steps).length := by
        intro place' hshorter
        have hle := length_follow_le place' steps
        omega
      cases step with
      | root =>
          by_cases hplace : place = []
          · subst hplace
            exact ih (h.resolve_left fun hne => hne rfl)
          · exact hback [] (List.length_pos_iff.2 hplace)
      | current => exact ih h
      | parent =>
          by_cases hplace : place = []
          · subst hplace
            exact ih (h.resolve_left fun hne => hne rfl)
          · refine hback place.dropLast ?_
            have hpos := List.length_pos_iff.2 hplace
            rw [List.length_dropLast]
            omega
      | name n =>
          have hlt := ih h
          simp only [List.length_append, List.length_singleton] at hlt
          simp only [follow, names, List.filterMap_cons, List.length_cons] at hlt ⊢
          omega

/-- Steps that lead back and come out below the place do so by names that are not all of theirs. -/
theorem sublist_of_turnsBack (h : TurnsBack place steps) {below : List String}
    (hbelow : follow place steps = place ++ below) :
    below.Sublist (names steps) ∧ below.length < (names steps).length := by
  obtain ⟨kept, new, ⟨rest, rfl⟩, hnew, hfollow⟩ := follow_split place steps
  have hlt := length_follow_lt h
  rw [hbelow, List.length_append] at hlt
  rw [hfollow, List.append_assoc, List.append_cancel_left_eq] at hbelow
  refine ⟨?_, by omega⟩
  rw [hbelow] at hnew
  exact (List.sublist_append_right rest below).trans hnew

/-! ## Steps of a path -/

/-- A text that is a step of its own in a path. -/
def Plain (n : String) : Prop := n ≠ "" ∧ n ≠ "." ∧ n ≠ ".." ∧ '/' ∉ n.toList

/-- The step that a segment of a path is. -/
def step? (segment : String) : Option Component :=
  if segment == "" || segment == "." then none
  else if segment == ".." then some .parent
  else some (.name segment)

variable {path : String}

theorem components_of_isAbsolute (h : isAbsolute path = true) :
    components path = .root :: (Text.split "/" path).filterMap step? := by
  rw [isAbsolute] at h
  rw [components, if_pos h]
  rfl

theorem components_of_not_isAbsolute (h : ¬ isAbsolute path = true) :
    components path = (if (Text.split "/" path).head? == some "." then [.current] else []) ++
      (Text.split "/" path).filterMap step? := by
  rw [isAbsolute] at h
  rw [components, if_neg h]
  rfl

theorem step?_of_plain {n : String} (h : Plain n) : step? n = some (.name n) := by
  obtain ⟨hempty, hcurrent, hparent, -⟩ := h
  simp [step?, hempty, hcurrent, hparent]

theorem eq_parent_or_name_of_step? {segment : String} {step : Component}
    (h : step? segment = some step) :
    step = .parent ∨ step = .name segment ∧ segment ≠ "" ∧ segment ≠ "." ∧ segment ≠ ".." := by
  rw [step?] at h
  split at h
  · cases h
  · next hskip =>
    split at h
    · exact .inl (Option.some.inj h).symm
    · next hparent =>
      rw [Bool.or_eq_true, not_or, beq_iff_eq, beq_iff_eq] at hskip
      exact .inr ⟨(Option.some.inj h).symm, hskip.1, hskip.2, by simpa using hparent⟩

/-- After the first step of a path there are only names and `..`. -/
theorem eq_parent_or_name_of_mem {step : Component}
    (h : step ∈ (Text.split "/" path).filterMap step?) :
    step = .parent ∨ ∃ n, Plain n ∧ step = .name n := by
  obtain ⟨segment, hsegment, hstep⟩ := List.mem_filterMap.1 h
  rcases eq_parent_or_name_of_step? hstep with hparent | ⟨hname, hempty, hcurrent, hparent⟩
  · exact .inl hparent
  · have hslash : '/' ∉ segment.toList := Text.not_mem_of_mem_split rfl hsegment
    exact .inr ⟨_, ⟨hempty, hcurrent, hparent, hslash⟩, hname⟩

/-- The names in a path are plain. -/
theorem plain_of_mem_names {n : String} (h : n ∈ names (components path)) : Plain n := by
  have hmem : .name n ∈ components path := by
    obtain ⟨step, hstep, heq⟩ := List.mem_filterMap.1 h
    cases step <;> cases heq
    exact hstep
  have hrest : .name n ∈ (Text.split "/" path).filterMap step? := by
    by_cases habsolute : isAbsolute path = true
    · simpa [components_of_isAbsolute habsolute] using hmem
    · rw [components_of_not_isAbsolute habsolute] at hmem
      rcases List.mem_append.1 hmem with hmem | hmem
      · split at hmem <;> simp at hmem
      · exact hmem
  rcases eq_parent_or_name_of_mem hrest with hparent | ⟨m, hplain, heq⟩
  · cases hparent
  · cases heq
    exact hplain

/-- Where the first name is plain there is no slash in front. -/
theorem not_isAbsolute_intercalate {n : String} (h : Plain n) (ns : List String) :
    ¬ isAbsolute ("/".intercalate (n :: ns)) = true := by
  intro habsolute
  obtain ⟨rest, hrest⟩ := Option.isSome_iff_exists.1 habsolute
  rw [Text.strip?_eq_some_iff] at hrest
  obtain ⟨hempty, -, -, hslash⟩ := h
  obtain ⟨more, hmore⟩ : ∃ more, "/".intercalate (n :: ns) = n ++ more := by
    cases ns with
    | nil => exact ⟨"", by simp⟩
    | cons m ns => exact ⟨"/" ++ "/".intercalate (m :: ns), by simp [String.append_assoc]⟩
  have hchars := congrArg String.toList (hmore.symm.trans hrest)
  rw [String.toList_append, String.toList_append] at hchars
  cases hn : n.toList with
  | nil => exact hempty (String.toList_eq_nil_iff.1 hn)
  | cons c cs =>
      rw [hn] at hchars hslash
      have hc : c = '/' := (List.cons.inj hchars).1
      exact hslash (hc ▸ List.mem_cons_self)

/-- Plain names that are joined are the steps of the path they make. -/
theorem components_intercalate {ns : List String} (hne : ns ≠ []) (hplain : ∀ n ∈ ns, Plain n) :
    components ("/".intercalate ns) = ns.map .name := by
  have hsplit : Text.split "/" ("/".intercalate ns) = ns :=
    Text.split_intercalate_of rfl hne fun n hn => (hplain n hn).2.2.2
  have hrelative : ¬ isAbsolute ("/".intercalate ns) = true := by
    obtain ⟨n, ns, rfl⟩ := List.exists_cons_of_ne_nil hne
    exact not_isAbsolute_intercalate (hplain n List.mem_cons_self) ns
  have hhead : ns.head? ≠ some "." := by
    intro hhead
    exact (hplain "." (List.mem_of_mem_head? hhead)).2.1 rfl
  have hsteps : ns.filterMap step? = ns.map .name := by
    rw [← List.filterMap_eq_map]
    exact List.filterMap_congr fun n hn => step?_of_plain (hplain n hn)
  rw [components_of_not_isAbsolute hrelative, hsplit, hsteps, if_neg (by simpa using hhead),
    List.nil_append]

@[simp] theorem names_map_name (ns : List String) : names (ns.map .name) = ns := by
  simp [names, List.filterMap_map]

theorem map_name_names (h : ∀ step ∈ steps, ∃ n, step = .name n) :
    (names steps).map .name = steps := by
  induction steps with
  | nil => rfl
  | cons step steps ih =>
      obtain ⟨n, rfl⟩ := h _ List.mem_cons_self
      exact congrArg (.name n :: ·) (ih fun step hstep => h step (List.mem_cons_of_mem _ hstep))

/-- Only a `..` leads back, or a step to the top. -/
theorem mem_of_turnsBack (h : TurnsBack place steps) : .root ∈ steps ∨ .parent ∈ steps := by
  induction steps generalizing place with
  | nil => exact h.elim
  | cons step steps ih =>
      cases step with
      | root => exact .inl List.mem_cons_self
      | parent => exact .inr List.mem_cons_self
      | current => exact (ih h).imp (List.mem_cons_of_mem _) (List.mem_cons_of_mem _)
      | name n => exact (ih h).imp (List.mem_cons_of_mem _) (List.mem_cons_of_mem _)

theorem not_turnsBack_map_name (place ns : List String) :
    ¬ TurnsBack place (ns.map .name) := by
  intro h
  rcases mem_of_turnsBack h with h | h <;> simp at h

theorem root_notMem_components (h : ¬ isAbsolute path = true) : .root ∉ components path := by
  rw [components_of_not_isAbsolute h, List.mem_append, not_or]
  constructor
  · split <;> simp
  · intro hroot
    rcases eq_parent_or_name_of_mem hroot with heq | ⟨n, -, heq⟩ <;> cases heq

/-- An absolute path without `..` has only names below the top. -/
theorem exists_components_eq (habsolute : isAbsolute path = true)
    (h : .parent ∉ components path) :
    ∃ ns : List String, components path = .root :: ns.map .name := by
  rw [components_of_isAbsolute habsolute] at h ⊢
  rw [List.mem_cons, not_or] at h
  refine ⟨names ((Text.split "/" path).filterMap step?), ?_⟩
  rw [map_name_names]
  intro step hstep
  rcases eq_parent_or_name_of_mem hstep with rfl | ⟨n, -, rfl⟩
  · exact (h.2 hstep).elim
  · exact ⟨n, rfl⟩

/-! ## Joined names -/

theorem length_intercalate {ns : List String} (hne : ns ≠ []) :
    ("/".intercalate ns).length + 1 = (ns.map String.length).sum + ns.length := by
  induction ns with
  | nil => exact absurd rfl hne
  | cons n ns ih =>
      cases ns with
      | nil => simp
      | cons m ns =>
          have hrest := ih (List.cons_ne_nil m ns)
          have hslash : "/".length = 1 := rfl
          simp only [String.intercalate_cons_cons, String.length_append, List.map_cons,
            List.sum_cons, List.length_cons, hslash] at hrest ⊢
          omega

/-- Fewer of the names make a shorter path. -/
theorem intercalate_ne_of_sublist {few many : List String} (hne : few ≠ [])
    (hsublist : few.Sublist many) (hlt : few.length < many.length) :
    "/".intercalate few ≠ "/".intercalate many := by
  intro heq
  have hmany : many ≠ [] := List.length_pos_iff.1 (Nat.zero_lt_of_lt hlt)
  have hlengths : (few.map String.length).sum ≤ (many.map String.length).sum :=
    (hsublist.map String.length).sum_le_sum fun _ _ => Nat.zero_le _
  have hfew := length_intercalate hne
  rw [heq, length_intercalate hmany] at hfew
  omega

end FilePath

namespace FileTree

open FilePath

/-! ## Places in a tree of files -/

theorem follow_eq_ok {t : FileTree} {p q : Location} {segments : List String}
    (h : t.follow p segments = .ok q) : q = FilePath.follow p (segments.filterMap step?) := by
  induction segments generalizing p with
  | nil => exact (Except.ok.inj h).symm
  | cons segment segments ih =>
      rw [FileTree.follow] at h
      split at h
      · cases h
      · split at h
        · next hskip =>
          rw [List.filterMap_cons_none (by rw [step?, if_pos hskip])]
          exact ih h
        · next hskip =>
          split at h
          · next hparent =>
            rw [List.filterMap_cons_some (by rw [step?, if_neg hskip, if_pos hparent])]
            exact ih h
          · next hparent =>
            rw [List.filterMap_cons_some (by rw [step?, if_neg hskip, if_neg hparent])]
            split at h
            · cases h
            · split at h
              · cases h
              · exact ih h

/-- What a tree finds under a path stands where the path leads. -/
theorem locate_eq_placeOf {t : FileTree} {path : String} {p : Location}
    (h : t.locate path = .ok p) : p = FilePath.placeOf t.workingDirectory path := by
  rw [locate] at h
  split at h
  · cases h
  · split at h
    · cases h
    · split at h
      · cases h
      · have hfollow := follow_eq_ok h
        rw [FilePath.placeOf]
        by_cases habsolute : isAbsolute path = true
        · rw [components_of_isAbsolute habsolute]
          rw [if_pos habsolute] at hfollow
          exact hfollow
        · rw [components_of_not_isAbsolute habsolute, follow_append]
          rw [if_neg habsolute] at hfollow
          split
          · exact hfollow
          · exact hfollow

end FileTree

end CodeAtlas
