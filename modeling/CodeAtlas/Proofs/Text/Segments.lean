import CodeAtlas.Proofs.Text.Cuts
import Mathlib.Data.List.Basic

/-!
# CodeAtlas.Proofs.Text.Segments

Texts that are cut at separators, read back.

No separator starts in a text that does not have its first character (`not_infix_of_notMem`).  So a
text is cut right where it was put together of such segments, from either end: a path of plain
names is split into those names (`split_intercalate`), and each of them is found at its place.
-/

namespace CodeAtlas.Text

/-! ## From the left -/

theorem not_infix_of_notMem {c : Char} {cs before : List Char} (h : c ∉ before) :
    ¬ (c :: cs) <:+: before ++ (c :: cs).dropLast := by
  induction before with
  | nil =>
      intro hinside
      have hlength := hinside.length_le
      rw [List.nil_append, List.length_dropLast, List.length_cons] at hlength
      omega
  | cons b before ih =>
      rw [List.mem_cons, not_or] at h
      rw [List.cons_append, List.infix_cons_iff, List.cons_prefix_cons]
      rintro (⟨heq, -⟩ | hinside)
      · exact h.1 heq
      · exact ih h.2 hinside

/-- A text is cut where its separator stands first. -/
theorem cutChars_append {c : Char} {cs : List Char} (before rest : List Char) (h : c ∉ before) :
    cutChars (c :: cs) (before ++ (c :: cs ++ rest)) = some (before, rest) :=
  (cutChars_append_iff (List.cons_ne_nil c cs)).2 (not_infix_of_notMem h)

/-! ## Segments -/

theorem intercalate_cons_ne_empty {separator name : String} (hname : name ≠ "")
    (names : List String) : separator.intercalate (name :: names) ≠ "" := by
  cases names <;> simp [hname]

theorem intercalate_append_singleton {separator : String} {names : List String} (hne : names ≠ [])
    (name : String) :
    separator.intercalate (names ++ [name]) = separator.intercalate names ++ separator ++ name := by
  rw [String.intercalate_append_of_ne_nil hne (List.cons_ne_nil _ _), String.intercalate_singleton]

theorem intercalate_eq_empty_iff {separator : String} {names : List String}
    (hnames : ∀ name ∈ names, name ≠ "") : separator.intercalate names = "" ↔ names = [] := by
  cases names with
  | nil => simp
  | cons name names =>
      simp [intercalate_cons_ne_empty (hnames name List.mem_cons_self) names]

theorem join_of_ne_empty {separator base relative : String} (hbase : base ≠ "")
    (hrelative : relative ≠ "") :
    join separator base relative = base ++ separator ++ relative := by
  simp [join, hbase, hrelative]

/-- Segments below others are joined by appending. -/
theorem join_intercalate {separator : String} {above names : List String}
    (habove : ∀ name ∈ above, name ≠ "") (hnames : ∀ name ∈ names, name ≠ "") :
    join separator (separator.intercalate above) (separator.intercalate names) =
      separator.intercalate (above ++ names) := by
  simp only [join, beq_iff_eq, intercalate_eq_empty_iff habove, intercalate_eq_empty_iff hnames]
  split
  · next h => rw [h, List.nil_append]
  · next habove' =>
    split
    · next h => rw [h, List.append_nil]
    · next hnames' => rw [String.intercalate_append_of_ne_nil habove' hnames']

/-- A text tells what it is below of, if what is below is known. -/
theorem join_left_inj {separator base base' relative : String} (hne : separator ≠ "")
    (h : join separator base relative = join separator base' relative) : base = base' := by
  by_cases hrelative : relative = ""
  · have hjoin : ∀ base, join separator base relative = base := fun base => by
      by_cases hbase : base = "" <;> simp [join, hrelative, hbase]
    rwa [hjoin, hjoin] at h
  · have hjoin : ∀ base, base ≠ "" →
        join separator base relative = base ++ (separator ++ relative) := fun base hbase => by
      rw [join_of_ne_empty hbase hrelative, String.append_assoc]
    have hlonger : ∀ base, base ++ (separator ++ relative) ≠ relative := fun base heq => by
      have hlength := congrArg String.length heq
      have hpos : 0 < separator.length := Nat.pos_of_ne_zero (by simpa using hne)
      simp only [String.length_append] at hlength
      omega
    have hempty : join separator "" relative = relative := rfl
    by_cases hbase : base = "" <;> by_cases hbase' : base' = ""
    · rw [hbase, hbase']
    · rw [hbase, hempty, hjoin base' hbase'] at h
      exact absurd h.symm (hlonger base')
    · rw [hbase', hempty, hjoin base hbase] at h
      exact absurd h (hlonger base)
    · rw [hjoin base hbase, hjoin base' hbase'] at h
      simpa using h

theorem not_mem_intercalate {separator : String} {c : Char} (hc : c ∉ separator.toList)
    {names : List String} (h : ∀ name ∈ names, c ∉ name.toList) :
    c ∉ (separator.intercalate names).toList := by
  induction names with
  | nil => simp
  | cons name names ih =>
      have hname := h name List.mem_cons_self
      have hrest := ih fun n hn => h n (List.mem_cons_of_mem _ hn)
      cases names with
      | nil => simpa using hname
      | cons next names => simp_all

/-- Segments without the separator's first character are split as they were joined. -/
theorem split_intercalate_of {separator : String} {c : Char} {cs : List Char}
    (hseparator : separator.toList = c :: cs) {segments : List String} (hne : segments ≠ [])
    (hplain : ∀ s ∈ segments, c ∉ s.toList) :
    split separator (separator.intercalate segments) = segments := by
  have hseparator' : separator ≠ "" := by
    rintro rfl
    cases hseparator
  refine (split_eq_iff hseparator').2 ⟨segmented_of_forall (by simpa using hne) fun s hs => ?_, rfl⟩
  obtain ⟨segment, hsegment, rfl⟩ := List.mem_map.1 hs
  rw [hseparator]
  exact not_infix_of_notMem (hplain segment hsegment)

/-- A path of plain names is split into those names. -/
theorem split_intercalate {names : List String} (hne : names ≠ [])
    (hplain : ∀ name ∈ names, ':' ∉ name.toList) :
    split "::" ("::".intercalate names) = names :=
  split_intercalate_of rfl hne hplain

/-- No segment has a separator in it that is a character. -/
theorem not_mem_of_mem_split {separator s segment : String} {c : Char}
    (hseparator : separator.toList = [c]) (h : segment ∈ split separator s) :
    c ∉ segment.toList := by
  have hne : separator ≠ "" := by
    rintro rfl
    cases hseparator
  have hplain := ((split_eq_iff hne).1 rfl).1.not_infix_of_mem (List.mem_map_of_mem h)
  rwa [hseparator, List.singleton_infix_iff] at hplain

/-! ## From the right -/

theorem cutLast?_eq_none {separator s : String} {c : Char} (hc : c ∈ separator.toList)
    (h : c ∉ s.toList) : cutLast? separator s = none := by
  have hne : separator ≠ "" := by
    rintro rfl
    cases hc
  exact (cutLast?_eq_none_iff hne).2 fun hinside => h (hinside.subset hc)

/-- The last segment of a path is left out if no separator ends in it. -/
theorem parentOf_intercalate {separator last : String} (hne : separator ≠ "") (front : List String)
    (h : ¬ separator.toList <:+: separator.toList.tail ++ last.toList) :
    parentOf separator (separator.intercalate (front ++ [last])) = separator.intercalate front := by
  by_cases hfront : front = []
  · subst hfront
    rw [List.nil_append, String.intercalate_singleton, parentOf_of_not_infix hne]
    · rfl
    · exact fun hinside => h (hinside.trans (List.suffix_append _ _).isInfix)
  · rw [intercalate_append_singleton hfront, parentOf_append_of_not_infix hne h]

/-- A path is cut before its last name. -/
theorem cutLast?_append {name : String} (path : String) (h : ':' ∉ name.toList) :
    cutLast? "::" (path ++ "::" ++ name) = some (path, name) := by
  refine cutLast?_append_of_not_infix (by decide) fun hinside => ?_
  have hcount := hinside.sublist.count_le ':'
  simp [List.count_eq_zero.2 h] at hcount

theorem parentOf_append {name : String} (path : String) (h : ':' ∉ name.toList) :
    parentOf "::" (path ++ "::" ++ name) = path := by
  rw [parentOf, cutLast?_append path h]

theorem lastSegment_append {name : String} (path : String) (h : ':' ∉ name.toList) :
    lastSegment "::" (path ++ "::" ++ name) = name := by
  rw [lastSegment, cutLast?_append path h]

theorem lastSegment_name {name : String} (h : ':' ∉ name.toList) :
    lastSegment "::" name = name := by
  rw [lastSegment, cutLast?_eq_none (by decide) h]

/-- What a path lies in is shorter. -/
theorem length_parentOf_lt {path : String} (hpath : path ≠ "") :
    (parentOf "::" path).length < path.length := by
  have hpos : 0 < path.length := Nat.pos_of_ne_zero (by simpa using hpath)
  rw [parentOf]
  split
  · next parent last hcut =>
    obtain ⟨⟨front, back⟩, hchars, heq⟩ := Option.map_eq_some_iff.1 hcut
    cases heq
    obtain ⟨⟨before, rest⟩, hleft, heq⟩ := Option.map_eq_some_iff.1 hchars
    cases heq
    have hlength := congrArg List.length (cutChars_eq_some hleft)
    simp only [List.length_append, List.length_reverse, String.length_toList] at hlength
    simp only [String.length_ofList, List.length_reverse]
    have htwo : "::".length = 2 := rfl
    omega
  · simpa using hpos

end CodeAtlas.Text
