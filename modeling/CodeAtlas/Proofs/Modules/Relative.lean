import CodeAtlas.ModulePath
import CodeAtlas.Proofs.Text.Segments

/-!
# CodeAtlas.Proofs.Modules.Relative

Relative paths as arithmetic of segments: so many of the last segments of a module's name are left
out, and those of the path are put in their place.

A name some levels up is found by cutting it at its last separator again and again
(`ancestor_intercalate`).  In Python that leaves out whole segments.  In Rust a cut from the right
may leave a colon behind that the segment it cuts off starts with (`parentOf_stray`); only the last
of the cuts counts, since the next one takes the colon away.  Main statement:
`absolutize_relative`.
-/

namespace CodeAtlas

namespace Text

/-! ## Joined segments -/

/-- Whether a text is some segments with one separator between each two of them: no separator is
doubled, none stands at an end, and the text is split into these segments. -/
structure Joined (separator s : String) (segments : List String) : Prop where
  text : s = separator.intercalate segments
  nonempty : ∀ segment ∈ segments, segment ≠ ""
  split : segments ≠ [] → split separator s = segments

/-- Segments without points are found again between the points. -/
theorem Joined.of_plain {s : String} {segments : List String}
    (htext : s = ".".intercalate segments)
    (hplain : ∀ segment ∈ segments, segment ≠ "" ∧ '.' ∉ segment.toList) :
    Joined "." s segments := by
  refine ⟨htext, fun segment h => (hplain segment h).1, fun hne => ?_⟩
  rw [htext]
  exact split_intercalate_of rfl hne fun segment h => (hplain segment h).2

end Text

open Text

namespace ModulePath

variable {separator : String}

/-! ## Levels -/

theorem ancestor_empty (hne : separator ≠ "") (levels : Nat) :
    ancestor separator "" levels = "" := by
  induction levels with
  | zero => rfl
  | succ levels ih =>
      rw [ancestor, parentOf_of_not_infix hne (by simpa using hne), ih]

theorem ancestor_add (separator name : String) (m n : Nat) :
    ancestor separator name (m + n) = ancestor separator (ancestor separator name m) n := by
  induction m generalizing name with
  | zero => rw [Nat.zero_add, ancestor]
  | succ m ih => rw [Nat.succ_add, ancestor, ih, ancestor]

theorem ancestor_succ (name : String) (levels : Nat) :
    ancestor separator name (levels + 1) = parentOf separator (ancestor separator name levels) := by
  rw [ancestor_add, ancestor, ancestor]

/-- What is left behind of segments that are cut off a text, one after the other, from the right;
it may depend on the segments that are kept and on those that are cut off. -/
structure LeavesBehind (separator : String) (segments : List String)
    (stray : List String → List String → String) : Prop where
  nothing : stray segments [] = ""
  all : ∀ dropped, stray [] dropped = ""
  cut : ∀ kept last dropped, kept ++ last :: dropped = segments →
    parentOf separator (separator.intercalate (kept ++ [last]) ++ stray (kept ++ [last]) dropped) =
      separator.intercalate kept ++ stray kept (last :: dropped)

section Ancestor

variable {segments : List String} {stray : List String → List String → String}
  (hstray : LeavesBehind separator segments stray)

include hstray

theorem ancestor_append {kept dropped : List String} (h : kept ++ dropped = segments) :
    ancestor separator (separator.intercalate segments) dropped.length =
      separator.intercalate kept ++ stray kept dropped := by
  induction dropped generalizing kept with
  | nil =>
      rw [List.append_nil] at h
      rw [h, List.length_nil, ancestor, hstray.nothing, String.append_empty]
  | cons last dropped ih =>
      have happend : (kept ++ [last]) ++ dropped = segments := by simpa using h
      rw [List.length_cons, ancestor_succ, ih happend, hstray.cut kept last dropped h]

/-- Some levels up, so many of the last segments are left out, and all if there are no more. -/
theorem ancestor_intercalate (hne : separator ≠ "") (levels : Nat) :
    ancestor separator (separator.intercalate segments) levels =
      separator.intercalate (segments.take (segments.length - levels)) ++
        stray (segments.take (segments.length - levels))
          (segments.drop (segments.length - levels)) := by
  rcases Nat.le_total levels segments.length with hle | hle
  · have hlength : (segments.drop (segments.length - levels)).length = levels := by
      rw [List.length_drop]
      omega
    have happend := ancestor_append hstray
      (List.take_append_drop (segments.length - levels) segments)
    rwa [hlength] at happend
  · have happend := ancestor_append hstray (List.nil_append segments)
    obtain ⟨more, rfl⟩ := Nat.exists_eq_add_of_le hle
    rw [hstray.all, String.append_empty] at happend
    rw [ancestor_add, happend, Nat.sub_eq_zero_of_le hle, List.take_zero, hstray.all]
    simp [ancestor_empty hne]

end Ancestor

/-! ## Python -/

/-- Segments without points are cut off as they are. -/
theorem leavesBehind_plain {segments : List String} (h : ∀ s ∈ segments, '.' ∉ s.toList) :
    LeavesBehind "." segments fun _ _ => "" := by
  refine ⟨rfl, fun _ => rfl, fun kept last dropped hsegments => ?_⟩
  have hlast : '.' ∉ last.toList := h last (by simp [← hsegments])
  rw [String.append_empty, String.append_empty, parentOf_intercalate (by decide)]
  simpa [List.singleton_infix_iff] using hlast

/-- Whether a path leads through some directories to a file with a name and maybe an extension, with
no points but that before the extension.  Directories may be empty, where slashes stand in a
row. -/
structure LeadsTo (path : String) (directories : List String) (name extension : String) : Prop where
  path : String.ofList (path.toList.map fun c => if c == '\\' then '/' else c) =
    "/".intercalate (directories ++ [name ++ extension])
  plain : ∀ s ∈ directories ++ [name], '.' ∉ s.toList ∧ '/' ∉ s.toList
  extension : extension = "" ∨
    ∃ word : String, extension = "." ++ word ∧ '.' ∉ word.toList ∧ '/' ∉ word.toList

/-- The segments of the package that a file lies in: the names that lead to it, without its own. -/
def packageSegments (directories : List String) (name : String) : List String :=
  ((directories ++ [name]).filter (· ≠ "")).dropLast

theorem mem_of_mem_packageSegments {directories : List String} {name s : String}
    (h : s ∈ packageSegments directories name) : s ∈ directories ++ [name] ∧ s ≠ "" := by
  simpa using List.mem_filter.1 (List.mem_of_mem_dropLast h)

theorem intercalate_append_last (separator : String) (front : List String) (last text : String) :
    separator.intercalate (front ++ [last ++ text]) =
      separator.intercalate (front ++ [last]) ++ text := by
  by_cases hfront : front = []
  · simp [hfront]
  · rw [intercalate_append_singleton hfront, intercalate_append_singleton hfront,
      String.append_assoc, String.append_assoc, String.append_assoc]

theorem ofFile_python_separator (path : String) : (ofFile path "python").separator = "." := rfl

section Python

variable {path : String} {directories : List String} {name extension : String}
  (hpath : LeadsTo path directories name extension)

include hpath

/-- The extension of a file is left out as such. -/
theorem withoutExtension_of_leadsTo :
    withoutExtension ("/".intercalate (directories ++ [name ++ extension])) =
      "/".intercalate (directories ++ [name]) := by
  have hpoint : '.' ∉ ("/".intercalate (directories ++ [name])).toList :=
    not_mem_intercalate (by decide) fun s hs => (hpath.plain s hs).1
  rw [intercalate_append_last, withoutExtension]
  generalize "/".intercalate (directories ++ [name]) = stem at hpoint ⊢
  rcases hpath.extension with rfl | ⟨word, rfl, hword, hslash⟩
  · rw [String.append_empty, cutLast?_eq_none (by decide) hpoint]
  · have hcut : cutLast? "." (stem ++ "." ++ word) = some (stem, word) :=
      cutLast?_append_of_not_infix (by decide) (by simpa [List.singleton_infix_iff] using hword)
    have hoccurs : occurs "/" word = false :=
      (occurs_eq_false_iff (by decide)).2 (by simpa [List.singleton_infix_iff] using hslash)
    rw [← String.append_assoc, hcut]
    simp [hoccurs]

/-- The package of a file has the segments that lead to the file. -/
theorem package_of_leadsTo :
    (ofFile path "python").package = ".".intercalate (packageSegments directories name) := by
  have hfile : ofFile path "python" =
      ofPython ("/".intercalate (directories ++ [name ++ extension])) := by
    rw [← hpath.path]
    rfl
  have hsplit : split "/" ("/".intercalate (directories ++ [name])) = directories ++ [name] :=
    split_intercalate_of rfl (by simp) fun s hs => (hpath.plain s hs).2
  have hfilter : (directories ++ [name]).filter (fun s => s != "" && s != ".") =
      (directories ++ [name]).filter (· ≠ "") := by
    refine List.filter_congr fun s hs => ?_
    have hne : s ≠ "." := by
      rintro rfl
      exact (hpath.plain "." hs).1 (by decide)
    rw [bne_iff_ne.2 hne, Bool.and_true]
    simp [bne, beq_eq_decide]
  have hplain : ∀ s ∈ (directories ++ [name]).filter (· ≠ ""), '.' ∉ s.toList := fun s hs =>
    (hpath.plain s (List.mem_of_mem_filter hs)).1
  rw [hfile, ofPython, withoutExtension_of_leadsTo hpath, hsplit, hfilter, packageSegments]
  generalize (directories ++ [name]).filter (· ≠ "") = segments at hplain ⊢
  simp only []
  split
  · rfl
  · rcases List.eq_nil_or_concat segments with rfl | ⟨front, last, rfl⟩
    · exact parentOf_of_not_infix (by decide) (by decide)
    · have hlast : '.' ∉ last.toList := hplain last (by simp)
      rw [List.concat_eq_append, List.dropLast_concat, parentOf_intercalate (by decide)]
      simpa [List.singleton_infix_iff] using hlast

theorem plain_of_mem_packageSegments : ∀ s ∈ packageSegments directories name,
    s ≠ "" ∧ '.' ∉ s.toList := fun s hs =>
  ⟨(mem_of_mem_packageSegments hs).2, (hpath.plain s (mem_of_mem_packageSegments hs).1).1⟩

theorem joined_package :
    Joined "." (ofFile path "python").package (packageSegments directories name) :=
  .of_plain (package_of_leadsTo hpath) (plain_of_mem_packageSegments hpath)

end Python

/-- A path that is written with points before it. -/
def pointed (points : Nat) (tail : List String) : String :=
  String.ofList (List.replicate points '.') ++ ".".intercalate tail

theorem absolutizePython_pointed (m : ModulePath) {tail : List String}
    (htail : ∀ s ∈ tail, s ≠ "" ∧ '.' ∉ s.toList) (levels : Nat) :
    m.absolutizePython (pointed (levels + 1) tail) =
      join "." (ancestor "." m.package levels) (".".intercalate tail) := by
  have hchars : (pointed (levels + 1) tail).toList =
      List.replicate (levels + 1) '.' ++ (".".intercalate tail).toList := by simp [pointed]
  have hpoints : ∀ c ∈ List.replicate (levels + 1) '.', (c == '.') = true := fun c hc => by
    simp [List.eq_of_mem_replicate hc]
  have hrest : (".".intercalate tail).toList.takeWhile (· == '.') = [] ∧
      (".".intercalate tail).toList.dropWhile (· == '.') = (".".intercalate tail).toList := by
    cases tail with
    | nil => exact ⟨rfl, rfl⟩
    | cons s tail =>
        obtain ⟨hne, hpoint⟩ := htail s List.mem_cons_self
        obtain ⟨c, cs, hcs⟩ := List.exists_cons_of_ne_nil (l := s.toList) (by simpa using hne)
        have hc : c ≠ '.' := by
          rintro rfl
          exact hpoint (hcs ▸ List.mem_cons_self)
        cases tail <;> simp [hcs, hc]
  rw [absolutizePython, hchars, List.takeWhile_append_of_pos hpoints,
    List.dropWhile_append_of_pos hpoints, hrest.1, hrest.2, List.append_nil]
  simp only [List.replicate_succ, List.length_replicate, String.ofList_toList]

theorem joined_pointed {path : String} {directories : List String} {name extension : String}
    (hpath : LeadsTo path directories name extension) {tail : List String}
    (htail : ∀ s ∈ tail, s ≠ "" ∧ '.' ∉ s.toList) (levels : Nat) :
    Joined "." ((ofFile path "python").absolutize (pointed (levels + 1) tail))
      ((packageSegments directories name).take
        ((packageSegments directories name).length - levels) ++ tail) := by
  have hpackage := plain_of_mem_packageSegments hpath
  have hall : ∀ s ∈ (packageSegments directories name).take
      ((packageSegments directories name).length - levels) ++ tail, s ≠ "" ∧ '.' ∉ s.toList := by
    intro s hs
    rcases List.mem_append.1 hs with hs | hs
    · exact hpackage s (List.mem_of_mem_take hs)
    · exact htail s hs
  have htext : (ofFile path "python").absolutize (pointed (levels + 1) tail) =
      ".".intercalate ((packageSegments directories name).take
        ((packageSegments directories name).length - levels) ++ tail) := by
    rw [absolutize, if_neg (by rw [ofFile_python_separator]; decide),
      absolutizePython_pointed _ htail, package_of_leadsTo hpath,
      ancestor_intercalate (leavesBehind_plain fun s hs => (hpackage s hs).2) (by decide),
      String.append_empty, join_intercalate (fun s hs => (hpackage s (List.mem_of_mem_take hs)).1)
        fun s hs => (htail s hs).1]
  exact .of_plain htext hall

/-! ## Rust -/

/-- The colon that a segment starts with, if it does. -/
def leadingColon (s : String) : String := if s.toList.head? = some ':' then ":" else ""

/-- What is left behind of some segments that are cut off others. -/
def stray : List String → List String → String
  | _ :: _, last :: _ => leadingColon last
  | _, _ => ""

theorem stray_isPrefix (kept dropped : List String) : (stray kept dropped).toList <+: [':'] := by
  rw [stray.eq_def]
  split
  · rw [leadingColon]
    split
    · exact List.prefix_refl _
    · exact List.nil_prefix
  · exact List.nil_prefix

theorem parentOf_stray {last : String} (hlast : last ≠ "") {text : String}
    (h : ¬ [':', ':'] <:+: last.toList ++ text.toList) (kept dropped : List String) :
    parentOf "::" ("::".intercalate (kept ++ [last]) ++ text) =
      "::".intercalate kept ++ stray kept (last :: dropped) := by
  rw [← intercalate_append_last]
  cases kept with
  | nil =>
      rw [List.nil_append, String.intercalate_singleton, parentOf_of_not_infix (by decide)]
      · rfl
      · simpa using h
  | cons first kept =>
      obtain ⟨c, cs, hcs⟩ := List.exists_cons_of_ne_nil (l := last.toList) (by simpa using hlast)
      rw [hcs] at h
      rw [intercalate_append_singleton (List.cons_ne_nil _ _), stray, leadingColon, hcs]
      by_cases hc : c = ':'
      · -- the last two colons are those that the segment and the separator before it share
        subst hc
        have htext : "::".intercalate (first :: kept) ++ "::" ++ (last ++ text) =
            "::".intercalate (first :: kept) ++ ":" ++ "::" ++ String.ofList (cs ++ text.toList) :=
          String.toList_inj.1 (by simp [hcs])
        rw [htext, parentOf_append_of_not_infix (by decide)]
        · rfl
        · simpa using h
      · rw [if_neg (by simpa using hc), String.append_empty,
          parentOf_append_of_not_infix (by decide)]
        have hchars : (last ++ text).toList = c :: (cs ++ text.toList) := by simp [hcs]
        rw [hchars]
        intro hinside
        rcases List.infix_cons_iff.1 hinside with hstarts | hinside
        · simp [Ne.symm hc] at hstarts
        · exact h hinside

theorem leavesBehind_stray {segments : List String}
    (hsegmented : Segmented [':', ':'] (segments.map String.toList))
    (hne : ∀ s ∈ segments, s ≠ "") : LeavesBehind "::" segments stray := by
  have hnothing : ∀ kept, stray kept [] = "" := fun kept => by cases kept <;> rfl
  refine ⟨hnothing segments, fun _ => rfl, fun kept last dropped hsegments => ?_⟩
  refine parentOf_stray (hne last (by simp [← hsegments])) ?_ kept dropped
  cases dropped with
  | nil =>
      rw [hnothing, String.toList_empty, List.append_nil]
      exact hsegmented.not_infix_of_mem (by simp [← hsegments])
  | cons next dropped =>
      rw [← hsegments, List.map_append, List.map_cons, List.map_cons] at hsegmented
      have hlast := (segmented_append_cons_iff.1 hsegmented).2.1
      exact fun hinside => hlast (hinside.trans
        (List.prefix_append_right_inj last.toList |>.2 (stray_isPrefix _ _)).isInfix)

/-- The segments of a path that starts with `super` are left out of the module's name, so many as
there are `super`, and the rest is put in their place. -/
theorem absolutizeRust_of_split (m : ModulePath) {target : String} {levels : Nat}
    {names : List String}
    (hsplit : split "::" target = List.replicate (levels + 1) "super" ++ names)
    (hfirst : names.head? ≠ some "super") :
    m.absolutizeRust target =
      join "::" (ancestor "::" m.qualifiedName (levels + 1)) ("::".intercalate names) := by
  have hall : ∀ name ∈ List.replicate (levels + 1) "super", (name == "super") = true :=
    fun name hname => by simp [List.eq_of_mem_replicate hname]
  have hrest : names.takeWhile (· == "super") = [] ∧ names.dropWhile (· == "super") = names := by
    cases names with
    | nil => exact ⟨rfl, rfl⟩
    | cons name names =>
        have hname : name ≠ "super" := by simpa using hfirst
        simp [hname]
  rw [absolutizeRust, hsplit]
  simp only [List.replicate_succ, List.cons_append]
  rw [← List.cons_append, ← List.replicate_succ, List.takeWhile_append_of_pos hall,
    List.dropWhile_append_of_pos hall, hrest.1, hrest.2]
  simp

/-- The first of the segments that some levels leave out, if others stay. -/
def firstLeftOut? (segments : List String) (levels : Nat) : Option String :=
  if levels < segments.length then segments[segments.length - levels]? else none

theorem stray_eq_empty_iff {segments : List String} {levels : Nat} (hlevels : 0 < levels) :
    stray (segments.take (segments.length - levels)) (segments.drop (segments.length - levels)) =
      "" ↔ ∀ s ∈ firstLeftOut? segments levels, s.toList.head? ≠ some ':' := by
  rw [firstLeftOut?]
  split
  · next hlt =>
    have hplace : segments.length - levels < segments.length := by omega
    have hkept : segments.take (segments.length - levels) ≠ [] := by
      rw [← List.length_pos_iff, List.length_take]
      omega
    obtain ⟨first, kept, hkept⟩ := List.exists_cons_of_ne_nil hkept
    rw [hkept, List.drop_eq_getElem_cons hplace, List.getElem?_eq_getElem hplace, stray,
      leadingColon]
    split <;> simp_all
  · next hge =>
    rw [Nat.sub_eq_zero_of_le (by omega), List.take_zero]
    simp [stray]

/-- The segments that are left of one text and those at the end of another one are the segments of a
text. -/
theorem segmented_take_append {separator : List Char} {segments front names : List String}
    {levels : Nat} (hsegments : Segmented separator (segments.map String.toList))
    (hnames : Segmented separator ((front ++ names).map String.toList)) (hlevels : 0 < levels)
    (hne : segments.take (segments.length - levels) ++ names ≠ []) :
    Segmented separator
      ((segments.take (segments.length - levels) ++ names).map String.toList) := by
  have hkept : ∀ s ∈ (segments.take (segments.length - levels)).map String.toList,
      ¬ separator <:+: s ++ separator.dropLast := by
    cases hdrop : segments.drop (segments.length - levels) with
    | nil =>
        have hempty : segments.length - levels = 0 := by
          have hle := List.drop_eq_nil_iff.1 hdrop
          omega
        simp [hempty]
    | cons s dropped =>
        rw [← List.take_append_drop (segments.length - levels) segments, hdrop, List.map_append,
          List.map_cons] at hsegments
        exact (segmented_append_cons_iff.1 hsegments).1
  rw [List.map_append] at hnames ⊢
  cases names with
  | nil =>
      rw [List.map_nil, List.append_nil]
      exact segmented_of_forall (by simpa using hne) hkept
  | cons name names =>
      exact segmented_append_cons_iff.2 ⟨hkept, (segmented_append_cons_iff.1 hnames).2⟩

section Rust

variable {m : ModulePath} {segments names : List String} {target : String} {levels : Nat}
  (hseparator : m.separator = "::") (hsegments : split "::" m.qualifiedName = segments)
  (hne : ∀ s ∈ segments, s ≠ "") (hlevels : 0 < levels)
  (htarget : split "::" target = List.replicate levels "super" ++ names)
  (hnames : ∀ s ∈ names, s ≠ "") (hfirst : names.head? ≠ some "super")

include hseparator hsegments hne hlevels htarget hfirst

theorem absolutize_anchoredAt : m.absolutize target =
    join "::" ("::".intercalate (segments.take (segments.length - levels)) ++
      stray (segments.take (segments.length - levels)) (segments.drop (segments.length - levels)))
      ("::".intercalate names) := by
  obtain ⟨hsegmented, hname⟩ := (split_eq_iff (by decide)).1 hsegments
  obtain ⟨levels, rfl⟩ := Nat.exists_eq_add_of_le' hlevels
  rw [absolutize, if_pos (by rw [hseparator]; decide), absolutizeRust_of_split m htarget hfirst,
    hname, ancestor_intercalate (leavesBehind_stray hsegmented hne) (by decide)]

include hnames

theorem joined_anchored_iff :
    Joined "::" (m.absolutize target) (segments.take (segments.length - levels) ++ names) ↔
      ∀ s ∈ firstLeftOut? segments levels, s.toList.head? ≠ some ':' := by
  have hkept : ∀ s ∈ segments.take (segments.length - levels), s ≠ "" := fun s hs =>
    hne s (List.mem_of_mem_take hs)
  have habsolute := absolutize_anchoredAt hseparator hsegments hne hlevels htarget hfirst
  have hjoin : join "::" ("::".intercalate (segments.take (segments.length - levels)))
      ("::".intercalate names) =
        "::".intercalate (segments.take (segments.length - levels) ++ names) :=
    join_intercalate hkept hnames
  rw [← stray_eq_empty_iff hlevels]
  constructor
  · intro h
    have hbase := habsolute.symm.trans (h.text.trans hjoin.symm)
    simpa using join_left_inj (by decide) hbase
  · intro hstray
    rw [hstray, String.append_empty, hjoin] at habsolute
    refine ⟨habsolute, fun s hs => ?_, fun hnonempty => ?_⟩
    · rcases List.mem_append.1 hs with hs | hs
      · exact hkept s hs
      · exact hnames s hs
    · refine (split_eq_iff (by decide)).2 ⟨?_, habsolute⟩
      exact segmented_take_append ((split_eq_iff (by decide)).1 hsegments).1
        ((split_eq_iff (by decide)).1 htarget).1 hlevels hnonempty

end Rust

/-! ## Both -/

/-- **Relative paths are arithmetic of segments.**  A Python path with points before it leaves out
one segment of the package less than it has points, or all of them, and a Rust path leaves out one
segment of the module for each `super` that it starts with, or all; its own segments come after
those that are left, with one separator between each two.  In Rust that is so exactly if the first
of the segments that are left out does not start with a colon of its own. -/
theorem absolutize_relative :
    (∀ (path : String) (directories : List String) (name extension : String),
      LeadsTo path directories name extension →
      Joined "." (ofFile path "python").package (packageSegments directories name) ∧
      ∀ (points : Nat) (tail : List String), 0 < points → (∀ s ∈ tail, s ≠ "" ∧ '.' ∉ s.toList) →
        Joined "." ((ofFile path "python").absolutize (pointed points tail))
          ((packageSegments directories name).take
            ((packageSegments directories name).length + 1 - points) ++ tail)) ∧
    (∀ (m : ModulePath) (segments : List String), m.separator = "::" →
      split "::" m.qualifiedName = segments → (∀ s ∈ segments, s ≠ "") →
      ∀ (target : String) (levels : Nat) (names : List String), 0 < levels →
        split "::" target = List.replicate levels "super" ++ names → (∀ s ∈ names, s ≠ "") →
        names.head? ≠ some "super" →
          (Joined "::" (m.absolutize target)
              (segments.take (segments.length - levels) ++ names) ↔
            ∀ s ∈ firstLeftOut? segments levels, s.toList.head? ≠ some ':')) := by
  refine ⟨fun path directories name extension hpath => ⟨joined_package hpath,
      fun points tail hpoints htail => ?_⟩,
    fun m segments hseparator hsegments hne target levels names hlevels htarget hnames hfirst => ?_⟩
  · obtain ⟨levels, rfl⟩ : ∃ levels, points = levels + 1 := ⟨points - 1, by omega⟩
    rw [Nat.add_sub_add_right]
    exact joined_pointed hpath htail levels
  · exact joined_anchored_iff hseparator hsegments hne hlevels htarget hnames hfirst

theorem absolutize_relative_twoLevels :
    LeadsTo "pkg/sub/m.py" ["pkg", "sub"] "m" ".py" ∧
    Joined "." (ofFile "pkg/sub/m.py" "python").package ["pkg", "sub"] ∧
    Joined "." ((ofFile "pkg/sub/m.py" "python").absolutize "..other.f") ["pkg", "other", "f"] ∧
    split "::" (ofFile "src/a/:b.rs" "rust").qualifiedName = ["crate", "a", ":b"] ∧
    Joined "::" ((ofFile "src/a/:b.rs" "rust").absolutize "super::super::c") ["crate", "c"] := by
  have hpath : LeadsTo "pkg/sub/m.py" ["pkg", "sub"] "m" ".py" :=
    ⟨by decide +kernel, by decide, .inr ⟨"py", by decide⟩⟩
  have hsegments : split "::" (ofFile "src/a/:b.rs" "rust").qualifiedName =
      ["crate", "a", ":b"] := by decide +kernel
  have hpython := absolutize_relative.1 _ _ _ _ hpath
  have hrust := absolutize_relative.2 (ofFile "src/a/:b.rs" "rust") _ rfl hsegments (by decide)
    "super::super::c" 2 ["c"] (by decide) (by decide +kernel) (by decide) (by decide)
  exact ⟨hpath, hpython.1, hpython.2 2 ["other", "f"] (by decide) (by decide), hsegments,
    hrust.2 (by decide)⟩

/-- A segment that starts with a colon leaves it behind when it is left out. -/
theorem colon_left_behind :
    split "::" (ofFile "src/a/:b.rs" "rust").qualifiedName = ["crate", "a", ":b"] ∧
    split "::" "super" = ["super"] ∧
    (ofFile "src/a/:b.rs" "rust").absolutize "super" = "crate::a:" ∧
    (ofFile "src/a/:b.rs" "rust").absolutize "super" ≠ "::".intercalate ["crate", "a"] := by
  decide +kernel

end ModulePath

end CodeAtlas
