import CodeAtlas.Proofs.Resolve.Binding
import CodeAtlas.Proofs.Text.Segments

/-!
# CodeAtlas.Proofs.Resolve.Qualify

Qualified names and the paths that they may stand at.

A path is named after the first home that it is the target of or lies below, and after the module if
there is none (`qualifyIn_cases`).  A name is looked for at all of these places at once
(`mem_pathsOf_iff`), so it does not matter which of several homes has given it: the same home takes
it back, since what lies below a target and what lies below its home are the same texts.

Only nothing is lost below a home.  A path that ends with the separator behind a target has nothing
below the target, and is named like the target itself; such a path is that of a definition whose
name is a colon (`eq_colon_of_relative_eq`).  Main statement: `qualify_undone`.
-/

namespace CodeAtlas

open CodeAtlas.Text

namespace Resolve

namespace FileScope

variable {c : FileScope} {separator base path name : String}

/-! ## Below -/

theorem below?_eq_some_iff {rest : String} :
    below? separator base path = some rest ↔ path = base ++ separator ++ rest := by
  simp only [below?, Option.bind_eq_some_iff, strip?_eq_some_iff]
  constructor
  · rintro ⟨behind, rfl, rfl⟩
    rw [String.append_assoc]
  · rintro rfl
    exact ⟨separator ++ rest, String.append_assoc .., rfl⟩

theorem belowModule?_child (hpath : path ≠ "") :
    c.belowModule? (c.module.child path) = some path := by
  rw [belowModule?, ModulePath.child]
  by_cases hmodule : c.module.qualifiedName = ""
  · rw [hmodule]
    rfl
  · rw [if_neg (by simpa using hmodule), below?_eq_some_iff, join_of_ne_empty hmodule hpath]
    rfl

/-! ## Names of paths -/

/-- A path is named after the module or after a home. -/
theorem qualifyIn_cases (module : ModulePath) (path : String) (homes : List (String × String)) :
    qualifyIn module path homes = module.child path ∨
    (path, qualifyIn module path homes) ∈ homes ∨
    ∃ target home rest, (target, home) ∈ homes ∧ path = target ++ module.separator ++ rest ∧
      qualifyIn module path homes = join module.separator home rest := by
  induction homes with
  | nil => exact .inl rfl
  | cons entry homes ih =>
      obtain ⟨target, home⟩ := entry
      rw [qualifyIn]
      by_cases htarget : path = target
      · rw [if_pos (beq_iff_eq.2 htarget), htarget]
        exact .inr (.inl List.mem_cons_self)
      · rw [if_neg (by simpa using htarget)]
        cases hbelow : below? module.separator target path with
        | some rest =>
            exact .inr (.inr ⟨target, home, rest, List.mem_cons_self,
              below?_eq_some_iff.1 hbelow, rfl⟩)
        | none =>
            rcases ih with hmodule | hmem | ⟨target', home', rest, hmem, hpath⟩
            · exact .inl hmodule
            · exact .inr (.inl (List.mem_cons_of_mem _ hmem))
            · exact .inr (.inr ⟨target', home', rest, List.mem_cons_of_mem _ hmem, hpath⟩)

/-- A name may stand below the module, at the target of a home, and below it. -/
theorem mem_pathsOf_iff : path ∈ c.pathsOf name ↔ c.belowModule? name = some path ∨
    (path, name) ∈ c.homes ∨
    ∃ target home rest, (target, home) ∈ c.homes ∧ name ≠ home ∧
      name = home ++ c.separator ++ rest ∧ path = join c.separator target rest := by
  simp only [pathsOf, List.mem_append, Option.mem_toList, List.mem_filterMap, Prod.exists]
  refine or_congr Iff.rfl ⟨?_, ?_⟩
  · rintro ⟨target, home, hmem, hgives⟩
    split at hgives
    · next heq =>
      cases hgives
      exact .inl (beq_iff_eq.1 heq ▸ hmem)
    · next hne =>
      obtain ⟨rest, hbelow, rfl⟩ := Option.map_eq_some_iff.1 hgives
      exact .inr ⟨target, home, rest, hmem, by simpa using hne, below?_eq_some_iff.1 hbelow, rfl⟩
  · rintro (hmem | ⟨target, home, rest, hmem, hne, hname, rfl⟩)
    · exact ⟨path, name, hmem, if_pos (beq_self_eq_true name)⟩
    · refine ⟨target, home, hmem, ?_⟩
      rw [if_neg (by simpa using hne), below?_eq_some_iff.2 hname, Option.map_some]

/-- A path is found again by its name, unless nothing is left of it behind a target and the
separator. -/
theorem mem_pathsOf_qualify (hhomes : ∀ entry ∈ c.homes, entry.1 ≠ "" ∧ entry.2 ≠ "")
    (hpath : path ≠ "") (hrest : ∀ entry ∈ c.homes, path ≠ entry.1 ++ c.separator) :
    path ∈ c.pathsOf (c.qualify path) := by
  rw [mem_pathsOf_iff, qualify]
  rcases qualifyIn_cases c.module path c.homes with
    hmodule | htarget | ⟨target, home, rest, hmem, hbelow, hname⟩
  · rw [hmodule]
    exact .inl (belowModule?_child hpath)
  · exact .inr (.inl htarget)
  · obtain ⟨htarget, hhome⟩ := hhomes _ hmem
    have hleft : rest ≠ "" := by
      rintro rfl
      exact hrest _ hmem (hbelow.trans String.append_empty)
    rw [join_of_ne_empty hhome hleft] at hname
    refine .inr (.inr ⟨target, home, rest, hmem, fun heq => ?_, hname, ?_⟩)
    · rw [hname, String.append_assoc] at heq
      have hlength := congrArg String.length heq
      simp only [String.length_append] at hlength
      exact hleft (String.length_eq_zero_iff.1 (by omega))
    · rw [join_of_ne_empty htarget hleft]
      exact hbelow

/-! ## Where homes come from -/

/-- What a file does not define of a scope is a part of it with its last name. -/
theorem undefined?_eq_some {defined scope : List String}
    (h : undefined? separator defined scope = some (path, name)) :
    ∃ outer, outer ++ [name] <+: scope ∧ path = pathOf separator (outer ++ [name]) := by
  obtain ⟨i, -, hpart⟩ := List.exists_of_findSome?_eq_some h
  simp only [] at hpart
  split at hpart
  · cases hpart
  · obtain ⟨last, hlast, heq⟩ := Option.map_eq_some_iff.1 hpart
    cases heq
    obtain ⟨outer, houter⟩ := List.getLast?_eq_some_iff.1 hlast
    exact ⟨outer, houter ▸ List.take_prefix .., by rw [houter]⟩

/-- The target of a home is a part of a scope, and its home is bound to the last name of that
part. -/
theorem mem_findHomes {defined : List String} {aliases : List (String × String)}
    {facts : List Fact} {target home : String}
    (h : (target, home) ∈ findHomes separator defined aliases facts) :
    ∃ fact ∈ facts, ∃ outer name, outer ++ [name] <+: fact.scope ∧
      target = pathOf separator (outer ++ [name]) ∧ (name, home) ∈ aliases := by
  rw [findHomes, List.mem_mergeSort] at h
  refine List.foldlRecOn (motive := fun homes => (target, home) ∈ homes → ∃ fact ∈ facts,
      ∃ outer name, outer ++ [name] <+: fact.scope ∧
        target = pathOf separator (outer ++ [name]) ∧ (name, home) ∈ aliases)
    facts _ (fun hmem => absurd hmem List.not_mem_nil) (fun homes ih fact hfact hmem => ?_) h
  rw [addHome] at hmem
  split at hmem
  · exact ih hmem
  · next path name hundefined =>
    split at hmem
    · exact ih hmem
    · split at hmem
      · next bound hbound =>
        rcases List.mem_append.1 hmem with hold | hnew
        · exact ih hold
        · cases List.mem_singleton.1 hnew
          obtain ⟨outer, hstarts, rfl⟩ := undefined?_eq_some hundefined
          obtain ⟨later, earlier, haliases, -⟩ := List.lookup_eq_some_iff.1 hbound
          exact ⟨fact, hfact, outer, name, hstarts, rfl, by simp [haliases]⟩
      · exact ih hmem

/-- A name of a file is bound by an import. -/
theorem mem_aliases {f : SourceFile} {home : String} (h : (name, home) ∈ (ofFile f).aliases) :
    ∃ fact ∈ f.facts, fact.kind = .imported ∧
      ∃ target, fact.target = some target ∧ (ofFile f).module.absolutize target = home := by
  have hmem := (List.mem_filter.1 (List.mem_reverse.1 h)).1
  obtain ⟨fact, hfact, hbinds⟩ := List.mem_filterMap.1 hmem
  split at hbinds
  · next hkind =>
    obtain ⟨target, htarget, heq⟩ := Option.map_eq_some_iff.1 hbinds
    cases heq
    exact ⟨fact, hfact, beq_iff_eq.1 hkind, target, htarget, rfl⟩
  · cases hbinds

theorem mem_homes {f : SourceFile} {target home : String}
    (h : (target, home) ∈ (ofFile f).homes) : (ofFile f).separator = "::" ∧
      ∃ fact ∈ f.facts, ∃ outer name, outer ++ [name] <+: fact.scope ∧
        target = pathOf "::" (outer ++ [name]) ∧ (name, home) ∈ (ofFile f).aliases := by
  have hhomes : (ofFile f).homes = if (ofFile f).separator == "::" then
      findHomes "::" (definedPaths "::" f.facts) (ofFile f).aliases f.facts else [] := rfl
  rw [hhomes] at h
  split at h
  · next hseparator => exact ⟨beq_iff_eq.1 hseparator, mem_findHomes h⟩
  · exact absurd h List.not_mem_nil

/-! ## Files with names -/

/-- Whether all that a file defines, and all that stands around it, has a name that is one segment,
and no import stands for the empty path. -/
structure Named (f : SourceFile) : Prop where
  names : ∀ fact ∈ f.facts, fact.definitionKind?.isSome = true →
    fact.name ≠ "" ∧ occurs (ofFile f).separator fact.name = false
  scopes : ∀ fact ∈ f.facts, ∀ segment ∈ fact.scope,
    segment ≠ "" ∧ occurs (ofFile f).separator segment = false
  imports : ∀ fact ∈ f.facts, fact.kind = .imported → ∀ target ∈ fact.target,
    (ofFile f).module.absolutize target ≠ ""

theorem Named.homes {f : SourceFile} (h : Named f) :
    ∀ entry ∈ (ofFile f).homes, entry.1 ≠ "" ∧ entry.2 ≠ "" := by
  rintro ⟨target, home⟩ hmem
  obtain ⟨-, fact, hfact, outer, name, hstarts, rfl, hbound⟩ := mem_homes hmem
  obtain ⟨bound, hbounds, hkind, written, hwritten, rfl⟩ := mem_aliases hbound
  refine ⟨fun hempty => ?_, h.imports bound hbounds hkind written hwritten⟩
  have hnames : ∀ segment ∈ outer ++ [name], segment ≠ "" := fun segment hsegment =>
    (h.scopes fact hfact segment (hstarts.subset hsegment)).1
  exact absurd ((intercalate_eq_empty_iff hnames).1 hempty) (by simp)

theorem suffix_relative (separator : String) (scope : List String) (name : String) :
    name.toList <:+ (relative separator scope name).toList := by
  rw [relative, join]
  split
  · exact List.suffix_rfl
  · split
    · next hempty =>
      rw [beq_iff_eq.1 hempty]
      exact List.nil_suffix
    · rw [String.toList_append]
      exact List.suffix_append ..

/-- Only the path of a colon ends with a separator. -/
theorem eq_colon_of_relative_eq {scope : List String} (hname : name ≠ "")
    (hplain : occurs "::" name = false) (h : relative "::" scope name = base ++ "::") :
    name = ":" := by
  have hend : "::".toList <:+ (relative "::" scope name).toList := by
    rw [h, String.toList_append]
    exact List.suffix_append ..
  have hlast := suffix_relative "::" scope name
  rcases Nat.le_total "::".toList.length name.toList.length with hlong | hshort
  · have hinside := (List.suffix_of_suffix_length_le hend hlast hlong).isInfix
    exact absurd hinside ((occurs_eq_false_iff (by decide)).1 hplain)
  · have hcolons : name.toList <:+ [':', ':'] :=
      List.suffix_of_suffix_length_le hlast hend hshort
    rw [List.suffix_cons_iff, List.suffix_cons_iff, List.suffix_nil] at hcolons
    rcases hcolons with hcolons | hcolons | hcolons
    · have hinside : "::".toList <:+: name.toList := hcolons ▸ List.infix_rfl
      exact absurd hinside ((occurs_eq_false_iff (by decide)).1 hplain)
    · exact String.toList_inj.1 hcolons
    · exact absurd (String.toList_inj.1 hcolons) hname

/-! ## Looking own names up -/

variable {r : Relationship} {o : LocalDefinition}

/-- A name that one of the file's own definitions may have is given to one of them, whatever the
other files define. -/
theorem qualified_own (ho : o ∈ c.definitions) (hpath : o.path ∈ c.pathsOf name)
    (hacc : r.accepts o.kind = true) : ∃ own ∈ c.definitions, own.path ∈ c.pathsOf name ∧
      r.accepts own.kind = true ∧
      ∀ index, c.qualified index name r = .ok (.resolved name own.id) := by
  obtain ⟨id, hlocal⟩ := exists_local? ho hacc
  cases hfound : (c.pathsOf name).findSome? fun path => c.local? path r with
  | none =>
      have hnone := List.findSome?_eq_none_iff.1 hfound o.path hpath
      rw [hlocal] at hnone
      cases hnone
  | some id =>
      obtain ⟨path, hmem, hgives⟩ := List.exists_of_findSome?_eq_some hfound
      obtain ⟨own, hown, rfl⟩ := local?_eq_some_iff.1 hgives
      refine ⟨own, hown.defined, hown.there ▸ hmem, hown.accepted, fun index => ?_⟩
      rw [qualified, hfound]
      rfl

/-- The path of a definition does not end with a separator behind a home's target, if that of a
colon does not. -/
theorem Named.path_ne {f : SourceFile} (h : Named f) {fact : Fact} (hfact : fact ∈ f.facts)
    (ho : (ofFile f).definition? fact = some o)
    (hcolon : fact.name = ":" → ∀ entry ∈ (ofFile f).homes, o.path ≠ entry.1 ++ "::") :
    ∀ entry ∈ (ofFile f).homes, o.path ≠ entry.1 ++ (ofFile f).separator := by
  intro entry hentry heq
  obtain ⟨kind, hkind, rfl⟩ := Option.map_eq_some_iff.1 ho
  obtain ⟨hname, hplain⟩ := h.names fact hfact (by rw [hkind]; rfl)
  have hseparator := (mem_homes hentry).1
  simp only [hseparator] at heq hplain hcolon
  exact hcolon (eq_colon_of_relative_eq hname hplain heq) entry hentry heq

/-- **The names of a file's own definitions lead back to them.**  If all names in a file are single
segments and no import stands for the empty path, then the path of each definition is among those
that its qualified name may stand at.  So that name is looked up among the file's own definitions
and never in the index, if what has it is accepted; this goes for a method of an imported type as
well.  Left out is what is named by a colon, where its path is the target of a home and the
separator. -/
theorem qualify_undone {f : SourceFile} (h : Named f) {fact : Fact} (hfact : fact ∈ f.facts)
    (ho : (ofFile f).definition? fact = some o)
    (hcolon : fact.name = ":" → ∀ entry ∈ (ofFile f).homes, o.path ≠ entry.1 ++ "::") :
    o.path ∈ (ofFile f).pathsOf ((ofFile f).qualify o.path) ∧
    ∀ r : Relationship, r.accepts o.kind = true →
      ∃ own ∈ (ofFile f).definitions, own.path ∈ (ofFile f).pathsOf ((ofFile f).qualify o.path) ∧
        r.accepts own.kind = true ∧
        ∀ index, (ofFile f).qualified index ((ofFile f).qualify o.path) r =
          .ok (.resolved ((ofFile f).qualify o.path) own.id) := by
  have hpath : o.path ≠ "" := by
    obtain ⟨kind, hkind, rfl⟩ := Option.map_eq_some_iff.1 ho
    exact join_ne_empty (h.names fact hfact (by rw [hkind]; rfl)).1
  have hmem := mem_pathsOf_qualify h.homes hpath (h.path_ne hfact ho hcolon)
  exact ⟨hmem, fun r => qualified_own (mem_definitions_iff.2 ⟨fact, hfact, ho⟩) hmem⟩

/-- Two types from elsewhere, the second of which stands in the first, with a function each. -/
def overlappingTypes : SourceFile :=
  ⟨"src/m.rs", "src/m.rs", "rust", "::",
    [.imported "T" "ext" [] ⟨0, 4, 0, 7⟩,
      .imported "U" "ext::T" [] ⟨1, 4, 1, 10⟩,
      .definition .function "run" ["T", "T"] ⟨2, 19, 2, 28⟩ "fn run()",
      .definition .method "run" ["U"] ⟨3, 9, 3, 18⟩ "fn run()"], ⟨0, 0, 4, 0⟩⟩

theorem overlappingTypes_homes :
    (ofFile overlappingTypes).homes = [("T", "ext"), ("U", "ext::T")] := by
  have hfound : overlappingTypes.facts.foldl (fun homes fact => addHome "::"
      (definedPaths "::" overlappingTypes.facts) (ofFile overlappingTypes).aliases homes fact.scope)
        [] = [("T", "ext"), ("U", "ext::T")] := by decide +kernel
  have hhomes : (ofFile overlappingTypes).homes = findHomes "::"
      (definedPaths "::" overlappingTypes.facts) (ofFile overlappingTypes).aliases
        overlappingTypes.facts := rfl
  rw [hhomes, findHomes, hfound, List.mergeSort_of_pairwise (by decide)]

theorem qualify_undone_overlappingTypes : Named overlappingTypes ∧
    ∃ fact ∈ overlappingTypes.facts, ∃ o, (ofFile overlappingTypes).definition? fact = some o ∧
      o.path = "U::run" ∧ (ofFile overlappingTypes).qualify o.path = "ext::T::run" ∧
      (ofFile overlappingTypes).pathsOf "ext::T::run" = ["T::T::run", "U::run"] ∧
      "U::run" ∈ (ofFile overlappingTypes).pathsOf "ext::T::run" ∧
      ∃ own ∈ (ofFile overlappingTypes).definitions, ∀ index,
        (ofFile overlappingTypes).qualified index "ext::T::run" .calls =
          .ok (.resolved "ext::T::run" own.id) := by
  have hnamed : Named overlappingTypes :=
    ⟨by decide +kernel, by decide +kernel, by decide +kernel⟩
  have hmethod : Fact.definition .method "run" ["U"] ⟨3, 9, 3, 18⟩ "fn run()" ∈
      overlappingTypes.facts := by decide
  have hname : (ofFile overlappingTypes).qualify "U::run" = "ext::T::run" := by
    rw [qualify, overlappingTypes_homes]
    decide +kernel
  have hdefines : (ofFile overlappingTypes).definition?
      (.definition .method "run" ["U"] ⟨3, 9, 3, 18⟩ "fn run()") =
        some ⟨"U::run", .method, Node.idOf .method ((ofFile overlappingTypes).qualify "U::run")⟩ :=
    rfl
  have hpaths : (ofFile overlappingTypes).pathsOf "ext::T::run" = ["T::T::run", "U::run"] := by
    rw [pathsOf, overlappingTypes_homes]
    decide +kernel
  obtain ⟨hmem, hfound⟩ := qualify_undone hnamed hmethod hdefines fun h => absurd h (by decide)
  obtain ⟨own, hown, -, -, hindex⟩ := hfound .calls rfl
  simp only [hname] at hmem hindex
  exact ⟨hnamed, _, hmethod, _, hdefines, rfl, hname, hpaths, hmem, own, hown, hindex⟩

/-- A type from elsewhere whose name ends with a colon, and a method whose name is one. -/
def colonMethod : SourceFile :=
  ⟨"src/m.rs", "src/m.rs", "rust", "::",
    [.imported "a:" "crate::h::A" [] ⟨0, 4, 0, 15⟩,
      .call "crate::h::A" ["a:"] ⟨1, 0, 1, 13⟩,
      .definition .method ":" ["a"] ⟨2, 0, 2, 9⟩ "fn :()"], ⟨0, 0, 3, 0⟩⟩

/-- The method is named like the type, and is not found by that name. -/
theorem colonMethod_not_undone : Named colonMethod ∧
    (ofFile colonMethod).definitions = [⟨"a:::", .method, "method:crate::h::A"⟩] ∧
    (ofFile colonMethod).qualify "a:::" = "crate::h::A" ∧
    "a:::" ∉ (ofFile colonMethod).pathsOf "crate::h::A" ∧
    (ofFile colonMethod).qualified (.ofList []) "crate::h::A" .calls =
      .ok (.unresolved "crate::h::A") :=
  ⟨⟨by decide +kernel, by decide +kernel, by decide +kernel⟩, by decide +kernel, by decide +kernel,
    by decide +kernel, by decide +kernel⟩

end FileScope

end Resolve

end CodeAtlas
