import CodeAtlas.Proofs.Modules.Relative
import CodeAtlas.Proofs.Resolve.Identity
import Mathlib.Data.List.Induction
import Mathlib.Data.List.TakeDrop

/-!
# CodeAtlas.Proofs.Resolve.Anchors

Paths that start at a module: `self::p`, and `super::p` with any number of `super`.

Such a path is read as it is written (`Resolve.read_anchored`) and taken from the module of the
file, as many levels up as it has `super` (`ModulePath.absolutizeRust_anchored`).  Modules that are
written inside of the file do not count.  Counting them gives the same only where there are none, or
where the path leaves the crate either way (`ModulePath.ancestor_inside_eq_iff`).  Main statement:
`resolve_anchored`.
-/

namespace CodeAtlas

open CodeAtlas.Text

namespace ModulePath

variable {module : String} {modules names : List String} {levels : Nat}

/-! ## Levels -/

/-- Each level that there is makes a name shorter. -/
theorem length_ancestor_lt {name : String} (hname : name ≠ "") (levels : Nat) :
    (ancestor "::" name (levels + 1)).length < name.length := by
  induction levels generalizing name with
  | zero => exact length_parentOf_lt hname
  | succ levels ih =>
      rw [ancestor]
      by_cases hparent : parentOf "::" name = ""
      · rw [hparent, ancestor_empty (by decide)]
        exact Nat.pos_of_ne_zero (by simpa using hname)
      · exact Nat.lt_trans (ih hparent) (length_parentOf_lt hname)

theorem length_ancestor_le (name : String) (levels : Nat) :
    (ancestor "::" name levels).length ≤ name.length := by
  cases levels with
  | zero => exact Nat.le_refl _
  | succ levels =>
      by_cases hname : name = ""
      · rw [hname, ancestor_empty (by decide)]
      · exact Nat.le_of_lt (length_ancestor_lt hname levels)

/-! ## Modules inside of a module -/

/-- The name of the innermost of some modules, each of which is written inside of the one
before it. -/
def inside (module : String) (modules : List String) : String :=
  join "::" module ("::".intercalate modules)

theorem inside_nil : inside module [] = module := by
  by_cases h : module = "" <;> simp [inside, join, h]

theorem inside_append (hmodule : module ≠ "") (hnames : ∀ name ∈ modules, name ≠ "")
    {last : String} (hlast : last ≠ "") :
    inside module (modules ++ [last]) = inside module modules ++ "::" ++ last := by
  cases modules with
  | nil => simp [inside, join, hmodule, hlast]
  | cons name modules =>
      have hne : "::".intercalate (name :: modules) ≠ "" :=
        intercalate_cons_ne_empty (hnames name List.mem_cons_self) modules
      rw [inside, inside, intercalate_append_singleton (List.cons_ne_nil _ _)]
      simp [join, hmodule, hne, String.append_assoc]

section Inside

variable (hmodule : module ≠ "") (hnames : ∀ name ∈ modules, name ≠ "" ∧ ':' ∉ name.toList)

include hmodule hnames

theorem length_le_inside : module.length ≤ (inside module modules).length := by
  cases modules with
  | nil => simp [inside_nil]
  | cons name modules =>
      have hne : "::".intercalate (name :: modules) ≠ "" :=
        intercalate_cons_ne_empty (hnames name List.mem_cons_self).1 modules
      simp only [inside, join, beq_iff_eq, hmodule, hne, if_false, String.length_append]
      omega

/-- Some levels up from a module inside of another one are either still inside of that, or as many
levels above it as are left. -/
theorem ancestor_inside (levels : Nat) :
    (modules.length ≤ levels → ancestor "::" (inside module modules) levels =
      ancestor "::" module (levels - modules.length)) ∧
    (levels < modules.length →
      module.length < (ancestor "::" (inside module modules) levels).length) := by
  induction modules using List.reverseRecOn generalizing levels with
  | nil => simp [inside_nil]
  | append_singleton modules last ih =>
      have hlast := hnames last (by simp)
      have hfront : ∀ name ∈ modules, name ≠ "" ∧ ':' ∉ name.toList := fun name hname =>
        hnames name (List.mem_append_left _ hname)
      rw [inside_append hmodule (fun name hname => (hfront name hname).1) hlast.1,
        List.length_append, List.length_singleton]
      cases levels with
      | zero =>
          have hlength := length_le_inside hmodule hfront
          simp only [ancestor, String.length_append]
          have htwo : "::".length = 2 := rfl
          omega
      | succ levels =>
          rw [ancestor, parentOf_append _ hlast.2, Nat.add_sub_add_right, Nat.add_le_add_iff_right,
            Nat.add_lt_add_iff_right]
          exact ih hfront levels

/-- Modules inside count for nothing only where there are none, or where no level is left. -/
theorem ancestor_inside_eq_iff (levels : Nat) :
    ancestor "::" module levels = ancestor "::" (inside module modules) levels ↔ modules = [] ∨
      (modules.length ≤ levels ∧ ancestor "::" module (levels - modules.length) = "") := by
  have hinside := ancestor_inside hmodule hnames levels
  by_cases hle : modules.length ≤ levels
  · have hsplit := ancestor_add "::" module (levels - modules.length) modules.length
    rw [Nat.sub_add_cancel hle] at hsplit
    rw [hinside.1 hle, hsplit]
    cases hlength : modules.length with
    | zero => simp [List.length_eq_zero_iff.1 hlength, ancestor]
    | succ n =>
        have hne : modules ≠ [] := List.ne_nil_of_length_eq_add_one hlength
        simp only [hne, false_or, ← hlength, hle, true_and]
        constructor
        · intro heq
          by_contra hleft
          have hlt := length_ancestor_lt hleft n
          rw [← hlength, heq] at hlt
          exact Nat.lt_irrefl _ hlt
        · intro hleft
          rw [hleft, ancestor_empty (by decide)]
  · have hne : modules ≠ [] := by
      rintro rfl
      exact hle (Nat.zero_le _)
    simp only [hne, hle, false_and, or_false, iff_false]
    intro heq
    have hlt := hinside.2 (by omega)
    rw [← heq] at hlt
    exact Nat.not_lt.2 (length_ancestor_le module levels) hlt

end Inside

/-! ## Anchored paths -/

/-- How a path starts that is taken from the module that is some levels up. -/
def anchor : Nat → List String
  | 0 => ["self"]
  | levels + 1 => List.replicate (levels + 1) "super"

/-- A path that starts some levels up, as it is written. -/
def anchored (levels : Nat) (names : List String) : String :=
  "::".intercalate (anchor levels ++ names)

/-- What such a path stands for in a module. -/
def above (module : String) (levels : Nat) (names : List String) : String :=
  join "::" (ancestor "::" module levels) ("::".intercalate names)

theorem exists_anchor (levels : Nat) : ∃ first rest, anchor levels = first :: rest ∧
    (first = "self" ∨ first = "super") := by
  cases levels with
  | zero => exact ⟨_, _, rfl, .inl rfl⟩
  | succ levels => exact ⟨_, _, rfl, .inr rfl⟩

theorem mem_anchor {levels : Nat} {name : String} (h : name ∈ anchor levels) :
    name = "self" ∨ name = "super" := by
  cases levels with
  | zero => exact .inl (List.mem_singleton.1 h)
  | succ levels => exact .inr (List.eq_of_mem_replicate h)

/-- What is plain about the names in a path is so about the names in front of them. -/
theorem not_mem_of_mem_anchored {c : Char} (hself : c ∉ "self".toList) (hsuper : c ∉ "super".toList)
    (hnames : ∀ name ∈ names, c ∉ name.toList) :
    ∀ name ∈ anchor levels ++ names, c ∉ name.toList := by
  intro name hname
  rcases List.mem_append.1 hname with hfirst | hrest
  · rcases mem_anchor hfirst with rfl | rfl
    · exact hself
    · exact hsuper
  · exact hnames name hrest

theorem split_anchored (hnames : ∀ name ∈ names, ':' ∉ name.toList) :
    split "::" (anchored levels names) = anchor levels ++ names := by
  obtain ⟨first, rest, hanchor, -⟩ := exists_anchor levels
  exact split_intercalate (by simp [hanchor])
    (not_mem_of_mem_anchored (by decide) (by decide) hnames)

/-- A path that starts some levels up is taken from the module there. -/
theorem absolutizeRust_anchored (m : ModulePath) (hnames : ∀ name ∈ names, ':' ∉ name.toList)
    (hfirst : 0 < levels → names.head? ≠ some "super") :
    m.absolutizeRust (anchored levels names) = above m.qualifiedName levels names := by
  cases levels with
  | zero => rw [absolutizeRust, split_anchored hnames]; rfl
  | succ levels =>
      exact absolutizeRust_of_split m (split_anchored hnames) (hfirst (Nat.succ_pos levels))

/-! ## Modules of files -/

/-- A crate has a name. -/
theorem crateOf_ne_empty {segments : List String} (h : ∀ segment ∈ segments, segment ≠ "") :
    (crateOf segments).1 ≠ "" := by
  rw [crateOf]
  split
  · next below first directory rest hspan =>
    rw [List.span_eq_takeWhile_dropWhile, Prod.mk.injEq] at hspan
    have hmem : directory ∈ segments.reverse := by
      apply (List.dropWhile_suffix fun segment => segment != "src").mem
      rw [hspan.2]
      simp
    have hname : directory ≠ "" := h directory (List.mem_reverse.1 hmem)
    simpa [crateName] using hname
  · simp
  · simp

/-- The module of a file has a name. -/
theorem ofRust_ne_empty (path : String) : (ofRust path).qualifiedName ≠ "" := by
  have hroot : (crateOf ((split "/" ((stripEnd? ".rs" path).getD path)).filter (· != ""))).1 ≠ "" :=
    crateOf_ne_empty fun segment hsegment => by simpa using (List.mem_filter.1 hsegment).2
  simp only [ofRust]
  generalize crateOf _ = crate at hroot ⊢
  obtain ⟨root, rest⟩ := crate
  exact intercalate_cons_ne_empty hroot _

theorem ofRust_separator (path : String) : (ofRust path).separator = "::" := by
  simp only [ofRust]

theorem ofFile_rust (path : String) : ∃ file, ofFile path "rust" = ofRust file := by
  simp only [ofFile, beq_self_eq_true, if_true]
  exact ⟨_, rfl⟩

end ModulePath

namespace Resolve

open ModulePath

variable {f : SourceFile} {index : SymbolIndex} {r : Resolution} {fact : Fact} {levels : Nat}
  {names : List String}

/-! ## Reading -/

/-- A path that starts some levels up is read as a path. -/
theorem read_anchored (hnames : ∀ name ∈ names, ':' ∉ name.toList ∧ '.' ∉ name.toList) :
    Written.read (anchored levels names) "::" = .path (anchor levels ++ names) := by
  have hpoint : '.' ∉ (anchored levels names).toList :=
    not_mem_intercalate (by decide) (not_mem_of_mem_anchored (by decide) (by decide)
      fun name hname => (hnames name hname).2)
  have hstart : ∃ rest, (anchored levels names).toList = 's' :: rest := by
    obtain ⟨first, rest, hanchor, hfirst⟩ := exists_anchor levels
    rw [anchored, hanchor, List.cons_append]
    rcases hfirst with rfl | rfl <;> cases rest ++ names <;> simp
  obtain ⟨rest, hrest⟩ := hstart
  have hother : strip? "_." (anchored levels names) = none ∧
      strip? "Self::" (anchored levels names) = none := by
    rw [strip?, strip?, hrest]
    exact ⟨rfl, rfl⟩
  rw [Written.read, hother.1, if_pos (by decide), Written.ofRust,
    cutLast?_eq_none (by decide) hpoint,
    hother.2, split_anchored fun name hname => (hnames name hname).1]

theorem absolutize_anchored {c : FileScope} (hseparator : c.separator = "::")
    (hnames : ∀ name ∈ names, ':' ∉ name.toList)
    (hfirst : 0 < levels → names.head? ≠ some "super") :
    c.module.absolutize (anchored levels names) = above c.module.qualifiedName levels names := by
  rw [absolutize, show c.module.separator = "::" from hseparator, if_pos (by decide),
    absolutizeRust_anchored c.module hnames hfirst]

theorem target_anchored {c : FileScope} {scope : List String} {rel : Relationship} {t : Target}
    (hseparator : c.separator = "::")
    (hnames : ∀ name ∈ names, ':' ∉ name.toList ∧ '.' ∉ name.toList)
    (hfirst : 0 < levels → names.head? ≠ some "super")
    (h : c.target index (anchored levels names) scope rel = .ok t) :
    t.targetRef = above c.module.qualifiedName levels names := by
  have hpath : FileScope.pathOf "::" (anchor levels ++ names) = anchored levels names := rfl
  have habsolute := absolutize_anchored hseparator (fun name hname => (hnames name hname).1) hfirst
  rw [FileScope.target, hseparator, read_anchored hnames] at h
  refine FileScope.ofPath_bound ?_ h
  obtain ⟨first, rest, hanchor, hword⟩ := exists_anchor levels
  have hhead :
      (["crate", "super", "self"].contains ((anchor levels ++ names).headD "")) = true := by
    rw [hanchor]
    rcases hword with rfl | rfl <;> rfl
  rw [FileScope.boundName?, hseparator, hhead, hpath, habsolute, if_pos (by decide)]

/-! ## Facts -/

/-- Whether a fact is an import of a path that starts some levels up, or a call, another use or a
base that is written so. -/
structure Anchored (fact : Fact) (levels : Nat) (names : List String) : Prop where
  plain : ∀ name ∈ names, ':' ∉ name.toList ∧ '.' ∉ name.toList
  leading : 0 < levels → names.head? ≠ some "super"
  written : (fact.kind = .imported ∧ fact.target = some (anchored levels names)) ∨
    (fact.kind ∈ [.call, .reference, .base] ∧ fact.name = anchored levels names)

/-- What is not imported is looked for as it is written; only a base may not be looked for. -/
theorem sought?_of_written {c : FileScope} (hkind : fact.kind ∈ [.call, .reference, .base]) :
    (sought? c fact = none → fact.kind = .base ∧ subclass? c fact.scope = none) ∧
      ∀ rel source sought, sought? c fact = some (rel, source, sought) →
        ∃ scope, sought = .written fact.name scope := by
  simp only [List.mem_cons, List.not_mem_nil, or_false] at hkind
  rcases hkind with hcall | hreference | hbase
  · grind [sought?]
  · grind [sought?]
  · grind [sought?, Option.map_eq_none_iff, Option.map_eq_some_iff]

/-- What a fact that starts some levels up refers to has the name that its path has in the module of
the file. -/
theorem reference?_anchored {c : FileScope} {found : Option (Relationship × String × Target)}
    (hseparator : c.separator = "::") (hfact : Anchored fact levels names)
    (h : reference? c index fact = .ok found) :
    (found = none → fact.kind = .base ∧ subclass? c fact.scope = none) ∧
      ∀ rel source t, found = some (rel, source, t) →
        t.targetRef = above c.module.qualifiedName levels names := by
  have habsolute := absolutize_anchored (c := c) hseparator
    (fun name hname => (hfact.plain name hname).1) hfact.leading
  rcases reference?_ok h with ⟨hsought, rfl⟩ | ⟨rel, source, sought, t, hsought, ht, rfl⟩
  · refine ⟨fun _ => ?_, by simp⟩
    rcases hfact.written with ⟨hkind, htarget⟩ | ⟨hkind, -⟩
    · simp [sought?, hkind, htarget] at hsought
    · exact (sought?_of_written hkind).1 hsought
  · refine ⟨by simp, fun rel' source' t' hsome => ?_⟩
    cases hsome
    rcases hfact.written with ⟨hkind, htarget⟩ | ⟨hkind, hname⟩
    · simp only [sought?, hkind, htarget, Option.map_some, Option.some.injEq,
        Prod.mk.injEq] at hsought
      obtain ⟨-, -, rfl⟩ := hsought
      rw [FileScope.qualified_targetRef ht, habsolute]
    · obtain ⟨scope, rfl⟩ := (sought?_of_written hkind).2 rel source sought hsought
      rw [hname] at ht
      exact target_anchored hseparator hfact.plain hfact.leading ht

/-! ## Modules inside of a file -/

/-- Whether a module with a body is written directly in a scope. -/
def definesModule (facts : List Fact) (scope : List String) (name : String) : Bool :=
  facts.any fun d => d.kind == .definition .module && d.scope == scope && d.name == name

/-- The modules with bodies that a scope starts with, below an outer scope. -/
def modulesIn (facts : List Fact) (outer : List String) : List String → List String
  | [] => []
  | name :: scope =>
    if definesModule facts outer name then name :: modulesIn facts (outer ++ [name]) scope else []

theorem exists_module_of_mem {facts : List Fact} {outer scope : List String} {name : String}
    (h : name ∈ modulesIn facts outer scope) :
    ∃ d ∈ facts, d.kind = .definition .module ∧ d.name = name := by
  induction scope generalizing outer with
  | nil => cases h
  | cons first scope ih =>
      rw [modulesIn] at h
      split at h
      · next hdefines =>
        rcases List.mem_cons.1 h with rfl | h
        · obtain ⟨d, hd, hthis⟩ := List.any_eq_true.1 hdefines
          simp only [Bool.and_eq_true, beq_iff_eq] at hthis
          exact ⟨d, hd, hthis.1.1, hthis.2⟩
        · exact ih h
      · cases h

/-- **A path that starts at a module is taken from the module of the file**, wherever in the file it
is written.  The modules inside of the file that it is written in count for nothing: taken from the
innermost of them it has the same name only if there is none, or if it leaves the crate. -/
theorem resolve_anchored (hlanguage : f.language = "rust")
    (hmodules : ∀ d ∈ f.facts, d.kind = .definition .module → d.name ≠ "" ∧ ':' ∉ d.name.toList)
    (hmem : fact ∈ f.facts) (hfact : Anchored fact levels names) (h : resolve index f = .ok r) :
    ∃ found, reference? (FileScope.ofFile f) index fact = .ok found ∧
      (found = none → fact.kind = .base ∧ subclass? (FileScope.ofFile f) fact.scope = none) ∧
      ∀ rel source t, found = some (rel, source, t) →
        (∃ e ∈ r.edges, e.id = Edge.idOf rel source t.targetRef f.filePath) ∧
        t.targetRef = above (FileScope.ofFile f).module.qualifiedName levels names ∧
        (t.targetRef = above (inside (FileScope.ofFile f).module.qualifiedName
            (modulesIn f.facts [] fact.scope)) levels names ↔
          modulesIn f.facts [] fact.scope = [] ∨
            ((modulesIn f.facts [] fact.scope).length ≤ levels ∧
              ancestor "::" (FileScope.ofFile f).module.qualifiedName
                (levels - (modulesIn f.facts [] fact.scope).length) = "")) := by
  obtain ⟨file, hfile⟩ := ofFile_rust f.relativePath
  have hmodule : (FileScope.ofFile f).module = ofRust file := by
    rw [← hfile, ← hlanguage]
    rfl
  have hne : (FileScope.ofFile f).module.qualifiedName ≠ "" := by
    rw [hmodule]
    exact ofRust_ne_empty file
  have hnames : ∀ name ∈ modulesIn f.facts [] fact.scope, name ≠ "" ∧ ':' ∉ name.toList := by
    intro name hname
    obtain ⟨d, hd, hkind, rfl⟩ := exists_module_of_mem hname
    exact hmodules d hd hkind
  have hinside := ancestor_inside_eq_iff hne hnames levels
  obtain ⟨found, hfound, hedge⟩ := addReferences_ids h hmem
  have hseparator : (FileScope.ofFile f).separator = "::" := by
    rw [FileScope.separator, hmodule, ofRust_separator]
  obtain ⟨hnone, hname⟩ := reference?_anchored hseparator hfact hfound
  refine ⟨found, hfound, hnone, fun rel source t hsome => ⟨hedge rel source t hsome,
    hname rel source t hsome, ?_⟩⟩
  rw [hname rel source t hsome, ← hinside]
  exact ⟨join_left_inj (by decide), fun heq => by rw [above, above, heq]⟩

/-- A file with a module inside of it, in which a function calls its neighbour. -/
def nestedModule : SourceFile :=
  ⟨"src/a.rs", "src/a.rs", "rust", "::",
    [.definition .module "inner" [] ⟨0, 0, 3, 1⟩ "mod inner",
      .definition .function "g" ["inner"] ⟨1, 4, 1, 13⟩ "fn g()",
      .definition .function "f" ["inner"] ⟨2, 4, 2, 25⟩ "fn f()",
      .call "self::g" ["inner", "f"] ⟨2, 13, 2, 22⟩], ⟨0, 0, 4, 0⟩⟩

theorem resolve_anchored_nestedModule : ∃ r source t,
    resolve (.ofList []) nestedModule = .ok r ∧
      reference? (FileScope.ofFile nestedModule) (.ofList [])
        (.call "self::g" ["inner", "f"] ⟨2, 13, 2, 22⟩) = .ok (some (.calls, source, t)) ∧
      (∃ e ∈ r.edges, e.id = Edge.idOf .calls source t.targetRef "src/a.rs") ∧
      modulesIn nestedModule.facts [] ["inner", "f"] = ["inner"] ∧
      t.targetRef = "crate::a::g" ∧ t.targetRef ≠ "crate::a::inner::g" := by
  have hname : (FileScope.ofFile nestedModule).module.qualifiedName = "crate::a" := by
    decide +kernel
  have hmodules : modulesIn nestedModule.facts [] ["inner", "f"] = ["inner"] := by decide
  have hfact : Anchored (.call "self::g" ["inner", "f"] ⟨2, 13, 2, 22⟩) 0 ["g"] :=
    ⟨by decide, by decide, .inr ⟨by decide, rfl⟩⟩
  obtain ⟨r, hr⟩ := resolve_answered (SymbolIndex.ofList_answers []) nestedModule
  obtain ⟨found, hfound, hnone, hall⟩ :=
    resolve_anchored rfl (by decide) (by decide) hfact hr
  have hcall : (reference? (FileScope.ofFile nestedModule) (.ofList [])
      (.call "self::g" ["inner", "f"] ⟨2, 13, 2, 22⟩)).map (fun found => found.map (·.1)) =
      .ok (some .calls) := by decide +kernel
  rw [hfound] at hcall
  match found, hcall, hall with
  | some (.calls, source, t), _, hall =>
    obtain ⟨hedge, htarget, hinside⟩ := hall .calls source t rfl
    rw [hname] at htarget hinside
    refine ⟨r, source, t, hr, hfound, hedge, hmodules, htarget.trans (by decide), fun hsame => ?_⟩
    have hcounts := hinside.1 (hsame.trans (by decide))
    revert hcounts
    decide

end Resolve

end CodeAtlas
