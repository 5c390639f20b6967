import CodeAtlas.Proofs.Resolve.Containment
import CodeAtlas.Proofs.Resolve.Identity
import Mathlib.Data.Prod.Lex
import Mathlib.Data.String.Basic

/-!
# CodeAtlas.Proofs.Resolve.Binding

What a file binds itself, whatever it imports and whatever other files hold.

A path is bound by the innermost scope around it that defines it, where the body of a class is
passed over from inside of its functions; a member of the own object is bound by the class around
(`FileScope.Binds`).  Both are told by the definitions of the file alone.  Imports stand behind
them: files that are the same but for imports have the same definitions under the same names
(`FileScope.ofFile_of_withoutImports`), and imports and symbols are asked only for what is not bound
(`FileScope.target_of_binds`).

Edges are kept by their ids, so a reference gets none of its own if an earlier one has the id
(`ListsEdge`).
-/

namespace CodeAtlas

/-- The file as if it imported nothing. -/
def SourceFile.withoutImports (f : SourceFile) : SourceFile :=
  { f with facts := f.facts.filter (·.kind != .imported) }

namespace Resolve

/-- Kind and id, in the order in which definitions at one path are preferred. -/
def LocalDefinition.position (o : LocalDefinition) : Nat ×ₗ String := toLex (o.kind.rank, o.id)

namespace FileScope

variable {c : FileScope} {r : Relationship}

/-! ## The definition that is meant at a path -/

/-- Whether a definition is the one that is meant at a path: of those that the relationship
accepts, the first one by kind and id. -/
structure Meant (c : FileScope) (r : Relationship) (path : String) (o : LocalDefinition) :
    Prop where
  defined : o ∈ c.definitions
  there : o.path = path
  accepted : r.accepts o.kind = true
  first : ∀ other ∈ c.definitions, other.path = path → r.accepts other.kind = true →
    o.position ≤ other.position

theorem Meant.unique {path : String} {o o' : LocalDefinition} (h : c.Meant r path o)
    (h' : c.Meant r path o') : o.id = o'.id := by
  have hsame : o.position = o'.position := le_antisymm
    (h.first o' h'.defined h'.there h'.accepted) (h'.first o h.defined h.there h.accepted)
  exact congrArg (fun p => (ofLex p).2) hsame

theorem comesFirst_iff {a b : LocalDefinition} :
    comesFirst a b = true ↔ a.position ≤ b.position := by
  simp [comesFirst, LocalDefinition.position, Prod.Lex.toLex_le_toLex]

theorem first?_le {ds : List LocalDefinition} {d : LocalDefinition} (h : first? ds = some d) :
    ∀ other ∈ ds, d.position ≤ other.position := by
  induction ds generalizing d with
  | nil => cases h
  | cons a ds ih =>
      rw [first?] at h
      split at h
      · next hnone =>
        cases h
        rw [first?_eq_none_iff.1 hnone]
        simp
      · next b hb =>
        split at h
        · next hab =>
          cases h
          exact List.forall_mem_cons.2
            ⟨le_rfl, fun other hmem => (comesFirst_iff.1 hab).trans (ih hb other hmem)⟩
        · next hab =>
          cases h
          rw [comesFirst_iff, not_le] at hab
          exact List.forall_mem_cons.2 ⟨hab.le, ih hb⟩

/-- What is looked up at a path is what is meant there. -/
theorem local?_eq_some_iff {path id : String} :
    c.local? path r = some id ↔ ∃ o, c.Meant r path o ∧ o.id = id := by
  have hmeant : ∀ {id}, c.local? path r = some id → ∃ o, c.Meant r path o ∧ o.id = id := fun h => by
    obtain ⟨o, ho, hid⟩ := Option.map_eq_some_iff.1 h
    obtain ⟨hat, haccepted⟩ := List.mem_filter.1 (first?_mem ho)
    obtain ⟨hdefined, hthere⟩ := mem_definitionsAt.1 hat
    exact ⟨o, ⟨hdefined, hthere, haccepted, fun other hother hpath hacc => first?_le ho other
      (List.mem_filter.2 ⟨mem_definitionsAt.2 ⟨hother, hpath⟩, hacc⟩)⟩, hid⟩
  refine ⟨hmeant, ?_⟩
  rintro ⟨o, ho, rfl⟩
  obtain ⟨id, hid⟩ := exists_local? ho.defined ho.accepted
  rw [ho.there] at hid
  obtain ⟨d, hd, rfl⟩ := hmeant hid
  rw [hid, hd.unique ho]

/-! ## From the innermost scope outwards -/

/-- Whether a part of a scope is the innermost one with a property. -/
structure IsInnermost (p : List String → Prop) (part : List String) : Prop where
  has : p part
  innermost : ∀ inner, p inner → inner.length ≤ part.length

theorem mem_outerScopes {scope part : List String} :
    part ∈ outerScopes scope ↔ part <+: scope ∧ part ≠ [] := by
  simp only [outerScopes, List.mem_reverse, List.mem_map, List.mem_range]
  constructor
  · rintro ⟨i, hi, rfl⟩
    have hlength : (scope.take (i + 1)).length = i + 1 := List.length_take_of_le hi
    exact ⟨List.take_prefix _ _, List.ne_nil_of_length_pos (by omega)⟩
  · rintro ⟨haround, hne⟩
    have hlength : part.length ≤ scope.length := haround.length_le
    have hpos : 0 < part.length := List.length_pos_iff.2 hne
    refine ⟨part.length - 1, by omega, ?_⟩
    rw [Nat.sub_add_cancel hpos, ← List.prefix_iff_eq_take.1 haround]

theorem pairwise_outerScopes (scope : List String) :
    (outerScopes scope).Pairwise fun a b => b.length < a.length := by
  rw [outerScopes, List.pairwise_reverse, List.pairwise_map]
  refine List.pairwise_lt_range.imp_of_mem fun {i j} hi hj hij => ?_
  have hlast : j < scope.length := List.mem_range.1 hj
  simp only [List.length_take]
  omega

theorem mem_scopes {scope part : List String} :
    part ∈ outerScopes scope ++ [[]] ↔ part <+: scope := by
  rw [List.mem_append, List.mem_singleton, mem_outerScopes]
  constructor
  · rintro (⟨haround, -⟩ | rfl)
    · exact haround
    · exact List.nil_prefix
  · intro haround
    by_cases hempty : part = []
    · exact .inr hempty
    · exact .inl ⟨haround, hempty⟩

theorem pairwise_scopes (scope : List String) :
    (outerScopes scope ++ [[]]).Pairwise fun a b : List String => b.length < a.length := by
  refine List.pairwise_append.2
    ⟨pairwise_outerScopes scope, List.pairwise_singleton _ _, fun part hpart last hlast => ?_⟩
  rw [List.mem_singleton.1 hlast]
  exact List.length_pos_iff.2 (mem_outerScopes.1 hpart).2

/-- A search that starts with the longest part ends at the longest one that has something. -/
theorem findSome?_longest {α : Type} {parts : List (List String)}
    (hsorted : parts.Pairwise fun a b => b.length < a.length) {g : List String → Option α} {b : α} :
    parts.findSome? g = some b ↔ ∃ part ∈ parts, g part = some b ∧
      ∀ inner ∈ parts, ∀ d, g inner = some d → inner.length ≤ part.length := by
  induction parts with
  | nil => simp
  | cons a parts ih =>
      obtain ⟨hlonger, hsorted⟩ := List.pairwise_cons.1 hsorted
      cases ha : g a with
      | some d =>
          rw [List.findSome?_cons_of_isSome (by simp [ha]), ha]
          constructor
          · intro hd
            refine ⟨a, List.mem_cons_self, ha.trans hd, fun inner hinner _ _ => ?_⟩
            rcases List.mem_cons.1 hinner with rfl | hinner
            · exact Nat.le_refl _
            · exact Nat.le_of_lt (hlonger inner hinner)
          · rintro ⟨part, hpart, hfound, hinnermost⟩
            have hle : a.length ≤ part.length := hinnermost a List.mem_cons_self d ha
            rcases List.mem_cons.1 hpart with rfl | hpart
            · exact ha.symm.trans hfound
            · exact absurd (hlonger part hpart) (Nat.not_lt.2 hle)
      | none =>
          rw [List.findSome?_cons_of_isNone (by simp [ha]), ih hsorted]
          simp [ha]

theorem find?_longest {parts : List (List String)}
    (hsorted : parts.Pairwise fun a b => b.length < a.length) {p : List String → Bool}
    {part : List String} : parts.find? p = some part ↔ part ∈ parts ∧ p part = true ∧
      ∀ inner ∈ parts, p inner = true → inner.length ≤ part.length := by
  rw [List.find?_eq_findSome?_guard, findSome?_longest hsorted]
  simp only [Option.guard_eq_some_iff]
  constructor
  · rintro ⟨_, hmem, ⟨rfl, hp⟩, hlongest⟩
    exact ⟨hmem, hp, fun inner hinner hpinner => hlongest inner hinner inner ⟨rfl, hpinner⟩⟩
  · rintro ⟨hmem, hp, hlongest⟩
    exact ⟨part, hmem, ⟨rfl, hp⟩, fun inner hinner _ h => hlongest inner hinner h.2⟩

/-! ## What binds a reference -/

/-- Whether the names of a part of a scope are seen from inside: the body of a class hides its
names from what stands deeper. -/
structure Sees (c : FileScope) (scope part : List String) : Prop where
  around : part <+: scope
  visible : part = [] ∨ part = scope ∨ c.isClass part = false

/-- Whether a part of a scope is a class with members; a scope that the file does not define is
that of a type from elsewhere. -/
structure HasMembers (c : FileScope) (scope part : List String) : Prop where
  around : part <+: scope
  inside : part ≠ []
  body : c.definitionsAt (pathOf c.separator part) = [] ∨ c.isClass part = true

/-- The definition that a reference is bound to inside of the file: a path means what the innermost
scope that is seen has at it, and a member of the own object what the innermost class has. -/
inductive Binds (c : FileScope) (r : Relationship) (scope : List String) :
    Written → LocalDefinition → Prop
  | inScope {segments part : List String} {o : LocalDefinition}
      (hscope : IsInnermost (fun outer => c.Sees scope outer ∧
        ∃ d, c.Meant r (relative c.separator outer (pathOf c.separator segments)) d) part)
      (hmeant : c.Meant r (relative c.separator part (pathOf c.separator segments)) o) :
      Binds c r scope (.path segments) o
  | onSelf {member : String} {part : List String} {o : LocalDefinition}
      (hclass : IsInnermost (c.HasMembers scope) part)
      (hmeant : c.Meant r (relative c.separator part member) o) :
      Binds c r scope (.onSelf member) o

/-- The target that a definition of the file is. -/
def own (c : FileScope) (o : LocalDefinition) : Target := .resolved (c.qualify o.path) o.id

theorem sees_iff {scope part : List String} :
    c.Sees scope part ↔ part <+: scope ∧ c.hidesNames scope part = false := by
  constructor
  · rintro ⟨haround, hvisible⟩
    refine ⟨haround, ?_⟩
    rw [hidesNames]
    rcases hvisible with rfl | rfl | hbody
    · rfl
    · simp
    · rw [hbody, Bool.and_false]
  · rintro ⟨haround, hhides⟩
    refine ⟨haround, ?_⟩
    simp only [hidesNames, Bool.and_eq_false_iff, Bool.not_eq_false', List.isEmpty_iff,
      decide_eq_false_iff_not, Nat.not_lt] at hhides
    rcases hhides with (hempty | hlong) | hbody
    · exact .inl hempty
    · exact .inr (.inl (haround.eq_of_length_le hlong))
    · exact .inr (.inr hbody)

/-- The target that stands at a path of the file. -/
def ownAt? (c : FileScope) (path : String) (r : Relationship) : Option Target :=
  (c.local? path r).map fun id => .resolved (c.qualify path) id

theorem ownAt?_eq_some_iff {path : String} {t : Target} :
    c.ownAt? path r = some t ↔ ∃ o, c.Meant r path o ∧ c.own o = t := by
  rw [ownAt?, Option.map_eq_some_iff]
  constructor
  · rintro ⟨id, hid, rfl⟩
    obtain ⟨o, ho, rfl⟩ := local?_eq_some_iff.1 hid
    exact ⟨o, ho, by rw [own, ho.there]⟩
  · rintro ⟨o, ho, rfl⟩
    exact ⟨o.id, local?_eq_some_iff.2 ⟨o, ho, rfl⟩, by rw [own, ho.there]⟩

/-- What is found in the scopes around is what the innermost one that is seen has. -/
theorem inScope?_eq_some_iff {segments scope : List String} {t : Target} :
    c.inScope? (pathOf c.separator segments) scope r = some t ↔
      ∃ o, c.Binds r scope (.path segments) o ∧ c.own o = t := by
  have hsearch : c.inScope? (pathOf c.separator segments) scope r =
      (outerScopes scope ++ [[]]).findSome? fun part => if c.hidesNames scope part then none
        else c.ownAt? (relative c.separator part (pathOf c.separator segments)) r := rfl
  rw [hsearch, findSome?_longest (pairwise_scopes scope)]
  simp only [Option.ite_none_left_eq_some, Bool.not_eq_true, ownAt?_eq_some_iff, mem_scopes]
  constructor
  · rintro ⟨part, haround, ⟨hseen, o, ho, rfl⟩, hinnermost⟩
    refine ⟨o, .inScope ⟨⟨sees_iff.2 ⟨haround, hseen⟩, o, ho⟩, ?_⟩ ho, rfl⟩
    rintro inner ⟨hsees, d, hd⟩
    obtain ⟨hinner, hopen⟩ := sees_iff.1 hsees
    exact hinnermost inner hinner (c.own d) ⟨hopen, d, hd, rfl⟩
  · rintro ⟨o, hbinds, rfl⟩
    cases hbinds with
    | inScope hscope ho =>
        obtain ⟨haround, hseen⟩ := sees_iff.1 hscope.has.1
        refine ⟨_, haround, ⟨hseen, o, ho, rfl⟩, ?_⟩
        rintro inner hinner _ ⟨hopen, d, hd, -⟩
        exact hscope.innermost inner ⟨sees_iff.2 ⟨hinner, hopen⟩, d, hd⟩

/-- The class around a scope is the innermost one. -/
theorem enclosingClass?_eq_some_iff {scope part : List String} :
    c.enclosingClass? scope = some part ↔ IsInnermost (c.HasMembers scope) part := by
  rw [enclosingClass?, find?_longest (pairwise_outerScopes scope)]
  simp only [mem_outerScopes, Bool.or_eq_true, List.isEmpty_iff]
  constructor
  · rintro ⟨⟨haround, hinside⟩, hbody, hinnermost⟩
    exact ⟨⟨haround, hinside, hbody⟩, fun inner h => hinnermost inner ⟨h.around, h.inside⟩ h.body⟩
  · rintro ⟨⟨haround, hinside, hbody⟩, hinnermost⟩
    exact ⟨⟨haround, hinside⟩, hbody, fun inner h hinner => hinnermost inner ⟨h.1, h.2, hinner⟩⟩

/-- The target of a member in the class around. -/
def inClass? (c : FileScope) (member : String) (scope : List String) (r : Relationship) :
    Option Target :=
  (c.enclosingClass? scope).bind fun part => c.ownAt? (relative c.separator part member) r

/-- What is found in the class around is what the innermost one has. -/
theorem inClass?_eq_some_iff {member : String} {scope : List String} {t : Target} :
    c.inClass? member scope r = some t ↔ ∃ o, c.Binds r scope (.onSelf member) o ∧ c.own o = t := by
  simp only [inClass?, Option.bind_eq_some_iff, enclosingClass?_eq_some_iff, ownAt?_eq_some_iff]
  constructor
  · rintro ⟨part, hclass, o, ho, rfl⟩
    exact ⟨o, .onSelf hclass ho, rfl⟩
  · rintro ⟨o, hbinds, rfl⟩
    cases hbinds with
    | onSelf hclass ho => exact ⟨_, hclass, o, ho, rfl⟩

theorem ofMember_of_inClass? {index : SymbolIndex} {member : String} {scope : List String}
    {t : Target} (h : c.inClass? member scope r = some t) :
    c.ofMember index member scope r = .ok t := by
  obtain ⟨part, hclass, hown⟩ := Option.bind_eq_some_iff.1 h
  obtain ⟨id, hid, rfl⟩ := Option.map_eq_some_iff.1 hown
  simp only [ofMember, hclass, hid]
  rfl

/-! ## Past imports and symbols -/

/-- What names mean in the file if it imports something else. -/
def withImports (c : FileScope) (aliases : List (String × String)) (globs : List String) :
    FileScope :=
  { c with aliases, globs }

/-- What is bound in the file is looked for neither among imports nor among symbols. -/
theorem target_of_binds (hseparator : c.separator = ".") {written : String} {scope : List String}
    {o : LocalDefinition} (hbinds : c.Binds r scope (.read written ".") o)
    (aliases : List (String × String)) (globs : List String) (index : SymbolIndex) :
    (c.withImports aliases globs).target index written scope r = .ok (c.own o) := by
  have hseparator' : (c.withImports aliases globs).separator = "." := hseparator
  rw [target, hseparator']
  cases hread : Written.read written "." with
  | path segments =>
      rw [hread] at hbinds
      have hhere : c.inScope? (pathOf "." segments) scope r = some (c.own o) := by
        rw [← hseparator]
        exact inScope?_eq_some_iff.2 ⟨o, hbinds, rfl⟩
      have hfound : (c.withImports aliases globs).inScope? (pathOf "." segments) scope r =
          some (c.own o) := hhere
      have hplain : ("." == "::") = false := by decide
      simp only [ofPath, hseparator', hplain, Bool.false_and, Bool.false_eq_true, if_false, hfound]
      rfl
  | onSelf member =>
      rw [hread] at hbinds
      have hfound : c.inClass? member scope r = some (c.own o) :=
        inClass?_eq_some_iff.2 ⟨o, hbinds, rfl⟩
      exact ofMember_of_inClass? hfound
  | dynamic member =>
      rw [hread] at hbinds
      cases hbinds

/-! ## Python files -/

theorem separator_of_python {f : SourceFile} (hpython : f.language = "python") :
    (ofFile f).separator = "." := by
  change (ModulePath.ofFile f.relativePath f.language).separator = "."
  rw [hpython]
  rfl

/-- What stands in a Python file belongs to its module. -/
theorem homes_of_python {f : SourceFile} (hpython : f.language = "python") :
    (ofFile f).homes = [] := by
  have hplain : ((ofFile f).separator == "::") = false := by
    rw [separator_of_python hpython]
    decide
  exact if_neg (Bool.eq_false_iff.1 hplain)

/-- Imports define nothing. -/
theorem findDefinitions_withoutImports (module : ModulePath) (homes : List (String × String))
    (facts : List Fact) : findDefinitions module homes (facts.filter (·.kind != .imported)) =
      findDefinitions module homes facts := by
  rw [findDefinitions, List.foldl_filter, findDefinitions]
  congr 1
  funext ds fact
  by_cases himported : fact.kind = .imported
  · simp [Fact.definitionKind?, himported]
  · simp [himported]

/-- Imports change nothing of what a Python file says of its own names. -/
theorem ofFile_of_withoutImports {f f' : SourceFile} (hpython : f.language = "python")
    (hsame : f.withoutImports = f'.withoutImports) :
    ∃ aliases globs, ofFile f' = (ofFile f).withImports aliases globs := by
  simp only [SourceFile.withoutImports, SourceFile.mk.injEq] at hsame
  obtain ⟨hpath, hplace, hlanguage, -, hfacts, -⟩ := hsame
  have hfile : (ofFile f').file = (ofFile f).file := hplace.symm
  have hmodule : (ofFile f').module = (ofFile f).module := by
    change ModulePath.ofFile f'.relativePath f'.language =
      ModulePath.ofFile f.relativePath f.language
    rw [hpath, hlanguage]
  have hhomes : (ofFile f').homes = (ofFile f).homes :=
    (homes_of_python (hlanguage.symm.trans hpython)).trans (homes_of_python hpython).symm
  have hdefinitions : (ofFile f').definitions = (ofFile f).definitions := by
    change findDefinitions (ofFile f').module (ofFile f').homes f'.facts =
      findDefinitions (ofFile f).module (ofFile f).homes f.facts
    rw [hmodule, hhomes, ← findDefinitions_withoutImports _ _ f'.facts, ← hfacts,
      findDefinitions_withoutImports]
  refine ⟨(ofFile f').aliases, (ofFile f').globs, ?_⟩
  rw [withImports, ← hfile, ← hmodule, ← hhomes, ← hdefinitions]

end FileScope

variable {f f' : SourceFile} {c : FileScope} {index : SymbolIndex} {fact : Fact}

/-- A fact refers to what it looks for. -/
theorem reference?_of_find {r : Relationship} {source : String} {sought : Sought} {t : Target}
    (hsought : sought? c fact = some (r, source, sought)) (hfind : sought.find c index r = .ok t) :
    reference? c index fact = .ok (some (r, source, t)) := by
  cases hkind : fact.kind with
  | imported =>
      simp only [sought?, hkind] at hsought
      obtain ⟨path, htarget, hsome⟩ := Option.map_eq_some_iff.1 hsought
      cases hsome
      simp only [Sought.find] at hfind
      simp only [reference?, hkind, htarget, hfind]
      rfl
  | call =>
      simp only [sought?, hkind] at hsought
      cases hsought
      simp only [Sought.find] at hfind
      simp only [reference?, hkind, hfind]
      rfl
  | reference =>
      simp only [sought?, hkind] at hsought
      cases hsought
      simp only [Sought.find] at hfind
      simp only [reference?, hkind, hfind]
      rfl
  | base =>
      simp only [sought?, hkind] at hsought
      obtain ⟨path, hclass, hsome⟩ := Option.map_eq_some_iff.1 hsought
      cases hsome
      simp only [Sought.find] at hfind
      simp only [reference?, hkind, hclass, hfind]
      rfl
  | definition kind => simp only [sought?, hkind, reduceCtorEq] at hsought
  | syntaxError => simp only [sought?, hkind, reduceCtorEq] at hsought

/-- What a fact looks for, and from where, is not told by imports. -/
theorem sought?_withImports (aliases : List (String × String)) (globs : List String) :
    sought? (c.withImports aliases globs) fact = sought? c fact := rfl

/-- Imports are sought by absolute names. -/
theorem kind_of_written {r : Relationship} {source written : String} {scope : List String}
    (hsought : sought? c fact = some (r, source, .written written scope)) :
    fact.kind ≠ .imported := by
  intro hkind
  simp only [sought?, hkind] at hsought
  obtain ⟨path, -, hsome⟩ := Option.map_eq_some_iff.1 hsought
  cases hsome

/-! ## Edges of references -/

/-- Whether a fact refers to something by an edge with an id. -/
def RefersBy (f : SourceFile) (index : SymbolIndex) (fact : Fact) (id : String) : Prop :=
  ∃ rel source t, reference? (FileScope.ofFile f) index fact = .ok (some (rel, source, t)) ∧
    Edge.idOf rel source t.targetRef f.filePath = id

/-- Whether a resolution lists the edge of a fact: an edge of that id, and this very edge if the
fact is the first one that refers by the id. -/
structure ListsEdge (f : SourceFile) (index : SymbolIndex) (res : Resolution) (fact : Fact)
    (e : Edge) : Prop where
  known : ∃ g ∈ res.edges, g.id = e.id
  first : ∀ before after, f.facts = before ++ fact :: after →
    (∀ other ∈ before, ¬ RefersBy f index other e.id) → e ∈ res.edges

/-- The first reference by an id gets an edge of its own. -/
theorem addReferences_first {facts before after : List Fact} {res r : Resolution}
    {rel : Relationship} {source : String} {t : Target}
    (h : addReferences f (FileScope.ofFile f) index r facts = .ok res)
    (hfacts : facts = before ++ fact :: after)
    (hfound : reference? (FileScope.ofFile f) index fact = .ok (some (rel, source, t)))
    (hfree : ∀ e ∈ r.edges, e.id ≠ (edgeTo f rel source t fact.span).id)
    (hfirst : ∀ other ∈ before, ¬ RefersBy f index other (edgeTo f rel source t fact.span).id) :
    edgeTo f rel source t fact.span ∈ res.edges := by
  subst hfacts
  induction before generalizing r with
  | nil =>
      obtain ⟨found, hagain, h⟩ := bind_ok h
      rw [hfound] at hagain
      cases hagain
      refine addReferences_edges h _ ?_
      have hnew : (r.edges.any fun e => e.id == (edgeTo f rel source t fact.span).id) = false := by
        simpa using hfree
      simp only [addReference, hnew, Bool.false_eq_true, if_false]
      exact List.mem_append_right _ (List.mem_singleton_self _)
  | cons other before ih =>
      obtain ⟨found, hother, h⟩ := bind_ok h
      have hrest := fun fact hmem => hfirst fact (List.mem_cons_of_mem other hmem)
      cases found with
      | none => exact ih hfree hrest h
      | some found =>
          refine ih (fun e he => ?_) hrest h
          rcases addReference_cases f r other.span found with hsame | ⟨-, -, hedges⟩
          · rw [hsame] at he
            exact hfree e he
          · rw [hedges, List.mem_append, List.mem_singleton] at he
            rcases he with he | rfl
            · exact hfree e he
            · exact fun hid => hfirst other List.mem_cons_self ⟨_, _, _, hother, hid⟩

/-- What a fact refers to is listed, apart from what definitions are contained in. -/
theorem resolve_lists {res : Resolution} (h : resolve index f = .ok res) (hmem : fact ∈ f.facts)
    {rel : Relationship} {source : String} {t : Target}
    (hfound : reference? (FileScope.ofFile f) index fact = .ok (some (rel, source, t))) :
    ListsEdge f index res fact (edgeTo f rel source t fact.span) where
  known := by
    obtain ⟨found, hagain, hedges⟩ := addReferences_ids h hmem
    rw [hfound] at hagain
    exact hedges rel source t (Except.ok.inj hagain).symm
  first before after hfacts hfirst := by
    have hplaced := (Placed.moduleOnly f (FileScope.ofFile f)).addDefinitions f.facts
    refine addReferences_first h hfacts hfound (fun e he hid => ?_) hfirst
    obtain ⟨other, o, -, rfl⟩ := hplaced.edge e he
    exact reference?_ne_contains hfound (Edge.idOf_relationship hid).symm

/-- **What a Python file binds itself is bound alike** whatever it imports and whatever is known of
other files: a call, reference or base that a scope around or the own class binds leads from the
same place to the same definition, and every resolution lists it so. -/
theorem bound_reference_immune (hpython : f.language = "python")
    (hsame : f.withoutImports = f'.withoutImports) (I J : SymbolIndex) (hmem : fact ∈ f.facts)
    {r : Relationship} {source written : String} {scope : List String} {o : LocalDefinition}
    (hsought : sought? (FileScope.ofFile f) fact = some (r, source, .written written scope))
    (hbinds : (FileScope.ofFile f).Binds r scope (.read written ".") o) :
    reference? (FileScope.ofFile f) I fact =
        .ok (some (r, source, (FileScope.ofFile f).own o)) ∧
      fact ∈ f'.facts ∧
      reference? (FileScope.ofFile f') J fact =
        .ok (some (r, source, (FileScope.ofFile f).own o)) ∧
      ∀ res, resolve J f' = .ok res →
        ListsEdge f' J res fact (edgeTo f r source ((FileScope.ofFile f).own o) fact.span) := by
  have hseparator := FileScope.separator_of_python hpython
  have hthere : fact ∈ f.withoutImports.facts :=
    List.mem_filter.2 ⟨hmem, by simpa using kind_of_written hsought⟩
  rw [hsame] at hthere
  have hmem' : fact ∈ f'.facts := List.mem_of_mem_filter hthere
  have hfound : reference? (FileScope.ofFile f') J fact =
      .ok (some (r, source, (FileScope.ofFile f).own o)) := by
    obtain ⟨aliases, globs, hscope⟩ := FileScope.ofFile_of_withoutImports hpython hsame
    rw [hscope]
    exact reference?_of_find ((sought?_withImports aliases globs).trans hsought)
      (FileScope.target_of_binds hseparator hbinds aliases globs J)
  refine ⟨reference?_of_find hsought (FileScope.target_of_binds hseparator hbinds _ _ I), hmem',
    hfound, fun res hres => ?_⟩
  have hplace : f.filePath = f'.filePath := by
    simpa only [SourceFile.withoutImports] using congrArg SourceFile.filePath hsame
  have hedge : edgeTo f r source ((FileScope.ofFile f).own o) fact.span =
      edgeTo f' r source ((FileScope.ofFile f).own o) fact.span := by
    rw [edgeTo, edgeTo, hplace]
  rw [hedge]
  exact resolve_lists hres hmem' hfound

/-- A file that imports `helper` and has a function and a method of that name; the method `run`
calls both. -/
def shadowedImport : SourceFile :=
  ⟨"m.py", "m.py", "python", ".",
    [.imported "helper" "other.helper" [] ⟨0, 0, 0, 24⟩, .imported "*" "other" [] ⟨1, 0, 1, 19⟩,
      .definition .classLike "C" [] ⟨2, 0, 7, 21⟩ "class C:",
      .definition .method "helper" ["C"] ⟨3, 4, 4, 12⟩ "def helper(self):",
      .definition .method "run" ["C"] ⟨5, 4, 7, 21⟩ "def run(self):",
      .call "helper" ["C", "run"] ⟨6, 8, 6, 16⟩, .call "self.helper" ["C", "run"] ⟨7, 8, 7, 21⟩,
      .definition .function "helper" [] ⟨8, 0, 9, 8⟩ "def helper():"], ⟨0, 0, 10, 0⟩⟩

/-- The function that is imported. -/
def importedHelper : SymbolIndex :=
  .ofList [⟨"function:other.helper", .function, "helper", "other.helper", "other.py"⟩]

theorem bound_reference_immune_shadowedImport :
    reference? (FileScope.ofFile shadowedImport) importedHelper
        (.call "helper" ["C", "run"] ⟨6, 8, 6, 16⟩) =
      .ok (some (.calls, "method:m.C.run", .resolved "m.helper" "function:m.helper")) ∧
    reference? (FileScope.ofFile shadowedImport.withoutImports) (.ofList [])
        (.call "helper" ["C", "run"] ⟨6, 8, 6, 16⟩) =
      .ok (some (.calls, "method:m.C.run", .resolved "m.helper" "function:m.helper")) ∧
    reference? (FileScope.ofFile shadowedImport) importedHelper
        (.call "self.helper" ["C", "run"] ⟨7, 8, 7, 21⟩) =
      .ok (some (.calls, "method:m.C.run", .resolved "m.C.helper" "method:m.C.helper")) ∧
    reference? (FileScope.ofFile shadowedImport.withoutImports) (.ofList [])
        (.call "self.helper" ["C", "run"] ⟨7, 8, 7, 21⟩) =
      .ok (some (.calls, "method:m.C.run", .resolved "m.C.helper" "method:m.C.helper")) := by
  have hsame : shadowedImport.withoutImports = shadowedImport.withoutImports.withoutImports := by
    decide +kernel
  have hpath : Written.read "helper" "." = .path ["helper"] := by decide +kernel
  have hself : Written.read "self.helper" "." = .onSelf "helper" := by decide +kernel
  obtain ⟨o, ho, hown⟩ : ∃ o, (FileScope.ofFile shadowedImport).Binds .calls ["C", "run"]
      (.path ["helper"]) o ∧ (FileScope.ofFile shadowedImport).own o =
        .resolved "m.helper" "function:m.helper" :=
    FileScope.inScope?_eq_some_iff.1 (by decide +kernel)
  obtain ⟨p, hp, hmethod⟩ : ∃ o, (FileScope.ofFile shadowedImport).Binds .calls ["C", "run"]
      (.onSelf "helper") o ∧ (FileScope.ofFile shadowedImport).own o =
        .resolved "m.C.helper" "method:m.C.helper" :=
    FileScope.inClass?_eq_some_iff.1 (by decide +kernel)
  have hsought : sought? (FileScope.ofFile shadowedImport)
      (.call "helper" ["C", "run"] ⟨6, 8, 6, 16⟩) =
      some (.calls, "method:m.C.run", .written "helper" ["C", "run"]) := by decide +kernel
  have hsought' : sought? (FileScope.ofFile shadowedImport)
      (.call "self.helper" ["C", "run"] ⟨7, 8, 7, 21⟩) =
      some (.calls, "method:m.C.run", .written "self.helper" ["C", "run"]) := by decide +kernel
  have hfree := bound_reference_immune rfl hsame importedHelper (.ofList []) (by decide +kernel)
    hsought (hpath ▸ ho)
  have hmember := bound_reference_immune rfl hsame importedHelper (.ofList []) (by decide +kernel)
    hsought' (hself ▸ hp)
  rw [hown] at hfree
  rw [hmethod] at hmember
  exact ⟨hfree.1, hfree.2.2.1, hmember.1, hmember.2.2.1⟩

end Resolve

end CodeAtlas
