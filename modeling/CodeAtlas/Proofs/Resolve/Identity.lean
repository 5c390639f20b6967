import CodeAtlas.Proofs.Resolve.WellFormed

/-!
# CodeAtlas.Proofs.Resolve.Identity

What a file contributes, if it is resolved against other symbols.

Nodes are told by the file alone, and so are relationship, source and place of each edge; what
may differ is the name that an edge waits for, and with it the edge's id.  A name that is found in
the file, that an import binds or that is absolute is the same whatever is known of other files
(`FileScope.boundName?`).  Only a name that is looked for in modules of which all names are
imported is taken from the symbols: it is that of the first such module that has it, or else the
name alone.  So two resolutions have the same edges but for their targets, unless a reference
strays (`Strays`), and then that reference has two ids.
-/

namespace CodeAtlas

/-! ## Ids of edges -/

/-- The id of an edge tells the name that it waits for, if its source is known. -/
theorem Edge.idOf_targetRef {rel : Relationship} {source name name' file : String}
    (h : Edge.idOf rel source name file = Edge.idOf rel source name' file) : name = name' := by
  simpa [Edge.idOf, String.append_assoc] using h

/-- Ids are told by what is left of edges without their targets. -/
theorem Edge.ids_of_unlink {es gs : List Edge} (h : es.map Edge.unlink = gs.map Edge.unlink) :
    es.map Edge.id = gs.map Edge.id := by
  have hids : ∀ es : List Edge, (es.map Edge.unlink).map Edge.id = es.map Edge.id := fun es => by
    rw [List.map_map]
    rfl
  rw [← hids es, h, hids]

theorem Edge.any_id (es : List Edge) (id : String) :
    (es.any fun e => e.id == id) = (es.map Edge.id).contains id := by
  rw [List.contains_eq_any_beq, List.any_map]
  exact List.any_congr rfl fun e => BEq.comm

namespace Resolve

namespace FileScope

variable {c : FileScope} {index I J : SymbolIndex} {r : Relationship}

/-! ## Names that the file tells -/

/-- The name that the file alone gives to a path, if a scope or an import binds it or it is
absolute. -/
def boundName? (c : FileScope) (segments scope : List String) (r : Relationship) :
    Option String :=
  if c.separator == "::" && ["crate", "super", "self"].contains (segments.headD "") then
    some (c.module.absolutize (pathOf c.separator segments))
  else ((c.inScope? (pathOf c.separator segments) scope r).map Target.targetRef).or
    (c.imported? segments)

/-- The name that a path waits for if nothing is found for it.  With points in it, it may mean a
member of any object. -/
def looseName (c : FileScope) (segments : List String) : String :=
  if c.separator == "." then segments.getLastD "" else pathOf c.separator segments

/-- The name that symbols lead to for a path that is looked for in modules of which all names are
imported. -/
def nameIn (c : FileScope) (index : SymbolIndex) (segments : List String) (r : Relationship) :
    Except Error String :=
  (c.inGlobs? index (pathOf c.separator segments) r c.globs).map fun found =>
    (found.map Target.targetRef).getD (c.looseName segments)

theorem global_targetRef {name : String} {t : Target} (h : c.global index name r = .ok t) :
    t.targetRef = name := by
  obtain ⟨symbols, -, h⟩ := bind_ok h
  simp only [] at h
  split at h <;>
  · cases h
    rfl

theorem qualified_targetRef {name : String} {t : Target} (h : c.qualified index name r = .ok t) :
    t.targetRef = name := by
  rw [qualified] at h
  split at h
  · cases h
    rfl
  · split at h
    · cases h
      rfl
    · obtain ⟨symbols, -, h⟩ := bind_ok h
      split at h <;>
      · cases h
        rfl

theorem ofPath_bound {segments scope : List String} {name : String} {t : Target}
    (hname : c.boundName? segments scope r = some name)
    (h : c.ofPath index segments scope r = .ok t) : t.targetRef = name := by
  simp only [ofPath] at h
  rw [boundName?] at hname
  split at h
  · next hanchored =>
    rw [if_pos hanchored, Option.some.injEq] at hname
    rw [qualified_targetRef h, hname]
  · next hanchored =>
    rw [if_neg hanchored] at hname
    split at h
    · next found hfound =>
      cases h
      rw [hfound, Option.map_some, Option.some_or, Option.some.injEq] at hname
      exact hname
    · next hscope =>
      rw [hscope, Option.map_none, Option.none_or] at hname
      rw [hname] at h
      exact qualified_targetRef h

theorem ofPath_loose {segments scope : List String} {t : Target}
    (hname : c.boundName? segments scope r = none)
    (h : c.ofPath index segments scope r = .ok t) :
    c.nameIn index segments r = .ok t.targetRef := by
  simp only [ofPath] at h
  rw [boundName?] at hname
  split at h
  · next hanchored =>
    rw [if_pos hanchored] at hname
    cases hname
  · next hanchored =>
    rw [if_neg hanchored, Option.or_eq_none_iff, Option.map_eq_none_iff] at hname
    rw [hname.1, hname.2] at h
    obtain ⟨found, hfound, h⟩ := bind_ok h
    rw [nameIn, hfound]
    cases found with
    | some found =>
        cases h
        rfl
    | none =>
        rw [looseName]
        simp only [] at h
        split at h
        · next name _ =>
          have hname : pathOf c.separator [name] = name := String.intercalate_singleton
          rw [global_targetRef h, hname, List.getLastD_cons, List.getLastD_nil, ite_self]
          rfl
        · split at h
          · next hdot =>
            rw [global_targetRef h, if_pos hdot]
            rfl
          · next hdot =>
            rw [qualified_targetRef h, if_neg hdot]
            rfl

/-- A member of the own object is found in the file, or known by its name. -/
theorem ofMember_targetRef {member : String} {scope : List String} {t t' : Target}
    (h : c.ofMember I member scope r = .ok t) (h' : c.ofMember J member scope r = .ok t') :
    t.targetRef = t'.targetRef := by
  rw [ofMember] at h h'
  split at h
  · next hclass =>
    rw [hclass] at h'
    rw [global_targetRef h, global_targetRef h']
  · next part hclass =>
    rw [hclass] at h'
    simp only [] at h h'
    split at h
    · next id hid =>
      rw [hid] at h'
      cases h
      cases h'
      rfl
    · next hnone =>
      rw [hnone] at h'
      rw [global_targetRef h, global_targetRef h']

/-- Whether a name is one that a path may have in a module of which all names are imported, or
the name alone. -/
def MayName (c : FileScope) (segments : List String) (name : String) : Prop :=
  name = c.looseName segments ∨
    ∃ glob ∈ c.globs, name = Text.join c.separator glob (pathOf c.separator segments)

theorem inGlobs?_name {path : String} {globs : List String} {t : Target}
    (h : c.inGlobs? index path r globs = .ok (some t)) :
    ∃ glob ∈ globs, t.targetRef = Text.join c.separator glob path := by
  induction globs with
  | nil => cases h
  | cons glob globs ih =>
      obtain ⟨symbols, -, h⟩ := bind_ok h
      split at h
      · cases h
        exact ⟨glob, List.mem_cons_self, rfl⟩
      · obtain ⟨glob', hmem, hname⟩ := ih h
        exact ⟨glob', List.mem_cons_of_mem glob hmem, hname⟩

theorem nameIn_mayName {segments : List String} {name : String}
    (h : c.nameIn index segments r = .ok name) : c.MayName segments name := by
  rw [nameIn] at h
  cases hfound : c.inGlobs? index (pathOf c.separator segments) r c.globs with
  | error e =>
      rw [hfound] at h
      cases h
  | ok found =>
      rw [hfound] at h
      cases found with
      | none =>
          cases h
          exact .inl rfl
      | some t =>
          cases h
          exact .inr (inGlobs?_name hfound)

end FileScope

variable {f : SourceFile} {c : FileScope} {index I J : SymbolIndex} {r r' : Resolution}

/-! ## References -/

/-- The path that is looked for, if the file does not tell its name. -/
def Sought.loose? (c : FileScope) (r : Relationship) : Sought → Option (List String)
  | absolute _ => none
  | written name scope =>
    match Written.read name c.separator with
    | .path segments => if (c.boundName? segments scope r).isNone then some segments else none
    | .onSelf _ => none
    | .dynamic _ => none

theorem Sought.find_loose {rel : Relationship} {sought : Sought} {segments : List String}
    {t : Target} (hloose : sought.loose? c rel = some segments)
    (h : sought.find c index rel = .ok t) : c.nameIn index segments rel = .ok t.targetRef := by
  cases sought with
  | absolute name => cases hloose
  | written name scope =>
      rw [find, FileScope.target] at h
      rw [loose?] at hloose
      split at hloose
      · next path hread =>
        rw [hread] at h
        obtain ⟨hunbound, hpath⟩ := Option.ite_none_right_eq_some.1 hloose
        cases hpath
        exact FileScope.ofPath_loose (Option.isNone_iff_eq_none.1 hunbound) h
      · cases hloose
      · cases hloose

/-- What the file tells the name of is known by that name, whatever the symbols are. -/
theorem Sought.find_fixed {rel : Relationship} {sought : Sought} {t t' : Target}
    (hfixed : sought.loose? c rel = none) (h : sought.find c I rel = .ok t)
    (h' : sought.find c J rel = .ok t') : t.targetRef = t'.targetRef := by
  cases sought with
  | absolute name =>
      rw [FileScope.qualified_targetRef h, FileScope.qualified_targetRef h']
  | written name scope =>
      rw [find, FileScope.target] at h h'
      rw [loose?] at hfixed
      split at hfixed
      · next path hread =>
        rw [hread] at h h'
        cases hname : c.boundName? path scope rel with
        | none =>
            rw [hname] at hfixed
            cases hfixed
        | some bound =>
            rw [FileScope.ofPath_bound hname h, FileScope.ofPath_bound hname h']
      · next member hread =>
        rw [hread] at h h'
        exact FileScope.ofMember_targetRef h h'
      · next member hread =>
        rw [hread] at h h'
        rw [FileScope.global_targetRef h, FileScope.global_targetRef h']

/-- Whether symbols lead a fact to a name that other symbols do not lead it to. -/
def Strays (c : FileScope) (I J : SymbolIndex) (fact : Fact) : Prop :=
  ∃ found ∈ sought? c fact, ∃ segments ∈ found.2.2.loose? c found.1,
    c.nameIn I segments found.1 ≠ c.nameIn J segments found.1

instance (c : FileScope) (I J : SymbolIndex) (fact : Fact) : Decidable (Strays c I J fact) :=
  inferInstanceAs (Decidable (∃ found ∈ sought? c fact, ∃ segments ∈ found.2.2.loose? c found.1,
    c.nameIn I segments found.1 ≠ c.nameIn J segments found.1))

/-- A fact refers from the same place to targets of one name, unless it strays. -/
theorem reference?_pair {fact : Fact} {found found' : Option (Relationship × String × Target)}
    (h : reference? c I fact = .ok found) (h' : reference? c J fact = .ok found') :
    (¬ Strays c I J fact ∧ found = none ∧ found' = none) ∨ ∃ rel source t t',
      found = some (rel, source, t) ∧ found' = some (rel, source, t') ∧
        (¬ Strays c I J fact → t.targetRef = t'.targetRef) ∧
        (Strays c I J fact → t.targetRef ≠ t'.targetRef ∧ ∃ sought segments,
          sought? c fact = some (rel, source, sought) ∧ sought.loose? c rel = some segments ∧
            c.MayName segments t.targetRef ∧ c.MayName segments t'.targetRef) := by
  rcases reference?_ok h with ⟨hnone, rfl⟩ | ⟨rel, source, sought, t, hsought, ht, rfl⟩
  · rcases reference?_ok h' with ⟨-, rfl⟩ | ⟨_, _, _, _, hsome, -⟩
    · refine .inl ⟨?_, rfl, rfl⟩
      rintro ⟨found, hfound, -⟩
      rw [hnone] at hfound
      cases hfound
    · rw [hnone] at hsome
      cases hsome
  · rcases reference?_ok h' with ⟨hnone, -⟩ | ⟨_, _, _, t', hsought', ht', rfl⟩
    · rw [hnone] at hsought
      cases hsought
    · rw [hsought] at hsought'
      cases hsought'
      refine .inr ⟨rel, source, t, t', rfl, rfl, ?_⟩
      rw [Strays, hsought]
      cases hloose : sought.loose? c rel with
      | none => simp [hloose, Sought.find_fixed hloose ht ht']
      | some segments =>
          have hname := Sought.find_loose hloose ht
          have hname' := Sought.find_loose hloose ht'
          have hmay : c.MayName segments t.targetRef ∧ c.MayName segments t'.targetRef :=
            ⟨FileScope.nameIn_mayName hname, FileScope.nameIn_mayName hname'⟩
          simp only [Option.mem_some_iff, exists_eq_left', hloose, hname, hname', ne_eq,
            Except.ok.injEq, not_not]
          exact ⟨id, fun hne => ⟨hne, sought, segments, rfl, hloose, hmay⟩⟩

/-- Where no module has all of its names imported, nothing strays. -/
theorem not_strays_of_globs_nil (hglobs : c.globs = []) (fact : Fact) : ¬ Strays c I J fact := by
  rintro ⟨⟨rel, source, sought⟩, -, segments, -, hne⟩
  exact hne (by rw [FileScope.nameIn, FileScope.nameIn, hglobs]; rfl)

/-! ## Whole files -/

theorem edgeTo_unlink {rel : Relationship} {source : String} {t t' : Target}
    (h : t.targetRef = t'.targetRef) (span : Span) :
    (edgeTo f rel source t span).unlink = (edgeTo f rel source t' span).unlink := by
  simp only [edgeTo, Edge.unlink, h]

theorem addReference_pair {rel : Relationship} {source : String} {t t' : Target}
    (h : r.edges.map Edge.unlink = r'.edges.map Edge.unlink) (hname : t.targetRef = t'.targetRef)
    (span : Span) : (addReference f r span (rel, source, t)).edges.map Edge.unlink =
      (addReference f r' span (rel, source, t')).edges.map Edge.unlink := by
  have hedge : (edgeTo f rel source t span).unlink = (edgeTo f rel source t' span).unlink :=
    edgeTo_unlink hname span
  have hid : (edgeTo f rel source t span).id = (edgeTo f rel source t' span).id := by
    rw [edgeTo, edgeTo, hname]
  simp only [addReference, Edge.any_id, Edge.ids_of_unlink h, hid]
  split
  · exact h
  · rw [List.map_append, List.map_append, h, List.map_singleton, List.map_singleton, hedge]

theorem addReferences_pair {facts : List Fact} {r₁ r₂ : Resolution}
    (hnone : ∀ fact ∈ facts, ¬ Strays c I J fact)
    (h : r.edges.map Edge.unlink = r'.edges.map Edge.unlink)
    (h₁ : addReferences f c I r facts = .ok r₁) (h₂ : addReferences f c J r' facts = .ok r₂) :
    r₁.edges.map Edge.unlink = r₂.edges.map Edge.unlink := by
  induction facts generalizing r r' with
  | nil =>
      cases h₁
      cases h₂
      exact h
  | cons fact facts ih =>
      obtain ⟨found, hfound, h₁⟩ := bind_ok h₁
      obtain ⟨found', hfound', h₂⟩ := bind_ok h₂
      have hrest := fun fact hmem => hnone fact (List.mem_cons_of_mem _ hmem)
      rcases reference?_pair hfound hfound' with
        ⟨-, rfl, rfl⟩ | ⟨rel, source, t, t', rfl, rfl, hsame, -⟩
      · exact ih hrest h h₁ h₂
      · have hname : t.targetRef = t'.targetRef := hsame (hnone fact List.mem_cons_self)
        exact ih hrest (addReference_pair h hname fact.span) h₁ h₂

/-- Each reference is there, under its id. -/
theorem addReferences_ids {facts : List Fact} (h : addReferences f c index r facts = .ok r')
    {fact : Fact} (hmem : fact ∈ facts) : ∃ found, reference? c index fact = .ok found ∧
      ∀ rel source t, found = some (rel, source, t) →
        ∃ e ∈ r'.edges, e.id = Edge.idOf rel source t.targetRef f.filePath := by
  induction facts generalizing r with
  | nil => cases hmem
  | cons first facts ih =>
      obtain ⟨found, hfound, h⟩ := bind_ok h
      rcases List.mem_cons.1 hmem with rfl | hmem
      · refine ⟨found, hfound, fun rel source t hsome => ?_⟩
        subst hsome
        suffices hadded : ∃ e ∈ (addReference f r fact.span (rel, source, t)).edges,
            e.id = Edge.idOf rel source t.targetRef f.filePath by
          obtain ⟨e, he, hid⟩ := hadded
          exact ⟨e, addReferences_edges h e he, hid⟩
        rw [addReference]
        split
        · next hold =>
          obtain ⟨e, he, hid⟩ := List.any_eq_true.1 hold
          exact ⟨e, he, beq_iff_eq.1 hid⟩
        · exact ⟨_, List.mem_append_right _ (List.mem_singleton_self _), rfl⟩
      · cases found with
        | none => exact ih h hmem
        | some found => exact ih h hmem

/-- Where no module has all of its names imported, the edges are known whatever the symbols
are. -/
theorem resolve_same_of_globs_nil (hglobs : (FileScope.ofFile f).globs = [])
    (h : resolve I f = .ok r) (h' : resolve J f = .ok r') :
    r.edges.map Edge.unlink = r'.edges.map Edge.unlink :=
  addReferences_pair (fun fact _ => not_strays_of_globs_nil hglobs fact) rfl h h'

/-- **A file contributes the same whatever is known of other files**, but for what its edges
point at, unless a reference strays; and a reference that strays has two ids, of two names that
its path may have. -/
theorem resolve_sameWritten (h : resolve I f = .ok r) (h' : resolve J f = .ok r') :
    r.module = r'.module ∧ r.nodes = r'.nodes ∧
      ((∀ fact ∈ f.facts, ¬ Strays (FileScope.ofFile f) I J fact) →
        r.edges.map Edge.unlink = r'.edges.map Edge.unlink) ∧
      ∀ fact ∈ f.facts, Strays (FileScope.ofFile f) I J fact →
        ∃ rel source sought segments name name',
          sought? (FileScope.ofFile f) fact = some (rel, source, sought) ∧
          sought.loose? (FileScope.ofFile f) rel = some segments ∧
          (FileScope.ofFile f).MayName segments name ∧
          (FileScope.ofFile f).MayName segments name' ∧
          (∃ e ∈ r.edges, e.id = Edge.idOf rel source name f.filePath) ∧
          (∃ e ∈ r'.edges, e.id = Edge.idOf rel source name' f.filePath) ∧
          Edge.idOf rel source name f.filePath ≠ Edge.idOf rel source name' f.filePath := by
  have hmodule := (resolve_kept h).module.trans (resolve_kept h').module.symm
  have hnodes := (addReferences_nodes h).trans (addReferences_nodes h').symm
  refine ⟨hmodule, hnodes, fun hnone => addReferences_pair hnone rfl h h', ?_⟩
  intro fact hmem hstrays
  obtain ⟨found, hfound, hid⟩ := addReferences_ids h hmem
  obtain ⟨found', hfound', hid'⟩ := addReferences_ids h' hmem
  rcases reference?_pair hfound hfound' with
    ⟨hnot, -⟩ | ⟨rel, source, t, t', hrel, hrel', -, hnames⟩
  · exact absurd hstrays hnot
  · obtain ⟨hne, sought, segments, hsought, hloose, hname, hname'⟩ := hnames hstrays
    refine ⟨rel, source, sought, segments, t.targetRef, t'.targetRef, hsought, hloose, hname,
      hname', hid _ _ _ hrel, hid' _ _ _ hrel', fun hsame => ?_⟩
    exact hne (Edge.idOf_targetRef hsame)

/-- A file that imports all names of a module and calls one of them. -/
def globCaller : SourceFile :=
  ⟨"b.py", "b.py", "python", ".",
    [.imported "*" "a" [] ⟨0, 0, 0, 15⟩, .call "foo" [] ⟨1, 0, 1, 5⟩], ⟨0, 0, 2, 0⟩⟩

/-- The function that is called. -/
def calledFunction : Symbol := ⟨"function:a.foo", .function, "foo", "a.foo", "a.py"⟩

/-- A function of the same name that is not in the module. -/
def otherFunction : Symbol := ⟨"function:c.foo", .function, "foo", "c.foo", "c.py"⟩

theorem resolve_sameWritten_globCaller : ∃ before other after,
    resolve (.ofList []) globCaller = .ok before ∧
      resolve (.ofList [otherFunction]) globCaller = .ok other ∧
      resolve (.ofList [calledFunction]) globCaller = .ok after ∧
      before.edges.map Edge.unlink = other.edges.map Edge.unlink ∧
      before.edges.map Edge.id = ["IMPORTS:module:b->a@b.py", "CALLS:module:b->foo@b.py"] ∧
      after.edges.map Edge.id = ["IMPORTS:module:b->a@b.py", "CALLS:module:b->a.foo@b.py"] ∧
      ∃ rel source name name',
        (∃ e ∈ before.edges, e.id = Edge.idOf rel source name "b.py") ∧
        (∃ e ∈ after.edges, e.id = Edge.idOf rel source name' "b.py") ∧
        Edge.idOf rel source name "b.py" ≠ Edge.idOf rel source name' "b.py" := by
  obtain ⟨before, hbefore⟩ := resolve_answered (SymbolIndex.ofList_answers []) globCaller
  obtain ⟨other, hother⟩ := resolve_answered (SymbolIndex.ofList_answers [otherFunction]) globCaller
  obtain ⟨after, hafter⟩ :=
    resolve_answered (SymbolIndex.ofList_answers [calledFunction]) globCaller
  have hsame := (resolve_sameWritten hbefore hother).2.2.1 (by decide +kernel)
  have hstrays := (resolve_sameWritten hbefore hafter).2.2.2 (.call "foo" [] ⟨1, 0, 1, 5⟩)
    (by decide +kernel) (by decide +kernel)
  obtain ⟨rel, source, -, -, name, name', -, -, -, -, hid, hid', hne⟩ := hstrays
  have hids : (resolve (.ofList []) globCaller).map (fun r => r.edges.map Edge.id) =
      .ok ["IMPORTS:module:b->a@b.py", "CALLS:module:b->foo@b.py"] := by
    decide +kernel
  have hids' : (resolve (.ofList [calledFunction]) globCaller).map (fun r => r.edges.map Edge.id) =
      .ok ["IMPORTS:module:b->a@b.py", "CALLS:module:b->a.foo@b.py"] := by
    decide +kernel
  rw [hbefore] at hids
  rw [hafter] at hids'
  exact ⟨before, other, after, hbefore, hother, hafter, hsame, Except.ok.inj hids,
    Except.ok.inj hids', rel, source, name, name', hid, hid', hne⟩

end Resolve

end CodeAtlas
