import CodeAtlas.Proofs.Resolve.WellFormed
import Mathlib.Data.List.Induction
import Mathlib.Data.List.Nodup
import Mathlib.Logic.Relation

/-!
# CodeAtlas.Proofs.Resolve.Containment

Where the definitions of a file stand in each other.

A node shows the first fact that defines it (`FileScope.shownBy?`), and that fact places it in the
innermost definition around its scope (`Innermost`).  The edges that say so are kept by their ids,
and an id has no room for the kind of what is contained.  So two definitions of different kinds that
have one qualified name and stand in one definition are rivals for one edge (`Rivals`), and only the
first of them gets it; without rivals the edges are a tree over all nodes, with the module as its
root.

That the way up ends at the module rests on paths: what is around a definition stands at a shorter
path.  A node may stand at several paths, if a type that the file imports is one of its own; so
what has others in it is asked to stand at one (`HoldersSettled`).
-/

namespace CodeAtlas

/-- The edges that say where a node is contained. -/
def Resolution.containers (r : Resolution) (id : String) : List Edge :=
  r.edges.filter fun e => e.relationship == .contains && e.target == some id

/-- Whether an edge says that the first node contains the second one. -/
def Resolution.Contains (r : Resolution) (source target : String) : Prop :=
  ∃ e ∈ r.containers target, e.source = source

theorem Resolution.mem_containers {r : Resolution} {id : String} {e : Edge} :
    e ∈ r.containers id ↔ e ∈ r.edges ∧ e.relationship = .contains ∧ e.target = some id := by
  simp [containers]

namespace Resolve

namespace FileScope

/-! ## Definitions and their paths -/

/-- The definition of a fact, if it is one. -/
def definition? (c : FileScope) (fact : Fact) : Option LocalDefinition :=
  fact.definitionKind?.map fun kind =>
    let path := relative c.separator fact.scope fact.name
    ⟨path, kind, Node.idOf kind (c.qualify path)⟩

/-- The fact that a node shows: the first one that defines it. -/
def shownBy? (c : FileScope) (facts : List Fact) (id : String) : Option Fact :=
  facts.find? fun fact => (c.definition? fact).any (·.id == id)

variable {c : FileScope} {facts : List Fact} {fact : Fact} {id : String}

theorem shownBy?_spec (h : c.shownBy? facts id = some fact) :
    fact ∈ facts ∧ ∃ o, c.definition? fact = some o ∧ o.id = id := by
  have hany := List.find?_some h
  simp only [Option.any_eq_true, beq_iff_eq] at hany
  exact ⟨List.mem_of_find?_eq_some h, hany⟩

theorem exists_shownBy? {o : LocalDefinition} (hmem : fact ∈ facts)
    (ho : c.definition? fact = some o) : ∃ shown, c.shownBy? facts o.id = some shown := by
  have hsome : (c.shownBy? facts o.id).isSome := by
    rw [shownBy?, List.find?_isSome]
    exact ⟨fact, hmem, by simp [ho]⟩
  exact Option.isSome_iff_exists.1 hsome

/-- The id tells the kind, the path tells the name. -/
theorem definition?_eq_of_path_of_id {fact' : Fact} {o o' : LocalDefinition}
    (ho : c.definition? fact = some o) (ho' : c.definition? fact' = some o')
    (hpath : o.path = o'.path) (hid : o.id = o'.id) : o = o' := by
  simp only [definition?, Option.map_eq_some_iff] at ho ho'
  obtain ⟨kind, -, rfl⟩ := ho
  obtain ⟨kind', -, rfl⟩ := ho'
  obtain ⟨rfl, -⟩ := Node.idOf_inj hid
  simp only [] at hpath
  rw [hpath]

theorem findDefinitions_concat (c : FileScope) (facts : List Fact) (fact : Fact) :
    findDefinitions c.module c.homes (facts ++ [fact]) =
      (c.definition? fact).elim (findDefinitions c.module c.homes facts) fun o =>
        if (findDefinitions c.module c.homes facts).any (fun p => p.path == o.path && p.id == o.id)
        then findDefinitions c.module c.homes facts
        else findDefinitions c.module c.homes facts ++ [o] := by
  rw [findDefinitions, List.foldl_append, List.foldl_cons, List.foldl_nil, definition?]
  cases fact.definitionKind? <;> rfl

/-- The definitions that names are looked up among are those of the facts. -/
theorem mem_findDefinitions_iff {o : LocalDefinition} :
    o ∈ findDefinitions c.module c.homes facts ↔ ∃ fact ∈ facts, c.definition? fact = some o := by
  induction facts using List.reverseRecOn generalizing o with
  | nil => simp [findDefinitions]
  | append_singleton facts last ih =>
      have hlast : (∃ fact ∈ facts ++ [last], c.definition? fact = some o) ↔
          o ∈ findDefinitions c.module c.homes facts ∨ c.definition? last = some o := by
        simp [ih, or_and_right, exists_or]
      rw [hlast, findDefinitions_concat]
      cases hdef : c.definition? last with
      | none => simp
      | some d =>
          simp only [Option.elim_some, Option.some.injEq]
          split
          · next hthere =>
            refine ⟨.inl, fun h => h.elim id fun hsame => ?_⟩
            obtain ⟨p, hp, hkeys⟩ := List.any_eq_true.1 hthere
            simp only [Bool.and_eq_true, beq_iff_eq] at hkeys
            obtain ⟨fact, -, hfact⟩ := ih.1 hp
            rw [← hsame, ← definition?_eq_of_path_of_id hfact hdef hkeys.1 hkeys.2]
            exact hp
          · simp [eq_comm]

theorem mem_definitions_iff {f : SourceFile} {o : LocalDefinition} :
    o ∈ (ofFile f).definitions ↔ ∃ fact ∈ f.facts, (ofFile f).definition? fact = some o := by
  have hmade : (ofFile f).definitions =
      findDefinitions (ofFile f).module (ofFile f).homes f.facts := rfl
  rw [hmade, mem_findDefinitions_iff]

/-! ## Around a scope -/

theorem outerScopes_concat (scope : List String) (name : String) :
    outerScopes (scope ++ [name]) = (scope ++ [name]) :: outerScopes scope := by
  have hparts : (List.range scope.length).map (fun i => (scope ++ [name]).take (i + 1)) =
      (List.range scope.length).map fun i => scope.take (i + 1) := by
    refine List.map_congr_left fun i hi => ?_
    have hlt : i + 1 ≤ scope.length := List.mem_range.1 hi
    rw [List.take_append_of_le_length hlt]
  simp [outerScopes, List.range_succ, hparts, List.take_of_length_le]

theorem first?_eq_none_iff {ds : List LocalDefinition} : first? ds = none ↔ ds = [] := by
  cases ds with
  | nil => simp [first?]
  | cons d ds =>
      rw [first?]
      split
      · simp
      · split <;> simp

/-- At the path of an accepted definition something is found. -/
theorem exists_local? {r : Relationship} {o : LocalDefinition} (ho : o ∈ c.definitions)
    (hacc : r.accepts o.kind = true) : ∃ id, c.local? o.path r = some id := by
  have hmem : o ∈ (c.definitionsAt o.path).filter fun d => r.accepts d.kind :=
    List.mem_filter.2 ⟨mem_definitionsAt.2 ⟨ho, rfl⟩, hacc⟩
  rw [local?]
  cases hfirst : first? ((c.definitionsAt o.path).filter fun d => r.accepts d.kind) with
  | none =>
      rw [first?_eq_none_iff.1 hfirst] at hmem
      cases hmem
  | some own => exact ⟨own.id, rfl⟩

theorem enclosing_concat (c : FileScope) (scope : List String) (name : String) :
    c.enclosing (scope ++ [name]) =
      ((first? (c.definitionsAt (pathOf c.separator (scope ++ [name])))).map (·.id)).getD
        (c.enclosing scope) := by
  rw [enclosing, enclosing, outerScopes_concat, List.findSome?_cons]
  cases (first? (c.definitionsAt (pathOf c.separator (scope ++ [name])))).map (·.id) <;> rfl

/-! ## Lengths of paths -/

theorem length_pathOf_le {separator : String} {scope part : List String}
    (h : part ∈ outerScopes scope) :
    (pathOf separator part).length ≤ (pathOf separator scope).length := by
  induction scope using List.reverseRecOn with
  | nil => simp [outerScopes] at h
  | append_singleton scope name ih =>
      rw [outerScopes_concat] at h
      rcases List.mem_cons.1 h with rfl | h
      · exact Nat.le_refl _
      · have hne : scope ≠ [] := by
          rintro rfl
          simp [outerScopes] at h
        have hshorter := ih h
        simp only [pathOf] at hshorter ⊢
        rw [String.intercalate_append_of_ne_nil hne (List.cons_ne_nil name [])]
        simp only [String.length_append]
        omega

theorem length_lt_join {separator base name : String} (h : name ≠ "") :
    base.length < (Text.join separator base name).length := by
  have hpos : name.length ≠ 0 := fun hzero => h (String.length_eq_zero_iff.1 hzero)
  rw [Text.join]
  split
  · next hbase =>
    rw [beq_iff_eq.1 hbase, String.length_empty]
    omega
  · rw [if_neg (by simpa using h)]
    simp only [String.length_append]
    omega

theorem join_ne_empty {separator base name : String} (h : name ≠ "") :
    Text.join separator base name ≠ "" := by
  intro hempty
  have hlength : base.length < (Text.join separator base name).length := length_lt_join h
  simp [hempty] at hlength

theorem join_inj {separator base name name' : String} (hname : name ≠ "") (hname' : name' ≠ "")
    (h : Text.join separator base name = Text.join separator base name') : name = name' := by
  rw [Text.join, Text.join] at h
  split at h
  · exact h
  · simpa [hname, hname', String.append_assoc] using h

/-- A definition stands at a longer path than what is around it. -/
theorem length_pathOf_lt {fact : Fact} {o : LocalDefinition} {part : List String}
    (ho : c.definition? fact = some o) (hname : fact.name ≠ "")
    (hpart : part ∈ outerScopes fact.scope) :
    (pathOf c.separator part).length < o.path.length := by
  obtain ⟨kind, -, rfl⟩ := Option.map_eq_some_iff.1 ho
  exact Nat.lt_of_le_of_lt (length_pathOf_le hpart) (length_lt_join hname)

end FileScope

/-- Whether a scope of a file is that of a definition with an id. -/
def DefinedAt (f : SourceFile) (scope : List String) (id : String) : Prop :=
  ∃ fact ∈ f.facts, ∃ o, (FileScope.ofFile f).definition? fact = some o ∧
    o.path = FileScope.pathOf (FileScope.ofFile f).separator scope ∧ o.id = id

/-- The innermost definition around a scope: the one whose scope it is, or else the innermost one
around the scope without its last name.  The module is around everything. -/
inductive Innermost (f : SourceFile) : List String → String → Prop
  | module : Innermost f [] (FileScope.ofFile f).moduleId
  | here {scope : List String} {name id : String} (h : DefinedAt f (scope ++ [name]) id) :
      Innermost f (scope ++ [name]) id
  | around {scope : List String} {name id : String}
      (hnone : ∀ other, ¬ DefinedAt f (scope ++ [name]) other) (h : Innermost f scope id) :
      Innermost f (scope ++ [name]) id

theorem enclosing_innermost (f : SourceFile) (scope : List String) :
    Innermost f scope ((FileScope.ofFile f).enclosing scope) := by
  induction scope using List.reverseRecOn with
  | nil => exact .module
  | append_singleton scope name ih =>
      rw [FileScope.enclosing_concat]
      cases hfirst : FileScope.first? ((FileScope.ofFile f).definitionsAt
          (FileScope.pathOf (FileScope.ofFile f).separator (scope ++ [name]))) with
      | none =>
          refine .around ?_ ih
          rintro id ⟨fact, hmem, o, ho, hpath, -⟩
          have hat := FileScope.mem_definitionsAt.2
            ⟨FileScope.mem_definitions_iff.2 ⟨fact, hmem, ho⟩, hpath⟩
          rw [FileScope.first?_eq_none_iff.1 hfirst] at hat
          cases hat
      | some o =>
          obtain ⟨hmem, hpath⟩ := FileScope.mem_definitionsAt.1 (FileScope.first?_mem hfirst)
          obtain ⟨fact, hfact, ho⟩ := FileScope.mem_definitions_iff.1 hmem
          exact .here ⟨fact, hfact, o, ho, hpath, rfl⟩

/-- What is innermost around a scope is the module, or defined at a part of the scope. -/
theorem Innermost.cases {f : SourceFile} {scope : List String} {id : String}
    (h : Innermost f scope id) : id = (FileScope.ofFile f).moduleId ∨
      ∃ part ∈ FileScope.outerScopes scope, DefinedAt f part id := by
  induction h with
  | module => exact .inl rfl
  | here hdef =>
      refine .inr ⟨_, ?_, hdef⟩
      rw [FileScope.outerScopes_concat]
      exact List.mem_cons_self
  | around hnone _ ih =>
      refine ih.imp_right fun ⟨part, hpart, hdef⟩ => ⟨part, ?_, hdef⟩
      rw [FileScope.outerScopes_concat]
      exact List.mem_cons_of_mem _ hpart

/-! ## What a node shows -/

/-- Whether a node other than the module shows a fact, which is the definition. -/
structure Shows (c : FileScope) (facts : List Fact) (fact : Fact) (o : LocalDefinition) :
    Prop where
  defines : c.definition? fact = some o
  apart : o.id ≠ c.moduleId
  first : c.shownBy? facts o.id = some fact

/-- The edge that says where a definition is contained. -/
def containment (f : SourceFile) (c : FileScope) (fact : Fact) (o : LocalDefinition) : Edge :=
  edgeTo f .contains (c.enclosing fact.scope) (.resolved (c.qualify o.path) o.id) fact.span

namespace Shows

variable {c : FileScope} {facts : List Fact} {fact fact' last : Fact} {o o' : LocalDefinition}

/-- A node shows one fact. -/
theorem unique (h : Shows c facts fact o) (h' : Shows c facts fact' o') (hid : o.id = o'.id) :
    fact = fact' ∧ o = o' := by
  have hfact : fact = fact' := by
    rw [← Option.some.injEq, ← h.first, ← h'.first, hid]
  subst hfact
  exact ⟨rfl, Option.some.inj (h.defines.symm.trans h'.defines)⟩

/-- A further fact is shown by a node of its own, or by none. -/
theorem concat_iff : Shows c (facts ++ [last]) fact o ↔ Shows c facts fact o ∨
    (fact = last ∧ c.definition? last = some o ∧ o.id ≠ c.moduleId ∧
      c.shownBy? facts o.id = none) := by
  have hfirst : c.shownBy? (facts ++ [last]) o.id = (c.shownBy? facts o.id).or
      (c.shownBy? [last] o.id) := List.find?_append
  constructor
  · rintro ⟨hdefines, hapart, hshown⟩
    rw [hfirst] at hshown
    cases hold : c.shownBy? facts o.id with
    | some shown =>
        rw [hold, Option.some_or] at hshown
        exact .inl ⟨hdefines, hapart, hold.trans hshown⟩
    | none =>
        rw [hold, Option.none_or] at hshown
        obtain rfl : fact = last := List.mem_singleton.1 (FileScope.shownBy?_spec hshown).1
        exact .inr ⟨rfl, hdefines, hapart, rfl⟩
  · rintro (⟨hdefines, hapart, hshown⟩ | ⟨rfl, hdefines, hapart, hold⟩)
    · exact ⟨hdefines, hapart, by rw [hfirst, hshown, Option.some_or]⟩
    · refine ⟨hdefines, hapart, ?_⟩
      rw [hfirst, hold, Option.none_or]
      simp [FileScope.shownBy?, hdefines]

end Shows

/-! ## Definitions, one after the other -/

theorem mem_addEdge_of_mem {edges : List Edge} {e g : Edge} (h : g ∈ edges) :
    g ∈ addEdge edges e := by
  rw [addEdge]
  split
  · exact h
  · exact List.mem_append_left _ h

/-- An edge that is added is there by its id. -/
theorem exists_mem_addEdge (edges : List Edge) (e : Edge) : ∃ g ∈ addEdge edges e, g.id = e.id := by
  rw [addEdge]
  split
  · next hthere =>
    obtain ⟨g, hg, hid⟩ := List.any_eq_true.1 hthere
    exact ⟨g, hg, beq_iff_eq.1 hid⟩
  · exact ⟨e, List.mem_append_right _ (List.mem_singleton_self e), rfl⟩

/-- What the nodes and edges are once some facts have been looked at: those of the facts that are
shown, with one edge for every id of an edge. -/
structure Placed (f : SourceFile) (c : FileScope) (facts : List Fact) (r : Resolution) :
    Prop where
  module : ∃ n ∈ r.nodes, n.id = c.moduleId
  node : ∀ n ∈ r.nodes, n.id ≠ c.moduleId → ∃ fact o, Shows c facts fact o ∧ o.id = n.id
  shown : ∀ fact o, Shows c facts fact o → ∃ n ∈ r.nodes, n.id = o.id
  edge : ∀ e ∈ r.edges, ∃ fact o, Shows c facts fact o ∧ e = containment f c fact o
  placed : ∀ fact o, Shows c facts fact o → ∃ e ∈ r.edges, e.id = (containment f c fact o).id

namespace Placed

variable {f : SourceFile} {c : FileScope} {facts : List Fact} {r : Resolution} {last : Fact}

theorem moduleOnly (f : SourceFile) (c : FileScope) :
    Placed f c [] ⟨moduleNode f c, [moduleNode f c], [], [], []⟩ where
  module := ⟨_, List.mem_singleton_self _, rfl⟩
  node n hn hapart := by
    rw [List.mem_singleton.1 hn] at hapart
    exact absurd rfl hapart
  shown fact o h := nomatch h.first
  edge e he := nomatch he
  placed fact o h := nomatch h.first

/-- An id is taken by the module or by what is shown. -/
theorem taken_iff (h : Placed f c facts r) (o : LocalDefinition) :
    (∃ n ∈ r.nodes, n.id = o.id) ↔ o.id = c.moduleId ∨ c.shownBy? facts o.id ≠ none := by
  constructor
  · rintro ⟨n, hn, hid⟩
    refine or_iff_not_imp_left.2 fun hapart => ?_
    obtain ⟨fact, p, hshows, hp⟩ := h.node n hn (hid ▸ hapart)
    rw [← hid, ← hp, hshows.first]
    exact Option.some_ne_none fact
  · intro htaken
    by_cases hmodule : o.id = c.moduleId
    · rw [hmodule]
      exact h.module
    · obtain ⟨fact, hfact⟩ := Option.ne_none_iff_exists'.1 (htaken.resolve_left hmodule)
      obtain ⟨-, p, hp, hid⟩ := FileScope.shownBy?_spec hfact
      rw [← hid] at hmodule hfact ⊢
      exact h.shown fact p ⟨hp, hmodule, hfact⟩

/-- A fact that no node shows changes nothing. -/
theorem passedOver (h : Placed f c facts r)
    (hlast : ∀ o, c.definition? last = some o → ∃ n ∈ r.nodes, n.id = o.id) :
    Placed f c (facts ++ [last]) r := by
  have hshows : ∀ fact o, Shows c (facts ++ [last]) fact o ↔ Shows c facts fact o := by
    intro fact o
    rw [Shows.concat_iff, or_iff_left_iff_imp]
    rintro ⟨rfl, hdefines, hapart, hnew⟩
    exact absurd hnew (((h.taken_iff o).1 (hlast o hdefines)).resolve_left hapart)
  constructor
  case module => exact h.module
  case node => simpa only [hshows] using h.node
  case shown => simpa only [hshows] using h.shown
  case edge => simpa only [hshows] using h.edge
  case placed => simpa only [hshows] using h.placed

/-- A fact whose id is free is shown by a node of its own. -/
theorem shows_concat (h : Placed f c facts r) {o : LocalDefinition}
    (ho : c.definition? last = some o) (hfree : ¬ ∃ n ∈ r.nodes, n.id = o.id) {fact : Fact}
    {p : LocalDefinition} :
    Shows c (facts ++ [last]) fact p ↔ Shows c facts fact p ∨ (fact = last ∧ p = o) := by
  rw [h.taken_iff, not_or, not_not] at hfree
  refine Shows.concat_iff.trans (or_congr_right ⟨?_, ?_⟩)
  · rintro ⟨rfl, hdefines, -, -⟩
    exact ⟨rfl, Option.some.inj (hdefines.symm.trans ho)⟩
  · rintro ⟨rfl, rfl⟩
    exact ⟨rfl, ho, hfree.1, hfree.2⟩

/-- A fact whose id is free gets a node, and the edge that contains it if that is not there. -/
theorem takenUp (h : Placed f c facts r) {o : LocalDefinition} (ho : c.definition? last = some o)
    (hfree : ¬ ∃ n ∈ r.nodes, n.id = o.id) (new : Node) (hnew : new.id = o.id) :
    Placed f c (facts ++ [last])
      { r with
        nodes := r.nodes ++ [new]
        edges := addEdge r.edges (containment f c last o) } := by
  have hshows : ∀ {fact p}, Shows c (facts ++ [last]) fact p ↔
      Shows c facts fact p ∨ (fact = last ∧ p = o) := h.shows_concat ho hfree
  constructor
  case module =>
    obtain ⟨n, hn, hid⟩ := h.module
    exact ⟨n, List.mem_append_left _ hn, hid⟩
  case node =>
    intro n hn hapart
    rcases List.mem_append.1 hn with hn | hn
    · obtain ⟨fact, p, hp, hid⟩ := h.node n hn hapart
      exact ⟨fact, p, hshows.2 (.inl hp), hid⟩
    · rw [List.mem_singleton.1 hn]
      exact ⟨last, o, hshows.2 (.inr ⟨rfl, rfl⟩), hnew.symm⟩
  case shown =>
    intro fact p hp
    rcases hshows.1 hp with hp | ⟨-, rfl⟩
    · obtain ⟨n, hn, hid⟩ := h.shown fact p hp
      exact ⟨n, List.mem_append_left _ hn, hid⟩
    · exact ⟨new, List.mem_append_right _ (List.mem_singleton_self _), hnew⟩
  case edge =>
    intro e he
    rcases mem_addEdge he with he | rfl
    · obtain ⟨fact, p, hp, rfl⟩ := h.edge e he
      exact ⟨fact, p, hshows.2 (.inl hp), rfl⟩
    · exact ⟨last, o, hshows.2 (.inr ⟨rfl, rfl⟩), rfl⟩
  case placed =>
    intro fact p hp
    rcases hshows.1 hp with hp | ⟨rfl, rfl⟩
    · obtain ⟨e, he, hid⟩ := h.placed fact p hp
      exact ⟨e, mem_addEdge_of_mem he, hid⟩
    · exact exists_mem_addEdge _ _

theorem addDefinition (h : Placed f c facts r) :
    Placed f c (facts ++ [last]) (addDefinition f c r last) := by
  rw [Resolve.addDefinition]
  cases hkind : last.definitionKind? with
  | none => exact h.passedOver fun o ho => by simp [FileScope.definition?, hkind] at ho
  | some kind =>
      let path := FileScope.relative c.separator last.scope last.name
      let o : LocalDefinition := ⟨path, kind, (definitionNode f c kind last).id⟩
      have ho : c.definition? last = some o := by
        rw [FileScope.definition?, hkind]
        rfl
      simp only []
      split
      · next hthere =>
        refine h.passedOver fun p hp => ?_
        obtain ⟨n, hn, hid⟩ := List.any_eq_true.1 hthere
        obtain rfl : o = p := Option.some.inj (ho.symm.trans hp)
        exact ⟨n, hn, beq_iff_eq.1 hid⟩
      · next hfree =>
        refine h.takenUp ho ?_ (definitionNode f c kind last) rfl
        rintro ⟨n, hn, hid⟩
        exact hfree (List.any_eq_true.2 ⟨n, hn, beq_iff_eq.2 hid⟩)

theorem addDefinitions (h : Placed f c facts r) (more : List Fact) :
    Placed f c (facts ++ more) (more.foldl (Resolve.addDefinition f c) r) := by
  induction more generalizing facts r with
  | nil => rwa [List.append_nil]
  | cons fact more ih =>
      rw [List.append_cons]
      exact ih h.addDefinition

end Placed

/-! ## References contain nothing -/

variable {f : SourceFile} {c : FileScope} {index : SymbolIndex} {r r' : Resolution}

theorem reference?_ne_contains {fact : Fact} {rel : Relationship} {source : String} {t : Target}
    (h : reference? c index fact = .ok (some (rel, source, t))) : rel ≠ .contains := by
  obtain ⟨sought, hsought, -⟩ := reference?_some h
  rw [sought?] at hsought
  split at hsought
  · obtain ⟨path, -, heq⟩ := Option.map_eq_some_iff.1 hsought
    cases heq
    simp
  · cases hsought
    simp
  · cases hsought
    simp
  · obtain ⟨subclass, -, heq⟩ := Option.map_eq_some_iff.1 hsought
    cases heq
    simp
  · cases hsought
  · cases hsought

theorem addReferences_contains {facts : List Fact} (h : addReferences f c index r facts = .ok r')
    {e : Edge} (hcontains : e.relationship = .contains) : e ∈ r'.edges ↔ e ∈ r.edges := by
  refine ⟨fun he => ?_, addReferences_edges h e⟩
  induction facts generalizing r with
  | nil =>
      cases h
      exact he
  | cons fact facts ih =>
      obtain ⟨found, hfound, h⟩ := bind_ok h
      cases found with
      | none => exact ih h
      | some found =>
          have hold := ih h
          rcases addReference_cases f r fact.span found with hsame | ⟨-, -, hedges⟩
          · rwa [hsame] at hold
          · rw [hedges, List.mem_append, List.mem_singleton] at hold
            refine hold.resolve_right fun hnew => ?_
            rw [hnew] at hcontains
            exact absurd hcontains (reference?_ne_contains hfound)

/-! ## Whole files -/

/-- Definitions of a file that would be contained by one edge.  They differ in kind if they have
one qualified name. -/
def Rivals (f : SourceFile) (a b : Fact) : Prop :=
  ∃ o ∈ (FileScope.ofFile f).definition? a, ∃ p ∈ (FileScope.ofFile f).definition? b,
    Shows (FileScope.ofFile f) f.facts a o ∧ Shows (FileScope.ofFile f) f.facts b p ∧
      o.id ≠ p.id ∧ (containment f (FileScope.ofFile f) a o).id =
        (containment f (FileScope.ofFile f) b p).id

/-- An edge's id tells its source and the name that it waits for, if there is no `>` in the
source. -/
theorem idOf_inj_of_plain {rel : Relationship} {source source' name name' file : String}
    (hplain : '>' ∉ source.toList) (hplain' : '>' ∉ source'.toList)
    (h : Edge.idOf rel source name file = Edge.idOf rel source' name' file) :
    source = source' ∧ name = name' := by
  let rest := fun name : String => name.toList ++ '@' :: file.toList
  have hlists : (source.toList ++ ['-']) ++ (['>'] ++ rest name) =
      (source'.toList ++ ['-']) ++ (['>'] ++ rest name') := by
    simpa [Edge.idOf, ← String.toList_inj, rest] using h
  have hcut : Text.cutChars ['>'] (source.toList ++ ['-'] ++ (['>'] ++ rest name)) =
      some (source.toList ++ ['-'], rest name) :=
    Text.cutChars_append _ _ (by simpa using hplain)
  rw [hlists, Text.cutChars_append _ _ (by simpa using hplain')] at hcut
  simpa [rest, ← String.toList_inj, eq_comm] using hcut

/-- Rivals are definitions of different kinds that have one qualified name and stand in one
definition. -/
theorem rivals_iff {a b : Fact}
    (ha : '>' ∉ ((FileScope.ofFile f).enclosing a.scope).toList)
    (hb : '>' ∉ ((FileScope.ofFile f).enclosing b.scope).toList) :
    Rivals f a b ↔ ∃ o ∈ (FileScope.ofFile f).definition? a,
      ∃ p ∈ (FileScope.ofFile f).definition? b,
        Shows (FileScope.ofFile f) f.facts a o ∧ Shows (FileScope.ofFile f) f.facts b p ∧
          o.kind ≠ p.kind ∧
          (FileScope.ofFile f).qualify o.path = (FileScope.ofFile f).qualify p.path ∧
          (FileScope.ofFile f).enclosing a.scope = (FileScope.ofFile f).enclosing b.scope := by
  have hid : ∀ {fact : Fact} {o : LocalDefinition}, (FileScope.ofFile f).definition? fact = some o →
      o.id = Node.idOf o.kind ((FileScope.ofFile f).qualify o.path) := fun ho => by
    obtain ⟨kind, -, rfl⟩ := Option.map_eq_some_iff.1 ho
    rfl
  constructor
  · rintro ⟨o, ho, p, hp, hshows, hshows', hne, hsame⟩
    obtain ⟨haround, hname⟩ := idOf_inj_of_plain ha hb hsame
    refine ⟨o, ho, p, hp, hshows, hshows', fun hkind => hne ?_, hname, haround⟩
    rw [hid ho, hid hp, hkind]
    exact congrArg _ hname
  · rintro ⟨o, ho, p, hp, hshows, hshows', hkind, hname, haround⟩
    refine ⟨o, ho, p, hp, hshows, hshows', fun heq => hkind ?_, ?_⟩
    · rw [hid ho, hid hp] at heq
      exact (Node.idOf_inj heq).1
    · simp only [containment, edgeTo, Target.resolved, haround, hname]

/-- Whether a definition of the file stands below a path. -/
def Holds (f : SourceFile) (path : String) : Prop :=
  ∃ fact ∈ f.facts, fact.definitionKind?.isSome = true ∧
    ∃ part ∈ FileScope.outerScopes fact.scope,
      FileScope.pathOf (FileScope.ofFile f).separator part = path

/-- Whether every definition that has others in it stands at one path. -/
def HoldersSettled (f : SourceFile) : Prop :=
  ∀ a ∈ f.facts, ∀ b ∈ f.facts, ∀ o ∈ (FileScope.ofFile f).definition? a,
    ∀ p ∈ (FileScope.ofFile f).definition? b, o.id = p.id → Holds f o.path → p.path = o.path

/-- The nodes of a file are a tree by containment, with the module as its root: every other node is
contained by exactly one edge, which starts at the innermost definition around what the node
shows. -/
structure IsTree (f : SourceFile) (r : Resolution) : Prop where
  root : r.containers r.module.id = []
  contained : ∀ n ∈ r.nodes, n.id ≠ r.module.id → ∃ fact e,
    (FileScope.ofFile f).shownBy? f.facts n.id = some fact ∧ r.containers n.id = [e] ∧
      Innermost f fact.scope e.source
  reached : ∀ n ∈ r.nodes, Relation.ReflTransGen r.Contains r.module.id n.id

/-- The definitions of a file with their nodes and edges, before what they refer to is added. -/
theorem resolve_placed (h : resolve index f = .ok r) : ∃ defined,
    Placed f (FileScope.ofFile f) f.facts defined ∧ r.nodes = defined.nodes ∧
      ∀ e, e.relationship = .contains → (e ∈ r.edges ↔ e ∈ defined.edges) :=
  ⟨_, (Placed.moduleOnly f _).addDefinitions f.facts, addReferences_nodes h,
    fun _ => addReferences_contains h⟩

section

variable (h : resolve index f = .ok r)

include h

theorem module_id : r.module.id = (FileScope.ofFile f).moduleId := by
  rw [(resolve_kept h).module]
  rfl

theorem exists_node_of_shows {fact : Fact} {o : LocalDefinition}
    (hshows : Shows (FileScope.ofFile f) f.facts fact o) : ∃ n ∈ r.nodes, n.id = o.id := by
  obtain ⟨defined, hplaced, hnodes, -⟩ := resolve_placed h
  rw [hnodes]
  exact hplaced.shown fact o hshows

theorem exists_shows_of_node {n : Node} (hn : n ∈ r.nodes) (hapart : n.id ≠ r.module.id) :
    ∃ fact o, Shows (FileScope.ofFile f) f.facts fact o ∧ o.id = n.id := by
  obtain ⟨defined, hplaced, hnodes, -⟩ := resolve_placed h
  rw [hnodes] at hn
  rw [module_id h] at hapart
  exact hplaced.node n hn hapart

/-- What contains a node is the place of the fact that it shows. -/
theorem mem_containers_shows {id : String} {e : Edge} (he : e ∈ r.containers id) :
    ∃ fact o, Shows (FileScope.ofFile f) f.facts fact o ∧ o.id = id ∧
      e = containment f (FileScope.ofFile f) fact o := by
  obtain ⟨defined, hplaced, -, hedges⟩ := resolve_placed h
  obtain ⟨hmem, hrel, htarget⟩ := Resolution.mem_containers.1 he
  obtain ⟨fact, o, hshows, rfl⟩ := hplaced.edge e ((hedges e hrel).1 hmem)
  exact ⟨fact, o, hshows, Option.some.inj htarget, rfl⟩

/-- The place of a fact that is shown has its edge, if that of a rival does not stand for it. -/
theorem exists_edge_of_shows {fact : Fact} {o : LocalDefinition}
    (hshows : Shows (FileScope.ofFile f) f.facts fact o) : ∃ fact' o',
      Shows (FileScope.ofFile f) f.facts fact' o' ∧
      (containment f (FileScope.ofFile f) fact' o').id =
        (containment f (FileScope.ofFile f) fact o).id ∧
      containment f (FileScope.ofFile f) fact' o' ∈ r.containers o'.id := by
  obtain ⟨defined, hplaced, -, hedges⟩ := resolve_placed h
  obtain ⟨e, he, hid⟩ := hplaced.placed fact o hshows
  obtain ⟨fact', o', hshows', rfl⟩ := hplaced.edge e he
  exact ⟨fact', o', hshows', hid, Resolution.mem_containers.2 ⟨(hedges _ rfl).2 he, rfl, rfl⟩⟩

/-- One edge contains what is shown and has no rivals. -/
theorem containers_eq_singleton {fact : Fact} {o : LocalDefinition}
    (hshows : Shows (FileScope.ofFile f) f.facts fact o)
    (hrivals : ∀ a ∈ f.facts, ∀ b ∈ f.facts, ¬ Rivals f a b) :
    r.containers o.id = [containment f (FileScope.ofFile f) fact o] := by
  obtain ⟨fact', o', hshows', hid, he⟩ := exists_edge_of_shows h hshows
  have hsame : o'.id = o.id := by
    by_contra hne
    have hmem := (FileScope.shownBy?_spec hshows.first).1
    have hmem' := (FileScope.shownBy?_spec hshows'.first).1
    exact hrivals fact' hmem' fact hmem ⟨o', hshows'.defines, o, hshows.defines, hshows', hshows,
      hne, hid⟩
  obtain ⟨rfl, rfl⟩ := hshows'.unique hshows hsame
  have honly : ∀ e ∈ r.containers o'.id, e = containment f (FileScope.ofFile f) fact' o' := by
    intro e he
    obtain ⟨fact, o, hshows, hid, rfl⟩ := mem_containers_shows h he
    obtain ⟨rfl, rfl⟩ := hshows.unique hshows' hid
    rfl
  have hnodup : (r.containers o'.id).Nodup :=
    (List.Nodup.of_map _ (resolve_madeFrom h).edgeIds).filter _
  have hperm : (r.containers o'.id).Perm [containment f (FileScope.ofFile f) fact' o'] := by
    refine (List.perm_ext_iff_of_nodup hnodup (List.nodup_singleton _)).2 fun e => ?_
    rw [List.mem_singleton]
    exact ⟨honly e, fun heq => heq ▸ he⟩
  exact hperm.eq_singleton

/-- In a tree, what is shown has the edge of its place. -/
theorem IsTree.exists_edge (htree : IsTree f r) {fact : Fact} {o : LocalDefinition}
    (hshows : Shows (FileScope.ofFile f) f.facts fact o) : ∃ e ∈ r.containers o.id,
      e.id = (containment f (FileScope.ofFile f) fact o).id := by
  obtain ⟨n, hn, hid⟩ := exists_node_of_shows h hshows
  have hapart : n.id ≠ r.module.id := by
    rw [hid, module_id h]
    exact hshows.apart
  obtain ⟨-, e, -, hcontainers, -⟩ := htree.contained n hn hapart
  rw [← hid, hcontainers]
  refine ⟨e, List.mem_singleton_self e, ?_⟩
  have he : e ∈ r.containers n.id := by
    rw [hcontainers]
    exact List.mem_singleton_self e
  obtain ⟨fact', o', hshows', hid', rfl⟩ := mem_containers_shows h he
  obtain ⟨rfl, rfl⟩ := hshows'.unique hshows (hid'.trans hid)
  rfl

/-- What is shown and has no rivals is reached from the module, if the definitions on the way stand
at one path each. -/
theorem reached_of_shows
    (hnames : ∀ fact ∈ f.facts, fact.definitionKind?.isSome = true → fact.name ≠ "")
    (hholders : HoldersSettled f) (hrivals : ∀ a ∈ f.facts, ∀ b ∈ f.facts, ¬ Rivals f a b)
    {fact : Fact} {o : LocalDefinition} (hshows : Shows (FileScope.ofFile f) f.facts fact o) :
    Relation.ReflTransGen r.Contains r.module.id o.id := by
  -- What is around a definition stands at a shorter path.
  induction hlength : o.path.length using Nat.strongRecOn generalizing fact o with
  | _ length ih =>
      subst hlength
      have hmem := (FileScope.shownBy?_spec hshows.first).1
      have hkind : fact.definitionKind?.isSome = true := by
        simpa [FileScope.definition?] using congrArg Option.isSome hshows.defines
      have hstep : r.Contains ((FileScope.ofFile f).enclosing fact.scope) o.id := by
        refine ⟨containment f (FileScope.ofFile f) fact o, ?_, rfl⟩
        rw [containers_eq_singleton h hshows hrivals]
        exact List.mem_singleton_self _
      refine Relation.ReflTransGen.tail ?_ hstep
      rcases (enclosing_innermost f fact.scope).cases with hmodule | ⟨part, hpart, haround⟩
      · rw [hmodule, module_id h]
      · obtain ⟨holder, hholder, p, hp, hpath, hid⟩ := haround
        rw [← hid]
        by_cases hapart : p.id = (FileScope.ofFile f).moduleId
        · rw [hapart, module_id h]
        · obtain ⟨first, hfirst⟩ := FileScope.exists_shownBy? hholder hp
          obtain ⟨hfirstMem, q, hq, hsame⟩ := FileScope.shownBy?_spec hfirst
          have hqpath : q.path = p.path := hholders holder hholder first hfirstMem p hp q hq
            hsame.symm ⟨fact, hmem, hkind, part, hpart, hpath.symm⟩
          have hshorter : q.path.length < o.path.length := by
            rw [hqpath, hpath]
            exact FileScope.length_pathOf_lt hshows.defines (hnames fact hmem hkind) hpart
          rw [← hsame] at hapart hfirst ⊢
          exact ih q.path.length hshorter ⟨hq, hapart, hfirst⟩ rfl

end

/-- In a file without impl blocks of imported types every definition stands at one path. -/
theorem holdersSettled_of_homes_nil (hhomes : (FileScope.ofFile f).homes = [])
    (hnames : ∀ fact ∈ f.facts, fact.definitionKind?.isSome = true → fact.name ≠ "") :
    HoldersSettled f := by
  rintro a ha b hb o ho p hp hid -
  obtain ⟨kind, hkind, rfl⟩ := Option.map_eq_some_iff.1 ho
  obtain ⟨kind', hkind', rfl⟩ := Option.map_eq_some_iff.1 hp
  have hnamed := (Node.idOf_inj hid).2
  simp only [FileScope.qualify, hhomes, FileScope.qualifyIn, ModulePath.child] at hnamed
  refine (FileScope.join_inj ?_ ?_ hnamed).symm
  · exact FileScope.join_ne_empty (hnames a ha (by rw [hkind]; rfl))
  · exact FileScope.join_ne_empty (hnames b hb (by rw [hkind']; rfl))

/-- **The definitions of a file are a tree by containment if and only if none of them are rivals**:
then every node but the module is contained by exactly one edge, which starts at the innermost
definition around it, and the way up from every node ends at the module. -/
theorem isTree_iff_no_rivals (h : resolve index f = .ok r)
    (hnames : ∀ fact ∈ f.facts, fact.definitionKind?.isSome = true → fact.name ≠ "")
    (hholders : (FileScope.ofFile f).homes ≠ [] → HoldersSettled f) :
    IsTree f r ↔ ∀ a ∈ f.facts, ∀ b ∈ f.facts, ¬ Rivals f a b := by
  have hsettled : HoldersSettled f := by
    by_cases hhomes : (FileScope.ofFile f).homes = []
    · exact holdersSettled_of_homes_nil hhomes hnames
    · exact hholders hhomes
  constructor
  · rintro htree a - b - ⟨o, -, p, -, hshows, hshows', hne, hid⟩
    obtain ⟨e, he, heid⟩ := htree.exists_edge h hshows
    obtain ⟨g, hg, hgid⟩ := htree.exists_edge h hshows'
    have hsame : e = g := List.inj_on_of_nodup_map (resolve_madeFrom h).edgeIds
      (Resolution.mem_containers.1 he).1 (Resolution.mem_containers.1 hg).1
      (heid.trans (hid.trans hgid.symm))
    subst hsame
    exact hne (Option.some.inj ((Resolution.mem_containers.1 he).2.2.symm.trans
      (Resolution.mem_containers.1 hg).2.2))
  · intro hrivals
    constructor
    case root =>
      refine List.eq_nil_iff_forall_not_mem.2 fun e he => ?_
      obtain ⟨fact, o, hshows, hid, -⟩ := mem_containers_shows h he
      exact hshows.apart (hid.trans (module_id h))
    case contained =>
      intro n hn hapart
      obtain ⟨fact, o, hshows, hid⟩ := exists_shows_of_node h hn hapart
      rw [← hid]
      exact ⟨fact, _, hshows.first, containers_eq_singleton h hshows hrivals,
        enclosing_innermost f fact.scope⟩
    case reached =>
      intro n hn
      by_cases hapart : n.id = r.module.id
      · rw [hapart]
      · obtain ⟨fact, o, hshows, hid⟩ := exists_shows_of_node h hn hapart
        rw [← hid]
        exact reached_of_shows h hnames hsettled hrivals hshows

/-! ### Files to look at -/

instance (c : FileScope) (facts : List Fact) (fact : Fact) (o : LocalDefinition) :
    Decidable (Shows c facts fact o) :=
  decidable_of_iff (c.definition? fact = some o ∧ o.id ≠ c.moduleId ∧
    c.shownBy? facts o.id = some fact) ⟨fun ⟨h, h', h''⟩ => ⟨h, h', h''⟩, fun h => ⟨h.1, h.2, h.3⟩⟩

instance (f : SourceFile) (a b : Fact) : Decidable (Rivals f a b) :=
  inferInstanceAs (Decidable (∃ o ∈ (FileScope.ofFile f).definition? a,
    ∃ p ∈ (FileScope.ofFile f).definition? b, _ ∧ _ ∧ _ ∧ _))

instance (f : SourceFile) (path : String) : Decidable (Holds f path) :=
  inferInstanceAs (Decidable (∃ fact ∈ f.facts, _ ∧ ∃ part ∈ _, _))

instance (f : SourceFile) : Decidable (HoldersSettled f) :=
  inferInstanceAs (Decidable (∀ a ∈ f.facts, ∀ b ∈ f.facts,
    ∀ o ∈ (FileScope.ofFile f).definition? a, ∀ p ∈ (FileScope.ofFile f).definition? b, _ → _ → _))

/-- A module with a function in an impl block of an imported type, and a type in that function. -/
def importedType : SourceFile :=
  ⟨"src/m.rs", "src/m.rs", "rust", "::",
    [.imported "T" "ext::T" [] ⟨0, 4, 0, 10⟩,
      .definition .module "inner" [] ⟨1, 0, 5, 1⟩ "mod inner",
      .definition .method "run" ["inner", "T"] ⟨2, 13, 4, 5⟩ "fn run()",
      .definition .classLike "S" ["inner", "T", "run"] ⟨3, 8, 3, 17⟩ "struct S",
      .call "S::new" ["inner", "T", "run"] ⟨3, 18, 3, 26⟩], ⟨0, 0, 6, 0⟩⟩

/-- A class and a function of the same name. -/
def classAndFunction : SourceFile :=
  ⟨"m.py", "m.py", "python", ".",
    [.definition .classLike "f" [] ⟨0, 0, 1, 8⟩ "class f",
      .definition .function "f" [] ⟨3, 0, 4, 8⟩ "def f()"], ⟨0, 0, 5, 0⟩⟩

theorem isTree_iff_no_rivals_importedType : ∃ r r', resolve (.ofList []) importedType = .ok r ∧
    resolve (.ofList []) classAndFunction = .ok r' ∧
    (∀ fact ∈ importedType.facts, fact.definitionKind?.isSome = true → fact.name ≠ "") ∧
    HoldersSettled importedType ∧ IsTree importedType r ∧ ¬ IsTree classAndFunction r' ∧
    (r.containers "class:ext::T::run::S").map Edge.source = ["method:ext::T::run"] ∧
    (r.containers "method:ext::T::run").map Edge.source = ["module:crate::m::inner"] ∧
    r'.containers "function:m.f" = [] := by
  obtain ⟨r, hr⟩ := resolve_answered (SymbolIndex.ofList_answers []) importedType
  obtain ⟨r', hr'⟩ := resolve_answered (SymbolIndex.ofList_answers []) classAndFunction
  have hnames : ∀ fact ∈ importedType.facts, fact.definitionKind?.isSome = true →
      fact.name ≠ "" := by
    decide +kernel
  have hholders : HoldersSettled importedType := by decide +kernel
  have htree : IsTree importedType r :=
    (isTree_iff_no_rivals hr hnames fun _ => hholders).2 (by decide +kernel)
  have hnotTree : ¬ IsTree classAndFunction r' := by
    rw [isTree_iff_no_rivals hr' (by decide +kernel) fun _ => by decide +kernel]
    decide +kernel
  have hparts : (resolve (.ofList []) importedType).map (fun r =>
      ((r.containers "class:ext::T::run::S").map Edge.source,
        (r.containers "method:ext::T::run").map Edge.source)) =
      .ok (["method:ext::T::run"], ["module:crate::m::inner"]) := by
    decide +kernel
  have hparts' : (resolve (.ofList []) classAndFunction).map (fun r =>
      r.containers "function:m.f") = .ok [] := by
    decide +kernel
  rw [hr] at hparts
  rw [hr'] at hparts'
  simp only [Except.map, Except.ok.injEq, Prod.mk.injEq] at hparts hparts'
  exact ⟨r, r', hr, hr', hnames, hholders, htree, hnotTree, hparts.1, hparts.2, hparts'⟩

/-- A type that stands in an impl block of the module itself, which stands in one of the type. -/
def typeInItself : SourceFile :=
  ⟨"src/m.rs", "src/m.rs", "rust", "::",
    [.imported "T" "crate::m" [] ⟨0, 4, 0, 17⟩,
      .definition .classLike "S" ["S", "T"] ⟨1, 18, 1, 27⟩ "struct S",
      .definition .classLike "S" [] ⟨2, 0, 2, 9⟩ "struct S"], ⟨0, 0, 3, 0⟩⟩

/-- Without rivals there is no tree either if what holds others stands at several paths. -/
theorem typeInItself_not_isTree : ∃ r, resolve (.ofList []) typeInItself = .ok r ∧
    (∀ a ∈ typeInItself.facts, ∀ b ∈ typeInItself.facts, ¬ Rivals typeInItself a b) ∧
    ¬ HoldersSettled typeInItself ∧ ¬ IsTree typeInItself r := by
  obtain ⟨r, hr⟩ := resolve_answered (SymbolIndex.ofList_answers []) typeInItself
  have hparts : (resolve (.ofList []) typeInItself).map (fun r => (r.module.id, r.nodes.map Node.id,
      (r.containers "class:crate::m::S").map Edge.source)) =
      .ok ("module:crate::m", ["module:crate::m", "class:crate::m::S"], ["class:crate::m::S"]) := by
    decide +kernel
  rw [hr] at hparts
  simp only [Except.map, Except.ok.injEq, Prod.mk.injEq] at hparts
  obtain ⟨hmodule, hnodes, hself⟩ := hparts
  refine ⟨r, hr, by decide +kernel, by decide +kernel, fun htree => ?_⟩
  have hapart : ∀ id, Relation.ReflTransGen r.Contains r.module.id id →
      id ≠ "class:crate::m::S" := by
    intro id hreached
    induction hreached with
    | refl =>
        rw [hmodule]
        decide
    | tail _ hstep ih =>
        obtain ⟨e, he, hsource⟩ := hstep
        rintro rfl
        have hmem := List.mem_map_of_mem (f := Edge.source) he
        rw [hself, List.mem_singleton, hsource] at hmem
        exact ih hmem
  have hmem : "class:crate::m::S" ∈ r.nodes.map Node.id := by
    rw [hnodes]
    simp
  obtain ⟨n, hn, hid⟩ := List.mem_map.1 hmem
  exact hapart n.id (htree.reached n hn) hid

end Resolve

end CodeAtlas
