import CodeAtlas.Proofs.Resolve.Contribution
import CodeAtlas.Proofs.Resolve.Total

/-!
# CodeAtlas.Proofs.Resolve.WellFormed

What every resolution of a file is, whatever facts it was read as and whatever is known of
other files.

The nodes are the module, first, and the definitions; no id comes twice, and everything is the
file's own (`MadeFrom`).  What is left to show is told in three steps: a target that is found is
on offer, from the file or from the symbols, as what the reference may mean (`FileScope.Fits`);
what an edge starts at, and what is found in the file, is one of its definitions or its module
(`FileScope.Defines`); and every definition that names are looked up among has its node
(`exists_definition_node`), although those are collected apart from the nodes and from the
edges.
-/

namespace CodeAtlas

/-- Whether a look-up gives a symbol. -/
def SymbolIndex.Lists (index : SymbolIndex) (s : Symbol) : Prop :=
  ∃ name symbols, s ∈ symbols ∧
    (index.byName name = .ok symbols ∨ index.byQualifiedName name = .ok symbols)

/-- The nodes and edges of a file belong together: nothing comes twice, everything is of the
file, edges start at its nodes, and what has a target has one that it may mean. -/
structure Resolution.WellFormed (f : SourceFile) (index : SymbolIndex) (r : Resolution) :
    Prop where
  module : r.module = Resolve.moduleNode f (Resolve.FileScope.ofFile f)
  moduleFirst : r.nodes.head? = some r.module
  nodeIds : (r.nodes.map Node.id).Nodup
  edgeIds : (r.edges.map Edge.id).Nodup
  nodeFile : ∀ n ∈ r.nodes, n.file = f.filePath
  edgeFile : ∀ e ∈ r.edges, e.file = f.filePath
  edgeId : ∀ e ∈ r.edges, e.id = Edge.idOf e.relationship e.source e.targetRef f.filePath
  waits : ∀ e ∈ r.edges, e.target = none ↔ e.confidence = .unresolved
  target : ∀ e ∈ r.edges, ∀ d, e.target = some d →
    (∃ n ∈ r.nodes, n.id = d ∧ e.relationship.accepts n.kind = true) ∨
      ∃ s, index.Lists s ∧ s.id = d ∧ e.relationship.accepts s.kind = true
  source : ∀ e ∈ r.edges, e.relationship ≠ .inherits → ∃ n ∈ r.nodes, n.id = e.source
  unresolved : r.unresolved = (r.edges.filter (·.target.isNone)).map Edge.targetRef
  ambiguous : r.ambiguous.Sublist r.unresolved

namespace Resolve

namespace FileScope

/-! ## What is on offer -/

/-- Whether an id is that of a definition of some kind, or of the module. -/
def Defines (c : FileScope) (kind : NodeKind) (id : String) : Prop :=
  (kind = .module ∧ id = c.moduleId) ∨ ∃ o ∈ c.definitions, o.kind = kind ∧ o.id = id

/-- What a target is: it says whether it was found, and was found in the file or among the
symbols, as something of a kind that is accepted. -/
structure Fits (c : FileScope) (index : SymbolIndex) (r : Relationship) (t : Target) : Prop where
  waits : t.id = none ↔ t.confidence = .unresolved
  ambiguous : t.ambiguous = true → t.id = none
  found : ∀ d, t.id = some d → (∃ kind, c.Defines kind d ∧ r.accepts kind = true) ∨
    ∃ s, index.Lists s ∧ s.id = d ∧ r.accepts s.kind = true

variable {c : FileScope} {index : SymbolIndex} {r : Relationship}

theorem Fits.unresolved (name : String) : c.Fits index r (.unresolved name) := by
  constructor <;> simp [Target.unresolved]

theorem Fits.own {name id : String} {kind : NodeKind} (h : c.Defines kind id)
    (hacc : r.accepts kind = true) : c.Fits index r (.resolved name id) := by
  refine ⟨by simp [Target.resolved], by simp [Target.resolved], fun d hd => .inl ?_⟩
  obtain rfl : id = d := Option.some.inj hd
  exact ⟨kind, h, hacc⟩

theorem Fits.listed {name : String} {s : Symbol} (h : index.Lists s)
    (hacc : r.accepts s.kind = true) : c.Fits index r (.resolved name s.id) := by
  refine ⟨by simp [Target.resolved], by simp [Target.resolved], fun d hd => .inr ?_⟩
  exact ⟨s, h, Option.some.inj hd, hacc⟩

/-! ## In the file -/

theorem first?_mem {ds : List LocalDefinition} {d : LocalDefinition} (h : first? ds = some d) :
    d ∈ ds := by
  induction ds with
  | nil => cases h
  | cons a ds ih =>
      rw [first?] at h
      split at h
      · cases h
        exact List.mem_cons_self
      · next b hb =>
        split at h
        · cases h
          exact List.mem_cons_self
        · cases h
          exact List.mem_cons_of_mem a (ih hb)

theorem mem_definitionsAt {path : String} {o : LocalDefinition} :
    o ∈ c.definitionsAt path ↔ o ∈ c.definitions ∧ o.path = path := by
  rw [definitionsAt, List.mem_filter, beq_iff_eq]

theorem local?_spec {path id : String} (h : c.local? path r = some id) :
    ∃ kind, c.Defines kind id ∧ r.accepts kind = true := by
  obtain ⟨o, ho, rfl⟩ := Option.map_eq_some_iff.1 h
  obtain ⟨hat, hacc⟩ := List.mem_filter.1 (first?_mem ho)
  exact ⟨o.kind, .inr ⟨o, (mem_definitionsAt.1 hat).1, rfl, rfl⟩, hacc⟩

theorem enclosing_defined (c : FileScope) (scope : List String) :
    ∃ kind, c.Defines kind (c.enclosing scope) := by
  rw [enclosing]
  cases hfound : (outerScopes scope).findSome? fun part =>
      (first? (c.definitionsAt (pathOf c.separator part))).map (·.id) with
  | none => exact ⟨.module, .inl ⟨rfl, rfl⟩⟩
  | some id =>
      obtain ⟨part, -, hpart⟩ := List.exists_of_findSome?_eq_some hfound
      obtain ⟨o, ho, rfl⟩ := Option.map_eq_some_iff.1 hpart
      exact ⟨o.kind, .inr ⟨o, (mem_definitionsAt.1 (first?_mem ho)).1, rfl, rfl⟩⟩

theorem inScope?_fits {path : String} {scope : List String} {t : Target}
    (h : c.inScope? path scope r = some t) : c.Fits index r t := by
  rw [inScope?] at h
  obtain ⟨part, -, hpart⟩ := List.exists_of_findSome?_eq_some h
  split at hpart
  · cases hpart
  · obtain ⟨id, hid, rfl⟩ := Option.map_eq_some_iff.1 hpart
    obtain ⟨kind, hdefines, hacc⟩ := local?_spec hid
    exact .own hdefines hacc

/-! ## Among the symbols -/

theorem best?_mem {ss : List Symbol} {s : Symbol} (h : best? ss = some s) : s ∈ ss := by
  induction ss with
  | nil => cases h
  | cons a ss ih =>
      rw [best?] at h
      split at h
      · cases h
        exact List.mem_cons_self
      · next b hb =>
        split at h
        · cases h
          exact List.mem_cons_self
        · cases h
          exact List.mem_cons_of_mem a (ih hb)

theorem pick_fits {name candidate : String} {symbols : List Symbol} {s : Symbol}
    (hfound : index.byQualifiedName name = .ok symbols) (h : c.pick symbols r = some s) :
    c.Fits index r (.resolved candidate s.id) := by
  obtain ⟨hmem, hfit⟩ := List.mem_filter.1 (best?_mem h)
  rw [Bool.and_eq_true] at hfit
  exact .listed ⟨name, symbols, hmem, .inr hfound⟩ hfit.2

theorem global_fits {name : String} {t : Target} (h : c.global index name r = .ok t) :
    c.Fits index r t := by
  obtain ⟨symbols, hsymbols, h⟩ := bind_ok h
  simp only [] at h
  split at h
  · cases h
    exact .unresolved name
  · next s hs =>
    cases h
    have hmem : s ∈ symbols.filter fun s =>
        s.file != c.file && s.kind != .module && r.accepts s.kind := by
      rw [hs]
      exact List.mem_singleton_self s
    obtain ⟨hlisted, hfit⟩ := List.mem_filter.1 hmem
    rw [Bool.and_eq_true] at hfit
    refine ⟨by simp [Target.heuristic], by simp [Target.heuristic], fun d hd => .inr ?_⟩
    exact ⟨s, ⟨name, symbols, hlisted, .inl hsymbols⟩, Option.some.inj hd, hfit.2⟩
  · cases h
    constructor <;> simp [Target.ambiguousAt]

theorem qualified_fits {name : String} {t : Target} (h : c.qualified index name r = .ok t) :
    c.Fits index r t := by
  rw [qualified] at h
  split at h
  · next id hid =>
    cases h
    obtain ⟨path, -, hpath⟩ := List.exists_of_findSome?_eq_some hid
    obtain ⟨kind, hdefines, hacc⟩ := local?_spec hpath
    exact .own hdefines hacc
  · split at h
    · next hown =>
      cases h
      rw [Bool.and_eq_true, beq_iff_eq, beq_iff_eq] at hown
      exact .own (.inl ⟨rfl, rfl⟩) (by rw [hown.2]; rfl)
    · obtain ⟨symbols, hsymbols, h⟩ := bind_ok h
      split at h
      · next s hs =>
        cases h
        exact pick_fits hsymbols hs
      · cases h
        exact .unresolved name

theorem inGlobs?_fits {path : String} {globs : List String} {t : Target}
    (h : c.inGlobs? index path r globs = .ok (some t)) : c.Fits index r t := by
  induction globs with
  | nil => cases h
  | cons glob globs ih =>
      obtain ⟨symbols, hsymbols, h⟩ := bind_ok h
      split at h
      · next s hs =>
        cases h
        exact pick_fits hsymbols hs
      · exact ih h

/-! ## References -/

theorem ofPath_fits {segments scope : List String} {t : Target}
    (h : c.ofPath index segments scope r = .ok t) : c.Fits index r t := by
  simp only [ofPath] at h
  split at h
  · exact qualified_fits h
  · split at h
    · next found hfound =>
      cases h
      exact inScope?_fits hfound
    · split at h
      · exact qualified_fits h
      · obtain ⟨found, hglobs, h⟩ := bind_ok h
        split at h
        · cases h
          exact inGlobs?_fits hglobs
        · split at h
          · exact global_fits h
          · split at h
            · exact global_fits h
            · exact qualified_fits h

theorem ofMember_fits {member : String} {scope : List String} {t : Target}
    (h : c.ofMember index member scope r = .ok t) : c.Fits index r t := by
  rw [ofMember] at h
  split at h
  · exact global_fits h
  · simp only [] at h
    split at h
    · next id hid =>
      cases h
      obtain ⟨kind, hdefines, hacc⟩ := local?_spec hid
      exact .own hdefines hacc
    · exact global_fits h

theorem target_fits {written : String} {scope : List String} {t : Target}
    (h : c.target index written scope r = .ok t) : c.Fits index r t := by
  rw [target] at h
  split at h
  · exact ofPath_fits h
  · exact ofMember_fits h
  · exact global_fits h

end FileScope

variable {f : SourceFile} {c : FileScope} {index : SymbolIndex} {r r' : Resolution}

theorem Sought.find_fits {rel : Relationship} {sought : Sought} {t : Target}
    (h : sought.find c index rel = .ok t) : c.Fits index rel t := by
  cases sought with
  | absolute name => exact FileScope.qualified_fits h
  | written name scope => exact FileScope.target_fits h

/-- What a fact refers to starts at a definition of the file, unless the fact is a base. -/
theorem sought?_source {fact : Fact} {rel : Relationship} {source : String} {sought : Sought}
    (h : sought? c fact = some (rel, source, sought)) (hrel : rel ≠ .inherits) :
    ∃ kind, c.Defines kind source := by
  rw [sought?] at h
  split at h
  · obtain ⟨path, -, heq⟩ := Option.map_eq_some_iff.1 h
    cases heq
    exact ⟨.module, .inl ⟨rfl, rfl⟩⟩
  · cases h
    exact c.enclosing_defined _
  · cases h
    exact c.enclosing_defined _
  · obtain ⟨subclass, -, heq⟩ := Option.map_eq_some_iff.1 h
    cases heq
    exact absurd rfl hrel
  · cases h
  · cases h

/-! ## Definitions have nodes -/

/-- A definition that names are looked up among is that of a fact. -/
theorem mem_findDefinitions {module : ModulePath} {homes : List (String × String)}
    {facts : List Fact} {o : LocalDefinition}
    (h : o ∈ FileScope.findDefinitions module homes facts) :
    ∃ fact ∈ facts, fact.definitionKind? = some o.kind ∧ o.id = Node.idOf o.kind
      (FileScope.qualifyIn module (FileScope.relative module.separator fact.scope fact.name)
        homes) := by
  refine List.foldlRecOn (motive := fun acc => ∀ o ∈ acc, ∃ fact ∈ facts,
      fact.definitionKind? = some o.kind ∧ o.id = Node.idOf o.kind
        (FileScope.qualifyIn module (FileScope.relative module.separator fact.scope fact.name)
          homes))
    facts _ (fun o ho => absurd ho List.not_mem_nil) (fun acc ih fact hfact o ho => ?_) o h
  split at ho
  · exact ih o ho
  · next kind hkind =>
    simp only [] at ho
    split at ho
    · exact ih o ho
    · rcases List.mem_append.1 ho with hold | hnew
      · exact ih o hold
      · rw [List.mem_singleton.1 hnew]
        exact ⟨fact, hfact, hkind, rfl⟩

/-- Facts keep the nodes that are there. -/
theorem addDefinitions_keep {facts : List Fact} {n : Node} (h : n ∈ r.nodes) :
    n ∈ (facts.foldl (addDefinition f c) r).nodes := by
  induction facts generalizing r with
  | nil => exact h
  | cons fact facts ih =>
      refine ih ?_
      rcases addDefinition_cases f c r fact with hsame | ⟨m, -, -, hnodes, -⟩
      · rwa [hsame]
      · rw [hnodes]
        exact List.mem_append_left _ h

/-- The definition of a fact has a node. -/
theorem exists_definition_node {facts : List Fact} {fact : Fact} {kind : NodeKind}
    (hmem : fact ∈ facts) (hkind : fact.definitionKind? = some kind) :
    ∃ n ∈ (facts.foldl (addDefinition f c) r).nodes,
      n.id = (definitionNode f c kind fact).id := by
  induction facts generalizing r with
  | nil => cases hmem
  | cons first facts ih =>
      rcases List.mem_cons.1 hmem with rfl | hmem
      · suffices hadded : ∃ n ∈ (addDefinition f c r fact).nodes,
            n.id = (definitionNode f c kind fact).id by
          obtain ⟨n, hn, hid⟩ := hadded
          rw [List.foldl_cons]
          exact ⟨n, addDefinitions_keep hn, hid⟩
        rw [addDefinition, hkind]
        simp only []
        split
        · next hold =>
          obtain ⟨n, hn, hid⟩ := List.any_eq_true.1 hold
          exact ⟨n, hn, beq_iff_eq.1 hid⟩
        · exact ⟨_, List.mem_append_right _ (List.mem_singleton_self _), rfl⟩
      · exact ih hmem

/-! ## The parts of a resolution -/

/-- What is kept of a resolution while it is made, besides that it is made of the file
(`MadeFrom`). -/
structure Kept (c : FileScope) (m : Node) (r : Resolution) : Prop where
  module : r.module = m
  moduleFirst : r.nodes.head? = some m
  source : ∀ e ∈ r.edges, e.relationship ≠ .inherits → ∃ kind, c.Defines kind e.source
  unresolved : r.unresolved = (r.edges.filter (·.target.isNone)).map Edge.targetRef
  ambiguous : r.ambiguous.Sublist r.unresolved

namespace Kept

variable {m : Node}

theorem moduleOnly (c : FileScope) (m : Node) : Kept c m ⟨m, [m], [], [], []⟩ :=
  ⟨rfl, rfl, fun _ he => absurd he List.not_mem_nil, rfl, .slnil⟩

theorem addDefinition (h : Kept c m r) (fact : Fact) : Kept c m (addDefinition f c r fact) := by
  rw [Resolve.addDefinition]
  split
  · exact h
  · next kind _ =>
    simp only []
    split
    · exact h
    · constructor
      case module => exact h.module
      case moduleFirst => rw [List.head?_append, h.moduleFirst, Option.some_or]
      case source =>
        intro e he hrel
        rcases mem_addEdge he with he | rfl
        · exact h.source e he hrel
        · exact c.enclosing_defined fact.scope
      case unresolved =>
        -- The edge has a target, so it is not among those that wait.
        rw [addEdge]
        split
        · exact h.unresolved
        · rw [List.filter_append, List.map_append, ← h.unresolved]
          simp [edgeTo, Target.resolved]
      case ambiguous => exact h.ambiguous

theorem addDefinitions (h : Kept c m r) (facts : List Fact) :
    Kept c m (facts.foldl (Resolve.addDefinition f c) r) := by
  induction facts generalizing r with
  | nil => exact h
  | cons fact facts ih => exact ih (h.addDefinition fact)

theorem addReference (h : Kept c m r) {rel : Relationship} {source : String} {t : Target}
    (hsource : rel ≠ .inherits → ∃ kind, c.Defines kind source) (ht : c.Fits index rel t)
    (span : Span) : Kept c m (addReference f r span (rel, source, t)) := by
  rw [Resolve.addReference]
  split
  · exact h
  · constructor
    case module => exact h.module
    case moduleFirst => exact h.moduleFirst
    case source =>
      intro e he hrel
      rcases List.mem_append.1 he with he | he
      · exact h.source e he hrel
      · rw [List.mem_singleton.1 he] at hrel ⊢
        exact hsource hrel
    case unresolved =>
      rw [List.filter_append, List.map_append, ← h.unresolved]
      cases hid : t.id <;> simp [edgeTo, hid]
    case ambiguous =>
      by_cases hambiguous : t.ambiguous = true
      · have hid := ht.ambiguous hambiguous
        simp only [hambiguous, hid, if_true, Option.isNone_none]
        exact h.ambiguous.append (List.Sublist.refl _)
      · simp only [hambiguous, Bool.false_eq_true, if_false]
        split
        · exact h.ambiguous.trans (List.sublist_append_left _ _)
        · exact h.ambiguous

theorem addReferences (h : Kept c m r) {facts : List Fact}
    (hr : addReferences f c index r facts = .ok r') : Kept c m r' := by
  induction facts generalizing r with
  | nil =>
      cases hr
      exact h
  | cons fact facts ih =>
      obtain ⟨found, hfound, hr⟩ := bind_ok hr
      split at hr
      · exact ih h hr
      · next found =>
        obtain ⟨rel, source, t⟩ := found
        obtain ⟨sought, hsought, ht⟩ := reference?_some hfound
        exact ih (h.addReference (sought?_source hsought) (Sought.find_fits ht) fact.span) hr

end Kept

theorem resolve_kept (h : resolve index f = .ok r) :
    Kept (FileScope.ofFile f) (moduleNode f (FileScope.ofFile f)) r :=
  ((Kept.moduleOnly _ _).addDefinitions f.facts).addReferences h

/-- What a resolved file defines has a node of its kind. -/
theorem exists_node_of_defines (h : resolve index f = .ok r) {kind : NodeKind} {id : String}
    (hdefines : (FileScope.ofFile f).Defines kind id) :
    ∃ n ∈ r.nodes, n.id = id ∧ n.kind = kind := by
  rcases hdefines with ⟨rfl, rfl⟩ | ⟨o, ho, rfl, rfl⟩
  · exact ⟨_, List.mem_of_head? (resolve_kept h).moduleFirst, rfl, rfl⟩
  · obtain ⟨fact, hfact, hkind, hid⟩ := mem_findDefinitions ho
    obtain ⟨n, hn, hnid⟩ := exists_definition_node (f := f) hfact hkind
    have hmem : n ∈ r.nodes := by
      rw [addReferences_nodes h]
      exact hn
    have halike := (definitionNode_formed f (FileScope.ofFile f) o.kind fact).alike
      (nodes_formed h n hmem) hnid
    exact ⟨n, hmem, hnid.trans hid.symm, halike.2.1⟩

/-- An edge tells whether its target was found, and that is a node of the file or a symbol, of
a kind that is accepted. -/
theorem edge_found (h : resolve index f = .ok r) {e : Edge} (he : e ∈ r.edges) :
    (e.target = none ↔ e.confidence = .unresolved) ∧ ∀ d, e.target = some d →
      (∃ n ∈ r.nodes, n.id = d ∧ e.relationship.accepts n.kind = true) ∨
        ∃ s, index.Lists s ∧ s.id = d ∧ e.relationship.accepts s.kind = true := by
  obtain ⟨rel, source, t, span, rfl, ⟨rfl, n, hn, rfl⟩ | ⟨fact, hfact⟩⟩ :=
    (resolve_madeFrom h).edge e he
  · refine ⟨by simp [edgeTo, Target.resolved], fun d hd => .inl ?_⟩
    exact ⟨n, hn, Option.some.inj hd, rfl⟩
  · obtain ⟨sought, -, ht⟩ := reference?_some hfact
    have hfits := Sought.find_fits ht
    refine ⟨hfits.waits, fun d hd => ?_⟩
    rcases hfits.found d hd with ⟨kind, hdefines, hacc⟩ | hlisted
    · obtain ⟨n, hn, hid, hkind⟩ := exists_node_of_defines h hdefines
      exact .inl ⟨n, hn, hid, by rw [hkind]; exact hacc⟩
    · exact .inr hlisted

theorem edge_own (h : resolve index f = .ok r) {e : Edge} (he : e ∈ r.edges) :
    e.file = f.filePath ∧ e.id = Edge.idOf e.relationship e.source e.targetRef f.filePath := by
  obtain ⟨rel, source, t, span, rfl, -⟩ := (resolve_madeFrom h).edge e he
  exact ⟨rfl, rfl⟩

/-- **What a file is resolved to is well formed**, whatever its facts are and whatever the
symbols are that it is resolved against; and if no look-up fails, it is resolved. -/
theorem resolve_wellFormed (index : SymbolIndex) (f : SourceFile) :
    (∀ r, resolve index f = .ok r → r.WellFormed f index) ∧
      (index.Answers → ∃ r, resolve index f = .ok r) := by
  refine ⟨fun r h => ?_, fun hanswers => resolve_answered hanswers f⟩
  have hmade := resolve_madeFrom h
  have hkept := resolve_kept h
  constructor
  case module => exact hkept.module
  case moduleFirst =>
    rw [hkept.module]
    exact hkept.moduleFirst
  case nodeIds => exact hmade.nodeIds
  case edgeIds => exact hmade.edgeIds
  case nodeFile => exact hmade.nodeFile
  case edgeFile => exact fun e he => (edge_own h he).1
  case edgeId => exact fun e he => (edge_own h he).2
  case waits => exact fun e he => (edge_found h he).1
  case target => exact fun e he => (edge_found h he).2
  case source =>
    intro e he hrel
    obtain ⟨kind, hdefines⟩ := hkept.source e he hrel
    obtain ⟨n, hn, hid, -⟩ := exists_node_of_defines h hdefines
    exact ⟨n, hn, hid⟩
  case unresolved => exact hkept.unresolved
  case ambiguous => exact hkept.ambiguous

/-- A file with a class whose method calls itself, and that calls `g` twice. -/
def recursiveMethod : SourceFile :=
  ⟨"m.py", "m.py", "python", ".",
    [.definition .classLike "C" [] ⟨0, 0, 2, 18⟩ "class C:",
      .definition .method "run" ["C"] ⟨1, 4, 2, 18⟩ "def run(self):",
      .call "self.run" ["C", "run"] ⟨2, 8, 2, 18⟩, .call "g" [] ⟨3, 0, 3, 3⟩,
      .call "g" [] ⟨4, 0, 4, 3⟩], ⟨0, 0, 5, 0⟩⟩

/-- Two functions of other files that are called `g`. -/
def twoFunctions : SymbolIndex :=
  .ofList [⟨"function:a.g", .function, "g", "a.g", "a.py"⟩,
    ⟨"function:b.g", .function, "g", "b.g", "b.py"⟩]

theorem resolve_wellFormed_recursiveMethod :
    ∃ r, resolve twoFunctions recursiveMethod = .ok r ∧ r.WellFormed recursiveMethod twoFunctions ∧
      r.edges.map (fun e => (e.id, e.target)) =
        [("CONTAINS:module:m->m.C@m.py", some "class:m.C"),
          ("CONTAINS:class:m.C->m.C.run@m.py", some "method:m.C.run"),
          ("CALLS:method:m.C.run->m.C.run@m.py", some "method:m.C.run"),
          ("CALLS:module:m->g@m.py", none)] ∧
      r.unresolved = ["g"] ∧ r.ambiguous = ["g"] := by
  obtain ⟨hwellFormed, hresolved⟩ := resolve_wellFormed twoFunctions recursiveMethod
  obtain ⟨r, hr⟩ := hresolved (SymbolIndex.ofList_answers _)
  have hparts : (resolve twoFunctions recursiveMethod).map (fun r =>
      (r.edges.map (fun e => (e.id, e.target)), r.unresolved, r.ambiguous)) = .ok
        ([("CONTAINS:module:m->m.C@m.py", some "class:m.C"),
          ("CONTAINS:class:m.C->m.C.run@m.py", some "method:m.C.run"),
          ("CALLS:method:m.C.run->m.C.run@m.py", some "method:m.C.run"),
          ("CALLS:module:m->g@m.py", none)], ["g"], ["g"]) := by
    decide +kernel
  rw [hr] at hparts
  simp only [Except.map, Except.ok.injEq, Prod.mk.injEq] at hparts
  exact ⟨r, hr, hwellFormed r hr, hparts⟩

end Resolve

end CodeAtlas
