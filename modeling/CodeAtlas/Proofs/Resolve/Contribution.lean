import CodeAtlas.Proofs.Graph.Ids
import CodeAtlas.Proofs.Resolve.Target
import Mathlib.Data.List.Nodup

/-!
# CodeAtlas.Proofs.Resolve.Contribution

What the nodes of a resolved file are: the module and the definitions, each known by
its kind and qualified name.  References add edges only.

`MadeFrom` is what each fact keeps of the whole: nodes and edges are the file's own, no id
comes twice, and an edge says either where a definition stands or what a fact refers to.
-/

namespace CodeAtlas.Resolve

/-! ## Definitions -/

theorem moduleNode_formed (f : SourceFile) (c : FileScope) : (moduleNode f c).Formed := rfl

theorem definitionNode_formed (f : SourceFile) (c : FileScope) (kind : NodeKind) (fact : Fact) :
    (definitionNode f c kind fact).Formed := rfl

/-- A definition adds nothing, or a node of a new id with its place in the module. -/
theorem addDefinition_cases (f : SourceFile) (c : FileScope) (r : Resolution) (fact : Fact) :
    addDefinition f c r fact = r ∨ ∃ n : Node, (∃ kind, n = definitionNode f c kind fact) ∧
      (∀ m ∈ r.nodes, m.id ≠ n.id) ∧ (addDefinition f c r fact).nodes = r.nodes ++ [n] ∧
      (addDefinition f c r fact).edges = addEdge r.edges
        (edgeTo f .contains (c.enclosing fact.scope) (.resolved n.qualifiedName n.id)
          fact.span) := by
  rw [addDefinition]
  split
  · exact Or.inl rfl
  · next kind _ =>
    simp only []
    split
    · exact Or.inl rfl
    · next hnew =>
      refine Or.inr ⟨_, ⟨kind, rfl⟩, fun m hm hid => hnew ?_, rfl, rfl⟩
      exact List.any_eq_true.2 ⟨m, hm, beq_iff_eq.2 hid⟩

theorem addDefinition_formed {f : SourceFile} {c : FileScope} {r : Resolution} (fact : Fact)
    (h : ∀ n ∈ r.nodes, n.Formed) : ∀ n ∈ (addDefinition f c r fact).nodes, n.Formed := by
  rcases addDefinition_cases f c r fact with hsame | ⟨n, ⟨kind, rfl⟩, -, hnodes, -⟩
  · rwa [hsame]
  · intro m hm
    rw [hnodes, List.mem_append, List.mem_singleton] at hm
    rcases hm with hold | rfl
    · exact h m hold
    · exact definitionNode_formed f c kind fact

theorem addDefinitions_formed {f : SourceFile} {c : FileScope} {r : Resolution} (facts : List Fact)
    (h : ∀ n ∈ r.nodes, n.Formed) :
    ∀ n ∈ (facts.foldl (addDefinition f c) r).nodes, n.Formed := by
  induction facts generalizing r with
  | nil => exact h
  | cons fact facts ih => exact ih (addDefinition_formed fact h)

/-! ## References -/

/-- A reference adds nothing, or an edge of a new id. -/
theorem addReference_cases (f : SourceFile) (r : Resolution) (span : Span)
    (found : Relationship × String × Target) :
    addReference f r span found = r ∨
      (∀ e ∈ r.edges, e.id ≠ (edgeTo f found.1 found.2.1 found.2.2 span).id) ∧
      (addReference f r span found).nodes = r.nodes ∧
      (addReference f r span found).edges =
        r.edges ++ [edgeTo f found.1 found.2.1 found.2.2 span] := by
  rw [addReference]
  split
  · exact Or.inl rfl
  · next hnew =>
    refine Or.inr ⟨fun e he hid => hnew ?_, rfl, rfl⟩
    exact List.any_eq_true.2 ⟨e, he, beq_iff_eq.2 hid⟩

theorem addReference_nodes (f : SourceFile) (r : Resolution) (span : Span)
    (found : Relationship × String × Target) : (addReference f r span found).nodes = r.nodes := by
  rcases addReference_cases f r span found with hsame | ⟨-, hnodes, -⟩
  · rw [hsame]
  · exact hnodes

theorem addReferences_nodes {f : SourceFile} {c : FileScope} {index : SymbolIndex}
    {r r' : Resolution} {facts : List Fact} (h : addReferences f c index r facts = .ok r') :
    r'.nodes = r.nodes := by
  induction facts generalizing r with
  | nil =>
      cases h
      rfl
  | cons fact facts ih =>
      obtain ⟨found, -, h⟩ := bind_ok h
      cases found with
      | none => exact ih h
      | some found => rw [ih h, addReference_nodes]

/-- References do not take edges away. -/
theorem addReferences_edges {f : SourceFile} {c : FileScope} {index : SymbolIndex}
    {r r' : Resolution} {facts : List Fact} (h : addReferences f c index r facts = .ok r') :
    ∀ e ∈ r.edges, e ∈ r'.edges := by
  induction facts generalizing r with
  | nil =>
      cases h
      exact fun e he => he
  | cons fact facts ih =>
      obtain ⟨found, -, h⟩ := bind_ok h
      cases found with
      | none => exact ih h
      | some found =>
          intro e he
          refine ih h e ?_
          rcases addReference_cases f r fact.span found with hsame | ⟨-, -, hedges⟩
          · rwa [hsame]
          · rw [hedges]
            exact List.mem_append_left _ he

/-! ## Whole files -/

/-- All nodes of a resolved file are known by their kinds and qualified names. -/
theorem nodes_formed {index : SymbolIndex} {f : SourceFile} {r : Resolution}
    (h : resolve index f = .ok r) : ∀ n ∈ r.nodes, n.Formed := by
  rw [addReferences_nodes h]
  refine addDefinitions_formed f.facts fun n hn => ?_
  rw [List.mem_singleton.1 hn]
  exact moduleNode_formed f _

/-! ## Where nodes and edges come from -/

theorem mem_addEdge {edges : List Edge} {e g : Edge} (h : g ∈ addEdge edges e) :
    g ∈ edges ∨ g = e := by
  rw [addEdge] at h
  split at h
  · exact Or.inl h
  · rwa [List.mem_append, List.mem_singleton] at h

/-- The nodes and edges that were made of facts of a file. -/
structure MadeFrom (f : SourceFile) (c : FileScope) (index : SymbolIndex) (r : Resolution) :
    Prop where
  nodeFile : ∀ n ∈ r.nodes, n.file = f.filePath
  nodeIds : (r.nodes.map Node.id).Nodup
  edgeIds : (r.edges.map Edge.id).Nodup
  edge : ∀ e ∈ r.edges, ∃ rel source t span, e = edgeTo f rel source t span ∧
    ((rel = .contains ∧ ∃ n ∈ r.nodes, t = .resolved n.qualifiedName n.id) ∨
      ∃ fact, reference? c index fact = .ok (some (rel, source, t)))

theorem nodup_append_singleton {xs : List String} {x : String} (h : xs.Nodup) (hx : x ∉ xs) :
    (xs ++ [x]).Nodup := by
  rw [← List.concat_eq_append]
  exact h.concat hx

theorem addEdge_nodup {edges : List Edge} {e : Edge} (h : (edges.map Edge.id).Nodup) :
    ((addEdge edges e).map Edge.id).Nodup := by
  rw [addEdge]
  split
  · exact h
  · next hnew =>
    rw [List.map_append]
    refine nodup_append_singleton h fun hmem => hnew ?_
    obtain ⟨g, hg, hid⟩ := List.mem_map.1 hmem
    exact List.any_eq_true.2 ⟨g, hg, beq_iff_eq.2 hid⟩

namespace MadeFrom

variable {f : SourceFile} {c : FileScope} {index : SymbolIndex} {r : Resolution}

theorem moduleOnly (f : SourceFile) (c : FileScope) (index : SymbolIndex) (m : Node)
    (hm : m.file = f.filePath) : MadeFrom f c index ⟨m, [m], [], [], []⟩ where
  nodeFile n hn := by rw [List.mem_singleton.1 hn, hm]
  nodeIds := List.nodup_singleton _
  edgeIds := List.nodup_nil
  edge e he := absurd he List.not_mem_nil

theorem addDefinition (h : MadeFrom f c index r) (fact : Fact) :
    MadeFrom f c index (addDefinition f c r fact) := by
  rcases addDefinition_cases f c r fact with hsame | ⟨n, ⟨kind, hn⟩, hnew, hnodes, hedges⟩
  · rwa [hsame]
  · constructor
    case nodeFile =>
      intro m hm
      rw [hnodes, List.mem_append, List.mem_singleton] at hm
      rcases hm with hm | rfl
      · exact h.nodeFile m hm
      · rw [hn]
        rfl
    case nodeIds =>
      rw [hnodes, List.map_append]
      refine nodup_append_singleton h.nodeIds fun hmem => ?_
      obtain ⟨m, hm, hid⟩ := List.mem_map.1 hmem
      exact hnew m hm hid
    case edgeIds =>
      rw [hedges]
      exact addEdge_nodup h.edgeIds
    case edge =>
      intro e he
      rw [hedges] at he
      rw [hnodes]
      rcases mem_addEdge he with he | rfl
      · obtain ⟨rel, source, t, span, rfl, ⟨rfl, m, hm, rfl⟩ | hfact⟩ := h.edge e he
        · exact ⟨_, _, _, _, rfl, Or.inl ⟨rfl, m, List.mem_append_left _ hm, rfl⟩⟩
        · exact ⟨_, _, _, _, rfl, Or.inr hfact⟩
      · have hmem : n ∈ r.nodes ++ [n] := List.mem_append_right _ (List.mem_singleton_self n)
        exact ⟨_, _, _, _, rfl, Or.inl ⟨rfl, n, hmem, rfl⟩⟩

theorem addReference (h : MadeFrom f c index r) {fact : Fact} {span : Span}
    {found : Relationship × String × Target} (hfact : reference? c index fact = .ok (some found)) :
    MadeFrom f c index (addReference f r span found) := by
  rcases addReference_cases f r span found with hsame | ⟨hnew, hnodes, hedges⟩
  · rwa [hsame]
  · constructor
    case nodeFile =>
      rw [hnodes]
      exact h.nodeFile
    case nodeIds =>
      rw [hnodes]
      exact h.nodeIds
    case edgeIds =>
      rw [hedges, List.map_append]
      refine nodup_append_singleton h.edgeIds fun hmem => ?_
      obtain ⟨e, he, hid⟩ := List.mem_map.1 hmem
      exact hnew e he hid
    case edge =>
      intro e he
      rw [hedges, List.mem_append, List.mem_singleton] at he
      rw [hnodes]
      rcases he with he | rfl
      · exact h.edge e he
      · exact ⟨_, _, _, _, rfl, Or.inr ⟨fact, hfact⟩⟩

theorem addDefinitions (h : MadeFrom f c index r) (facts : List Fact) :
    MadeFrom f c index (facts.foldl (Resolve.addDefinition f c) r) := by
  induction facts generalizing r with
  | nil => exact h
  | cons fact facts ih => exact ih (h.addDefinition fact)

theorem addReferences (h : MadeFrom f c index r) {facts : List Fact} {r' : Resolution}
    (hr : addReferences f c index r facts = .ok r') : MadeFrom f c index r' := by
  induction facts generalizing r with
  | nil =>
      cases hr
      exact h
  | cons fact facts ih =>
      obtain ⟨found, hfound, hr⟩ := bind_ok hr
      split at hr
      · exact ih h hr
      · exact ih (h.addReference hfound) hr

end MadeFrom

theorem resolve_madeFrom {index : SymbolIndex} {f : SourceFile} {r : Resolution}
    (h : resolve index f = .ok r) : MadeFrom f (FileScope.ofFile f) index r :=
  ((MadeFrom.moduleOnly f _ index (moduleNode f _) rfl).addDefinitions f.facts).addReferences h

end CodeAtlas.Resolve
