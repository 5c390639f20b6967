import CodeAtlas.Proofs.Facts.Order

/-!
# CodeAtlas.Proofs.Python.Scopes

The scopes of the facts of a Python file.

A fact names the definitions around it, and these are facts of the same file
(`Python.scopes_declared`).  What a walk finds that starts in some scope stands in that scope or
further in, and each scope on the way is opened by a definition that the walk finds too
(`Fact.Placed`).  A node keeps this if the nodes below it do (`Python.walk_placed_step`); a decorator
needs the definition that is walked over after it.
-/

namespace CodeAtlas

open Parsing

/-! ## Declared scopes -/

namespace Fact

/-- Whether a fact is a class, a function or a method of some name in a scope. -/
structure Opens (f : Fact) (scope : List String) (name : String) : Prop where
  kind : f.kind = .definition .classLike ∨ f.kind = .definition .function ∨
    f.kind = .definition .method
  scope : f.scope = scope
  name : f.name = name

/-- Whether some facts have a class, a function or a method for a scope. -/
def Declares (facts : List Fact) (path : List String) : Prop :=
  ∃ d ∈ facts, ∃ scope name, d.Opens scope name ∧ path = scope ++ [name]

/-- Whether a fact stands in a scope or further in, and some facts have a definition for each scope
on the way. -/
structure Placed (facts : List Fact) (scope : List String) (f : Fact) : Prop where
  inside : scope <+: f.scope
  declared : ∀ inner, inner ≠ [] → scope ++ inner <+: f.scope → Declares facts (scope ++ inner)

variable {facts facts' : List Fact} {scope : List String} {f : Fact} {name : String}

theorem Opens.declares (h : f.Opens scope name) (hmem : f ∈ facts) :
    Declares facts (scope ++ [name]) := ⟨f, hmem, scope, name, h, rfl⟩

theorem Declares.mono {path : List String} (h : Declares facts path) (hsub : facts ⊆ facts') :
    Declares facts' path := by
  obtain ⟨d, hd, hopens⟩ := h
  exact ⟨d, hsub hd, hopens⟩

namespace Placed

theorem mono (h : f.Placed facts scope) (hsub : facts ⊆ facts') : f.Placed facts' scope :=
  ⟨h.inside, fun inner hinner hpre => (h.declared inner hinner hpre).mono hsub⟩

/-- There is nothing on the way to a fact that stands in the scope itself. -/
theorem here (h : f.scope = scope) : f.Placed facts scope := by
  refine ⟨by simp [h], fun inner hinner hpre => ?_⟩
  have hlength := hpre.length_le
  rw [h, List.length_append] at hlength
  exact absurd (List.length_eq_zero_iff.1 (by omega)) hinner

/-- On the way from a scope is first the one that is opened in it. -/
theorem outer (h : f.Placed facts (scope ++ [name])) (hname : Declares facts (scope ++ [name])) :
    f.Placed facts scope := by
  refine ⟨(List.prefix_append scope [name]).trans h.inside, fun inner hinner hpre => ?_⟩
  cases inner with
  | nil => exact absurd rfl hinner
  | cons first inner =>
      have hfirst : scope ++ [first] <+: f.scope := by
        refine List.IsPrefix.trans ?_ hpre
        exact (List.prefix_append_right_inj scope).2 (List.prefix_append [first] inner)
      -- both lead one step further in, on the way to the same fact
      have hsame : scope ++ [first] = scope ++ [name] :=
        (List.prefix_of_prefix_length_le hfirst h.inside (by simp)).eq_of_length (by simp)
      obtain rfl : first = name := by simpa using hsame
      have hsplit : scope ++ first :: inner = scope ++ [first] ++ inner := by simp
      rw [hsplit] at hpre ⊢
      by_cases hinner' : inner = []
      · simpa [hinner'] using hname
      · exact h.declared inner hinner' hpre

end Placed

/-- Whether facts stand in a scope or further in, and have a definition for each scope on the way. -/
def AllPlaced (scope : List String) (facts : List Fact) : Prop := ∀ f ∈ facts, f.Placed facts scope

namespace AllPlaced

theorem here (h : ∀ f ∈ facts, f.scope = scope) : AllPlaced scope facts :=
  fun f hf => .here (h f hf)

theorem append (h : AllPlaced scope facts) (h' : AllPlaced scope facts') :
    AllPlaced scope (facts ++ facts') := by
  intro f hf
  rcases List.mem_append.1 hf with hf | hf
  · exact (h f hf).mono (List.subset_append_left facts facts')
  · exact (h' f hf).mono (List.subset_append_right facts facts')

theorem flatMap {α : Type} {parts : List α} {tell : α → List Fact}
    (h : ∀ part ∈ parts, AllPlaced scope (tell part)) : AllPlaced scope (parts.flatMap tell) := by
  intro f hf
  obtain ⟨part, hpart, hf⟩ := List.mem_flatMap.1 hf
  exact (h part hpart f hf).mono fun g hg => List.mem_flatMap.2 ⟨part, hpart, hg⟩

/-- A definition opens the scope of what comes after it and stands inside of it. -/
theorem definition {own : Fact} (hopens : own.Opens scope name)
    (h : ∀ f ∈ facts, f.Placed facts scope ∨ f.Placed facts (scope ++ [name])) :
    AllPlaced scope (own :: facts) := by
  intro f hf
  have hsub : facts ⊆ own :: facts := List.subset_cons_self own facts
  rcases List.mem_cons.1 hf with rfl | hf
  · exact .here hopens.scope
  · rcases h f hf with hscope | hinner
    · exact hscope.mono hsub
    · exact (hinner.mono hsub).outer (hopens.declares List.mem_cons_self)

end AllPlaced

end Fact

/-! ## The walk -/

namespace Python

/-- Whether it is a class or a function that is decorated. -/
def DecoratesDefinition (n : Tree) : Prop := n.kind = "decorated_definition" →
  ∀ d ∈ n.field? "definition", d.kind = "function_definition" ∨ d.kind = "class_definition"

instance (n : Tree) : Decidable (DecoratesDefinition n) :=
  inferInstanceAs (Decidable (_ → ∀ d ∈ n.field? "definition", _))

/-- Whether what a walk finds from any node of a tree on is placed in the scope in which it
starts. -/
def WalkPlaced (src : Source) (t : Tree) : Prop :=
  ∀ n ∈ t.preorder, ∀ scope inClass, Fact.AllPlaced scope (walk src scope inClass n)

section Step

variable {src : Source} {t : Tree} (scope : List String) (inClass : Bool)

/-! ### Definitions -/

variable (src) in
theorem walk_function_own {name : Tree} (hkind : t.kind = "function_definition")
    (hname : t.field? "name" = some name) :
    ∃ own, (walk src scope inClass t).head? = some own ∧ own.Opens scope (name.text src) := by
  rw [walk]
  simp only [hkind, hname, BEq.rfl, ↓reduceIte, List.cons_append, List.head?_cons]
  refine ⟨_, rfl, ?_, rfl, rfl⟩
  cases inClass <;> simp [Fact.definition]

variable (src) in
theorem walk_class_own {name : Tree} (hkind : t.kind = "class_definition")
    (hname : t.field? "name" = some name) :
    ∃ own, (walk src scope inClass t).head? = some own ∧ own.Opens scope (name.text src) := by
  rw [walk]
  simp only [hkind, hname, BEq.rfl, ↓reduceIte, String.reduceBEq, Bool.false_eq_true,
    List.cons_append, List.head?_cons]
  exact ⟨_, rfl, .inl rfl, rfl, rfl⟩

variable (src) in
/-- The walk over a definition finds that definition. -/
theorem declares_definition {name : Tree}
    (hkind : t.kind = "function_definition" ∨ t.kind = "class_definition")
    (hname : t.field? "name" = some name) :
    Fact.Declares (walk src scope inClass t) (scope ++ [name.text src]) := by
  have hown : ∃ own, (walk src scope inClass t).head? = some own ∧
      own.Opens scope (name.text src) := by
    rcases hkind with hkind | hkind
    · exact walk_function_own src scope inClass hkind hname
    · exact walk_class_own src scope inClass hkind hname
  obtain ⟨own, hhead, hopens⟩ := hown
  exact hopens.declares (List.mem_of_mem_head? hhead)

/-! ### Facts of one node -/

theorem importFacts_scope {f : Fact} (h : f ∈ importFacts t src scope) : f.scope = scope := by
  rw [importFacts, List.mem_filterMap] at h
  obtain ⟨c, -, hc⟩ := h
  simp only [] at hc
  repeat' split at hc
  all_goals cases hc
  all_goals rfl

theorem importFromFacts_scope {f : Fact} (h : f ∈ importFromFacts t src scope) :
    f.scope = scope := by
  rw [importFromFacts] at h
  simp only [] at h
  split at h
  · cases h
  · split at h
    · rw [List.mem_singleton.1 h]
      rfl
    · obtain ⟨c, -, hc⟩ := List.mem_filterMap.1 h
      repeat' split at hc
      all_goals cases hc
      all_goals rfl

theorem constantFact_scope {f : Fact} (h : f ∈ constantFact t src) : f.scope = [] := by
  rw [constantFact] at h
  simp only [] at h
  repeat' split at h
  all_goals simp at h
  rw [h]
  rfl

/-! ### Each kind -/

variable (h : ∀ c ∈ t.childNodes, WalkPlaced src c)
include h

theorem placed_named :
    Fact.AllPlaced scope (t.namedChildren.flatMap (walk src scope inClass)) :=
  .flatMap fun c hc => h c (Tree.mem_childNodes_of_named hc) c c.self_mem_preorder scope inClass

theorem placed_field (field : String) :
    Fact.AllPlaced scope ((t.field? field).toList.flatMap (walk src scope inClass)) := by
  refine .flatMap fun c hc => ?_
  have hc : c ∈ t.childNodes := Tree.mem_childNodes_of_field? (Option.mem_toList.1 hc)
  exact h c hc c c.self_mem_preorder scope inClass

/-- What is found in a child is found child by child. -/
theorem placed_below {c : Tree} (hc : c ∈ t.childNodes) :
    ∀ b ∈ c.namedChildren, Fact.AllPlaced scope (walk src scope inClass b) := by
  intro b hb
  have hbelow : b ∈ c.preorder :=
    Tree.mem_preorder_of_child (Tree.mem_childNodes_of_named hb) b.self_mem_preorder
  exact h c hc b hbelow scope inClass

theorem placed_body (field : String) :
    Fact.AllPlaced scope ((t.field? field).toList.flatMap fun b =>
      b.namedChildren.flatMap (walk src scope inClass)) := by
  refine .flatMap fun c hc => .flatMap ?_
  exact placed_below scope inClass h (Tree.mem_childNodes_of_field? (Option.mem_toList.1 hc))

theorem placed_function (hkind : t.kind = "function_definition") :
    Fact.AllPlaced scope (walk src scope inClass t) := by
  cases hname : t.field? "name" with
  | none =>
      rw [walk_function_nameless src scope inClass hkind hname]
      exact placed_named scope inClass h
  | some name =>
      obtain ⟨own, hhead, hopens⟩ := walk_function_own src scope inClass hkind hname
      obtain ⟨own', -, hwalk⟩ := walk_function src scope inClass hkind hname
      rw [hwalk, List.head?_cons, Option.some.injEq] at hhead
      subst hhead
      rw [hwalk]
      refine .definition hopens fun f hf => ?_
      rcases List.mem_append.1 hf with hf | hf
      · have hparameters := placed_field scope false h "parameters" f hf
        exact .inl (hparameters.mono (List.subset_append_left _ _))
      · have hbody := placed_body (scope ++ [name.text src]) false h "body" f hf
        exact .inr (hbody.mono (List.subset_append_right _ _))

theorem placed_class (hkind : t.kind = "class_definition") :
    Fact.AllPlaced scope (walk src scope inClass t) := by
  cases hname : t.field? "name" with
  | none =>
      rw [walk_class_nameless src scope inClass hkind hname]
      exact placed_named scope inClass h
  | some name =>
      obtain ⟨own, hhead, hopens⟩ := walk_class_own src scope inClass hkind hname
      obtain ⟨own', -, hwalk⟩ := walk_class src scope inClass hkind hname
      rw [hwalk, List.head?_cons, Option.some.injEq] at hhead
      subst hhead
      rw [hwalk]
      refine .definition hopens fun f hf => ?_
      rcases List.mem_append.1 hf with hbases | hf
      · obtain ⟨bs, hbs, hbase⟩ := List.mem_flatMap.1 hbases
        obtain ⟨b, hb, hbase⟩ := List.mem_flatMap.1 hbase
        have hbs' : bs ∈ t.childNodes := Tree.mem_childNodes_of_field? (Option.mem_toList.1 hbs)
        rcases List.mem_append.1 hbase with hown | hwalked
        · -- a base stands in the class, what is called to get it does not
          obtain ⟨p, -, rfl⟩ := List.mem_map.1 hown
          exact .inr (.here rfl)
        · refine .inl ((placed_below scope false h hbs' b hb f hwalked).mono fun g hg => ?_)
          refine List.mem_append_left _ (List.mem_flatMap.2 ⟨bs, hbs, List.mem_flatMap.2 ⟨b, hb, ?_⟩⟩)
          exact List.mem_append_right _ hg
      · have hbody := placed_body (scope ++ [name.text src]) true h "body" f hf
        exact .inr (hbody.mono (List.subset_append_right _ _))

omit h in
/-- What a decorator finds is placed in the scope of the decorator, but for the use of a path, which
stands in what is decorated. -/
theorem decoratorFacts_placed {name : Option String} (h : WalkPlaced src t) :
    ∀ f ∈ decoratorFacts src scope inClass name t,
      f.Placed (decoratorFacts src scope inClass name t) scope ∨
        ∃ n, name = some n ∧ f.scope = scope ++ [n] := by
  intro f hf
  rw [decoratorFacts, List.mem_append] at hf
  have harguments : Fact.AllPlaced scope ((arguments t).flatMap (walk src scope inClass)) := by
    rw [arguments]
    split
    · refine placed_field scope inClass (fun c hc n hn => ?_) "arguments"
      exact h n (Tree.mem_preorder_of_child hc hn)
    · exact fun f hf => absurd hf List.not_mem_nil
  rcases hf with hf | hf
  · split at hf
    · next hused =>
      rw [Bool.and_eq_true, Option.isSome_iff_exists, Option.isSome_iff_exists] at hused
      obtain ⟨-, n, rfl⟩ := hused
      obtain ⟨p, -, rfl⟩ := List.mem_map.1 hf
      exact .inr ⟨n, rfl, rfl⟩
    · next hnot =>
      have hwalk := h t t.self_mem_preorder scope inClass f hf
      rw [decoratorFacts, if_neg hnot]
      exact .inl (hwalk.mono (List.subset_append_left _ _))
  · rw [decoratorFacts]
    exact .inl ((harguments f hf).mono (List.subset_append_right _ _))

theorem placed_decorated (hdecorates : DecoratesDefinition t)
    (hkind : t.kind = "decorated_definition") :
    Fact.AllPlaced scope (walk src scope inClass t) := by
  rw [walk_decorated src scope inClass hkind]
  have hdefinition := placed_field scope inClass h "definition"
  intro f hf
  rcases List.mem_append.1 hf with hf | hf
  · obtain ⟨d, hd, hf⟩ := List.mem_flatMap.1 hf
    obtain ⟨e, he, hf⟩ := List.mem_flatMap.1 hf
    have hd' : d ∈ t.childNodes := Tree.mem_childNodes_of_named (List.mem_of_mem_filter hd)
    have hwalk : WalkPlaced src e := by
      intro n hn
      have hchild : e ∈ d.childNodes :=
        Tree.mem_childNodes_of_named (List.mem_of_mem_head? (Option.mem_toList.1 he))
      exact h d hd' n (Tree.mem_preorder_of_child hchild hn)
    rcases decoratorFacts_placed scope inClass hwalk f hf with hplaced | ⟨n, hname, hscope⟩
    · refine hplaced.mono fun g hg => List.mem_append_left _ ?_
      exact List.mem_flatMap.2 ⟨d, hd, List.mem_flatMap.2 ⟨e, he, hg⟩⟩
    · -- the definition is walked over only after its decorators
      obtain ⟨name, hfield, rfl⟩ := Option.map_eq_some_iff.1 hname
      obtain ⟨definition, hdef, hfield⟩ := Option.bind_eq_some_iff.1 hfield
      have hdeclares := declares_definition src scope inClass
        (hdecorates hkind definition hdef) hfield
      refine .outer (.here hscope) (hdeclares.mono fun g hg => List.mem_append_right _ ?_)
      simpa [hdef] using hg
  · exact (hdefinition f hf).mono (List.subset_append_right _ _)

theorem placed_statement (hkind : t.kind = "expression_statement") :
    Fact.AllPlaced scope (walk src scope inClass t) := by
  rw [walk_statement src scope inClass hkind]
  refine .append ?_ (placed_named scope inClass h)
  split
  · next htop =>
    rw [Bool.and_eq_true, List.isEmpty_iff] at htop
    exact .here fun f hf => (constantFact_scope hf).trans htop.1.symm
  · exact fun f hf => absurd hf List.not_mem_nil

theorem placed_call (hkind : t.kind = "call") :
    Fact.AllPlaced scope (walk src scope inClass t) := by
  rw [walk_call src scope inClass hkind]
  refine .append (.here fun f hf => ?_) (placed_named scope inClass h)
  obtain ⟨callee, -, rfl⟩ := List.mem_map.1 hf
  rfl

/-- What is found from a node on is placed in the scope of the walk, if that is so of the nodes
below. -/
theorem walk_placed_step (hdecorates : DecoratesDefinition t) :
    Fact.AllPlaced scope (walk src scope inClass t) := by
  by_cases hkind : t.kind ∈ ["function_definition", "class_definition", "decorated_definition",
      "import_statement", "import_from_statement", "expression_statement", "call"]
  · simp only [List.mem_cons, List.not_mem_nil, or_false] at hkind
    rcases hkind with hkind | hkind | hkind | hkind | hkind | hkind | hkind
    · exact placed_function scope inClass h hkind
    · exact placed_class scope inClass h hkind
    · exact placed_decorated scope inClass h hdecorates hkind
    · rw [walk_import src scope inClass hkind]
      exact .here fun f hf => importFacts_scope scope hf
    · rw [walk_importFrom src scope inClass hkind]
      exact .here fun f hf => importFromFacts_scope scope hf
    · exact placed_statement scope inClass h hkind
    · exact placed_call scope inClass h hkind
  · rw [walk_other src scope inClass hkind]
    exact placed_named scope inClass h

end Step

theorem walk_placed {src : Source} {t : Tree}
    (hdecorates : ∀ n ∈ t.preorder, DecoratesDefinition n) : WalkPlaced src t := by
  refine Tree.preorder_induction (fun t hgood h scope inClass => ?_) hdecorates
  exact walk_placed_step scope inClass h (hgood t t.self_mem_preorder)

end Python

/-! ## Files -/

/-- Whether some facts have a class, a function or a method for each scope that one of them stands
in. -/
def Fact.ScopesDeclared (facts : List Fact) : Prop :=
  ∀ f ∈ facts, ∀ path, path ≠ [] → path <+: f.scope → Declares facts path

theorem Fact.AllPlaced.scopesDeclared {facts : List Fact} (h : AllPlaced [] facts) :
    ScopesDeclared facts :=
  fun f hf path hpath hpre => (h f hf).declared path hpath hpre

theorem SourceFile.mem_insertFact {fact f : Fact} {facts : List Fact} :
    f ∈ insertFact fact facts ↔ f = fact ∨ f ∈ facts := by
  rw [insertFact, List.mem_append, List.mem_cons, or_left_comm, ← List.mem_append,
    List.take_append_drop]

/-- The fact for a syntax error stands in no scope. -/
theorem Fact.ScopesDeclared.insertFact {fact : Fact} {facts : List Fact}
    (h : ScopesDeclared facts) (hfact : fact.scope = []) :
    ScopesDeclared (SourceFile.insertFact fact facts) := by
  intro f hf path hpath hpre
  rcases SourceFile.mem_insertFact.1 hf with rfl | hf
  · rw [hfact] at hpre
    exact absurd (List.prefix_nil.1 hpre) hpath
  · exact (h f hf path hpath hpre).mono fun g hg => SourceFile.mem_insertFact.2 (.inr hg)

/-- **The scopes of a Python file are declared in it.**  In a tree where only classes and functions
are decorated, whatever else is in it, each scope that a fact stands in has a class, a function or a
method among the facts: the innermost one and those around it.  This is so of the facts of the tree,
and of these together with the one for a syntax error. -/
theorem Python.scopes_declared (src : Source) {root : Tree}
    (hdecorates : ∀ n ∈ root.preorder, DecoratesDefinition n) :
    Fact.ScopesDeclared (facts src root) ∧
      Fact.ScopesDeclared (Readers.found .python src root) := by
  have hplaced : Fact.AllPlaced [] (facts src root) :=
    walk_placed hdecorates root root.self_mem_preorder [] false
  refine ⟨hplaced.scopesDeclared, ?_⟩
  rw [Readers.found]
  cases herror : SourceFile.errorFact? src root with
  | none => exact hplaced.scopesDeclared
  | some e =>
      obtain ⟨node, -, rfl⟩ := Option.map_eq_some_iff.1 herror
      exact hplaced.scopesDeclared.insertFact rfl

namespace Python

/-- A class and a method of it, both with decorators, and a bracket too much. -/
def decoratedText : String :=
  "@w(a())\nclass C(B):\n    @p\n    def m():\n        f()\n)\n"

/-- Its syntax. -/
def decoratedTree : Tree :=
  let method := Readers.sampleNode "function_definition" 31 51
    [(some "name", Readers.sampleName 35),
      (some "parameters", Readers.sampleNode "parameters" 36 38 []),
      (some "body", Readers.sampleNode "block" 48 51
        [(none, Readers.sampleNode "expression_statement" 48 51
          [(none, Readers.sampleCall (Readers.sampleName 48) 51 [])])])]
  let classNode := Readers.sampleNode "class_definition" 8 51
    [(some "name", Readers.sampleName 14),
      (some "superclasses", Readers.sampleNode "argument_list" 15 18
        [(none, Readers.sampleName 16)]),
      (some "body", Readers.sampleNode "block" 24 51
        [(none, Readers.sampleNode "decorated_definition" 24 51
          [(none, Readers.sampleNode "decorator" 24 26 [(none, Readers.sampleName 25)]),
            (some "definition", method)])])]
  let decorator := Readers.sampleCall (Readers.sampleName 1) 7
    [Readers.sampleCall (Readers.sampleName 3) 6 []]
  Readers.sampleNode "module" 0 54
    [(none, Readers.sampleNode "decorated_definition" 0 51
        [(none, Readers.sampleNode "decorator" 0 7 [(none, decorator)]),
          (some "definition", classNode)]),
      (none, Readers.sampleNode "ERROR" 52 53 [])]

/-- Decorators and the base stand in what comes after them, the call in a decorator does not. -/
theorem scopes_declared_decoratedTree :
    (∀ n ∈ decoratedTree.preorder, DecoratesDefinition n) ∧
      Fact.ScopesDeclared (facts (.ofString decoratedText) decoratedTree) ∧
      Fact.ScopesDeclared (Readers.found .python (.ofString decoratedText) decoratedTree) ∧
      (Readers.found .python (.ofString decoratedText) decoratedTree).map
          (fun f => (f.name, f.scope)) =
        [("w", ["C"]), ("a", []), ("C", []), ("B", ["C"]), ("p", ["C", "m"]), ("m", ["C"]),
          ("f", ["C", "m"]), ("unexpected syntax", [])] := by
  have hdecorates : ∀ n ∈ decoratedTree.preorder, DecoratesDefinition n := by decide +kernel
  obtain ⟨hfacts, hfound⟩ := scopes_declared (.ofString decoratedText) hdecorates
  exact ⟨hdecorates, hfacts, hfound, by decide +kernel⟩

end Python

end CodeAtlas
