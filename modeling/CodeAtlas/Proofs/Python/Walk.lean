import CodeAtlas.Proofs.Facts.Told
import CodeAtlas.Python.Facts

/-!
# CodeAtlas.Proofs.Python.Walk

What the nodes of a Python tree tell.

The walk over a tree is opened once for each kind of node (`walk_function` and the others).  Each
fact is then told by a node of its own, in the order of the nodes (`walk_told`): what a node of one
kind tells is told by itself and the nodes below it, if that is so of all nodes below
(`walk_told_step`).  Decorators are left out that call something else than a path, as the arguments
of such a call are walked over twice (`walk_decorated_twice`).
-/

namespace CodeAtlas.Python

open CodeAtlas.Parsing
open CodeAtlas.Text

/-! ## Kinds of nodes -/

section Kinds

variable (src : Source) (scope : List String) (inClass : Bool) {t : Tree}

/-- The path of a base class, if it is a name with dots, also if it has type arguments. -/
def basePath? (b : Tree) : Option Tree :=
  (if b.kind == "identifier" || b.kind == "attribute" then some b
    else if b.kind == "subscript" then b.field? "value" else none).filter (isDottedPath ·)

theorem walk_function {name : Tree} (h : t.kind = "function_definition")
    (hname : t.field? "name" = some name) :
    ∃ own, Tells src own t ∧ walk src scope inClass t = own ::
      ((t.field? "parameters").toList.flatMap (walk src scope false) ++
        (t.field? "body").toList.flatMap fun b =>
          b.namedChildren.flatMap (walk src (scope ++ [name.text src]) false)) := by
  rw [walk]
  simp only [h, hname, BEq.rfl, ↓reduceIte, List.cons_append]
  refine ⟨_, ?_, congrArg (List.cons _) (congr (congrArg HAppend.hAppend ?_) ?_)⟩
  · exact .definition
  · split <;> simp [*]
  · split <;> simp [*]

theorem walk_class {name : Tree} (h : t.kind = "class_definition")
    (hname : t.field? "name" = some name) :
    ∃ own, Tells src own t ∧ walk src scope inClass t = own ::
      (((t.field? "superclasses").toList.flatMap fun bs => bs.namedChildren.flatMap fun b =>
          (basePath? b).toList.map (fun p =>
            .base (dottedText p src) (scope ++ [name.text src]) (p.span src)) ++
          walk src scope false b) ++
        (t.field? "body").toList.flatMap fun b =>
          b.namedChildren.flatMap (walk src (scope ++ [name.text src]) true)) := by
  rw [walk]
  simp only [h, hname, BEq.rfl, ↓reduceIte, List.cons_append, String.reduceBEq, Bool.false_eq_true]
  refine ⟨_, ?_, congrArg (List.cons _) (congr (congrArg HAppend.hAppend ?_) ?_)⟩
  · exact .definition
  · split
    · next bs hbs =>
      simp only [hbs, Option.toList_some, List.flatMap_singleton, List.flatMap_subtype,
        List.unattach_attach]
      refine congrArg (fun tell => List.flatMap tell bs.namedChildren) (funext fun b => ?_)
      refine congrArg (· ++ walk src scope false b) ?_
      rw [basePath?]
      split
      · next p hp =>
        rw [hp]
        by_cases hpath : isDottedPath p <;> simp [Option.filter, hpath]
      · next hnone =>
        rw [hnone]
        rfl
    · simp [*]
  · split <;> simp [*]

/-- What a decorator uses by the name of a path: its expression, or what that calls. -/
def usedPath? (e : Tree) : Option Tree :=
  (if e.kind == "call" then e.field? "function" else some e).filter (isDottedPath ·)

/-- The name of what a definition with decorators defines. -/
def decoratedName? (src : Source) (t : Tree) : Option String :=
  ((t.field? "definition").bind (·.field? "name")).map (·.text src)

/-- The arguments of an expression that calls something. -/
def arguments (e : Tree) : List Tree :=
  if e.kind == "call" then (e.field? "arguments").toList else []

/-- The facts of one decorator: a use of a path, or else those of its expression, and then those of
the arguments. -/
def decoratorFacts (src : Source) (scope : List String) (inClass : Bool) (name : Option String)
    (e : Tree) : List Fact :=
  (if (usedPath? e).isSome && name.isSome then
    (usedPath? e).toList.map fun p =>
      .reference (dottedText p src) (scope ++ name.toList) (p.span src)
    else walk src scope inClass e) ++ (arguments e).flatMap (walk src scope inClass)

theorem walk_decorated (h : t.kind = "decorated_definition") :
    walk src scope inClass t =
      (t.namedChildren.filter (·.kind == "decorator")).flatMap (fun d =>
        d.namedChildren.head?.toList.flatMap
          (decoratorFacts src scope inClass (decoratedName? src t))) ++
      (t.field? "definition").toList.flatMap (walk src scope inClass) := by
  rw [walk]
  simp only [h, BEq.rfl, ↓reduceIte, String.reduceBEq, Bool.false_eq_true, List.flatMap_subtype,
        List.unattach_attach]
  refine congr (congrArg HAppend.hAppend ?_) ?_
  · rw [flatMap_filter]
    refine congrArg (fun tell => List.flatMap tell t.namedChildren) (funext fun d => ?_)
    by_cases hd : d.kind == "decorator"
    · rw [if_pos hd, if_pos hd]
      split
      · next hnone => simp [hnone]
      · next e he =>
        simp only [he, Option.toList_some, List.flatMap_singleton]
        rw [decoratorFacts]
        refine congr (congrArg HAppend.hAppend ?_) ?_
        · split
          · next p n hp hn =>
            have hpath : usedPath? e = some p := hp
            have hname : decoratedName? src t = some n := hn
            simp [hpath, hname]
          · next hother =>
            have hnot : ¬ ((usedPath? e).isSome && (decoratedName? src t).isSome) = true := by
              rw [Bool.and_eq_true, Option.isSome_iff_exists, Option.isSome_iff_exists]
              rintro ⟨⟨p, hp⟩, n, hn⟩
              exact hother p n hp hn
            rw [if_neg hnot]
        · rw [arguments]
          by_cases hcall : e.kind == "call"
          · rw [if_pos hcall, if_pos hcall]
            split <;> simp [*]
          · rw [if_neg hcall, if_neg hcall]
            rfl
    · rw [if_neg hd, if_neg hd]
  · split <;> simp [*]

theorem walk_function_nameless (h : t.kind = "function_definition")
    (hname : t.field? "name" = none) :
    walk src scope inClass t = t.namedChildren.flatMap (walk src scope inClass) := by
  rw [walk]
  simp [h, hname]

theorem walk_class_nameless (h : t.kind = "class_definition") (hname : t.field? "name" = none) :
    walk src scope inClass t = t.namedChildren.flatMap (walk src scope inClass) := by
  rw [walk]
  simp [h, hname]

theorem walk_import (h : t.kind = "import_statement") :
    walk src scope inClass t = importFacts t src scope := by
  rw [walk]
  simp [h]

theorem walk_importFrom (h : t.kind = "import_from_statement") :
    walk src scope inClass t = importFromFacts t src scope := by
  rw [walk]
  simp [h]

theorem walk_statement (h : t.kind = "expression_statement") :
    walk src scope inClass t = (if scope.isEmpty && !inClass then constantFact t src else []) ++
      t.namedChildren.flatMap (walk src scope inClass) := by
  rw [walk]
  simp [h]

theorem walk_call (h : t.kind = "call") :
    walk src scope inClass t =
      (((t.field? "function").bind (calleeName · src)).toList.map fun callee =>
        Fact.call callee scope (t.span src)) ++
          t.namedChildren.flatMap (walk src scope inClass) := by
  rw [walk]
  simp only [h, String.reduceBEq, Bool.false_eq_true, ↓reduceIte, BEq.rfl, List.flatMap_subtype,
    List.unattach_attach]
  split <;> simp [*]

theorem walk_other (h : t.kind ∉ ["function_definition", "class_definition", "decorated_definition",
      "import_statement", "import_from_statement", "expression_statement", "call"]) :
    walk src scope inClass t = t.namedChildren.flatMap (walk src scope inClass) := by
  rw [walk]
  simp_all

end Kinds

/-! ## Syntax -/

/-- Whether the fields of a node stand in the order that the syntax gives them. -/
structure Shaped (n : Tree) : Prop where
  function : n.kind = "function_definition" → n.FieldBefore "parameters" "body"
  class' : n.kind = "class_definition" → n.FieldBefore "superclasses" "body"
  call : n.kind = "call" → n.FieldBefore "function" "arguments"
  decorated : n.kind = "decorated_definition" →
    ∀ c ∈ n.childNodes.drop (n.fieldPlace "definition"), c.kind ≠ "decorator"
  subscript : n.kind = "subscript" → ∀ v ∈ n.children.head?, v.1 = some "value" ∧ v.2.info.named

namespace Shaped

instance (n : Tree) : Decidable (Shaped n) :=
  decidable_of_iff ((n.kind = "function_definition" → n.FieldBefore "parameters" "body") ∧
      (n.kind = "class_definition" → n.FieldBefore "superclasses" "body") ∧
      (n.kind = "call" → n.FieldBefore "function" "arguments") ∧
      (n.kind = "decorated_definition" →
        ∀ c ∈ n.childNodes.drop (n.fieldPlace "definition"), c.kind ≠ "decorator") ∧
      (n.kind = "subscript" → ∀ v ∈ n.children.head?, v.1 = some "value" ∧ v.2.info.named))
    ⟨fun ⟨function, class', call, decorated, subscript⟩ =>
        ⟨function, class', call, decorated, subscript⟩,
      fun ⟨function, class', call, decorated, subscript⟩ =>
        ⟨function, class', call, decorated, subscript⟩⟩

/-- The decorators stand before what they decorate. -/
theorem decorators {n d : Tree} (h : Shaped n) (hkind : n.kind = "decorated_definition")
    (hd : n.field? "definition" = some d) :
    (n.namedChildren.filter (·.kind == "decorator") ++ [d]).Sublist n.childNodes := by
  refine Tree.sublist_childNodes (Tree.childNodes_fieldPlace hd) ?_
  have hafter : (n.childNodes.drop (n.fieldPlace "definition")).filter
      (·.kind == "decorator") = [] := by
    simpa using h.decorated hkind
  have hbefore : n.childNodes.filter (·.kind == "decorator") =
      (n.childNodes.take (n.fieldPlace "definition")).filter (·.kind == "decorator") := by
    rw [← List.append_nil (List.filter _ (List.take _ _)), ← hafter, ← List.filter_append,
      List.take_append_drop]
  have hdecorators := n.namedChildren_sublist.filter (·.kind == "decorator")
  rw [hbefore] at hdecorators
  exact hdecorators.trans List.filter_sublist

theorem value {n v : Tree} (h : Shaped n) (hkind : n.kind = "subscript")
    (hv : n.field? "value" = some v) : n.namedChildren.head? = some v := by
  have hhead := h.subscript hkind
  cases hchildren : n.children with
  | nil => simp [Tree.field?, hchildren] at hv
  | cons first rest =>
      obtain ⟨hname, hnamed⟩ := hhead first (by simp [hchildren])
      have hfirst : first.2 = v := by simpa [Tree.field?, hchildren, hname] using hv
      subst hfirst
      simp [Tree.namedChildren, hchildren, hnamed]

end Shaped

/-- Whether each decorator of a definition uses a path, or has no arguments that tell something. -/
def DecoratorsPlain (src : Source) (n : Tree) : Prop :=
  n.kind = "decorated_definition" → ∀ d ∈ n.namedChildren, d.kind = "decorator" →
    ∀ e, d.namedChildren.head? = some e →
      ((usedPath? e).isSome && (decoratedName? src n).isSome) = false →
      ∀ scope inClass, (arguments e).flatMap (walk src scope inClass) = []

/-! ## One node -/

section Step

variable {src : Source} {t : Tree} (scope : List String) (inClass : Bool)

/-- A node whose walk goes on below may tell a fact of its own. -/
theorem told_front {fact : Fact}
    (hwalk : walk src scope inClass t = t.namedChildren.flatMap (walk src scope inClass))
    (h : ∀ c ∈ t.childNodes, AllTold src (walk src) c) (hfact : Tells src fact t) :
    Told src (fact :: walk src scope inClass t) t.preorder := by
  rw [hwalk]
  exact .own hfact (AllTold.named h scope inClass)

/-- What the first child tells may be more than the walk over it finds. -/
theorem told_head {facts : List Fact} {first : Tree} {rest : List Tree}
    (hnamed : t.namedChildren = first :: rest) (hfirst : Told src facts first.preorder)
    (h : ∀ c ∈ t.childNodes, AllTold src (walk src) c) :
    Told src (facts ++ rest.flatMap (walk src scope inClass))
      (t.childNodes.flatMap Tree.preorder) := by
  have hrest : Told src (rest.flatMap (walk src scope inClass)) (rest.flatMap Tree.preorder) :=
    .flatMap fun c hc => (h c (Tree.mem_childNodes_of_named (by simp [hnamed, hc]))).self _ _
  refine (hfirst.append hrest).mono ?_
  rw [← List.flatMap_cons, ← hnamed]
  exact sublist_flatMap t.namedChildren_sublist Tree.preorder

/-! ### Paths and bases -/

theorem kind_of_isDottedPath (h : isDottedPath t = true) :
    t.kind ∈ ["identifier", "dotted_name", "attribute"] := by
  rw [isDottedPath] at h
  grind

/-- A path tells nothing by itself. -/
theorem walk_path (src : Source) (h : isDottedPath t = true) :
    walk src scope inClass t = t.namedChildren.flatMap (walk src scope inClass) := by
  have hkind := kind_of_isDottedPath h
  refine walk_other src scope inClass fun hother => ?_
  simp only [List.mem_cons, List.not_mem_nil, or_false] at hkind hother
  rcases hkind with hkind | hkind | hkind <;> simp [hkind] at hother

theorem told_base {tell : Tree → Fact} (htell : ∀ p, Tells src (tell p) p) (hshaped : Shaped t)
    (h : AllTold src (walk src) t) : Told src
      ((basePath? t).toList.map tell ++ walk src scope inClass t) t.preorder := by
  cases hbase : basePath? t with
  | none => simpa using h.self scope inClass
  | some p =>
      rw [basePath?, Option.filter_eq_some_iff] at hbase
      obtain ⟨hp, hpath⟩ := hbase
      split at hp
      · cases hp
        exact told_front scope inClass (walk_path scope inClass src hpath)
          (fun _ hc => h.child hc) (htell t)
      · obtain ⟨hkind, hvalue⟩ := Option.ite_none_right_eq_some.1 hp
        have hkind : t.kind = "subscript" := by simpa using hkind
        -- the path is the first child, so that the base stands before all that is found below
        obtain ⟨rest, hnamed⟩ := List.head?_eq_some_iff.1 (hshaped.value hkind hvalue)
        have hchild : AllTold src (walk src) p := h.child (Tree.mem_childNodes_of_field? hvalue)
        have hfirst := told_front scope inClass (walk_path scope inClass src hpath)
          (fun _ hc => hchild.child hc) (htell p)
        have hall := told_head scope inClass hnamed hfirst fun _ hc => h.child hc
        rw [walk_other src scope inClass (by simp [hkind]), hnamed]
        simpa using hall.below

/-! ### Decorators -/

theorem told_expression {name : Option String} (hshaped : Shaped t) (h : AllTold src (walk src) t)
    (hplain : ((usedPath? t).isSome && name.isSome) = false →
      (arguments t).flatMap (walk src scope inClass) = []) :
    Told src (decoratorFacts src scope inClass name t) t.preorder := by
  rw [decoratorFacts]
  split
  · next hused =>
    rw [Bool.and_eq_true, Option.isSome_iff_exists, Option.isSome_iff_exists] at hused
    obtain ⟨⟨p, hp⟩, n, rfl⟩ := hused
    have htell : ∀ p, Tells src (.reference (dottedText p src) (scope ++ [n]) (p.span src)) p :=
      fun _ => .reference
    rw [hp]
    rw [usedPath?, Option.filter_eq_some_iff] at hp
    obtain ⟨hp, hpath⟩ := hp
    rw [arguments]
    split at hp
    · next hcall =>
      have hfields := Told.fields (hshaped.call (by simpa using hcall))
        (fun c _ _ => Told.own (htell c) .nil) (fun c hc _ => (h.child hc).self scope inClass)
      rw [if_pos hcall]
      rw [hp] at hfields
      simpa using hfields.below
    · next hcall =>
      cases hp
      rw [if_neg hcall]
      simpa using Told.own (htell t) .nil
  · next hnot =>
    rw [hplain (by simpa using hnot), List.append_nil]
    exact h.self scope inClass

theorem told_decorator {name : Option String} {e : Tree} (he : t.namedChildren.head? = some e)
    (hshaped : Shaped e) (h : AllTold src (walk src) t)
    (hplain : ((usedPath? e).isSome && name.isSome) = false →
      (arguments e).flatMap (walk src scope inClass) = []) :
    Told src (t.namedChildren.head?.toList.flatMap (decoratorFacts src scope inClass name))
      t.preorder := by
  have hmem : e ∈ t.childNodes := Tree.mem_childNodes_of_named (List.mem_of_mem_head? he)
  rw [he]
  refine .below (.children (List.singleton_sublist.2 hmem) fun c hc => ?_)
  obtain rfl := List.mem_singleton.1 hc
  exact told_expression scope inClass hshaped (h.child hmem) hplain

/-- Arguments of a decorator that calls something else than a path are walked over twice. -/
theorem walk_decorated_twice {d e a : Tree} {fact : Fact} (hkind : t.kind = "decorated_definition")
    (hd : d ∈ t.namedChildren) (hdecorator : d.kind = "decorator")
    (he : d.namedChildren.head? = some e) (hcall : e.kind = "call")
    (hused : ((usedPath? e).isSome && (decoratedName? src t).isSome) = false)
    (ha : e.field? "arguments" = some a) (hnamed : a ∈ e.namedChildren)
    (hfact : fact ∈ walk src scope inClass a) :
    [fact, fact].Sublist (walk src scope inClass t) := by
  have hwalk : [fact].Sublist (walk src scope inClass e) := by
    rw [walk_call src scope inClass hcall]
    refine List.singleton_sublist.2 (List.mem_append_right _ ?_)
    exact List.mem_flatMap.2 ⟨a, hnamed, hfact⟩
  have hfacts : [fact, fact].Sublist
      (decoratorFacts src scope inClass (decoratedName? src t) e) := by
    rw [decoratorFacts, if_neg (by simp [hused]), arguments, if_pos (by simpa using hcall), ha]
    exact hwalk.append (List.singleton_sublist.2 (by simpa using hfact))
  have hmem : d ∈ t.namedChildren.filter (·.kind == "decorator") :=
    List.mem_filter.2 ⟨hd, by simpa using hdecorator⟩
  rw [walk_decorated src scope inClass hkind]
  refine List.Sublist.trans ?_ (List.sublist_append_left _ _)
  have hone := sublist_flatMap (List.singleton_sublist.2 hmem) fun d =>
    d.namedChildren.head?.toList.flatMap
      (decoratorFacts src scope inClass (decoratedName? src t))
  exact hfacts.trans (by simpa [he] using hone)

/-! ### Each kind -/

theorem told_import (hkind : t.kind = "import_statement") :
    Told src (walk src scope inClass t) t.preorder := by
  rw [walk_import src scope inClass hkind, importFacts]
  refine .below (.filterMap t.namedChildren_sublist fun c _ fact hfact => ?_)
  simp only [] at hfact
  repeat' split at hfact
  all_goals cases hfact
  all_goals exact .imported

theorem told_importFrom (hkind : t.kind = "import_from_statement") :
    Told src (walk src scope inClass t) t.preorder := by
  rw [walk_importFrom src scope inClass hkind, importFromFacts]
  split
  · exact .nil
  · simp only []
    split
    · exact .own .imported .nil
    · have hfields : (t.fields "name").Sublist t.childNodes := List.filter_sublist.map _
      refine .below (.filterMap hfields fun c _ fact hfact => ?_)
      repeat' split at hfact
      all_goals cases hfact
      all_goals exact .imported

/-- The variable that a statement defines is told by the assignment in it. -/
theorem constantFact_cases (src : Source) (t : Tree) : constantFact t src = [] ∨
    ∃ a rest fact, t.namedChildren = a :: rest ∧ a.kind = "assignment" ∧
      constantFact t src = [fact] ∧ Tells src fact a := by
  rw [constantFact]
  split
  · next a ha =>
    obtain ⟨rest, hnamed⟩ := List.head?_eq_some_iff.1 ha
    split
    · next hkind =>
      split
      · simp only []
        split
        · exact .inr ⟨a, rest, _, hnamed, by simpa using hkind, rfl, .definition⟩
        · exact .inl rfl
      · exact .inl rfl
    · exact .inl rfl
  · exact .inl rfl

variable (h : ∀ c ∈ t.childNodes, AllTold src (walk src) c)
include h

theorem told_function (hshaped : Shaped t) (hkind : t.kind = "function_definition") :
    Told src (walk src scope inClass t) t.preorder := by
  cases hname : t.field? "name" with
  | none =>
      rw [walk_function_nameless src scope inClass hkind hname]
      exact Told.below (AllTold.named h scope inClass)
  | some name =>
      obtain ⟨own, hown, hwalk⟩ := walk_function src scope inClass hkind hname
      rw [hwalk]
      exact .own hown (.fields (hshaped.function hkind) (fun c hc _ => (h c hc).self scope false)
        fun c hc _ => (h c hc).body _ false)

theorem told_class (hshaped : ∀ n ∈ t.preorder, Shaped n) (hkind : t.kind = "class_definition") :
    Told src (walk src scope inClass t) t.preorder := by
  cases hname : t.field? "name" with
  | none =>
      rw [walk_class_nameless src scope inClass hkind hname]
      exact Told.below (AllTold.named h scope inClass)
  | some name =>
      obtain ⟨own, hown, hwalk⟩ := walk_class src scope inClass hkind hname
      rw [hwalk]
      refine .own hown (.fields ((hshaped t t.self_mem_preorder).class' hkind)
        (fun c hc _ => ?_) fun c hc _ => (h c hc).body _ true)
      refine .below (.children c.namedChildren_sublist fun b hb => ?_)
      have hb : b ∈ c.childNodes := Tree.mem_childNodes_of_named hb
      refine told_base scope false (fun _ => .base) ?_ ((h c hc).child hb)
      exact hshaped b (Tree.mem_preorder_of_child hc (Tree.mem_preorder_of_child hb
        b.self_mem_preorder))

theorem told_decorated (hshaped : ∀ n ∈ t.preorder, Shaped n) (hplain : DecoratorsPlain src t)
    (hkind : t.kind = "decorated_definition") :
    Told src (walk src scope inClass t) t.preorder := by
  rw [walk_decorated src scope inClass hkind]
  have hdecorators : ∀ d ∈ t.namedChildren.filter (·.kind == "decorator"),
      Told src (d.namedChildren.head?.toList.flatMap
        (decoratorFacts src scope inClass (decoratedName? src t))) d.preorder := by
    intro d hd
    obtain ⟨hd, hdecorator⟩ := List.mem_filter.1 hd
    have hmem : d ∈ t.childNodes := Tree.mem_childNodes_of_named hd
    cases he : d.namedChildren.head? with
    | none => exact .nil
    | some e =>
        have hshape : Shaped e := hshaped e (Tree.mem_preorder_of_child hmem
          (Tree.mem_preorder_of_child
            (Tree.mem_childNodes_of_named (List.mem_of_mem_head? he)) e.self_mem_preorder))
        rw [← he]
        exact told_decorator scope inClass he hshape (h d hmem) fun hnot =>
          hplain hkind d hd (by simpa using hdecorator) e he hnot scope inClass
  cases hdefinition : t.field? "definition" with
  | none =>
      simpa using Told.below (.children ((List.filter_sublist).trans t.namedChildren_sublist)
        hdecorators)
  | some d =>
      have hd := (h d (Tree.mem_childNodes_of_field? hdefinition)).self scope inClass
      have hsub := sublist_flatMap
        ((hshaped t t.self_mem_preorder).decorators hkind hdefinition) Tree.preorder
      refine .below (((Told.flatMap hdecorators).append ?_).mono (by simpa using hsub))
      simpa using hd

theorem told_statement (hkind : t.kind = "expression_statement") :
    Told src (walk src scope inClass t) t.preorder := by
  rw [walk_statement src scope inClass hkind]
  split
  · rcases constantFact_cases src t with hnone | ⟨a, rest, fact, hnamed, hassign, hfact, htells⟩
    · rw [hnone]
      exact Told.below (AllTold.named h scope inClass)
    · have ha : AllTold src (walk src) a := h a (Tree.mem_childNodes_of_named (by simp [hnamed]))
      have hwalk := walk_other src scope inClass (show a.kind ∉ _ by simp [hassign])
      have hfirst := told_front scope inClass hwalk (fun _ hc => ha.child hc) htells
      have hall := told_head scope inClass hnamed hfirst h
      rw [hfact, hnamed]
      simpa using hall.below
  · exact Told.below (AllTold.named h scope inClass)

theorem told_call (hkind : t.kind = "call") :
    Told src (walk src scope inClass t) t.preorder := by
  rw [walk_call src scope inClass hkind]
  cases (t.field? "function").bind (calleeName · src) with
  | none => exact Told.below (AllTold.named h scope inClass)
  | some callee => exact .own ⟨rfl, fun _ => .inl hkind⟩ (AllTold.named h scope inClass)

/-- A node tells, with the nodes below it, what the walk over it finds, if that is so of the nodes
below. -/
theorem walk_told_step (hshaped : ∀ n ∈ t.preorder, Shaped n) (hplain : DecoratorsPlain src t) :
    Told src (walk src scope inClass t) t.preorder := by
  by_cases hkind : t.kind ∈ ["function_definition", "class_definition", "decorated_definition",
      "import_statement", "import_from_statement", "expression_statement", "call"]
  · simp only [List.mem_cons, List.not_mem_nil, or_false] at hkind
    rcases hkind with hkind | hkind | hkind | hkind | hkind | hkind | hkind
    · exact told_function scope inClass h (hshaped t t.self_mem_preorder) hkind
    · exact told_class scope inClass h hshaped hkind
    · exact told_decorated scope inClass h hshaped hplain hkind
    · exact told_import scope inClass hkind
    · exact told_importFrom scope inClass hkind
    · exact told_statement scope inClass h hkind
    · exact told_call scope inClass h hkind
  · rw [walk_other src scope inClass hkind]
    exact Told.below (AllTold.named h scope inClass)

end Step

/-- **The nodes of a tree tell its facts**, each node at most one and in their order. -/
theorem walk_told {src : Source} {t : Tree} (hshaped : ∀ n ∈ t.preorder, Shaped n)
    (hplain : ∀ n ∈ t.preorder, DecoratorsPlain src n) : AllTold src (walk src) t := by
  refine .of_step (fun t hgood h scope inClass => ?_)
    fun n hn => And.intro (hshaped n hn) (hplain n hn)
  exact walk_told_step scope inClass h (fun n hn => (hgood n hn).1)
    (hgood t t.self_mem_preorder).2

end CodeAtlas.Python
