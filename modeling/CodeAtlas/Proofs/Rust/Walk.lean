import CodeAtlas.Proofs.Facts.Told
import CodeAtlas.Rust.Facts

/-!
# CodeAtlas.Proofs.Rust.Walk

What the nodes of a Rust tree tell.

The walk over a tree is opened once for each kind of node (`walk_function` and the others).  Each
fact is then told by a node of its own, in the order of the nodes (`walk_told`), and so are the
names that a use declaration binds (`useFacts_told`).
-/

namespace CodeAtlas.Rust

open CodeAtlas.Parsing
open CodeAtlas.Text

/-! ## Kinds of nodes -/

section Kinds

variable (src : Source) (scope : List String) (inBody : Bool) {t : Tree}

/-- Items that may have no name, and are then looked through like any other node. -/
theorem walk_nameless (h : t.kind ∈ ["function_item", "function_signature_item", "struct_item",
      "enum_item", "union_item", "trait_item", "const_item", "static_item"])
    (hname : t.field? "name" = none) :
    walk src scope inBody t = t.namedChildren.flatMap (walk src scope false) := by
  rw [walk]
  simp only [List.mem_cons, List.not_mem_nil, or_false] at h
  rcases h with h | h | h | h | h | h | h | h <;> simp [h, hname]

theorem walk_function {name : Tree} (h : t.kind ∈ ["function_item", "function_signature_item"])
    (hname : t.field? "name" = some name) :
    ∃ own, Tells src own t ∧ walk src scope inBody t = own ::
      (t.field? "body").toList.flatMap (walk src (scope ++ [name.text src]) false) := by
  have hkind : (t.kind == "function_item" || t.kind == "function_signature_item") = true := by
    simpa using h
  rw [walk]
  simp only [hkind, hname, ↓reduceIte]
  refine ⟨_, ?_, congrArg (List.cons _) ?_⟩
  · exact .definition
  · split <;> simp [*]

theorem walk_type {name : Tree} (h : t.kind ∈ ["struct_item", "enum_item", "union_item"])
    (hname : t.field? "name" = some name) :
    ∃ own, Tells src own t ∧ walk src scope inBody t = [own] := by
  rw [walk]
  simp only [List.mem_cons, List.not_mem_nil, or_false] at h
  rcases h with h | h | h
  all_goals
    simp only [h, hname, String.reduceBEq, Bool.or_self, Bool.false_eq_true, ↓reduceIte, BEq.rfl,
      Bool.or_true, Bool.true_or]
    exact ⟨_, .definition, rfl⟩

/-- The base that a node names. -/
def baseAt? (src : Source) (scope : List String) (b : Tree) : Option Fact :=
  (typePath src b).map fun path => .base path scope (b.span src)

theorem walk_trait {name : Tree} (h : t.kind = "trait_item") (hname : t.field? "name" = some name) :
    ∃ own, Tells src own t ∧ walk src scope inBody t = own ::
      (((t.field? "bounds").toList.flatMap fun bs =>
          bs.namedChildren.filterMap (baseAt? src (scope ++ [name.text src]))) ++
        (t.field? "body").toList.flatMap fun b =>
          b.namedChildren.flatMap (walk src (scope ++ [name.text src]) true)) := by
  rw [walk]
  simp only [h, hname, String.reduceBEq, Bool.or_self, Bool.false_eq_true, ↓reduceIte, BEq.rfl,
    List.cons_append]
  refine ⟨_, ?_, congrArg (List.cons _) (congr (congrArg HAppend.hAppend ?_) ?_)⟩
  · exact .definition
  · split
    · next bs hbs =>
      simp only [hbs, Option.toList_some, List.flatMap_singleton]
      rfl
    · simp [*]
  · split <;> simp [*]

theorem walk_impl (h : t.kind = "impl_item") {self : String}
    (htype : (t.field? "type").bind (typeName src) = some self) :
    walk src scope inBody t =
      ((t.field? "trait").toList.flatMap fun b => (baseAt? src (scope ++ [self]) b).toList) ++
        (t.field? "body").toList.flatMap fun b =>
          b.namedChildren.flatMap (walk src (scope ++ [self]) true) := by
  rw [walk]
  simp only [h, htype, String.reduceBEq, Bool.or_self, Bool.false_eq_true, ↓reduceIte, BEq.rfl]
  refine congr (congrArg HAppend.hAppend ?_) ?_
  · split
    · next b hb =>
      simp only [hb, Option.toList_some, List.flatMap_singleton]
      rfl
    · simp [*]
  · split <;> simp [*]

theorem walk_impl_nameless (h : t.kind = "impl_item")
    (htype : (t.field? "type").bind (typeName src) = none) :
    walk src scope inBody t = t.namedChildren.flatMap (walk src scope false) := by
  rw [walk]
  simp [h, htype]

theorem walk_mod (h : t.kind = "mod_item") : walk src scope inBody t = [] ∨
    ∃ own inner, Tells src own t ∧ walk src scope inBody t = own ::
      (t.field? "body").toList.flatMap fun b => b.namedChildren.flatMap (walk src inner false) := by
  rw [walk]
  simp only [h, String.reduceBEq, Bool.or_self, Bool.false_eq_true, ↓reduceIte, BEq.rfl]
  split
  · next name b hname hbody =>
    refine .inr ⟨_, scope ++ [name.text src], ?_, congrArg (List.cons _) ?_⟩
    · exact .definition
    · rw [hbody]
      split <;> simp_all
  · exact .inl rfl

theorem walk_variable {name : Tree} (h : t.kind ∈ ["const_item", "static_item"])
    (hname : t.field? "name" = some name) :
    ∃ own, Tells src own t ∧ walk src scope inBody t = own ::
      (t.field? "value").toList.flatMap (walk src scope false) := by
  rw [walk]
  rcases List.mem_pair.1 h with h | h
  all_goals
    simp only [h, hname, String.reduceBEq, Bool.or_self, Bool.false_eq_true, ↓reduceIte, BEq.rfl,
      Bool.or_true, Bool.true_or]
    refine ⟨_, ?_, congrArg (List.cons _) ?_⟩
    · exact .definition
    · split <;> simp [*]

theorem walk_use (h : t.kind = "use_declaration") :
    walk src scope inBody t = (t.field? "argument").toList.flatMap (useFacts src scope "") := by
  rw [walk]
  simp only [h, String.reduceBEq, Bool.or_self, Bool.false_eq_true, ↓reduceIte, BEq.rfl]
  split <;> simp [*]

theorem walk_call (h : t.kind = "call_expression") :
    walk src scope inBody t =
      (((t.field? "function").bind (calleeName src)).toList.map fun callee =>
        Fact.call callee scope (t.span src)) ++ t.namedChildren.flatMap (walk src scope false) := by
  rw [walk]
  simp only [h, String.reduceBEq, Bool.or_self, Bool.false_eq_true, ↓reduceIte, BEq.rfl,
    List.flatMap_subtype, List.unattach_attach]
  split <;> simp [*]

theorem walk_silent (h : t.kind ∈ ["macro_invocation", "macro_definition", "attribute_item",
      "inner_attribute_item"]) : walk src scope inBody t = [] := by
  rw [walk]
  simp only [List.mem_cons, List.not_mem_nil, or_false] at h
  rcases h with h | h | h | h <;> simp [h]

theorem walk_other (h : t.kind ∉ ["function_item", "function_signature_item", "struct_item",
      "enum_item", "union_item", "trait_item", "impl_item", "mod_item", "const_item",
      "static_item", "use_declaration", "call_expression", "macro_invocation", "macro_definition",
      "attribute_item", "inner_attribute_item"]) :
    walk src scope inBody t = t.namedChildren.flatMap (walk src scope false) := by
  rw [walk]
  simp_all

end Kinds

/-! ## Use trees -/

section Uses

variable (src : Source) (scope : List String) (above : String) {t : Tree}

/-- The path that a group of use trees stands below. -/
def groupPath (src : Source) (above : String) (t : Tree) : String :=
  match t.field? "path" with
  | some path => Path.join above (pathText path src)
  | none => above

theorem useFacts_scoped (h : t.kind = "scoped_use_list") :
    useFacts src scope above t =
      (t.field? "list").toList.flatMap (useFacts src scope (groupPath src above t)) := by
  rw [useFacts]
  simp only [h, String.reduceBEq, Bool.or_self, Bool.false_eq_true, ↓reduceIte, BEq.rfl]
  split
  · next list hlist =>
    simp only [hlist, Option.toList_some, List.flatMap_singleton]
    rfl
  · simp [*]

theorem useFacts_list (h : t.kind = "use_list") :
    useFacts src scope above t = t.namedChildren.flatMap (useFacts src scope above) := by
  rw [useFacts]
  simp [h]

/-- An end of a use tree binds at most one name. -/
theorem useFacts_leaf (h : t.kind ∉ ["scoped_use_list", "use_list"]) :
    useFacts src scope above t = [] ∨
      ∃ own, Tells src own t ∧ useFacts src scope above t = [own] := by
  have htells : ∀ name target, Tells src (.imported name target scope (t.span src)) t :=
    fun _ _ => .imported
  rw [useFacts]
  simp only [List.mem_cons, List.not_mem_nil, or_false, not_or] at h
  simp only [h, beq_iff_eq, ↓reduceIte]
  repeat' split
  all_goals first
    | exact .inr ⟨_, htells _ _, rfl⟩
    | exact .inl rfl

variable {src scope}

/-- The names that a use tree binds are told by its nodes. -/
theorem useFacts_told (t : Tree) : ∀ above, Told src (useFacts src scope above t) t.preorder := by
  induction t using Tree.sizeOf_induction with
  | step t ih =>
      intro above
      by_cases hscoped : t.kind = "scoped_use_list"
      · rw [useFacts_scoped src scope above hscoped]
        exact .below (.field fun c hc _ => ih c (Tree.sizeOf_lt_of_mem_childNodes hc) _)
      by_cases hlist : t.kind = "use_list"
      · rw [useFacts_list src scope above hlist]
        exact .below (.children t.namedChildren_sublist fun c hc =>
          ih c (Tree.sizeOf_lt_of_mem_namedChildren hc) above)
      have hleaf : t.kind ∉ ["scoped_use_list", "use_list"] := by simp [hscoped, hlist]
      rcases useFacts_leaf src scope above hleaf with hnone | ⟨own, hown, hfacts⟩
      · rw [hnone]
        exact .nil
      · rw [hfacts]
        exact .own hown .nil

end Uses

/-! ## Syntax -/

/-- Whether the fields of a node stand in the order that the syntax gives them. -/
structure Shaped (n : Tree) : Prop where
  trait : n.kind = "trait_item" → n.FieldBefore "bounds" "body"
  impl : n.kind = "impl_item" → n.FieldBefore "trait" "body"

/-! ## One node -/

section Step

variable {src : Source} {t : Tree} (scope : List String) (inBody : Bool)

theorem tells_baseAt? {b : Tree} {fact : Fact} (h : fact ∈ baseAt? src scope b) :
    Tells src fact b := by
  obtain ⟨path, -, rfl⟩ := Option.map_eq_some_iff.1 h
  exact .base

variable (h : ∀ c ∈ t.childNodes, AllTold src (walk src) c)
include h

theorem told_nameless
    (hwalk : walk src scope inBody t = t.namedChildren.flatMap (walk src scope false)) :
    Told src (walk src scope inBody t) t.preorder := by
  rw [hwalk]
  exact .below (AllTold.named h scope false)

theorem told_function (hkind : t.kind ∈ ["function_item", "function_signature_item"]) :
    Told src (walk src scope inBody t) t.preorder := by
  cases hname : t.field? "name" with
  | none =>
      exact told_nameless scope inBody h (walk_nameless src scope inBody (by grind) hname)
  | some name =>
      obtain ⟨own, hown, hwalk⟩ := walk_function src scope inBody hkind hname
      rw [hwalk]
      exact .own hown (.field fun c hc _ => (h c hc).self _ false)

theorem told_type (hkind : t.kind ∈ ["struct_item", "enum_item", "union_item"]) :
    Told src (walk src scope inBody t) t.preorder := by
  cases hname : t.field? "name" with
  | none =>
      exact told_nameless scope inBody h (walk_nameless src scope inBody (by grind) hname)
  | some name =>
      obtain ⟨own, hown, hwalk⟩ := walk_type src scope inBody hkind hname
      rw [hwalk]
      exact .own hown .nil

theorem told_trait (hshaped : Shaped t) (hkind : t.kind = "trait_item") :
    Told src (walk src scope inBody t) t.preorder := by
  cases hname : t.field? "name" with
  | none =>
      have hitem := walk_nameless src scope inBody (by simp [hkind]) hname
      exact told_nameless scope inBody h hitem
  | some name =>
      obtain ⟨own, hown, hwalk⟩ := walk_trait src scope inBody hkind hname
      rw [hwalk]
      refine .own hown (.fields (hshaped.trait hkind) (fun c hc _ => ?_) fun c hc _ => ?_)
      · exact .below (.filterMap c.namedChildren_sublist fun b _ fact hfact =>
          tells_baseAt? _ hfact)
      · exact (h c hc).body _ true

theorem told_impl (hshaped : Shaped t) (hkind : t.kind = "impl_item") :
    Told src (walk src scope inBody t) t.preorder := by
  cases htype : (t.field? "type").bind (typeName src) with
  | none => exact told_nameless scope inBody h (walk_impl_nameless src scope inBody hkind htype)
  | some self =>
      rw [walk_impl src scope inBody hkind htype]
      refine .below (.fields (hshaped.impl hkind) (fun c hc _ => ?_) fun c hc _ => ?_)
      · cases hbase : baseAt? src (scope ++ [self]) c with
        | none => exact .nil
        | some base => exact .own (tells_baseAt? _ hbase) .nil
      · exact (h c hc).body _ true

theorem told_mod (hkind : t.kind = "mod_item") :
    Told src (walk src scope inBody t) t.preorder := by
  rcases walk_mod src scope inBody hkind with hnone | ⟨own, inner, hown, hwalk⟩
  · rw [hnone]
    exact .nil
  · rw [hwalk]
    exact .own hown (.field fun c hc _ => (h c hc).body inner false)

theorem told_variable (hkind : t.kind ∈ ["const_item", "static_item"]) :
    Told src (walk src scope inBody t) t.preorder := by
  cases hname : t.field? "name" with
  | none =>
      exact told_nameless scope inBody h (walk_nameless src scope inBody (by grind) hname)
  | some name =>
      obtain ⟨own, hown, hwalk⟩ := walk_variable src scope inBody hkind hname
      rw [hwalk]
      exact .own hown (.field fun c hc _ => (h c hc).self scope false)

theorem told_call (hkind : t.kind = "call_expression") :
    Told src (walk src scope inBody t) t.preorder := by
  rw [walk_call src scope inBody hkind]
  cases (t.field? "function").bind (calleeName src) with
  | none => exact .below (AllTold.named h scope false)
  | some callee => exact .own ⟨rfl, fun _ => .inr hkind⟩ (AllTold.named h scope false)

/-- A node tells, with the nodes below it, what the walk over it finds, if that is so of the nodes
below. -/
theorem walk_told_step (hshaped : Shaped t) :
    Told src (walk src scope inBody t) t.preorder := by
  by_cases hfunction : t.kind ∈ ["function_item", "function_signature_item"]
  · exact told_function scope inBody h hfunction
  by_cases htype : t.kind ∈ ["struct_item", "enum_item", "union_item"]
  · exact told_type scope inBody h htype
  by_cases htrait : t.kind = "trait_item"
  · exact told_trait scope inBody h hshaped htrait
  by_cases himpl : t.kind = "impl_item"
  · exact told_impl scope inBody h hshaped himpl
  by_cases hmod : t.kind = "mod_item"
  · exact told_mod scope inBody h hmod
  by_cases hvariable : t.kind ∈ ["const_item", "static_item"]
  · exact told_variable scope inBody h hvariable
  by_cases huse : t.kind = "use_declaration"
  · rw [walk_use src scope inBody huse]
    exact .below (.field fun c _ _ => useFacts_told c "")
  by_cases hcall : t.kind = "call_expression"
  · exact told_call scope inBody h hcall
  by_cases hsilent : t.kind ∈ ["macro_invocation", "macro_definition", "attribute_item",
      "inner_attribute_item"]
  · rw [walk_silent src scope inBody hsilent]
    exact .nil
  refine told_nameless scope inBody h (walk_other src scope inBody ?_)
  simp_all

end Step

/-- **The nodes of a tree tell its facts**, each node at most one and in their order. -/
theorem walk_told {src : Source} {t : Tree} (hshaped : ∀ n ∈ t.preorder, Shaped n) :
    AllTold src (walk src) t :=
  .of_step (fun t hgood h scope inBody =>
    walk_told_step scope inBody h (hgood t t.self_mem_preorder)) hshaped

end CodeAtlas.Rust
