import CodeAtlas.Fact
import CodeAtlas.Proofs.Parsing.Preorder
import Mathlib.Data.List.Forall2

/-!
# CodeAtlas.Proofs.Facts.Told

Facts that nodes tell, each node at most one.

Facts are told by some nodes, in the order of those, if each fact has a node of its own that it has
its span from, and a call has one that is a call (`Told`).  What several lists of nodes tell one
after the other is told by these lists in a row (`Told.append`), and nodes that tell nothing do not
matter (`Told.mono`).  A walk over a tree is looked at one node at a time (`AllTold.of_step`).
-/

namespace CodeAtlas

open Parsing

/-- Whether a node is an expression that calls something. -/
def IsCall (n : Tree) : Prop := n.kind = "call" ∨ n.kind = "call_expression"

/-- Whether a node tells a fact: the fact stands where the node does, and only a call tells one. -/
def Tells (src : Source) (fact : Fact) (n : Tree) : Prop :=
  fact.span = n.span src ∧ (fact.kind = .call → IsCall n)

namespace Tells

variable {src : Source} {n : Tree} {name target signature : String} {scope : List String}

/-- What is no call may be told by any node. -/
theorem of_ne {fact : Fact} (hspan : fact.span = n.span src) (hkind : fact.kind ≠ .call) :
    Tells src fact n :=
  ⟨hspan, fun hcall => absurd hcall hkind⟩

theorem definition {kind : NodeKind} :
    Tells src (.definition kind name scope (n.span src) signature) n :=
  of_ne rfl (by simp [Fact.definition])

theorem imported : Tells src (.imported name target scope (n.span src)) n :=
  of_ne rfl (by simp [Fact.imported])

theorem base : Tells src (.base name scope (n.span src)) n :=
  of_ne rfl (by simp [Fact.base])

theorem reference : Tells src (.reference name scope (n.span src)) n :=
  of_ne rfl (by simp [Fact.reference])

end Tells

/-- Whether facts are told by some of the given nodes, by each at most one and in their order. -/
def Told (src : Source) : List Fact → List Tree → Prop :=
  List.SublistForall₂ (Tells src)

namespace Told

variable {src : Source} {facts facts' : List Fact} {nodes nodes' : List Tree} {n : Tree}
  {fact : Fact}

theorem nil : Told src [] nodes := List.SublistForall₂.nil

theorem cons (h : Tells src fact n) (hrest : Told src facts nodes) :
    Told src (fact :: facts) (n :: nodes) := List.SublistForall₂.cons h hrest

theorem mono (h : Told src facts nodes) (hsub : nodes.Sublist nodes') : Told src facts nodes' := by
  obtain ⟨shown, hshown, hnodes⟩ := List.sublistForall₂_iff.1 h
  exact List.sublistForall₂_iff.2 ⟨shown, hshown, hnodes.trans hsub⟩

theorem append (h : Told src facts nodes) (h' : Told src facts' nodes') :
    Told src (facts ++ facts') (nodes ++ nodes') := by
  obtain ⟨shown, hshown, hnodes⟩ := List.sublistForall₂_iff.1 h
  obtain ⟨shown', hshown', hnodes'⟩ := List.sublistForall₂_iff.1 h'
  exact List.sublistForall₂_iff.2 ⟨_, List.rel_append hshown hshown', hnodes.append hnodes'⟩

/-- What is told part by part is told by the parts in a row. -/
theorem flatMap {α : Type} {parts : List α} {tell : α → List Fact} {by' : α → List Tree}
    (h : ∀ part ∈ parts, Told src (tell part) (by' part)) :
    Told src (parts.flatMap tell) (parts.flatMap by') := by
  induction parts with
  | nil => exact nil
  | cons part parts ih =>
      exact (h part List.mem_cons_self).append
        (ih fun part' hpart => h part' (List.mem_cons_of_mem part hpart))

/-! ## Nodes and what is below them -/

variable {t : Tree}

/-- What a node tells stands before what the nodes below it tell. -/
theorem own (h : Tells src fact t) (hrest : Told src facts (t.childNodes.flatMap Tree.preorder)) :
    Told src (fact :: facts) t.preorder := by
  rw [t.preorder_eq]
  exact cons h hrest

theorem below (h : Told src facts (t.childNodes.flatMap Tree.preorder)) :
    Told src facts t.preorder := by
  rw [t.preorder_eq]
  exact h.mono (List.sublist_cons_self t _)

/-- What is told child by child is told by the nodes below. -/
theorem children {cs : List Tree} {tell : Tree → List Fact} (hsub : cs.Sublist t.childNodes)
    (h : ∀ c ∈ cs, Told src (tell c) c.preorder) :
    Told src (cs.flatMap tell) (t.childNodes.flatMap Tree.preorder) :=
  (flatMap h).mono (sublist_flatMap hsub Tree.preorder)

/-- What children tell by at most one fact each. -/
theorem filterMap {cs : List Tree} {tell : Tree → Option Fact} (hsub : cs.Sublist t.childNodes)
    (h : ∀ c ∈ cs, ∀ fact ∈ tell c, Tells src fact c) :
    Told src (cs.filterMap tell) (t.childNodes.flatMap Tree.preorder) := by
  rw [List.filterMap_eq_flatMap_toList]
  refine children hsub fun c hc => ?_
  cases hfact : tell c with
  | none => exact nil
  | some fact => exact own (h c hc fact hfact) nil

theorem field {name : String} {tell : Tree → List Fact}
    (h : ∀ c ∈ t.childNodes, t.field? name = some c → Told src (tell c) c.preorder) :
    Told src ((t.field? name).toList.flatMap tell) (t.childNodes.flatMap Tree.preorder) := by
  cases hfield : t.field? name with
  | none => exact nil
  | some c =>
      have hc : c ∈ t.childNodes := Tree.mem_childNodes_of_field? hfield
      refine children (List.singleton_sublist.2 hc) fun c' hc' => ?_
      obtain rfl := List.mem_singleton.1 hc'
      exact h c' hc hfield

/-- What two fields tell one after the other is told by the nodes below, if the fields stand in this
order. -/
theorem fields {first second : String} {tell tell' : Tree → List Fact}
    (hbefore : t.FieldBefore first second)
    (h : ∀ c ∈ t.childNodes, t.field? first = some c → Told src (tell c) c.preorder)
    (h' : ∀ c ∈ t.childNodes, t.field? second = some c → Told src (tell' c) c.preorder) :
    Told src ((t.field? first).toList.flatMap tell ++ (t.field? second).toList.flatMap tell')
      (t.childNodes.flatMap Tree.preorder) := by
  cases hfirst : t.field? first with
  | none => simpa using field h'
  | some a =>
      cases hsecond : t.field? second with
      | none => simpa [hfirst] using field h
      | some b =>
          have ha := h a (Tree.mem_childNodes_of_field? hfirst) hfirst
          have hb := h' b (Tree.mem_childNodes_of_field? hsecond) hsecond
          have hboth := sublist_flatMap (hbefore.sublist hfirst hsecond) Tree.preorder
          simpa using (ha.append hb).mono (by simpa using hboth)

end Told

/-! ## Walks -/

/-- Whether each node of a tree tells, with the nodes below it, what a walk over it finds, in
whatever scope. -/
def AllTold (src : Source) (walk : List String → Bool → Tree → List Fact) (t : Tree) : Prop :=
  ∀ n ∈ t.preorder, ∀ scope inside, Told src (walk scope inside n) n.preorder

namespace AllTold

variable {src : Source} {walk : List String → Bool → Tree → List Fact} {t : Tree}

theorem self (h : AllTold src walk t) (scope : List String) (inside : Bool) :
    Told src (walk scope inside t) t.preorder :=
  h t t.self_mem_preorder scope inside

theorem child {c : Tree} (h : AllTold src walk t) (hc : c ∈ t.childNodes) : AllTold src walk c :=
  fun n hn => h n (Tree.mem_preorder_of_child hc hn)

theorem named (h : ∀ c ∈ t.childNodes, AllTold src walk c) (scope : List String) (inside : Bool) :
    Told src (t.namedChildren.flatMap (walk scope inside))
      (t.childNodes.flatMap Tree.preorder) :=
  .children t.namedChildren_sublist fun c hc =>
    (h c (Tree.mem_childNodes_of_named hc)).self scope inside

/-- The nodes of a body tell what stands in it. -/
theorem body (h : AllTold src walk t) (scope : List String) (inside : Bool) :
    Told src (t.namedChildren.flatMap (walk scope inside)) t.preorder :=
  .below (named (fun _ hc => h.child hc) scope inside)

/-- It is enough that a node tells what the walk finds if the nodes below it do. -/
theorem of_step {good : Tree → Prop}
    (step : ∀ t, (∀ n ∈ t.preorder, good n) → (∀ c ∈ t.childNodes, AllTold src walk c) →
      ∀ scope inside, Told src (walk scope inside t) t.preorder)
    (hgood : ∀ n ∈ t.preorder, good n) : AllTold src walk t :=
  Tree.preorder_induction step hgood

end AllTold

end CodeAtlas
