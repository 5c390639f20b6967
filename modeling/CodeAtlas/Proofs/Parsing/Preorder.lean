import CodeAtlas.Parsing.Tree
import Mathlib.Data.List.Basic

/-!
# CodeAtlas.Proofs.Parsing.Preorder

The nodes of a tree in the order in which they start.

A node comes before the nodes below it, and those come child by child (`Tree.preorder`).  In a tree
whose children lie inside of their parents and follow each other (`Tree.Ordered`), no node starts
before one that comes earlier (`Tree.Ordered.pairwise_start`).
-/

namespace CodeAtlas.Parsing

/-- Parts that are left out of a list are left out of what it is replaced by. -/
theorem sublist_flatMap {α β : Type} {xs ys : List α} (h : xs.Sublist ys) (f : α → List β) :
    (xs.flatMap f).Sublist (ys.flatMap f) := by
  induction h with
  | slnil => exact List.Sublist.refl _
  | cons y _ ih => exact ih.trans (List.sublist_append_right (f y) _)
  | cons_cons y _ ih => exact (List.Sublist.refl (f y)).append ih

theorem flatMap_filter {α β : Type} (p : α → Bool) (f : α → List β) (xs : List α) :
    (xs.filter p).flatMap f = xs.flatMap fun x => if p x then f x else [] := by
  induction xs with
  | nil => rfl
  | cons x xs ih => by_cases hx : p x <;> simp [hx, ih]

namespace Tree

/-- The children, under whatever field. -/
def childNodes (t : Tree) : List Tree := t.children.map (·.2)

mutual
/-- All nodes, each one before the nodes below it. -/
def preorder : Tree → List Tree
  | node info children => node info children :: preorderOf children

def preorderOf : List (Option String × Tree) → List Tree
  | [] => []
  | (_, t) :: ts => preorder t ++ preorderOf ts
end

theorem preorderOf_eq (children : List (Option String × Tree)) :
    preorderOf children = (children.map (·.2)).flatMap preorder := by
  induction children with
  | nil => rfl
  | cons child children ih => rw [preorderOf, ih, List.map_cons, List.flatMap_cons]

theorem preorder_eq (t : Tree) : t.preorder = t :: t.childNodes.flatMap preorder := by
  cases t with
  | node info children => rw [preorder, preorderOf_eq, childNodes, Tree.children]

theorem self_mem_preorder (t : Tree) : t ∈ t.preorder := by
  rw [preorder_eq]
  exact List.mem_cons_self

theorem namedChildren_sublist (t : Tree) : t.namedChildren.Sublist t.childNodes :=
  List.filter_sublist

theorem mem_childNodes_of_field? {t c : Tree} {name : String} (h : t.field? name = some c) :
    c ∈ t.childNodes := by
  obtain ⟨child, hfound, rfl⟩ := Option.map_eq_some_iff.1 h
  exact List.mem_map_of_mem (List.mem_of_find?_eq_some hfound)

theorem sizeOf_lt_of_mem_childNodes {t c : Tree} (h : c ∈ t.childNodes) : sizeOf c < sizeOf t := by
  obtain ⟨child, hchild, rfl⟩ := List.mem_map.1 h
  exact sizeOf_child_lt hchild

theorem preorder_sublist_of_mem {t c : Tree} (h : c ∈ t.childNodes) :
    c.preorder.Sublist (t.childNodes.flatMap preorder) := by
  have hone := sublist_flatMap (List.singleton_sublist.2 h) preorder
  simpa using hone

/-- What holds of all nodes of a tree holds of those below a child. -/
theorem mem_preorder_of_child {t c n : Tree} (hc : c ∈ t.childNodes) (hn : n ∈ c.preorder) :
    n ∈ t.preorder := by
  rw [preorder_eq]
  exact List.mem_cons_of_mem t ((preorder_sublist_of_mem hc).subset hn)

theorem mem_childNodes_of_named {t c : Tree} (h : c ∈ t.namedChildren) : c ∈ t.childNodes :=
  t.namedChildren_sublist.subset h

/-- The number of the child under a field. -/
def fieldPlace (t : Tree) (name : String) : Nat := t.children.findIdx (·.1 == some name)

/-- Whether a field comes before another one, if both are there. -/
def FieldBefore (t : Tree) (first second : String) : Prop :=
  (t.field? first).isSome → (t.field? second).isSome → t.fieldPlace first < t.fieldPlace second

instance (t : Tree) (first second : String) : Decidable (t.FieldBefore first second) :=
  inferInstanceAs (Decidable (_ → _ → _))

theorem childNodes_fieldPlace {t c : Tree} {name : String} (h : t.field? name = some c) :
    t.childNodes[t.fieldPlace name]? = some c := by
  obtain ⟨child, hfound, rfl⟩ := Option.map_eq_some_iff.1 h
  rw [childNodes, List.getElem?_map, fieldPlace, ← List.find?_eq_getElem?_findIdx, hfound,
    Option.map_some]

/-- Children before a place, and the child there. -/
theorem sublist_childNodes {t c : Tree} {i : Nat} {cs : List Tree} (hc : t.childNodes[i]? = some c)
    (hcs : cs.Sublist (t.childNodes.take i)) : (cs ++ [c]).Sublist t.childNodes := by
  have htake : t.childNodes.take (i + 1) = t.childNodes.take i ++ [c] := by
    rw [List.take_add_one, hc, Option.toList_some]
  refine List.Sublist.trans ?_ (List.take_sublist (i + 1) t.childNodes)
  rw [htake]
  exact hcs.append (List.Sublist.refl [c])

theorem FieldBefore.sublist {t a b : Tree} {first second : String}
    (h : t.FieldBefore first second) (ha : t.field? first = some a)
    (hb : t.field? second = some b) : [a, b].Sublist t.childNodes := by
  have hlt : t.fieldPlace first < t.fieldPlace second := h (by simp [ha]) (by simp [hb])
  have hfirst : a ∈ t.childNodes.take (t.fieldPlace second) := by
    refine List.mem_iff_getElem?.2 ⟨t.fieldPlace first, ?_⟩
    rw [List.getElem?_take_of_lt hlt, childNodes_fieldPlace ha]
  exact sublist_childNodes (childNodes_fieldPlace hb) (List.singleton_sublist.2 hfirst)

/-- Trees are looked at with what is known of all smaller ones. -/
theorem sizeOf_induction {motive : Tree → Prop}
    (step : ∀ t, (∀ c, sizeOf c < sizeOf t → motive c) → motive t) (t : Tree) : motive t :=
  step t fun c _ => sizeOf_induction step c
termination_by sizeOf t

/-- What a node has, if all nodes below it do, all nodes of a tree have. -/
theorem preorder_induction {good motive : Tree → Prop}
    (step : ∀ t, (∀ n ∈ t.preorder, good n) →
      (∀ c ∈ t.childNodes, ∀ n ∈ c.preorder, motive n) → motive t)
    {t : Tree} (hgood : ∀ n ∈ t.preorder, good n) : ∀ n ∈ t.preorder, motive n := by
  induction t using sizeOf_induction with
  | step t ih =>
      have hbelow : ∀ c ∈ t.childNodes, ∀ n ∈ c.preorder, motive n := fun c hc =>
        ih c (sizeOf_lt_of_mem_childNodes hc) fun n hn => hgood n (mem_preorder_of_child hc hn)
      intro n hn
      rw [preorder_eq, List.mem_cons, List.mem_flatMap] at hn
      rcases hn with rfl | ⟨c, hc, hn⟩
      · exact step n hgood hbelow
      · exact hbelow c hc n hn

/-! ## Places -/

/-- Whether the children of each node lie inside of it, one after the other. -/
structure Ordered (t : Tree) : Prop where
  place : ∀ n ∈ t.preorder, n.info.start ≤ n.info.stop
  inside : ∀ n ∈ t.preorder, ∀ c ∈ n.childNodes,
    n.info.start ≤ c.info.start ∧ c.info.stop ≤ n.info.stop
  follow : ∀ n ∈ t.preorder, n.childNodes.Pairwise fun a b => a.info.stop ≤ b.info.start

namespace Ordered

instance (t : Tree) : Decidable t.Ordered :=
  decidable_of_iff ((∀ n ∈ t.preorder, n.info.start ≤ n.info.stop) ∧
      (∀ n ∈ t.preorder, ∀ c ∈ n.childNodes,
        n.info.start ≤ c.info.start ∧ c.info.stop ≤ n.info.stop) ∧
      ∀ n ∈ t.preorder, n.childNodes.Pairwise fun a b => a.info.stop ≤ b.info.start)
    ⟨fun ⟨place, inside, follow⟩ => ⟨place, inside, follow⟩,
      fun ⟨place, inside, follow⟩ => ⟨place, inside, follow⟩⟩

theorem child {t c : Tree} (h : t.Ordered) (hc : c ∈ t.childNodes) : c.Ordered where
  place n hn := h.place n (mem_preorder_of_child hc hn)
  inside n hn := h.inside n (mem_preorder_of_child hc hn)
  follow n hn := h.follow n (mem_preorder_of_child hc hn)

/-- All nodes of a tree lie inside of it. -/
theorem inside_root {t : Tree} (h : t.Ordered) {n : Tree} (hn : n ∈ t.preorder) :
    t.info.start ≤ n.info.start ∧ n.info.stop ≤ t.info.stop := by
  induction t using sizeOf_induction with
  | step t ih =>
      rw [preorder_eq, List.mem_cons, List.mem_flatMap] at hn
      rcases hn with rfl | ⟨c, hc, hn⟩
      · exact ⟨Nat.le_refl _, Nat.le_refl _⟩
      · have hchild := h.inside t t.self_mem_preorder c hc
        have hbelow := ih c (sizeOf_lt_of_mem_childNodes hc) (h.child hc) hn
        omega

/-- No node starts before one that comes earlier. -/
theorem pairwise_start {t : Tree} (h : t.Ordered) :
    t.preorder.Pairwise fun a b => a.info.start ≤ b.info.start := by
  induction t using sizeOf_induction with
  | step t ih =>
      rw [preorder_eq, List.pairwise_cons, List.pairwise_flatMap]
      refine ⟨fun n hn => ?_, fun c hc => ih c (sizeOf_lt_of_mem_childNodes hc) (h.child hc), ?_⟩
      · exact (h.inside_root (by rw [preorder_eq]; exact List.mem_cons_of_mem t hn)).1
      · refine (h.follow t t.self_mem_preorder).imp_of_mem fun ha hb hafter m hm n hn => ?_
        have hmplace := (h.child ha).place m hm
        have hminside := (h.child ha).inside_root hm
        have hninside := (h.child hb).inside_root hn
        omega

end Ordered

end Tree

end CodeAtlas.Parsing
