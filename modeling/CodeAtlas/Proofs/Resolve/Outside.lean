import CodeAtlas.Proofs.Indexing.Symbols
import CodeAtlas.Proofs.Resolve.Target
import CodeAtlas.Proofs.Upsert.Target

/-!
# CodeAtlas.Proofs.Resolve.Outside

A reference is told of nothing but what other files declare.

Of the nodes that a look-up finds, those of the file itself are left out, but for modules.
So a reference that cannot mean a module has the same target in two stores that have the
same nodes of other files (`FileScope.target_congr`).  Imports may mean a module, and what
they are given is told by `FileScope.picked`.
-/

namespace CodeAtlas.Resolve.FileScope

variable {c : FileScope} {r : Relationship} {s t : Store}

/-! ## By simple name -/

/-- What is chosen from nodes of one name does not depend on their order. -/
theorem global_eq_of_perm {a b : SymbolIndex} {name : String} {xs ys : List Symbol}
    (ha : a.byName name = .ok xs) (hb : b.byName name = .ok ys)
    (h : (xs.filter fun s => s.file != c.file && s.kind != .module && r.accepts s.kind).Perm
      (ys.filter fun s => s.file != c.file && s.kind != .module && r.accepts s.kind)) :
    c.global a name r = c.global b name r := by
  simp only [global, ha, hb, bind, Except.bind]
  generalize xs.filter _ = us at h ⊢
  generalize ys.filter _ = vs at h ⊢
  cases us with
  | nil => rw [h.nil_eq]
  | cons u us =>
      cases us with
      | nil => rw [List.singleton_perm.1 h]
      | cons u' us =>
          cases vs with
          | nil => exact absurd h.length_eq (by simp)
          | cons v vs =>
              cases vs with
              | nil => exact absurd h.length_eq (by simp)
              | cons v' vs => rfl

theorem global_congr (h : s.SameOutside c.file t) (name : String) :
    c.global s.symbols name r = c.global t.symbols name r := by
  refine global_eq_of_perm rfl rfl ?_
  rw [List.filter_map, List.filter_map]
  refine (h.perm fun n hn => ?_).map Node.symbol
  simp only [Function.comp_apply, Node.symbol, Bool.and_eq_true, bne_iff_ne] at hn
  exact hn.1.1

/-! ## By qualified name -/

/-- The node that a qualified name is taken to mean, if the file does not define it. -/
def picked (c : FileScope) (s : Store) (name : String) (r : Relationship) : Option Node :=
  Upsert.best? ((s.nodesQualified name).filter fun n =>
    (n.file != c.file || n.kind == .module) && r.accepts n.kind)

theorem best?_symbol (ns : List Node) :
    best? (ns.map Node.symbol) = (Upsert.best? ns).map Node.symbol := by
  induction ns with
  | nil => rfl
  | cons n ns ih =>
      rw [List.map_cons, best?, Upsert.best?, ih]
      cases Upsert.best? ns with
      | none => rfl
      | some m =>
          have hsame : preferred n.symbol m.symbol = Upsert.preferred n m := rfl
          simp only [Option.map_some, hsame, apply_ite (Option.map Node.symbol)]

theorem pick_eq (c : FileScope) (s : Store) (name : String) (r : Relationship) :
    c.pick ((s.nodesQualified name).map Node.symbol) r = (c.picked s name r).map Node.symbol := by
  rw [pick, List.filter_map, best?_symbol]
  rfl

theorem picked_congr (h : s.SameOutside c.file t) (hr : r.accepts .module = false)
    (name : String) : c.picked s name r = c.picked t name r := by
  have hperm := h.perm (p := (·.qualifiedName == name))
    (q := fun n => (n.file != c.file || n.kind == .module) && r.accepts n.kind) fun n hn => ?_
  · refine Upsert.best?_congr (fun n => hperm.mem_iff) fun n hn m hm hid => ?_
    rw [List.mem_filter] at hn hm
    exact Rows.eq_of_key_eq (Store.mem_nodesQualified.1 hn.1).1
      (Store.mem_nodesQualified.1 hm.1).1 hid
  · intro hfile
    simp only [hfile, bne_self_eq_false, Bool.false_or, Bool.and_eq_true, beq_iff_eq] at hn
    rw [hn.1, hr] at hn
    exact Bool.false_ne_true hn.2

/-- A qualified name is given a target by the file alone, or what is picked for it. -/
theorem qualified_cases (c : FileScope) (name : String) (r : Relationship) :
    (∃ target, ∀ s : Store, c.qualified s.symbols name r = .ok target) ∨
      ∀ s : Store, c.qualified s.symbols name r =
        .ok ((c.picked s name r).elim (.unresolved name) fun n => .resolved name n.id) := by
  cases hlocal : (c.pathsOf name).findSome? fun path => c.local? path r with
  | some id => exact Or.inl ⟨.resolved name id, fun s => by rw [qualified, hlocal]; rfl⟩
  | none =>
      by_cases hown : (name == c.module.qualifiedName && r == .imports) = true
      · refine Or.inl ⟨.resolved name c.moduleId, fun s => ?_⟩
        rw [qualified, hlocal]
        simp only [hown, if_true]
        rfl
      · refine Or.inr fun s => ?_
        rw [qualified, hlocal]
        simp only [hown, s.byQualifiedName_symbols, bind, Except.bind, pick_eq]
        cases c.picked s name r <;> rfl

/-! ## References -/

section Congr

variable (h : s.SameOutside c.file t) (hr : r.accepts .module = false)

include h hr

theorem qualified_congr (name : String) :
    c.qualified s.symbols name r = c.qualified t.symbols name r := by
  rcases c.qualified_cases name r with ⟨target, htarget⟩ | hpicked
  · rw [htarget, htarget]
  · rw [hpicked, hpicked, picked_congr h hr]

theorem inGlobs?_congr (path : String) (globs : List String) :
    c.inGlobs? s.symbols path r globs = c.inGlobs? t.symbols path r globs := by
  induction globs with
  | nil => rfl
  | cons glob globs ih =>
      simp only [inGlobs?, Store.byQualifiedName_symbols, bind, Except.bind, pick_eq,
        picked_congr h hr, ih]

theorem ofPath_congr (segments scope : List String) :
    c.ofPath s.symbols segments scope r = c.ofPath t.symbols segments scope r := by
  simp only [ofPath, qualified_congr h hr, inGlobs?_congr h hr, global_congr h]

omit hr in
theorem ofMember_congr (member : String) (scope : List String) :
    c.ofMember s.symbols member scope r = c.ofMember t.symbols member scope r := by
  simp only [ofMember, global_congr h]

/-- What a reference means depends on the nodes of other files alone. -/
theorem target_congr (written : String) (scope : List String) :
    c.target s.symbols written scope r = c.target t.symbols written scope r := by
  simp only [target, ofPath_congr h hr, ofMember_congr h, global_congr h]

end Congr

end CodeAtlas.Resolve.FileScope
