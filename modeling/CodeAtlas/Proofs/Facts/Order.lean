import CodeAtlas.Proofs.Parsing.Places
import CodeAtlas.Proofs.Python.Walk
import CodeAtlas.Proofs.Rust.Walk
import CodeAtlas.SourceFile

/-!
# CodeAtlas.Proofs.Facts.Order

The order of the facts of a file.

Facts that nodes of a tree tell stand in the order of these (`Told.inPlaces`).  The fact for the
first syntax error is put at a place that is found by halving, which is right as the others stand
in order (`SourceFile.endOf_spec`), and leaves them so (`SourceFile.inPlaces_insertFact`).  Main
statement: `Readers.found_inOrder`.
-/

namespace CodeAtlas

open Parsing

namespace SourceFile

/-! ## Places -/

theorem startsBy_iff (a b : Span) : startsBy a b ↔
    a.startLine < b.startLine ∨ (a.startLine = b.startLine ∧ a.startCol ≤ b.startCol) := by
  simp [startsBy]

theorem startsBy_trans {a b c : Span} (h : startsBy a b) (h' : startsBy b c) : startsBy a c := by
  rw [startsBy_iff] at *
  omega

theorem startsBy_total (a b : Span) : startsBy a b ∨ startsBy b a := by
  rw [startsBy_iff, startsBy_iff]
  omega

/-- Whether facts stand in the order of their places. -/
def InPlaces (facts : List Fact) : Prop := facts.Pairwise fun a b => startsBy a.span b.span

instance (facts : List Fact) : Decidable (InPlaces facts) :=
  inferInstanceAs (Decidable (List.Pairwise _ _))

/-! ## The fact for a syntax error -/

section Halving

variable {test : Fact → Bool} {facts : List Fact}
  (htest : facts.Pairwise fun a b => test b → test a)
include htest

theorem holds_earlier {i j : Nat} {a b : Fact} (hij : i ≤ j) (ha : facts[i]? = some a)
    (hb : facts[j]? = some b) (hholds : test b) : test a := by
  obtain ⟨hi, rfl⟩ := List.getElem?_eq_some_iff.1 ha
  obtain ⟨hj, rfl⟩ := List.getElem?_eq_some_iff.1 hb
  rcases Nat.eq_or_lt_of_le hij with rfl | hlt
  · exact hholds
  · exact List.pairwise_iff_getElem.1 htest i j hi hj hlt hholds

/-- Halving finds where a test stops to hold, if it holds of nothing after a fact of which it does
not hold. -/
theorem endOf_spec (start count : Nat)
    (h : ∀ i fact, facts[i]? = some fact → (i < start → test fact) ∧
      (test fact → i < start + count)) :
    ∀ i fact, facts[i]? = some fact → (test fact ↔ i < endOf test facts start count) := by
  fun_induction endOf test facts start count with
  | case1 start count hcount middle ih =>
      have hplace : middle = start + count / 2 := rfl
      refine ih fun i fact hfact => ?_
      have hi := h i fact hfact
      -- what is known of the halves is told by the fact in the middle
      by_cases hmiddle : facts[middle]?.any test
      · obtain ⟨m, hm, hholds⟩ := (Option.any_eq_true _ _).1 hmiddle
        rw [dif_pos hmiddle]
        refine ⟨fun hlt => holds_earlier htest (by omega) hfact hm hholds, fun hlate => ?_⟩
        have hend := hi.2 hlate
        omega
      · rw [dif_neg hmiddle]
        refine ⟨hi.1, fun hholds => ?_⟩
        by_contra hlt
        refine hmiddle ((Option.any_eq_true _ _).2 ?_)
        have hlength := (List.getElem?_eq_some_iff.1 hfact).1
        refine ⟨_, List.getElem?_eq_getElem (show middle < facts.length by omega), ?_⟩
        exact holds_earlier htest (by omega) (List.getElem?_eq_getElem _) hfact hholds
  | case2 start count hcount hstart =>
      intro i fact hfact
      obtain ⟨m, hm, hholds⟩ := (Option.any_eq_true _ _).1 hstart
      refine ⟨fun hlate => ?_, fun hlt => holds_earlier htest (by omega) hfact hm hholds⟩
      have hend := (h i fact hfact).2 hlate
      omega
  | case3 start count hcount hstart =>
      intro i fact hfact
      refine ⟨fun hholds => ?_, (h i fact hfact).1⟩
      have hend := (h i fact hfact).2 hholds
      have hne : i ≠ start := by
        rintro rfl
        exact hstart ((Option.any_eq_true _ _).2 ⟨fact, hfact, hholds⟩)
      omega

end Halving

/-- A fact that is placed among facts that stand in order leaves them so. -/
theorem inPlaces_insertFact {facts : List Fact} (fact : Fact) (h : InPlaces facts) :
    InPlaces (insertFact fact facts) := by
  have htest : facts.Pairwise fun a b =>
      startsBy b.span fact.span → startsBy a.span fact.span :=
    h.imp fun hab hb => startsBy_trans hab hb
  have hend := endOf_spec htest 0 facts.length fun i f hf =>
    ⟨by simp, fun _ => by simpa using (List.getElem?_eq_some_iff.1 hf).1⟩
  rw [insertFact]
  generalize endOf (fun f => startsBy f.span fact.span) facts 0 facts.length = place at hend
  have hbefore : ∀ f ∈ facts.take place, startsBy f.span fact.span := by
    intro f hf
    obtain ⟨i, hi⟩ := List.mem_iff_getElem?.1 hf
    rw [List.getElem?_take] at hi
    obtain ⟨hlt, hi⟩ := Option.ite_none_right_eq_some.1 hi
    exact (hend i f hi).2 hlt
  have hafter : ∀ f ∈ facts.drop place, startsBy fact.span f.span := by
    intro f hf
    obtain ⟨i, hi⟩ := List.mem_iff_getElem?.1 hf
    rw [List.getElem?_drop] at hi
    have hnot : ¬ startsBy f.span fact.span := by
      intro hstarts
      have hlt := (hend _ f hi).1 hstarts
      omega
    exact (startsBy_total _ _).resolve_left hnot
  refine List.pairwise_append.2 ⟨h.sublist (List.take_sublist _ _),
    List.pairwise_cons.2 ⟨hafter, h.sublist (List.drop_sublist _ _)⟩, fun a ha b hb => ?_⟩
  rcases List.mem_cons.1 hb with rfl | hb
  · exact hbefore a ha
  · exact startsBy_trans (hbefore a ha) (hafter b hb)

end SourceFile

open SourceFile

/-! ## Facts that nodes tell -/

namespace Told

variable {src : Source} {facts : List Fact} {nodes : List Tree}

/-- Facts stand in the order of the nodes that tell them. -/
theorem inPlaces (h : Told src facts nodes)
    (hnodes : nodes.Pairwise fun m n => startsBy (m.span src) (n.span src)) : InPlaces facts := by
  obtain ⟨shown, htold, hsub⟩ := List.sublistForall₂_iff.1 h
  have hspans : facts.map (·.span) = shown.map (·.span src) := by
    rw [← List.forall₂_eq_eq_eq, List.forall₂_map_left_iff, List.forall₂_map_right_iff]
    exact htold.imp fun _ _ htells => htells.1
  have hshown : (shown.map (·.span src)).Pairwise fun a b => startsBy a b :=
    List.pairwise_map.2 (hnodes.sublist hsub)
  rw [← hspans] at hshown
  exact List.pairwise_map.1 hshown

/-- Calls are told by nodes that call something. -/
theorem calls (h : Told src facts nodes) :
    List.SublistForall₂ (fun fact n => IsCall n ∧ fact.span = n.span src)
      (facts.filter (·.kind == .call)) nodes := by
  induction h with
  | nil => exact .nil
  | @cons fact n facts nodes htells _ ih =>
      by_cases hcall : fact.kind = .call
      · rw [List.filter_cons_of_pos (by simpa using hcall)]
        exact .cons ⟨htells.2 hcall, htells.1⟩ ih
      · rw [List.filter_cons_of_neg (by simpa using hcall)]
        exact .cons_right ih
  | cons_right _ ih => exact .cons_right ih

end Told

/-- In a tree whose nodes lie in a text, one inside of the other or one after the other, no node
starts on an earlier line and column than one that comes before it. -/
theorem Parsing.Tree.Ordered.pairwise_startsBy {root : Tree} {text : String} (h : root.Ordered)
    (hstop : root.info.stop ≤ (Source.ofString text).size) :
    root.preorder.Pairwise fun m n =>
      startsBy (m.span (.ofString text)) (n.span (.ofString text)) := by
  refine h.pairwise_start.imp_of_mem fun {m n} _ hn hstart => (startsBy_iff _ _).2 ?_
  have hplace := h.place n hn
  have hinside := h.inside_root hn
  exact Source.startsBy_of_le hstart (by omega)

namespace Readers

/-- Whether a node is as the syntax of a language makes it, and no decorator is there whose
arguments are walked over twice. -/
def Plain : Lang → Source → Tree → Prop
  | .python, src, n => Python.Shaped n ∧ Python.DecoratorsPlain src n
  | .rust, _, n => Rust.Shaped n

theorem facts_told {language : Lang} {src : Source} {root : Tree}
    (hplain : ∀ n ∈ root.preorder, Plain language src n) :
    Told src (facts language src root) root.preorder := by
  cases language with
  | python =>
      have hall := Python.walk_told (fun n hn => (hplain n hn).1) fun n hn => (hplain n hn).2
      exact hall.self [] false
  | rust => exact (Rust.walk_told hplain).self [] false

/-- Whether the facts of a tree stand in the order of their places, each call told by a call of its
own. -/
structure InOrder (src : Source) (root : Tree) (facts : List Fact) : Prop where
  places : InPlaces facts
  calls : List.SublistForall₂ (fun fact n => IsCall n ∧ fact.span = n.span src)
    (facts.filter (·.kind == .call)) root.preorder

theorem filter_call_insertFact (fact : Fact) (facts : List Fact) (h : fact.kind ≠ .call) :
    (insertFact fact facts).filter (·.kind == .call) = facts.filter (·.kind == .call) := by
  rw [insertFact, List.filter_append, List.filter_cons_of_neg (by simpa using h),
    ← List.filter_append, List.take_append_drop]

/-- **The facts of a file stand in the order of their places**, also with the one for a syntax error
among them, **and no call is told twice**. -/
theorem found_inOrder {language : Lang} {text : String} {root : Tree} (hordered : root.Ordered)
    (hstop : root.info.stop ≤ (Source.ofString text).size)
    (hplain : ∀ n ∈ root.preorder, Plain language (.ofString text) n) :
    InOrder (.ofString text) root (found language (.ofString text) root) := by
  have htold := facts_told hplain
  have hplaces := htold.inPlaces (hordered.pairwise_startsBy hstop)
  rw [found]
  cases herror : errorFact? (.ofString text) root with
  | none => exact ⟨hplaces, htold.calls⟩
  | some e =>
      have hkind : e.kind ≠ .call := by
        obtain ⟨node, -, rfl⟩ := Option.map_eq_some_iff.1 herror
        simp [Fact.syntaxError]
      refine ⟨inPlaces_insertFact e hplaces, ?_⟩
      rw [filter_call_insertFact e _ hkind]
      exact htold.calls

/-- A node, without the tokens in it. -/
def sampleNode (kind : String) (start stop : Nat) (children : List (Option String × Tree)) : Tree :=
  .node ⟨kind, true, start, stop, kind == "ERROR", false,
    kind == "ERROR" || children.any (·.2.info.hasError)⟩ children

/-- A call of something that ends at a place. -/
def sampleCall (function : Tree) (stop : Nat) (arguments : List Tree) : Tree :=
  sampleNode "call" function.info.start stop [(some "function", function),
    (some "arguments",
      sampleNode "argument_list" function.info.stop stop (arguments.map (none, ·)))]

/-- A function of one line with a decorator. -/
def sampleDecorated (decorator : Tree) (name start stop : Nat) (statement : Tree) : Tree :=
  sampleNode "decorated_definition" 0 stop
    [(none, sampleNode "decorator" 0 decorator.info.stop [(none, decorator)]),
      (some "definition", sampleNode "function_definition" start stop
        [(some "name", sampleNode "identifier" name (name + 1) []),
          (some "parameters", sampleNode "parameters" (name + 1) (name + 3) []),
          (some "body", sampleNode "block" statement.info.start stop [(none, statement)])])]

def sampleName (start : Nat) : Tree := sampleNode "identifier" start (start + 1) []

/-- A file that has a bracket too much. -/
def brokenText : String := "@w(a())\ndef f():\n    b(c())\n)\ng()\n"

/-- Its syntax. -/
def brokenTree : Tree :=
  sampleNode "module" 0 34
    [(none, sampleDecorated (sampleCall (sampleName 1) 7 [sampleCall (sampleName 3) 6 []]) 12 8 27
        (sampleNode "expression_statement" 21 27
          [(none, sampleCall (sampleName 21) 27 [sampleCall (sampleName 23) 26 []])])),
      (none, sampleNode "ERROR" 28 29 []),
      (none, sampleNode "expression_statement" 30 33 [(none, sampleCall (sampleName 30) 33 [])])]

theorem found_inOrder_brokenTree : brokenTree.Ordered ∧
    brokenTree.info.stop ≤ (Source.ofString brokenText).size ∧
    (∀ n ∈ brokenTree.preorder, Plain .python (.ofString brokenText) n) ∧
    InOrder (.ofString brokenText) brokenTree
      (found .python (.ofString brokenText) brokenTree) ∧
    (found .python (.ofString brokenText) brokenTree).map (fun f => (f.name, f.span.startLine)) =
      [("w", 0), ("a", 0), ("f", 1), ("b", 2), ("c", 2), ("unexpected syntax", 3), ("g", 4)] := by
  have hordered : brokenTree.Ordered := by decide +kernel
  have hstop : brokenTree.info.stop ≤ (Source.ofString brokenText).size := by decide +kernel
  have hshaped : ∀ n ∈ brokenTree.preorder, Python.Shaped n := by decide +kernel
  have hused : ∀ n ∈ brokenTree.preorder, ∀ d ∈ n.namedChildren, d.kind = "decorator" →
      ∀ e ∈ d.namedChildren.head?, ((Python.usedPath? e).isSome &&
        (Python.decoratedName? (.ofString brokenText) n).isSome) = true := by decide +kernel
  have hplain : ∀ n ∈ brokenTree.preorder, Plain .python (.ofString brokenText) n := by
    refine fun n hn => ⟨hshaped n hn, fun _ d hd hdecorator e he hnot => ?_⟩
    rw [hused n hn d hd hdecorator e he] at hnot
    cases hnot
  exact ⟨hordered, hstop, hplain, found_inOrder hordered hstop hplain, by decide +kernel⟩

/-- A file with a decorator that is a call of a call. -/
def calledText : String := "@a()(b(), c())\ndef f():\n    pass\n"

/-- Its syntax. -/
def calledTree : Tree :=
  sampleNode "module" 0 33
    [(none, sampleDecorated (sampleCall (sampleCall (sampleName 1) 4 []) 14
        [sampleCall (sampleName 5) 8 [], sampleCall (sampleName 10) 13 []]) 19 15 32
        (sampleNode "pass_statement" 28 32 []))]

/-- What is asked of decorators is needed: the arguments of this one are found twice, and so out of
order. -/
theorem found_outOfOrder_calledTree : calledTree.Ordered ∧
    calledTree.info.stop ≤ (Source.ofString calledText).size ∧
    (∀ n ∈ calledTree.preorder, Python.Shaped n) ∧
    (found .python (.ofString calledText) calledTree).map (·.name) =
      ["a", "b", "c", "b", "c", "f"] ∧
    ¬ InOrder (.ofString calledText) calledTree
      (found .python (.ofString calledText) calledTree) := by
  refine ⟨by decide +kernel, by decide +kernel, by decide +kernel, by decide +kernel, fun h => ?_⟩
  exact absurd h.places (by decide +kernel)

end Readers

end CodeAtlas
