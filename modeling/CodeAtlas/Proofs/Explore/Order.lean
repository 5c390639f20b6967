import CodeAtlas.Explore
import Mathlib.Data.Prod.Lex
import Mathlib.Data.String.Basic

/-!
# CodeAtlas.Proofs.Explore.Order

The order of answers.

Nodes are listed by their positions, and the nodes of relations by theirs and then by the places
of the edges.  Positions and places are tuples that are compared from the left; the comparisons
that sort the answers are those of the tuples (`Node.comesBy_iff`, `Relation.comesBy_iff`).
-/

namespace CodeAtlas

/-- File, start line, start column and id. -/
def Node.position (n : Node) : String ×ₗ Nat ×ₗ Nat ×ₗ String :=
  toLex (n.file, toLex (n.span.startLine, toLex (n.span.startCol, n.id)))

/-- Start and end, with lines before columns. -/
def Span.position (p : Span) : Nat ×ₗ Nat ×ₗ Nat ×ₗ Nat :=
  toLex (p.startLine, toLex (p.startCol, toLex (p.endLine, p.endCol)))

/-- The position of the related node, and then the place of the edge. -/
def Relation.position (r : Relation) :
    (String ×ₗ Nat ×ₗ Nat ×ₗ String) ×ₗ (Nat ×ₗ Nat ×ₗ Nat ×ₗ Nat) :=
  toLex (r.node.position, r.edge.span.position)

theorem Node.comesBy_iff {a b : Node} : a.comesBy b = true ↔ a.position ≤ b.position := by
  simp only [comesBy, position, Prod.Lex.toLex_le_toLex, Bool.or_eq_true, Bool.and_eq_true,
    decide_eq_true_eq, beq_iff_eq]

theorem Span.comesBy_iff {a b : Span} : a.comesBy b = true ↔ a.position ≤ b.position := by
  simp only [comesBy, position, Prod.Lex.toLex_le_toLex, Bool.or_eq_true, Bool.and_eq_true,
    decide_eq_true_eq, beq_iff_eq]

theorem Relation.comesBy_iff {a b : Relation} : a.comesBy b = true ↔ a.position ≤ b.position := by
  rw [comesBy]
  simp only [Bool.and_eq_true, Node.comesBy_iff, position, Prod.Lex.toLex_le_toLex]
  split
  · next h =>
    have heq := le_antisymm h.1 h.2
    rw [Span.comesBy_iff]
    simp [heq]
  · next h =>
    rw [Node.comesBy_iff, le_iff_lt_or_eq]
    refine or_congr_right ⟨fun heq => absurd ⟨heq.le, heq.ge⟩ h, fun heq => heq.1⟩

/-- What is sorted by a comparison of positions ascends in them. -/
theorem pairwise_mergeSort_of_iff {α β : Type} [LinearOrder β] (before : α → α → Bool)
    (position : α → β) (h : ∀ a b, before a b = true ↔ position a ≤ position b) (xs : List α) :
    ((xs.mergeSort before).map position).Pairwise (· ≤ ·) := by
  rw [List.pairwise_map]
  refine (List.pairwise_mergeSort (fun a b c => ?_) (fun a b => ?_) xs).imp fun {a b} => (h a b).1
  · simpa only [h] using le_trans
  · simpa only [Bool.or_eq_true, h] using le_total (position a) (position b)

end CodeAtlas
