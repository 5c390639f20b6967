import CodeAtlas.Graph.Node
import CodeAtlas.Proofs.Text.Segments

/-!
# CodeAtlas.Proofs.Graph.Ids

What an id tells: a node's id its kind and qualified name, and every id whether it is
one of a node or of an edge.

Both rest on the first colon.  No word for a kind or a relationship has a colon in it,
so an id is cut right after its word (`cut?_colon`).  A word is read in any case, but only
as it is written by itself does it start the id of an edge (`Edge.isId_iff`).
-/

namespace CodeAtlas

namespace Text

theorem cut?_colon {word : String} (rest : String) (h : ':' ∉ word.toList) :
    cut? ":" (word ++ ":" ++ rest) = some (word, rest) := by
  have hl : (word ++ ":" ++ rest).toList = word.toList ++ ([':'] ++ rest.toList) := by
    simp [String.toList_append]
  rw [cut?, hl, show ":".toList = [':'] from rfl, cutChars_append _ _ h]
  simp

theorem eq_of_cut? {separator s before rest : String} (h : cut? separator s = some (before, rest)) :
    s = before ++ separator ++ rest := by
  obtain ⟨⟨front, back⟩, hcut, heq⟩ := Option.map_eq_some_iff.1 h
  cases heq
  exact String.toList_inj.1 (by simp [cutChars_eq_some hcut])

end Text

/-! ## Nodes -/

theorem NodeKind.colon_not_mem_name (k : NodeKind) : ':' ∉ k.name.toList := by
  cases k <;> decide +kernel

theorem NodeKind.name_inj {k l : NodeKind} (h : k.name = l.name) : k = l := by
  cases k <;> cases l <;> simp_all [NodeKind.name]

/-- The id of a node tells its kind and its qualified name. -/
theorem Node.idOf_inj {k l : NodeKind} {p q : String} (h : Node.idOf k p = Node.idOf l q) :
    k = l ∧ p = q := by
  have hk := Text.cut?_colon p k.colon_not_mem_name
  rw [show k.name ++ ":" ++ p = l.name ++ ":" ++ q from h,
    Text.cut?_colon q l.colon_not_mem_name, Option.some.injEq, Prod.mk.injEq] at hk
  exact ⟨NodeKind.name_inj hk.1.symm, hk.2.symm⟩

/-- Whether a node is known by its kind and qualified name. -/
def Node.Formed (n : Node) : Prop := n.id = Node.idOf n.kind n.qualifiedName

instance (n : Node) : Decidable n.Formed := inferInstanceAs (Decidable (_ = _))

/-- Whether two nodes are versions of one: of the same id, kind and qualified name. -/
def Node.Alike (n m : Node) : Prop :=
  m.id = n.id ∧ m.kind = n.kind ∧ m.qualifiedName = n.qualifiedName

theorem Node.Alike.refl (n : Node) : n.Alike n := ⟨rfl, rfl, rfl⟩

theorem Node.Alike.symm {n m : Node} (h : n.Alike m) : m.Alike n :=
  ⟨h.1.symm, h.2.1.symm, h.2.2.symm⟩

theorem Node.Alike.trans {n m o : Node} (h : n.Alike m) (h' : m.Alike o) : n.Alike o :=
  ⟨h'.1.trans h.1, h'.2.1.trans h.2.1, h'.2.2.trans h.2.2⟩

/-- Nodes that are known by their kinds and qualified names are alike if they have one
id. -/
theorem Node.Formed.alike {n m : Node} (hn : n.Formed) (hm : m.Formed) (h : m.id = n.id) :
    n.Alike m := by
  have hid : Node.idOf m.kind m.qualifiedName = Node.idOf n.kind n.qualifiedName := by
    rw [← show m.id = _ from hm, ← show n.id = _ from hn, h]
  exact ⟨h, Node.idOf_inj hid⟩

theorem Node.Alike.formed {n m : Node} (h : n.Alike m) (hn : n.Formed) : m.Formed := by
  rw [Node.Formed, h.1, h.2.1, h.2.2]
  exact hn

/-- The word for a kind is not in upper case, so it does not start an edge's id. -/
theorem NodeKind.name_ne_upper (k : NodeKind) : (k.name == Text.Case.upper k.name) = false := by
  cases k <;> decide +kernel

/-- The id of a node is not that of an edge. -/
@[simp] theorem Edge.isId_nodeId (k : NodeKind) (q : String) :
    Edge.isId (Node.idOf k q) = false := by
  simp only [Edge.isId, Node.idOf, Text.cut?_colon q k.colon_not_mem_name, k.name_ne_upper,
    Bool.false_and]

theorem Node.Formed.isId_eq_false {n : Node} (h : n.Formed) : Edge.isId n.id = false := by
  rw [show n.id = _ from h, Edge.isId_nodeId]

/-! ## Edges -/

theorem Relationship.colon_not_mem_name (r : Relationship) : ':' ∉ r.name.toList := by
  cases r <;> decide +kernel

/-- The word for a relationship is in upper case and stands for it. -/
theorem Relationship.name_reads_back (r : Relationship) :
    (r.name == Text.Case.upper r.name) = true ∧
      (Relationship.ofText? r.name).toOption.isSome = true := by
  cases r <;> decide +kernel

theorem Relationship.name_inj {r r' : Relationship} (h : r.name = r'.name) : r = r' := by
  cases r <;> cases r' <;> simp_all [Relationship.name]

/-- What stands in the id of an edge before and after the first colon. -/
theorem Edge.cut?_idOf (r : Relationship) (source targetRef file : String) :
    Text.cut? ":" (Edge.idOf r source targetRef file) =
      some (r.name, source ++ "->" ++ targetRef ++ "@" ++ file) := by
  rw [← Text.cut?_colon _ r.colon_not_mem_name]
  simp [Edge.idOf, String.append_assoc]

/-- The id of an edge tells its relationship. -/
theorem Edge.idOf_relationship {r r' : Relationship} {source source' name name' file file' : String}
    (h : Edge.idOf r source name file = Edge.idOf r' source' name' file') : r = r' := by
  have hcut := Edge.cut?_idOf r source name file
  rw [h, Edge.cut?_idOf, Option.some.injEq, Prod.mk.injEq] at hcut
  exact Relationship.name_inj hcut.1.symm

/-- A word is read as a relationship if that is what it is in upper case. -/
theorem Relationship.ofText?_eq_ok_iff {word : String} {r : Relationship} :
    Relationship.ofText? word = .ok r ↔ Text.Case.upper word = r.name := by
  have hall : r ∈ all := by cases r <;> decide
  rw [ofText?]
  cases hfound : all.find? (fun s => s.name == Text.Case.upper word) with
  | none =>
      have hne := List.find?_eq_none.1 hfound r hall
      simp only [beq_iff_eq] at hne
      simp [Ne.symm hne]
  | some s =>
      have hname : s.name = Text.Case.upper word := by simpa using List.find?_some hfound
      rw [← hname]
      constructor
      · intro h
        cases h
        rfl
      · intro h
        simp [name_inj h]

/-- An id is one of an edge exactly if it starts with the word for a relationship, as it is
written, and a colon. -/
theorem Edge.isId_iff {id : String} :
    Edge.isId id = true ↔ ∃ (r : Relationship) (rest : String), id = r.name ++ ":" ++ rest := by
  constructor
  · intro h
    rw [Edge.isId] at h
    split at h
    · next word rest hcut =>
      rw [Bool.and_eq_true, beq_iff_eq] at h
      obtain ⟨hupper, hread⟩ := h
      cases hr : Relationship.ofText? word with
      | error e =>
          rw [hr] at hread
          cases hread
      | ok r =>
          rw [Relationship.ofText?_eq_ok_iff, ← hupper] at hr
          exact ⟨r, rest, hr ▸ Text.eq_of_cut? hcut⟩
    · cases h
  · rintro ⟨r, rest, rfl⟩
    simp only [Edge.isId, Text.cut?_colon rest r.colon_not_mem_name, r.name_reads_back,
      Bool.and_self]

/-- The id of an edge is one. -/
@[simp] theorem Edge.isId_idOf (r : Relationship) (source targetRef file : String) :
    Edge.isId (Edge.idOf r source targetRef file) = true :=
  Edge.isId_iff.2 ⟨r, source ++ "->" ++ targetRef ++ "@" ++ file, by
    simp [Edge.idOf, String.append_assoc]⟩

end CodeAtlas
