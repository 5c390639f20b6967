import CodeAtlas.Proofs.Upsert.Calls
import CodeAtlas.Proofs.Upsert.Retract
import CodeAtlas.Proofs.Upsert.Total

/-!
# CodeAtlas.Proofs.Upsert.Parts

Ids of nodes and edges, told apart where a file gives them up.

A file contributes nodes and edges, and its record keeps only their ids (`Part.id`).  Each of these
tells what it is the id of (`Part.isId_id`), so retracting some of them does with the edges what is
meant for edges, and with the nodes what is meant for nodes (`retract_parts`).  Main statement:
`ids_told_apart`.
-/

namespace CodeAtlas

/-- What an id that a file contributes is made of. -/
inductive Part where
  | node (kind : NodeKind) (qualifiedName : String)
  | edge (relationship : Relationship) (source targetRef file : String)
deriving DecidableEq

namespace Part

def id : Part → String
  | node kind qualifiedName => Node.idOf kind qualifiedName
  | edge relationship source targetRef file => Edge.idOf relationship source targetRef file

def isEdge : Part → Bool
  | node _ _ => false
  | edge _ _ _ _ => true

/-- The ids of the nodes among some parts. -/
def nodeIds (parts : List Part) : List String := (parts.filter fun p => !p.isEdge).map id

/-- The ids of the edges among some parts. -/
def edgeIds (parts : List Part) : List String := (parts.filter isEdge).map id

/-- An id is classified as what it is the id of. -/
@[simp] theorem isId_id (p : Part) : Edge.isId p.id = p.isEdge := by
  cases p with
  | node kind qualifiedName => exact Edge.isId_nodeId kind qualifiedName
  | edge relationship source targetRef file =>
      exact Edge.isId_idOf relationship source targetRef file

theorem filter_edgeIds (parts : List Part) : (parts.map id).filter Edge.isId = edgeIds parts := by
  rw [List.filter_map, edgeIds]
  congr 2
  funext p
  exact p.isId_id

theorem filter_nodeIds (parts : List Part) :
    ((parts.map id).filter fun k => !Edge.isId k) = nodeIds parts := by
  rw [List.filter_map, nodeIds]
  congr 2
  funext p
  exact congrArg (! ·) p.isId_id

theorem mem_edgeIds {parts : List Part} {k : String} :
    k ∈ edgeIds parts ↔ k ∈ parts.map id ∧ Edge.isId k = true := by
  rw [← filter_edgeIds, List.mem_filter]

theorem mem_nodeIds {parts : List Part} {k : String} :
    k ∈ nodeIds parts ↔ k ∈ parts.map id ∧ Edge.isId k = false := by
  rw [← filter_nodeIds, List.mem_filter, Bool.not_eq_true']

end Part

namespace Upsert

open Work

/-- Retracting deletes the edges among some parts, one after the other, and then releases the
nodes. -/
theorem retract_parts (path : String) (parts : List Part) :
    retract path (parts.map Part.id) = do
      let edges ← forAll (Part.edgeIds parts) retractEdge
      let nodes ← forAll (Part.nodeIds parts) (retractNode path)
      return edges + nodes := by
  rw [retract, Part.filter_edgeIds, Part.filter_nodeIds]

/-- What is left when some parts were retracted: of the edges, those that are not among the parts;
of the nodes, also those that another file claims. -/
theorem retract_parts_gives {path : String} {parts : List Part} {s t : Store} {c : Commit}
    (h : (retract path (parts.map Part.id)).Gives s c t) :
    (∀ k, t.edges.get? k = if k ∈ Part.edgeIds parts then none
      else (s.edges.get? k).map (unlinkFrom s path (Part.nodeIds parts))) ∧
    (∀ k, t.nodes.get? k = if k ∈ Part.nodeIds parts then (s.nodes.get? k).bind (released s path)
      else s.nodes.get? k) := by
  have hretracted := retract_retracted h
  constructor
  · intro k
    rw [hretracted.edges, Part.filter_nodeIds]
    simp only [Part.mem_edgeIds]
  · intro k
    rw [hretracted.nodes]
    simp only [Part.mem_nodeIds]

end Upsert

/-- **Nodes and edges are never confused.**  An id is one of an edge exactly if it starts with the
word for a relationship, in upper case, and a colon: of the words that are read as a relationship
only the one that it is written as passes.  So all ids of nodes and edges are told apart, and where
a file gives some of them up, exactly the edges are deleted and exactly the nodes are released if no
other file claims them. -/
theorem ids_told_apart :
    (∀ id, Edge.isId id = true ↔
      ∃ (r : Relationship) (rest : String), id = r.name ++ ":" ++ rest) ∧
    (∀ (word rest : String) (r : Relationship), ':' ∉ word.toList →
      Relationship.ofText? word = .ok r →
        (Edge.isId (word ++ ":" ++ rest) = true ↔ word = r.name)) ∧
    (∀ p : Part, Edge.isId p.id = p.isEdge) ∧
    ∀ (path : String) (parts : List Part),
      (Upsert.retract path (parts.map Part.id) = do
        let edges ← Upsert.forAll (Part.edgeIds parts) Upsert.retractEdge
        let nodes ← Upsert.forAll (Part.nodeIds parts) (Upsert.retractNode path)
        return edges + nodes) ∧
      (∀ s, ∃ c t, (Upsert.retract path (parts.map Part.id)).Yields s c t) ∧
      ∀ s c t, (Upsert.retract path (parts.map Part.id)).Gives s c t →
        (∀ k, t.edges.get? k = if k ∈ Part.edgeIds parts then none
          else (s.edges.get? k).map (Upsert.unlinkFrom s path (Part.nodeIds parts))) ∧
        (∀ k, t.nodes.get? k =
          if k ∈ Part.nodeIds parts then (s.nodes.get? k).bind (Upsert.released s path)
          else s.nodes.get? k) := by
  refine ⟨fun id => Edge.isId_iff, fun word rest r hcolon hread => ?_, Part.isId_id,
    fun path parts => ⟨Upsert.retract_parts path parts, fun s => ?_,
      fun s c t h => Upsert.retract_parts_gives h⟩⟩
  · rw [Relationship.ofText?_eq_ok_iff] at hread
    rw [Edge.isId_iff]
    constructor
    · rintro ⟨r', rest', heq⟩
      have hcut := Text.cut?_colon rest hcolon
      rw [heq, Text.cut?_colon rest' r'.colon_not_mem_name, Option.some.injEq,
        Prod.mk.injEq] at hcut
      have hupper := beq_iff_eq.1 r'.name_reads_back.1
      rw [← hread, ← hcut.1, ← hupper]
    · rintro rfl
      exact ⟨r, rest, rfl⟩
  · obtain ⟨c, p, h⟩ := (Upsert.retract_built path (parts.map Part.id)).succeeds ⟨s, 0⟩
    exact ⟨c, p.store, (Upsert.retract_built path _).yields ⟨.none, 0, p.operations, h⟩⟩

/-- Two functions of one file, the first of which calls the second; another file claims the second
one as well. -/
def callOfShared : Store :=
  { Store.empty with
    nodes := Rows.putAll {} [.plain .function "f" "m.f" "a.py", .plain .function "g" "m.g" "a.py"]
    edges := Rows.putAll {} [.plain .calls "function:m.f" "m.g" "a.py"]
    records := Rows.putAll {}
      [⟨"a.py", "python", "", 0,
          ["CALLS:function:m.f->m.g@a.py", "function:m.f", "function:m.g"]⟩,
        ⟨"b.py", "python", "", 0, ["function:m.g"]⟩] }

theorem ids_told_apart_callOfShared :
    Relationship.ofText? "calls" = .ok .calls ∧ Edge.isId "calls:m.f" = false ∧
    ∃ c t, (Upsert.retract "a.py" (List.map Part.id
        [.node .function "m.f", .node .function "m.g",
          .edge .calls "function:m.f" "m.g" "a.py"])).Gives callOfShared c t ∧
      t.edges.get? "CALLS:function:m.f->m.g@a.py" = none ∧
      t.nodes.get? "function:m.f" = none ∧
      t.nodes.get? "function:m.g" = some (.plain .function "g" "m.g" "b.py") := by
  have hread : Relationship.ofText? "calls" = .ok .calls := by decide +kernel
  obtain ⟨-, hword, -, hretract⟩ := ids_told_apart
  have hfolded := hword "calls" "m.f" .calls (by decide) hread
  obtain ⟨-, hyields, hgives⟩ := hretract "a.py" [.node .function "m.f", .node .function "m.g",
    .edge .calls "function:m.f" "m.g" "a.py"]
  obtain ⟨c, t, h⟩ := hyields callOfShared
  obtain ⟨m, hm⟩ := h 0
  obtain ⟨hedges, hnodes⟩ := hgives _ c t ⟨.none, 0, m, hm⟩
  refine ⟨hread, ?_, c, t, ⟨.none, 0, m, hm⟩, ?_, ?_, ?_⟩
  · rw [← Bool.not_eq_true, show "calls:m.f" = "calls" ++ ":" ++ "m.f" from rfl, hfolded]
    decide
  · rw [hedges]
    decide +kernel
  · rw [hnodes]
    decide +kernel
  · rw [hnodes]
    decide +kernel

end CodeAtlas
