import CodeAtlas.Indexing.Indexer
import CodeAtlas.Proofs.Store.Contents

/-!
# CodeAtlas.Proofs.Indexing.Symbols

What a file that is being resolved is told of the published nodes.

A look-up may be refused; if it is answered, then with the nodes that are published under
that name, in their order (`Backend.byName_eq`).  Where none is refused, the answers are those of
the store alone (`Backend.symbols_eq`).
-/

namespace CodeAtlas

/-- The stored nodes as symbols, where every look-up is answered. -/
def Store.symbols (s : Store) : SymbolIndex where
  byName name := .ok ((s.nodesNamed name).map Node.symbol)
  byQualifiedName name := .ok ((s.nodesQualified name).map Node.symbol)

theorem Store.byQualifiedName_symbols (s : Store) (name : String) :
    s.symbols.byQualifiedName name = .ok ((s.nodesQualified name).map Node.symbol) := rfl

namespace Backend

variable {b : Backend}

/-- An answer is that of the published store. -/
theorem query_ok {q : Query} {rows : List Row} (h : b.query q = .ok rows) :
    b.store.run q = .ok rows := by
  rw [query] at h
  split at h
  · cases h
  · rw [contents] at h
    split at h
    · exact h
    · cases h

/-- What is made of the nodes in an answer. -/
theorem map_nodes_ok {α : Type} {f : List Node → α} {q : Query} {nodes : List Node} {a : α}
    (h : (b.nodes q).map f = .ok a) (hq : b.store.run q = .ok (nodes.map .node)) : a = f nodes := by
  rw [Backend.nodes] at h
  cases hrows : b.query q with
  | error e =>
      rw [hrows] at h
      cases h
  | ok rows =>
      obtain rfl : nodes.map .node = rows := Except.ok.inj (hq.symm.trans (query_ok hrows))
      rw [hrows] at h
      cases h
      simp only [List.filterMap_map]
      exact congrArg f List.filterMap_some

theorem byName_eq {name : String} {named : List Symbol} (h : b.symbols.byName name = .ok named) :
    named = (b.store.nodesNamed name).map Node.symbol := map_nodes_ok h rfl

/-- An open store that refuses nothing answers every question. -/
theorem nodes_answered (hopen : b.isOpen = true) (hanswers : ∀ q, b.refuses q = none) {q : Query}
    {nodes : List Node} (hq : b.store.run q = .ok (nodes.map .node)) : b.nodes q = .ok nodes := by
  have hrows : b.query q = .ok (nodes.map .node) := by
    rw [query, hanswers, contents, if_pos hopen]
    exact hq
  rw [Backend.nodes, hrows]
  simp only [Except.map, List.filterMap_map]
  exact congrArg Except.ok List.filterMap_some

theorem symbols_eq (hopen : b.isOpen = true) (hanswers : ∀ q, b.refuses q = none) :
    b.symbols = b.store.symbols := by
  have hname : ∀ name, b.symbols.byName name = b.store.symbols.byName name := by
    intro name
    change (b.nodes (.nodesByName name)).map _ = _
    rw [nodes_answered hopen hanswers (q := .nodesByName name) rfl]
    rfl
  have hqualified : ∀ name,
      b.symbols.byQualifiedName name = b.store.symbols.byQualifiedName name := by
    intro name
    change (b.nodes (.nodesByQualifiedName name)).map _ = _
    rw [nodes_answered hopen hanswers (q := .nodesByQualifiedName name) rfl]
    rfl
  exact congrArg₂ SymbolIndex.mk (funext hname) (funext hqualified)

end Backend

end CodeAtlas
