/-!
# CodeAtlas.Graph.Span

Stretches of source text: lines and columns count from zero, columns in bytes.
-/

namespace CodeAtlas

structure Span where
  startLine : Nat
  startCol : Nat
  endLine : Nat
  endCol : Nat
deriving DecidableEq, Inhabited, Repr, Hashable

end CodeAtlas
