/-!
# CodeAtlas.Graph.Record

What the store keeps about files and source trees.

1. times are points in time in milliseconds; the store keeps whole seconds, rounded
   down;
2. the contribution of a file is a set of ids, kept in ascending order.
-/

namespace CodeAtlas

/-! ## Sets of texts -/

/-- Drops repetitions that stand next to each other. -/
def dropRepeats : List String → List String
  | a :: b :: rest => if a = b then dropRepeats (b :: rest) else a :: dropRepeats (b :: rest)
  | rest => rest

/-- The texts in ascending order, each once. -/
def sortedSet (xs : List String) : List String := dropRepeats (xs.mergeSort (· ≤ ·))

/-! ## Records -/

/-- What is known of an indexed file. -/
structure FileRecord where
  path : String
  language : String
  /-- Digest of the content that was indexed. -/
  fingerprint : String
  /-- When it was indexed, in milliseconds. -/
  indexedAt : Int
  /-- Ids of the nodes and edges that the file contributes, in ascending order. -/
  contributions : List String
deriving DecidableEq, Inhabited, Repr

/-- A source tree that was indexed. -/
structure Repository where
  path : String
  name : String
  isDependency : Bool
  indexedAt : Int
deriving DecidableEq, Inhabited, Repr

/-- A time as the store keeps it. -/
def wholeSeconds (ms : Int) : Int := ms.fdiv 1000 * 1000

end CodeAtlas
