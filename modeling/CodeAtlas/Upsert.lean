import CodeAtlas.Store.Transaction

/-!
# CodeAtlas.Upsert

Replaces what one file contributes to the graph.

1. what the file contributed before and no longer contributes is retracted: edges
   first, then the nodes that no other file claims; the edges to a node that goes
   wait for it again;
2. a node that another file claims stays, and passes to the first of those files;
3. a new node is given the edges that wait for it, by its qualified name, or by its
   simple name as long as that is unique;
4. an edge whose target is not stored waits, unless another target is found;
5. the record of the file is written last, and only if it changes.
-/

namespace CodeAtlas

/-! ## What a change did -/

/-- What one transaction changed. -/
structure Commit where
  nodesAdded : Nat
  nodesUpdated : Nat
  nodesRemoved : Nat
  edgesAdded : Nat
  edgesUpdated : Nat
  edgesRemoved : Nat
  /-- Waiting edges of any file that were given a target. -/
  edgesLinked : Nat
  /-- Edges of any file whose target went. -/
  edgesUnlinked : Nat
  /-- Whether the record of the file was written or dropped. -/
  recordWritten : Bool
  /-- Files that took over shared nodes; the nodes still carry the span and
  signature of the file that released them. -/
  heirs : List String
deriving DecidableEq, Inhabited, Repr

namespace Commit

/-- No change. -/
def zero : Commit := ⟨0, 0, 0, 0, 0, 0, 0, 0, false, []⟩

/-- One change after another. -/
def add (a b : Commit) : Commit where
  nodesAdded := a.nodesAdded + b.nodesAdded
  nodesUpdated := a.nodesUpdated + b.nodesUpdated
  nodesRemoved := a.nodesRemoved + b.nodesRemoved
  edgesAdded := a.edgesAdded + b.edgesAdded
  edgesUpdated := a.edgesUpdated + b.edgesUpdated
  edgesRemoved := a.edgesRemoved + b.edgesRemoved
  edgesLinked := a.edgesLinked + b.edgesLinked
  edgesUnlinked := a.edgesUnlinked + b.edgesUnlinked
  recordWritten := a.recordWritten || b.recordWritten
  heirs := sortedSet (a.heirs ++ b.heirs)

instance : Zero Commit := ⟨zero⟩

instance : Add Commit := ⟨add⟩

/-- Number of writes. -/
def writes (c : Commit) : Nat :=
  c.nodesAdded + c.nodesUpdated + c.nodesRemoved + c.edgesAdded + c.edgesUpdated +
    c.edgesRemoved + c.edgesLinked + c.edgesUnlinked + c.recordWritten.toNat

end Commit

namespace Upsert

open Work

/-- The changes for all members of a list, in order. -/
def forAll {α : Type} (xs : List α) (f : α → Work Commit) : Work Commit :=
  match xs with
  | [] => pure 0
  | x :: xs => do
    let a ← f x
    let b ← forAll xs f
    return a + b

/-! ## Targets -/

/-- Whether a name has several segments. -/
def isQualified (name : String) : Bool := Text.occurs "." name || Text.occurs "::" name

/-- Whether the first node is preferred as the target of a qualified name. -/
def preferred (a b : Node) : Bool :=
  a.kind.rank < b.kind.rank || (a.kind.rank == b.kind.rank && a.id ≤ b.id)

/-- The preferred one of some nodes. -/
def best? : List Node → Option Node
  | [] => none
  | n :: ns =>
    match best? ns with
    | none => some n
    | some m => if preferred n m then some n else some m

/-- The only node outside of an edge's own file that has the name it waits for. -/
def uniqueTarget (e : Edge) (named : List Node) : Option String :=
  match named.filter fun n =>
      n.kind != .module && n.file != e.file && e.relationship.accepts n.kind with
  | [n] => some n.id
  | _ => none

/-- The only node that an edge may mean by a simple name. -/
def uniqueByName (e : Edge) : Work (Option String) := do
  return uniqueTarget e (← ask (·.nodesNamed e.targetRef))

/-- A target for a waiting edge, if the store has one now. -/
def findTarget (e : Edge) : Work (Option (String × Confidence)) := do
  if isQualified e.targetRef || e.relationship == .imports then
    let nodes ← ask (·.nodesQualified e.targetRef)
    let target := best? (nodes.filter fun n => e.relationship.accepts n.kind)
    return target.map fun n => (n.id, .resolved)
  else
    return (← uniqueByName e).map (·, .heuristic)

/-! ## Retracting -/

def retractEdge (id : String) : Work Commit := do
  let gone ← deleteEdge id
  return { (0 : Commit) with edgesRemoved := gone.toNat }

/-- Lets an edge wait for its target again. -/
def unlink (e : Edge) : Work Commit := do
  let _ ← mergeEdge e.unlink
  return { (0 : Commit) with edgesUnlinked := 1 }

/-- Releases a node that a file no longer contributes. -/
def retractNode (path id : String) : Work Commit := do
  match ← otherClaimants id path with
  | heir :: _ =>
    match ← ask (·.nodes.get? id) with
    | some n =>
      if n.file == path then
        let _ ← mergeNode { n with file := heir }
        return { (0 : Commit) with nodesUpdated := 1, heirs := [heir] }
      else return 0
    | none => return 0
  | [] =>
    let unlinked ← forAll (← ask (·.edgesTo id none)) unlink
    let gone ← deleteNode id
    return unlinked + { (0 : Commit) with nodesRemoved := gone.toNat }

/-- Retracts stale ids of a file, edges first. -/
def retract (path : String) (stale : List String) : Work Commit := do
  let edges ← forAll (stale.filter Edge.isId) retractEdge
  let nodes ← forAll (stale.filter fun id => !Edge.isId id) (retractNode path)
  return edges + nodes

/-! ## Linking -/

/-- Gives a waiting edge a target. -/
def link (e : Edge) (target : String) (confidence : Confidence) : Work Commit := do
  let _ ← mergeEdge (e.link target confidence)
  return { (0 : Commit) with edgesLinked := 1 }

/-- Links the edges that wait for a node that is new. -/
def linkWaiting (n : Node) : Work Commit := do
  let qualified ← forAll (← ask (·.unresolvedFor n.qualifiedName)) fun e =>
    if e.relationship.accepts n.kind then link e n.id .resolved else pure 0
  if n.kind == .module || n.name == n.qualifiedName then return qualified
  let simple ← forAll (← ask (·.unresolvedFor n.name)) fun e => do
    if e.relationship == .imports then return 0
    match ← uniqueByName e with
    | some id => if id == n.id then link e id .heuristic else return 0
    | none => return 0
  return qualified + simple

/-- Drops a target that is not stored, and looks for one if there is none. -/
def validate (e : Edge) : Work Edge := do
  let e ← match e.target with
    | none => pure e
    | some id => do
      match ← ask (·.nodes.get? id) with
      | some _ => pure e
      | none => pure e.unlink
  if e.isResolved then return e
  match ← findTarget e with
  | some (id, confidence) => return e.link id confidence
  | none => return e

/-! ## Merging -/

def mergeNew (n : Node) : Work Commit := do
  match ← mergeNode n with
  | .created =>
    let linked ← linkWaiting n
    return { (0 : Commit) with nodesAdded := 1 } + linked
  | .updated => return { (0 : Commit) with nodesUpdated := 1 }
  | .unchanged => return 0

def mergeValid (e : Edge) : Work Commit := do
  match ← mergeEdge (← validate e) with
  | .created => return { (0 : Commit) with edgesAdded := 1 }
  | .updated => return { (0 : Commit) with edgesUpdated := 1 }
  | .unchanged => return 0

/-- The ids of nodes and edges. -/
def contributionOf (nodes : List Node) (edges : List Edge) : List String :=
  sortedSet (nodes.map (·.id) ++ edges.map (·.id))

/-- Puts nodes and edges in the place of what a file contributed before. -/
def replace (path : String) (previous : Option FileRecord) (nodes : List Node)
    (edges : List Edge) : Work Commit := do
  let fresh := contributionOf nodes edges
  let stale := ((previous.map (·.contributions)).getD []).filter fun id => !fresh.contains id
  let retracted ← retract path stale
  let merged ← forAll nodes mergeNew
  let added ← forAll edges mergeValid
  return retracted + merged + added

/-! ## Whole transactions -/

/-- Whether a record differs from an earlier one in more than its time. -/
def recordChanged (previous : Option FileRecord) (r : FileRecord) : Bool :=
  previous.all fun p => p.fingerprint != r.fingerprint || p.language != r.language ||
    p.contributions != r.contributions

def applyWork (record : FileRecord) (nodes : List Node) (edges : List Edge) : Work Commit := do
  let previous ← record? record.path
  let done ← replace record.path previous nodes edges
  let record := { record with contributions := contributionOf nodes edges }
  if recordChanged previous record then
    putRecord record
    return { done with recordWritten := true }
  else return done

/-- Retracts all that a file contributed, if it has a record. -/
def deleteWork (path : String) : Work (Commit × Bool) := do
  match ← record? path with
  | none => return (0, false)
  | some previous =>
    let done ← replace path (some previous) [] []
    let gone ← deleteRecord path
    return ({ done with recordWritten := gone }, true)

/-- Links every waiting edge that has a target by now; gives their number. -/
def relinkWork : Work Nat := do
  let linked ← forAll (← ask (·.unresolved)) fun e => do
    match ← findTarget e with
    | some (id, confidence) => link e id confidence
    | none => return 0
  return linked.edgesLinked

end Upsert

namespace Backend

/-- Replaces the contribution of the record's file by nodes and edges. -/
def apply (b : Backend) (record : FileRecord) (nodes : List Node) (edges : List Edge) :
    Except Error Commit × Backend :=
  b.transact do return (← Upsert.applyWork record nodes edges, true)

/-- Retracts all that a file contributed and drops its record. -/
def deleteFile (b : Backend) (path : String) : Except Error Commit × Backend :=
  b.transact (Upsert.deleteWork path)

/-- Links the waiting edges whose targets are stored. -/
def relink (b : Backend) : Except Error Nat × Backend :=
  b.transact do return (← Upsert.relinkWork, true)

end Backend

end CodeAtlas
