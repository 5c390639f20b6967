import CodeAtlas.Store.Query

/-!
# CodeAtlas.Store.Transaction

Work on a store that is published as a whole or not at all.

1. work sees its own changes, and nobody else does before it is committed;
2. every operation may fail, and so may beginning and committing; then nothing of
   the work remains;
3. which operations fail is part of the store's circumstances and not of the work,
   so that a statement about all circumstances is one about all failures.
-/

namespace CodeAtlas

/-! ## Circumstances -/

/-- The failures that one transaction meets. -/
structure Outage where
  begin : Option Error
  /-- Failures of the operations, by their number in the transaction. -/
  operation : Nat → Option Error
  commit : Option Error
deriving Inhabited

namespace Outage

/-- Nothing fails. -/
def none : Outage := ⟨.none, fun _ => .none, .none⟩

/-- The store cannot be reached. -/
def atBegin (e : Error) : Outage := ⟨some e, fun _ => .none, .none⟩

/-- The store is lost before the work is published. -/
def atCommit (e : Error) : Outage := ⟨.none, fun _ => .none, some e⟩

end Outage

/-! ## Work -/

/-- How far a transaction has got: the store as it sees it, and how many operations
it has done. -/
structure Progress where
  store : Store
  operations : Nat

/-- Work inside one transaction. -/
abbrev Work := ReaderT Outage (StateT Progress (Except Error))

namespace Work

/-- One operation on the store. -/
def operation {α : Type} (f : Store → Except Error (α × Store)) : Work α := fun outage p =>
  match outage.operation p.operations with
  | some e => .error e
  | none =>
    match f p.store with
    | .error e => .error e
    | .ok (a, s) => .ok (a, ⟨s, p.operations + 1⟩)

/-- One question to the store. -/
def ask {α : Type} (f : Store → α) : Work α := operation fun s => .ok (f s, s)

/-- One change of the store. -/
def change {α : Type} (f : Store → α × Store) : Work α := operation fun s => .ok (f s)

def mergeNode (n : Node) : Work Merge := change (·.mergeNode n)

def mergeEdge (e : Edge) : Work Merge := change (·.mergeEdge e)

def deleteNode (id : String) : Work Bool := change (·.deleteNode id)

def deleteEdge (id : String) : Work Bool := change (·.deleteEdge id)

def record? (path : String) : Work (Option FileRecord) := ask (·.records.get? path)

def putRecord (r : FileRecord) : Work Unit := change fun s => ((), s.putRecord r)

def deleteRecord (path : String) : Work Bool := change (·.deleteRecord path)

def otherClaimants (id except : String) : Work (List String) := ask (·.otherClaimants id except)

/-- Answers a question, which may be refused. -/
def query (q : Query) : Work (List Row) := operation fun s => (s.run q).map (·, s)

end Work

/-! ## Stores in use -/

/-- A store as its users have it. -/
structure Backend where
  /-- What is published. -/
  store : Store
  isOpen : Bool
  /-- What the next transactions meet; later ones meet nothing. -/
  outages : List Outage
  /-- Questions outside of transactions that fail. -/
  refuses : Query → Option Error
deriving Inhabited

namespace Backend

def new : Backend := ⟨.empty, true, [], fun _ => none⟩

/-- The failure of everything that needs an open store. -/
def closed : Error := .storeUnavailable "store is closed"

/-- Runs work in a transaction of its own. The work tells whether it is to be
published; if not, its changes are dropped. -/
def transact {α : Type} (b : Backend) (w : Work (α × Bool)) : Except Error α × Backend :=
  let outage := b.outages.headD .none
  let b := { b with outages := b.outages.tail }
  match outage.begin with
  | some e => (.error e, b)
  | none =>
    if !b.isOpen then (.error closed, b)
    else
      match (w.run outage).run ⟨b.store, 0⟩ with
      | .error e => (.error e, b)
      | .ok ((a, false), _) => (.ok a, b)
      | .ok ((a, true), p) =>
        match outage.commit with
        | some e => (.error e, b)
        | none => (.ok a, { b with store := p.store })

/-- What an open store holds. -/
def contents (b : Backend) : Except Error Store := if b.isOpen then .ok b.store else .error closed

/-- Answers a question about what is published. -/
def query (b : Backend) (q : Query) : Except Error (List Row) :=
  match b.refuses q with
  | some e => .error e
  | none => b.contents.bind (·.run q)

/-- The nodes of an answer. -/
def nodes (b : Backend) (q : Query) : Except Error (List Node) :=
  (b.query q).map fun rows => rows.filterMap fun
    | .node n => some n
    | .edge _ => none

/-- The edges of an answer. -/
def edges (b : Backend) (q : Query) : Except Error (List Edge) :=
  (b.query q).map fun rows => rows.filterMap fun
    | .edge e => some e
    | .node _ => none

/-- Registers a source tree. -/
def register (b : Backend) (r : Repository) : Except Error Unit × Backend :=
  if b.isOpen then (.ok (), { b with store := b.store.register r }) else (.error closed, b)

/-- Closes the store; to close it again does no harm. -/
def close (b : Backend) : Backend := { b with isOpen := false }

/-- Lets the next transactions fail at their beginning. -/
def failBegins (b : Backend) (n : Nat) : Backend :=
  { b with outages := List.replicate n (.atBegin (.storeUnavailable "store is down")) ++
      b.outages.filter (·.begin.isNone) }

/-- Lets the next transactions that begin fail when they are committed. -/
def failCommits (b : Backend) (n : Nat) : Backend :=
  { b with outages := b.outages.filter (·.begin.isSome) ++
      List.replicate n (.atCommit (.storeUnavailable "connection lost before commit")) }

end Backend

end CodeAtlas
