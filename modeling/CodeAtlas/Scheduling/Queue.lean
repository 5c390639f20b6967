import CodeAtlas.Error

/-!
# CodeAtlas.Scheduling.Queue

Files that wait to be indexed, with one worker that takes them in order.

1. a file that is queued already is not queued once more; one that is being indexed is
   remembered, and queued again when that is done;
2. the worker takes a message, marks its file as being indexed, and reports when that is
   done; anything may be queued in between;
3. a queue that is shut accepts nothing, and what it holds stays there.
-/

namespace CodeAtlas

structure Queue where
  /-- Files that wait. -/
  queued : List String
  /-- Files that are being indexed. -/
  inFlight : List String
  /-- Files that are to be indexed again after that. -/
  rerun : List String
  /-- A message for each file that waits, in order. -/
  messages : List String
  /-- The message that the worker has taken, while its file still counts as waiting. -/
  taken : Option String
  isOpen : Bool
deriving DecidableEq, Inhabited, Repr

namespace Queue

def new : Queue := ⟨[], [], [], [], none, true⟩

/-- Adds a file to a set of files. -/
def adding (path : String) (paths : List String) : List String :=
  if paths.contains path then paths else paths ++ [path]

/-- Drops a file from a set of files. -/
def dropping (path : String) (paths : List String) : List String := paths.filter (· != path)

/-- Whether nothing waits and nothing is being indexed. -/
def isIdle (q : Queue) : Bool := q.queued.isEmpty && q.inFlight.isEmpty && q.rerun.isEmpty

/-- The failure of a queue that is shut. -/
def shutError : Error := .internal "scheduler is shut down"

/-! ## Callers -/

/-- Queues a file; tells whether it was not waiting or being indexed already. -/
def enqueue (q : Queue) (path : String) : Except Error Bool × Queue :=
  if q.inFlight.contains path then (.ok false, { q with rerun := adding path q.rerun })
  else if q.queued.contains path then (.ok false, q)
  else if q.isOpen then
    (.ok true, { q with queued := q.queued ++ [path], messages := q.messages ++ [path] })
  else (.error shutError, q)

/-- Queues files one after the other; gives the number of those that were queued. -/
def enqueueAll (q : Queue) : List String → Except Error Nat × Queue
  | [] => (.ok 0, q)
  | path :: paths =>
    match q.enqueue path with
    | (.error e, q) => (.error e, q)
    | (.ok b, q) =>
      match q.enqueueAll paths with
      | (.error e, q) => (.error e, q)
      | (.ok n, q) => (.ok (n + b.toNat), q)

/-- Accepts nothing from now on. -/
def shut (q : Queue) : Queue := { q with isOpen := false }

/-- Number of indexings that are still to be started. -/
def waiting (q : Queue) : Nat := q.queued.length + q.rerun.length

/-! ## The worker -/

/-- Takes the next message. -/
def take? (q : Queue) : Option (String × Queue) :=
  match q.messages with
  | [] => none
  | path :: messages => some (path, { q with messages, taken := some path })

/-- Marks a file as being indexed. -/
def start (q : Queue) (path : String) : Queue :=
  { q with
    taken := none
    queued := dropping path q.queued
    inFlight := adding path q.inFlight }

/-- Reports that a file is done; it is queued again if that was asked for. -/
def finish (q : Queue) (path : String) : Queue :=
  let q := { q with inFlight := dropping path q.inFlight }
  if !q.rerun.contains path then q
  else
    let q := { q with rerun := dropping path q.rerun }
    if q.queued.contains path then q
    else
      { q with
        queued := q.queued ++ [path]
        messages := if q.isOpen then q.messages ++ [path] else q.messages }

end Queue

end CodeAtlas
