import CodeAtlas.Parsing.Subtree

/-!
# CodeAtlas.Parsing.Stack

Several stacks of a reader that share what they have in common.

1. a *version* is one way of reading the text so far; versions that meet in the
   same state at the same place are merged, and their common past then has
   several links;
2. a link without a tree marks the place where reading broke off;
3. taking nodes off a version may follow several links, and then gives several
   versions, or several lists of nodes that lead to one version.
-/

namespace CodeAtlas.Parsing

open CodeAtlas.Grammar

variable {σ : Type}

/-- A way back from a stack node: the node below, and the tree between. -/
structure Link (σ : Type) where
  node : Nat
  tree : Option (Subtree σ)
deriving Inhabited

structure StackNode (σ : Type) where
  state : Nat
  place : Nat
  links : Array (Link σ)
  cost : Nat
  nodeCount : Nat
  dynamic : Int
deriving Inhabited

inductive Status (σ : Type) where
  | active
  /-- Waits with a token that has no place. -/
  | paused (lookahead : Subtree σ)
  | halted
deriving Inhabited

/-- A state that a version was in, and how many nodes lie above it. -/
structure Past where
  place : Nat
  depth : Nat
  state : Nat
deriving Inhabited

structure Head (σ : Type) where
  node : Nat
  /-- State of the outer scanner after its last token. -/
  scanner : Option σ
  countAtError : Nat
  status : Status σ
  past : Option (Array Past)
deriving Inhabited

structure Stack (σ : Type) where
  nodes : Array (StackNode σ)
  heads : Array (Head σ)
deriving Inhabited

/-- Nodes taken off a version, in the order of the text, and the version that is
left. -/
structure Slice (σ : Type) where
  trees : Array (Subtree σ)
  version : Nat
deriving Inhabited

namespace Stack

/-- One version in the start state. -/
def initial : Stack σ where
  nodes := #[⟨1, 0, #[], 0, 0, 0⟩]
  heads := #[⟨0, none, 0, .active, none⟩]

def head (s : Stack σ) (v : Nat) : Head σ := s.heads.getD v default

def top (s : Stack σ) (v : Nat) : StackNode σ := s.nodes.getD (s.head v).node default

def state (s : Stack σ) (v : Nat) : Nat := (s.top v).state

def place (s : Stack σ) (v : Nat) : Nat := (s.top v).place

def count (s : Stack σ) : Nat := s.heads.size

def isActive (s : Stack σ) (v : Nat) : Bool :=
  match (s.head v).status with | .active => true | _ => false

def isPaused (s : Stack σ) (v : Nat) : Bool :=
  match (s.head v).status with | .paused _ => true | _ => false

def isHalted (s : Stack σ) (v : Nat) : Bool :=
  match (s.head v).status with | .halted => true | _ => false

def modifyHead (s : Stack σ) (v : Nat) (f : Head σ → Head σ) : Stack σ :=
  { s with heads := s.heads.modify v f }

def remove (s : Stack σ) (v : Nat) : Stack σ :=
  { s with heads := s.heads.eraseIdxIfInBounds v }

def halt (s : Stack σ) (v : Nat) : Stack σ := s.modifyHead v fun h => { h with status := .halted }

/-- The cost of all mistakes of a version. -/
def cost (s : Stack σ) (v : Nat) : Nat :=
  let n := s.top v
  let broken := n.state == 0 && (match n.links[0]? with | some l => l.tree.isNone | none => false)
  if s.isPaused v || broken then n.cost + Cost.recovery else n.cost

/-- How many nodes a version has read since its last mistake. -/
def countSinceError (s : Stack σ) (v : Nat) : Nat :=
  let n := (s.top v).nodeCount
  n - (min (s.head v).countAtError n)

def dynamic (s : Stack σ) (v : Nat) : Int := (s.top v).dynamic

variable [BEq σ]

/-- Puts a tree, or a break, on a version. -/
def push (t : Table) (s : Stack σ) (v : Nat) (tree : Option (Subtree σ)) (state : Nat) : Stack σ :=
  let below := (s.head v).node
  let old := s.top v
  let fresh : StackNode σ := match tree with
    | some x => {
        state, place := x.summary.stop, links := #[⟨below, tree⟩], cost := old.cost + x.cost
        nodeCount := old.nodeCount + x.nodeCount (errorRunSymbol t)
        dynamic := old.dynamic + x.summary.dynamic }
    | none => { old with state, links := #[⟨below, none⟩] }
  let id := s.nodes.size
  let s := { s with nodes := s.nodes.push fresh }
  s.modifyHead v fun h =>
    { h with node := id, countAtError := if tree.isNone then fresh.nodeCount else h.countAtError }

/-- Whether two trees are as good as one another for going on. -/
def equivalent (a b : Option (Subtree σ)) : Bool :=
  match a, b with
  | none, none => true
  | some x, some y =>
    x.symbol == y.symbol &&
    ((0 < x.cost && 0 < y.cost) ||
      (x.summary.pad == y.summary.pad && x.summary.start == y.summary.start &&
        x.summary.stop == y.summary.stop && x.children.size == y.children.size &&
        x.isExtra == y.isExtra &&
        (!x.children.isEmpty || x.summary.scanner == y.summary.scanner)))
  | _, _ => false

/-- The most ways back from one node. -/
def maxLinks : Nat := 8

/-- Adds a way back to a node, or merges it with an equivalent one. -/
def addLink (t : Table) : (fuel : Nat) → Stack σ → Nat → Link σ → Stack σ
  | 0, s, _, _ => s
  | fuel + 1, s, id, link => Id.run do
    if link.node == id then return s
    let self := s.nodes.getD id default
    let below := s.nodes.getD link.node default
    let treeDynamic := (link.tree.map (·.summary.dynamic)).getD 0
    for i in [0:self.links.size] do
      let old := self.links.getD i default
      if equivalent old.tree link.tree then
        if old.node == link.node then
          let oldDynamic := (old.tree.map (·.summary.dynamic)).getD 0
          if oldDynamic < treeDynamic then
            return { s with nodes := s.nodes.modify id fun n => { n with
              links := n.links.modify i fun l => { l with tree := link.tree }
              dynamic := below.dynamic + treeDynamic } }
          return s
        let oldBelow := s.nodes.getD old.node default
        if oldBelow.state == below.state && oldBelow.place == below.place &&
            oldBelow.cost == below.cost then
          let mut s := s
          for l in below.links do
            s := addLink t fuel s old.node l
          let d := below.dynamic + treeDynamic
          return { s with nodes := s.nodes.modify id fun n => { n with dynamic := max n.dynamic d } }
    if maxLinks ≤ self.links.size then return s
    let count := below.nodeCount +
      (link.tree.map (·.nodeCount (errorRunSymbol t))).getD 0
    return { s with nodes := s.nodes.modify id fun n => { n with
      links := n.links.push link
      nodeCount := max n.nodeCount count
      dynamic := max n.dynamic (below.dynamic + treeDynamic) } }

def canMerge (s : Stack σ) (a b : Nat) : Bool :=
  let x := s.top a
  let y := s.top b
  s.isActive a && s.isActive b && x.state == y.state && x.place == y.place && x.cost == y.cost &&
    (s.head a).scanner == (s.head b).scanner

/-- Merges the second version into the first if they can go on as one. -/
def merge? (t : Table) (s : Stack σ) (a b : Nat) : Option (Stack σ) := Id.run do
  unless s.canMerge a b do return none
  let mut s := s
  let id := (s.head a).node
  for l in (s.top b).links do
    s := addLink t 64 s id l
  let n := s.nodes.getD id default
  if n.state == 0 then
    s := s.modifyHead a fun h => { h with countAtError := n.nodeCount }
  return some (s.remove b)

/-- Merges the second version into the first if possible. -/
def merge (t : Table) (s : Stack σ) (a b : Nat) : Stack σ × Bool :=
  match s.merge? t a b with
  | some s => (s, true)
  | none => (s, false)

/-- A second version like version `v`; gives its number. -/
def copy (s : Stack σ) (v : Nat) : Stack σ × Nat :=
  ({ s with heads := s.heads.push { s.head v with past := none } }, s.heads.size)

/-- Puts version `source` in the place of version `target`. -/
def renumber (s : Stack σ) (source target : Nat) : Stack σ :=
  if source == target then s
  else
    let x := s.head source
    let y := s.head target
    let x := if y.past.isSome && x.past.isNone then { x with past := y.past } else x
    { s with heads := (s.heads.set! target x).eraseIdxIfInBounds source }

def swap (s : Stack σ) (a b : Nat) : Stack σ :=
  let x := s.head a
  let y := s.head b
  { s with heads := (s.heads.set! a y).set! b x }

/-! ## Walking back -/

/-- One way back that is being followed. -/
structure Walk (σ : Type) where
  node : Nat
  /-- Trees passed, the last one of the text first. -/
  trees : Array (Subtree σ)
  /-- Trees passed that have a place in the grammar, and breaks. -/
  passed : Nat
deriving Inhabited

/-- What to do at a place on the way back. -/
structure Decision where
  take : Bool
  stop : Bool

/-- The most ways back followed at once. -/
def maxWalks : Nat := 64

/-- Records nodes taken off a version: to the version that already ends in the
same stack node, or to a new one. -/
def addSlice (s : Stack σ) (slices : Array (Slice σ)) (origin node : Nat)
    (trees : Array (Subtree σ)) : Stack σ × Array (Slice σ) :=
  let same := (List.range slices.size).reverse.find? fun i =>
    (s.head (slices.getD i default).version).node == node
  match same with
  | some i =>
    let v := (slices.getD i default).version
    (s, slices.insertIdxIfInBounds (i + 1) ⟨trees, v⟩)
  | none =>
    let h := s.head origin
    let fresh : Head σ := ⟨node, h.scanner, h.countAtError, .active, none⟩
    ({ s with heads := s.heads.push fresh }, slices.push ⟨trees, s.heads.size⟩)

/-- Follows all ways back from a version. -/
def walk (s : Stack σ) (v : Nat) (decide : StackNode σ → Walk σ → Decision) :
    Stack σ × Array (Slice σ) := Id.run do
  let mut s := s
  let mut slices : Array (Slice σ) := #[]
  let mut walks : Array (Walk σ) := #[⟨(s.head v).node, #[], 0⟩]
  for _ in [0:s.nodes.size + 1] do
    if walks.isEmpty then break
    let mut kept : Array (Walk σ) := #[]
    let mut added : Array (Walk σ) := #[]
    let mut alive := walks.size
    for w in walks do
      let n := s.nodes.getD w.node default
      let d := decide n w
      if d.take then
        let (s', slices') := s.addSlice slices v w.node w.trees.reverse
        s := s'
        slices := slices'
      if d.stop || n.links.isEmpty then
        alive := alive - 1
      else
        let along (l : Link σ) : Walk σ := match l.tree with
          | some x => ⟨l.node, w.trees.push x, if x.isExtra then w.passed else w.passed + 1⟩
          | none => ⟨l.node, w.trees, w.passed + 1⟩
        for i in [1:n.links.size] do
          if alive < maxWalks then
            added := added.push (along (n.links.getD i default))
            alive := alive + 1
        kept := kept.push (along (n.links.getD 0 default))
    walks := kept ++ added
  return (s, slices)

/-- Takes `n` nodes off a version, and what stands between them. -/
def popCount (s : Stack σ) (v n : Nat) : Stack σ × Array (Slice σ) :=
  s.walk v fun _ w => if w.passed == n then ⟨true, true⟩ else ⟨false, false⟩

/-- Takes all nodes off a version. -/
def popAll (s : Stack σ) (v : Nat) : Stack σ × Array (Slice σ) :=
  s.walk v fun n _ => ⟨n.links.isEmpty, false⟩

/-- Takes a node of skipped text off a version, if it is on top. -/
def popError (t : Table) (s : Stack σ) (v : Nat) : Stack σ × Array (Subtree σ) :=
  let isError (x : Subtree σ) : Bool := x.symbol == errorSymbol t
  let links := (s.top v).links
  if links.any fun l => (l.tree.map isError).getD false then
    let (s', slices) := s.walk v fun _ w =>
      match w.trees[0]? with
      | some x => ⟨isError x, true⟩
      | none => ⟨false, false⟩
    match slices[0]? with
    | some slice =>
      -- only the first way is taken
      let s' := { s' with heads := s'.heads.extract 0 (s.heads.size + 1) }
      (s'.renumber slice.version v, slice.trees)
    | none => (s', #[])
  else (s, #[])

/-- The states that a version went through, up to a depth. -/
def pastOf (s : Stack σ) (v maxDepth : Nat) : Array Past := Id.run do
  let mut out : Array Past := #[]
  let mut walks : Array (Nat × Nat) := #[((s.head v).node, 0)]
  for _ in [0:s.nodes.size + 1] do
    if walks.isEmpty then break
    let mut kept : Array (Nat × Nat) := #[]
    let mut added : Array (Nat × Nat) := #[]
    let mut alive := walks.size
    for (id, depth) in walks do
      let n := s.nodes.getD id default
      let mut stop := n.links.isEmpty
      if maxDepth < depth then
        stop := true
      else
        let known := out.any fun p => p.depth == depth && p.state == n.state
        unless known do
          out := out.push ⟨n.place, depth, n.state⟩
      if stop then
        alive := alive - 1
      else
        let along (l : Link σ) : Nat × Nat := match l.tree with
          | some x => (l.node, if x.isExtra then depth else depth + 1)
          | none => (l.node, depth + 1)
        for i in [1:n.links.size] do
          if alive < maxWalks then
            added := added.push (along (n.links.getD i default))
            alive := alive + 1
        kept := kept.push (along (n.links.getD 0 default))
    walks := kept ++ added
  return out

/-- Whether a version has read any text since its last mistake. -/
def hasAdvanced (s : Stack σ) (v : Nat) : Bool := Id.run do
  let h := s.head v
  let mut id := h.node
  if (s.nodes.getD id default).cost == 0 then return true
  for _ in [0:s.nodes.size] do
    let n := s.nodes.getD id default
    let link := n.links.getD 0 ⟨0, none⟩
    match link.tree with
    | some x =>
      if x.summary.pad < x.summary.stop then return true
      if h.countAtError < n.nodeCount && x.cost == 0 then
        id := link.node
      else return false
    | none => return false
  return false

end Stack

end CodeAtlas.Parsing
