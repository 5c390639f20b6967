import CodeAtlas.Grammar.Item

/-!
# CodeAtlas.Grammar.Automaton

The states that a reader of a grammar can be in, and what it does in each.

1. a state is a set of items, each with the tokens that may follow it;
2. where a token allows several actions, precedence and then associativity
   choose; what remains is kept, and the reader tries all of it;
3. a repetition may go on or be closed at any point: both stay allowed, and the
   way that goes on is marked, because closing first loses nothing.
-/

namespace CodeAtlas.Grammar

inductive Action where
  | shift (state : Nat) (repetition : Bool)
  /-- Takes a token that may stand anywhere; the state stays. -/
  | skip
  | reduce (symbol count : Nat) (dynamic : Int) (label : Nat)
  | accept
  | recover
deriving BEq, Inhabited

/-- A state of the reader. The entry after all tokens says what to do at the
end of a rule that may stand anywhere. -/
structure State where
  /-- Per token, what to do. -/
  actions : Array (Array Action)
  /-- Per symbol above the tokens, the next state; zero is none. -/
  gotos : Array Nat
  /-- Distinguishes states by their items alone. -/
  core : Nat
deriving Inhabited

namespace State

/-- The tokens for which the state has an action. -/
def tokens (s : State) : Nat := Id.run do
  let mut out := 0
  for t in [0:s.actions.size] do
    unless s.actions[t]!.isEmpty do
      out := out + 1 <<< t
  return out

end State

/-- What is fixed while states are built. -/
structure Building where
  grammar : Productions
  items : Items
  first : Array Nat
  /-- Per symbol: the symbols that reading it may start with, each with the
  tokens that follow it there (an interned set), and whether what follows the
  symbol itself may follow it too. -/
  inside : Array (Array (Nat × Nat × Bool))

/-- States found so far. A kernel lists its items, each with its follow set, as
single numbers that sort by item. -/
structure Found where
  pool : SetPool
  kernels : Array (Array Nat)
  ids : Std.HashMap (Array Nat) Nat
  cores : Std.HashMap (Array Nat) Nat
deriving Inhabited

def packItem (item set : Nat) : Nat := item * 0x1000000 + set

def unpackItem (n : Nat) : Nat × Nat := (n / 0x1000000, n % 0x1000000)

def Found.add (f : Found) (kernel : Array Nat) : Nat × Found :=
  match f.ids[kernel]? with
  | some i => (i, f)
  | none =>
    let i := f.kernels.size
    let core := kernel.map (fun n => (unpackItem n).1)
    let cores := if f.cores.contains core then f.cores else f.cores.insert core f.cores.size
    (i, { f with kernels := f.kernels.push kernel, ids := f.ids.insert kernel i, cores })

/-- Reading symbol `b` may start with these symbols. -/
def insideOf (g : Productions) (items : Items) (first : Array Nat) (b : Nat) (pool : SetPool) :
    Array (Nat × Nat × Bool) × SetPool := Id.run do
  let mut pool := pool
  let mut found : Array (Nat × Nat × Bool) := #[(b, 0, true)]
  let mut index : Std.HashMap Nat Nat := Std.HashMap.ofList [(b, 0)]
  let mut queue := #[b]
  for _ in [0:100000] do
    match queue.back? with
    | none => break
    | some x =>
      queue := queue.pop
      let (_, set, through) := found[index.getD x 0]!
      for (s, second) in items.heads[x]! do
        if g.tokenCount ≤ s then
          let (set', through') ← match second with
            | some t =>
              let (i, p) := pool.intern first[t]!
              pool := p
              pure (i, false)
            | none => pure (set, through)
          match index[s]? with
          | none =>
            index := index.insert s found.size
            found := found.push (s, set', through')
            queue := queue.push s
          | some i =>
            let (_, old, oldThrough) := found[i]!
            let (u, p) := pool.union old set'
            pool := p
            if u != old || (through' && !oldThrough) then
              found := found.set! i (s, u, oldThrough || through')
              queue := queue.push s
  return (found, pool)

/-- What is known of the reductions allowed on one token. -/
structure Reductions where
  precedence : Int := 0
  left : Bool := false
  right : Bool := false
  neutral : Bool := false
deriving Inhabited

/-- Chooses between going on and reducing on token `t`, where a state's kernel
allows both, or several reductions. -/
def settle (b : Building) (kernel : Array Nat) (pool : SetPool) (t : Nat) (info : Reductions)
    (actions : Array Action) : Array Action := Id.run do
  match actions.back? with
  | some (.shift target _) =>
    let mut owners : Array Nat := #[]
    let mut more := false
    let mut less := false
    for n in kernel do
      let (i, set) := unpackItem n
      let item := b.items.items[i]!
      if item.lhs < b.grammar.symbols.size then
        match item.next with
        | some (s, _) =>
          if 0 < item.dot && (b.first[s]!).testBit t then
            owners := addOwner owners item.lhs
            if info.precedence < item.precedence then more := true
            if item.precedence < info.precedence then less := true
        | none =>
          if (pool.values[set]!).testBit t then owners := addOwner owners item.lhs
    if owners.size == 1 && b.grammar.symbols[owners[0]!]!.auxiliary then
      return actions.pop.push (.shift target true)
    if more && !less then return #[.shift target false]
    if less && !more then return actions.pop
    if !less && !more then
      if info.left && !info.right && !info.neutral then return actions.pop
      if info.right && !info.left && !info.neutral then return #[.shift target false]
    return actions
  | _ => return actions
where
  addOwner (owners : Array Nat) (s : Nat) : Array Nat :=
    if owners.contains s then owners else owners.push s

/-- Works out the actions of one state and adds the states that it leads to. -/
def expand (b : Building) (id : Nat) (f : Found) : State × Found := Id.run do
  let g := b.grammar
  let kernel := f.kernels[id]!
  let mut f := f
  -- follow sets of the symbols that may be read from here
  let mut follow : Array Nat := Array.replicate (g.symbols.size + 1) 0
  let mut reached : Array Bool := Array.replicate (g.symbols.size + 1) false
  let mut symbols : Array Nat := #[]
  for n in kernel do
    let (i, set) := unpackItem n
    let item := b.items.items[i]!
    if let some (s, _) := item.next then
      if g.tokenCount ≤ s then
        let after ← match item.second with
          | some t =>
            let (j, p) := f.pool.intern b.first[t]!
            f := { f with pool := p }
            pure j
          | none => pure set
        for (x, own, through) in b.inside[s]! do
          unless reached[x]! do
            reached := reached.set! x true
            symbols := symbols.push x
          let old := follow[x]!
          let (u, p) := f.pool.union old own
          let (u, p) := if through then p.union u after else (u, p)
          f := { f with pool := p }
          follow := follow.set! x u
  -- kernels of the next states
  let mut next : Array (Array Nat) := Array.replicate (g.symbols.size + 1) #[]
  let mut touched : Array Nat := #[]
  for n in kernel do
    let (i, set) := unpackItem n
    if let some (s, j) := b.items.items[i]!.next then
      if next[s]!.isEmpty then touched := touched.push s
      next := next.modify s (·.push (packItem j set))
  for x in symbols do
    let set := follow[x]!
    for (s, j) in b.items.starts[x]! do
      if next[s]!.isEmpty then touched := touched.push s
      next := next.modify s (·.push (packItem j set))
  -- reductions
  let mut actions : Array (Array Action) := Array.replicate (g.tokenCount + 1) #[]
  let mut infos : Array Reductions := Array.replicate (g.tokenCount + 1) {}
  let mut contested : Array Nat := #[]
  for n in kernel ++ (if symbols.contains g.start then emptyStart b f else #[]) do
    let (i, set) := unpackItem n
    let item := b.items.items[i]!
    if item.next.isNone then
      let action := if item.lhs == g.symbols.size then Action.accept
        else .reduce item.lhs item.size item.dynamic item.label
      let bits := f.pool.values[set]!
      for t in [0:g.tokenCount + 1] do
        if bits.testBit t then
          let info := infos[t]!
          let here := actions[t]!
          if here.isEmpty || info.precedence ≤ item.precedence then
            let fresh := here.isEmpty || info.precedence < item.precedence
            if fresh then
              actions := actions.set! t #[action]
              contested := contested.filter (· != t)
            else
              actions := actions.set! t (here.push action)
              contested := if contested.contains t then contested else contested.push t
            let base : Reductions := if fresh then {} else info
            infos := infos.set! t { base with
              precedence := item.precedence
              left := base.left || item.assoc == some .left
              right := base.right || item.assoc == some .right
              neutral := base.neutral || item.assoc.isNone }
  -- shifts
  let mut gotos : Array Nat := Array.replicate (g.symbols.size - g.tokenCount) 0
  for s in touched.qsort (· < ·) do
    let (target, f') := f.add (next[s]!.qsort (· < ·))
    f := f'
    if s < g.tokenCount then
      unless actions[s]!.isEmpty do
        unless contested.contains s do
          contested := contested.push s
      actions := actions.modify s (·.push (.shift target false))
    else
      gotos := gotos.set! (s - g.tokenCount) target
  for t in contested do
    actions := actions.set! t (settle b kernel f.pool t infos[t]! actions[t]!)
  let core := f.cores.getD (kernel.map (fun n => (unpackItem n).1)) 0
  return ({ actions, gotos, core }, f)
where
  /-- The start symbol may stand for nothing at all. -/
  emptyStart (b : Building) (f : Found) : Array Nat := Id.run do
    let mut out := #[]
    let (e, _) := f.pool.intern 1
    for i in [0:b.items.items.size] do
      let item := b.items.items[i]!
      if item.lhs == b.grammar.start && item.size == 0 then
        out := out.push (packItem i e)
    return out

/-- The states of a grammar before any are merged: state zero is for recovery,
state one is the start. Also gives, for each token that starts a rule that may
stand anywhere, the state after it. -/
def allStates (g : Productions) (items : Items) (first : Array Nat) :
    Array State × Array (Nat × Nat) := Id.run do
  let mut pool := SetPool.empty
  let mut inside : Array (Array (Nat × Nat × Bool)) := #[]
  for s in [0:g.symbols.size + 1] do
    if s < g.tokenCount || s == g.symbols.size then
      inside := inside.push #[]
    else
      let (found, p) := insideOf g items first s pool
      pool := p
      inside := inside.push found
  let b : Building := { grammar := g, items, first, inside }
  let (endSet, p) := pool.intern 1
  let (extraEnd, p) := p.intern (1 <<< g.tokenCount)
  let mut f : Found := { pool := p, kernels := #[], ids := {}, cores := {} }
  f := (f.add #[]).2
  f := (f.add #[packItem (items.startItem g) endSet]).2
  let mut extraStarts : Array (Nat × Nat) := #[]
  for t in [0:g.tokenCount] do
    let mut kernel : Array Nat := #[]
    for e in g.extras do
      if g.tokenCount ≤ e then
        for (s, j) in items.starts[e]! do
          if s == t then kernel := kernel.push (packItem j extraEnd)
    unless kernel.isEmpty do
      let (i, f') := f.add (kernel.qsort (· < ·))
      f := f'
      extraStarts := extraStarts.push (t, i)
  let mut states : Array State := #[]
  for i in [0:1000000] do
    if f.kernels.size ≤ i then break
    let (s, f') := expand b i f
    f := f'
    let mut s := s
    if s.actions[g.tokenCount]!.isEmpty then
      for (t, target) in extraStarts do
        if s.actions[t]!.isEmpty then
          s := { s with actions := s.actions.set! t #[.shift target false] }
      for e in g.extras do
        if e < g.tokenCount then
          if s.actions[e]!.isEmpty then
            s := { s with actions := s.actions.set! e #[.skip] }
        else
          s := { s with gotos := s.gotos.set! (e - g.tokenCount) i }
    states := states.push s
  return (states, extraStarts)

end CodeAtlas.Grammar
