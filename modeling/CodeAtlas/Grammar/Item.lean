import CodeAtlas.Grammar.Production
import Std.Data.HashMap

/-!
# CodeAtlas.Grammar.Item

Items: productions read up to a place.

1. two items are the same if a reader who holds either of them does the same
   from here on and builds the same node at the end, so the symbols already
   read do not matter unless they carry a field or an alias;
2. a *label* lists the fields and aliases of a node's children;
3. sets of tokens are numbers written in binary, and interned.
-/

namespace CodeAtlas.Grammar

/-- Fields and aliases of the children of a node, in order. -/
structure Label where
  fields : Array (Option String)
  shown : Array (Option Alias)
deriving BEq, Hashable, Inhabited

/-- What makes two items the same. -/
structure ItemKey where
  dot : Nat
  lhs : Nat
  dynamic : Int
  size : Nat
  precedence : Option Int
  assoc : Option Associativity
  passed : Array (Option Alias × Option String)
  ahead : Array Step
deriving BEq, Hashable, Inhabited

structure Item where
  dot : Nat
  lhs : Nat
  size : Nat
  dynamic : Int
  /-- Precedence and associativity of the step just passed. -/
  precedence : Int
  assoc : Option Associativity
  /-- The symbol to read next, and the item after it. -/
  next : Option (Nat × Nat)
  /-- The symbol after the next one. -/
  second : Option Nat
  label : Nat
deriving Inhabited

/-- All items of a grammar. -/
structure Items where
  items : Array Item
  labels : Array Label
  /-- Per symbol: what its productions start with, and the item after that. -/
  starts : Array (Array (Nat × Nat))
  /-- Per symbol: the first two symbols of its productions. -/
  heads : Array (Array (Nat × Option Nat))
deriving Inhabited

def Production.itemKey (p : Production) (dot : Nat) : ItemKey where
  dot
  lhs := p.lhs
  dynamic := p.dynamic
  size := p.steps.size
  precedence := if dot = 0 then none else (p.steps[dot - 1]!).precedence
  assoc := if dot = 0 then none else (p.steps[dot - 1]!).assoc
  passed := (p.steps.extract 0 dot).map fun s => (s.shown, s.field)
  ahead := p.steps.extract dot p.steps.size

/-- The order in which the items of a state are looked at. -/
def ItemKey.before (a b : ItemKey) : Bool :=
  if a.dot != b.dot then a.dot < b.dot
  else if a.lhs != b.lhs then a.lhs < b.lhs
  else if a.dynamic != b.dynamic then a.dynamic < b.dynamic
  else if a.size != b.size then a.size < b.size
  else (a.precedence.getD 0) < (b.precedence.getD 0)

namespace Items

/-- The production of the whole input: the start symbol alone, under the number
after all symbols. -/
def startProduction (p : Productions) : Production :=
  ⟨p.symbols.size, #[⟨p.start, none, none, none, none⟩], 0⟩

def ofProductions (g : Productions) : Items := Id.run do
  let all := g.productions.push (startProduction g)
  let mut keys : Array (ItemKey × Nat) := #[]
  let mut seen : Std.HashMap ItemKey Nat := {}
  for p in all do
    for dot in [0:p.steps.size + 1] do
      let key := p.itemKey dot
      unless seen.contains key do
        seen := seen.insert key keys.size
        keys := keys.push (key, keys.size)
  let sorted := keys.qsort fun (a, i) (b, j) => a.before b || (!b.before a && i < j)
  let mut number := Array.replicate keys.size 0
  for i in [0:sorted.size] do
    number := number.set! sorted[i]!.2 i
  let seen' := seen
  let number' := number
  let idOf (k : ItemKey) : Nat := number'[seen'.getD k 0]!
  let mut labels : Array Label := #[⟨#[], #[]⟩]
  let mut items := Array.replicate keys.size (default : Item)
  let mut starts : Array (Array (Nat × Nat)) := Array.replicate (g.symbols.size + 1) #[]
  let mut heads : Array (Array (Nat × Option Nat)) := Array.replicate (g.symbols.size + 1) #[]
  for p in all do
    let fields := p.steps.map (·.field)
    let shown := p.steps.map (·.shown)
    let label : Label :=
      ⟨if fields.all (·.isNone) then #[] else fields, if shown.all (·.isNone) then #[] else shown⟩
    let labelId := (labels.idxOf? label).getD labels.size
    if labelId == labels.size then labels := labels.push label
    if h : 0 < p.steps.size then
      let s := p.steps[0].symbol
      let e := (s, idOf (p.itemKey 1))
      unless starts[p.lhs]!.contains e do
        starts := starts.modify p.lhs (·.push e)
      let hd := (s, p.steps[1]?.map (·.symbol))
      unless heads[p.lhs]!.contains hd do
        heads := heads.modify p.lhs (·.push hd)
    for dot in [0:p.steps.size + 1] do
      let key := p.itemKey dot
      items := items.set! (idOf key) {
        dot, lhs := p.lhs, size := p.steps.size, dynamic := p.dynamic
        precedence := key.precedence.getD 0
        assoc := key.assoc
        next := if h : dot < p.steps.size then some (p.steps[dot].symbol, idOf (p.itemKey (dot + 1))) else none
        second := p.steps[dot + 1]?.map (·.symbol)
        label := labelId }
  return { items, labels, starts, heads }

/-- The item that reads the whole input from its start. -/
def startItem (its : Items) (g : Productions) : Nat :=
  (its.items.findIdx? fun i => i.lhs == g.symbols.size && i.dot == 0).getD 0

end Items

/-! ## Sets of tokens -/

/-- Interned sets. Set zero is empty. -/
structure SetPool where
  values : Array Nat
  ids : Std.HashMap Nat Nat
  unions : Std.HashMap UInt64 Nat
deriving Inhabited

namespace SetPool

def empty : SetPool := ⟨#[0], Std.HashMap.ofList [(0, 0)], {}⟩

def intern (p : SetPool) (v : Nat) : Nat × SetPool :=
  match p.ids[v]? with
  | some i => (i, p)
  | none => (p.values.size, { p with values := p.values.push v, ids := p.ids.insert v p.values.size })

def union (p : SetPool) (a b : Nat) : Nat × SetPool :=
  if a == b || b == 0 then (a, p)
  else if a == 0 then (b, p)
  else
    let (lo, hi) := if a < b then (a, b) else (b, a)
    let key := lo.toUInt64 <<< 32 ||| hi.toUInt64
    match p.unions[key]? with
    | some i => (i, p)
    | none =>
      let (i, p) := p.intern (p.values[a]! ||| p.values[b]!)
      (i, { p with unions := p.unions.insert key i })

end SetPool

/-! ## What symbols start and end with -/

/-- For each symbol the set of tokens found at the end that `pick` selects of
what it stands for. Repeats until nothing changes. -/
def edgeSets (g : Productions) (pick : Production → Option Step) : Array Nat := Id.run do
  let mut sets : Array Nat :=
    (Array.range (g.symbols.size + 1)).map fun s => if s < g.tokenCount then 1 <<< s else 0
  for _ in [0:g.symbols.size + 1] do
    let mut changed := false
    for p in g.productions do
      if let some s := pick p then
        let old := sets[p.lhs]!
        let new := old ||| sets[s.symbol]!
        if new != old then
          sets := sets.set! p.lhs new
          changed := true
    unless changed do break
  return sets

def firstSets (g : Productions) : Array Nat := edgeSets g fun p => p.steps[0]?

def lastSets (g : Productions) : Array Nat := edgeSets g fun p => p.steps.back?

/-- For each token the set of tokens that may follow it. -/
def followingTokens (g : Productions) (first last : Array Nat) : Array Nat := Id.run do
  let mut out := Array.replicate g.tokenCount 0
  let tokensOf (set : Nat) : List Nat := (List.range g.tokenCount).filter set.testBit
  let patterned := (List.range g.tokenCount).foldl
    (fun acc t => if (g.tokens[t]!).isSome then acc + 1 <<< t else acc) 0
  for p in g.productions do
    for i in [1:p.steps.size] do
      for t in tokensOf last[p.steps[i - 1]!.symbol]! do
        out := out.modify t (· ||| first[p.steps[i]!.symbol]!)
  for e in g.extras do
    if e < g.tokenCount then
      out := out.map (· ||| 1 <<< e)
      out := out.set! e patterned
  return out

end CodeAtlas.Grammar
