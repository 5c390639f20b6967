import CodeAtlas.Grammar.Automaton
import CodeAtlas.Grammar.Lexicon

/-!
# CodeAtlas.Grammar.Table

The finished reader of a grammar: its states merged where that is harmless, and
for each state the tokens to look for.

1. a *keyword* is a text that the word token matches too; it is looked up after
   a word has been read, and only where the state has a use for it;
2. the recovery state has a use for every token that cannot be mistaken for
   another one;
3. states with the same items are merged unless they act differently, or one of
   them would then look for a token that gets in the way of its own ones, or for
   one that a scanner outside the grammar recognises;
4. states look for tokens in groups, so that a token may be found where it has
   no place; that is how a misplaced token is recognised for what it is.
-/

namespace CodeAtlas.Grammar

/-- The tokens to look for together. -/
structure LexMode where
  /-- Whether the end of the input is looked for. -/
  atEnd : Bool
  /-- Positions at which a token may start, and the same after a blank. -/
  start : Array Nat
  afterBlank : Array Nat
  /-- Tokens that match nothing at all, the preferred one. -/
  nullable : Option Nat
  nullableAfterBlank : Option Nat
  /-- Whether blanks may come first. -/
  blanks : Bool
deriving Inhabited

structure Table where
  grammar : Productions
  lexicon : Lexicon
  labels : Array Label
  states : Array State
  modes : Array LexMode
  /-- Per state its mode; none at the end of a rule that may stand anywhere,
  where the next step does not depend on a token. -/
  modeOf : Array (Option Nat)
  /-- Per state, which external tokens have a use (bit per external). -/
  externalsOf : Array Nat
  keywords : Nat
deriving Inhabited

/-- What is known of the tokens when states are merged. -/
structure TokenFacts where
  grammar : Productions
  overlaps : Overlaps
  keywords : Nat
  /-- Tokens without a pattern, or that an external scanner recognises too. -/
  external : Nat

def bitsOf (size set : Nat) : Array Nat := (Array.range size).filter set.testBit

/-- The sets of tokens that states have a use for, each once. -/
def distinctSets (states : Array State) : Array Nat := Id.run do
  let mut seen : Std.HashSet Nat := {}
  let mut out := #[]
  for s in states do
    let set := s.tokens
    unless seen.contains set do
      seen := seen.insert set
      out := out.push set
  return out

/-- Per token, the tokens that some state has a use for together with it. -/
def companions (count : Nat) (sets : Array Nat) : Array Nat := Id.run do
  let mut out := Array.replicate count 0
  for set in sets do
    for t in bitsOf count set do
      out := out.modify t (· ||| set)
  return out

/-! ## Keywords -/

/-- Whether the token is written in letters and underscores alone. -/
def isWordLike (t : Token) : Bool :=
  match t.literal with
  | some s => s.toList.all fun c => c.isAlpha || c == '_'
  | none => false

/-- The texts that are looked up among words. A text stays a token of its own if
putting the word in its place would get in the way of another token. -/
def findKeywords (g : Productions) (o : Overlaps) (sets : Array Nat) : Nat := Id.run do
  match g.word with
  | none => return 0
  | some word =>
    let candidates := (Array.range g.tokenCount).filter fun t =>
      match g.tokens[t]! with
      | some tok => t != word && isWordLike tok && o.takesSameText t word && !o.hasOtherText t word
      | none => false
    let mut out := 0
    for k in candidates do
      -- tokens that some state has a use for beside the keyword, but not beside a word
      let exposed := sets.foldl
        (fun acc s => if s.testBit k && !s.testBit word then acc ||| s else acc) 0
      let blocked := (bitsOf g.tokenCount exposed).any fun t =>
        (g.tokens[t]!).isSome && !candidates.contains t &&
        !(o.get k t == o.get word t && o.get t k == o.get t word)
      unless blocked do
        out := out + 1 <<< k
    return out

/-! ## Recovery -/

/-- The tokens that the recovery state has a use for. -/
def recoveryTokens (g : Productions) (o : Overlaps) (keywords : Nat) (together : Array Nat) :
    Nat := Id.run do
  let patterned := (Array.range g.tokenCount).filter fun t => (g.tokens[t]!).isSome
  let free := patterned.filter fun i =>
    !patterned.any fun j => j != i && !(together[i]!).testBit j && o.differsInLength i j
  let mut out := 1
  for i in patterned do
    let kept := free.contains i || keywords.testBit i || g.word == some i ||
      !free.any fun t => !(together[i]!).testBit t && o.conflicts i t
    if kept then out := out + 1 <<< i
  for e in g.externals do
    if (g.tokens[e]!).isNone then out := out ||| 1 <<< e
  return out

/-! ## Merging states -/

/-- For each token, the tokens beside which it must not be looked for. -/
def TokenFacts.clashes (f : TokenFacts) : Array Nat :=
  (Array.range f.grammar.tokenCount).map fun new =>
    (Array.range f.grammar.tokenCount).foldl
      (fun acc t =>
        let free := (f.grammar.tokens[t]!).isNone || new == 0 ||
          (f.grammar.word == some t && f.keywords.testBit new) ||
          (f.grammar.word == some new && f.keywords.testBit t) ||
          !(f.overlaps.conflicts new t || f.overlaps.takesSameText new t)
        if free then acc else acc + 1 <<< t) 0

/-- Whether two actions differ, with states taken by their groups. -/
def Action.differs (group : Array Nat) : Action → Action → Bool
  | .shift s r, .shift s' r' => group[s]! != group[s']! || r != r'
  | a, b => a != b

/-- A state as far as merging is concerned: the set of its tokens, their actions,
and the states that follow by symbol. -/
structure Candidate where
  tokens : Nat
  actions : Array (Array Action)
  /-- Symbol and next state, ascending by symbol. -/
  next : Array (Nat × Nat)
deriving Inhabited

def State.candidate (s : State) : Candidate := Id.run do
  let mut next : Array (Nat × Nat) := #[]
  for t in [0:s.actions.size] do
    if let some (.shift target _) := s.actions[t]!.back? then
      next := next.push (t, target)
  for i in [0:s.gotos.size] do
    if s.gotos[i]! != 0 then
      next := next.push (s.actions.size + i, s.gotos[i]!)
  return { tokens := s.tokens, actions := s.actions, next }

/-- Whether two states cannot be merged, judged by what they do now. `never` are
the tokens that no state may gain. -/
def Candidate.conflict (never : Nat) (clashes : Array Nat) (group : Array Nat) (a b : Candidate) :
    Bool := Id.run do
  let both := a.tokens &&& b.tokens
  let onlyA := a.tokens ^^^ both
  let onlyB := b.tokens ^^^ both
  if (onlyA ||| onlyB) &&& never != 0 then return true
  for t in [0:a.actions.size] do
    let x := a.actions[t]!
    let y := b.actions[t]!
    if x.isEmpty then
      unless y.isEmpty do
        if a.tokens &&& clashes[t]! != 0 then return true
    else if y.isEmpty then
      if b.tokens &&& clashes[t]! != 0 then return true
    else
      if x.size != y.size then return true
      for i in [0:x.size] do
        if (x[i]!).differs group y[i]! then return true
  return false

/-- Whether two states cannot be merged, judged by where they lead. -/
def Candidate.leadsElsewhere (group : Array Nat) (a b : Candidate) : Bool := Id.run do
  let mut j := 0
  for (s, target) in a.next do
    for _ in [0:b.next.size] do
      if h : j < b.next.size then
        if b.next[j].1 < s then j := j + 1 else break
      else break
    if h : j < b.next.size then
      if b.next[j].1 == s && group[b.next[j].2]! != group[target]! then return true
  return false

/-- Takes out of each group the states that cannot stay with an earlier one. -/
def splitGroups (states : Array Candidate)
    (apart : Array Nat → Candidate → Candidate → Bool)
    (groups : Array (Array Nat)) (group : Array Nat) :
    Array (Array Nat) × Array Nat × Bool := Id.run do
  let mut groups := groups
  let mut group := group
  let mut changed := false
  for g in [0:states.size] do
    if groups.size ≤ g then break
    let members := groups[g]!
    let mut out : Array Bool := Array.replicate members.size false
    for i in [0:members.size] do
      unless out[i]! do
        for j in [i + 1:members.size] do
          unless out[j]! do
            if apart group states[members[i]!]! states[members[j]!]! then
              out := out.set! j true
    if out.any id then
      changed := true
      let mut stay : Array Nat := #[]
      let mut leave : Array Nat := #[]
      for i in [0:members.size] do
        if out[i]! then leave := leave.push members[i]! else stay := stay.push members[i]!
      for s in leave do
        group := group.set! s groups.size
      groups := (groups.set! g stay).push leave
  return (groups, group, changed)

def Action.mapState (f : Nat → Nat) : Action → Action
  | .shift s r => .shift (f s) r
  | a => a

def State.mapStates (f : Nat → Nat) (s : State) : State :=
  { s with
    actions := s.actions.map (·.map (·.mapState f))
    gotos := s.gotos.map fun t => if t == 0 then 0 else f t }

/-- Merges states. States zero and one keep their numbers. -/
def TokenFacts.merge (f : TokenFacts) (states : Array State) : Array State := Id.run do
  let candidates := states.map (·.candidate)
  let cores := states.foldl (fun n s => max n (s.core + 1)) 0
  let mut groups : Array (Array Nat) := Array.replicate cores #[]
  let mut group : Array Nat := #[]
  for i in [0:states.size] do
    let c := states[i]!.core
    groups := groups.modify c (·.push i)
    group := group.push c
  let never := f.external ||| 1 <<< f.grammar.tokenCount
  let (gs, g, _) := splitGroups candidates (Candidate.conflict never f.clashes) groups group
  groups := gs
  group := g
  for _ in [0:states.size] do
    let (gs, g, changed) := splitGroups candidates Candidate.leadsElsewhere groups group
    groups := gs
    group := g
    unless changed do break
  -- the recovery state and the start come first
  let e := group[0]!
  let s := group[1]!
  let order := #[e, s] ++ (Array.range groups.size).filter fun i => i != e && i != s && !groups[i]!.isEmpty
  let mut number := Array.replicate groups.size 0
  for i in [0:order.size] do
    number := number.set! order[i]! i
  let number' := number
  let group' := group
  let target (s : Nat) : Nat := number'[group'[s]!]!
  let mut out : Array State := #[]
  for o in order do
    let members := groups[o]!
    let mut actions := states[members[0]!]!.actions
    let mut gotos := states[members[0]!]!.gotos
    for m in members.extract 1 members.size do
      let other := states[m]!
      for t in [0:actions.size] do
        unless other.actions[t]!.isEmpty do
          actions := actions.set! t other.actions[t]!
      for t in [0:gotos.size] do
        if other.gotos[t]! != 0 then
          gotos := gotos.set! t other.gotos[t]!
    out := out.push ((State.mk actions gotos 0).mapStates target)
  return out

/-! ## Steps that change nothing -/

/-- Goes straight to the state after a reduction of one hidden symbol to another,
where a state allows nothing else. -/
def skipUnitReductions (g : Productions) (plain : Nat → Bool) (states : Array State) :
    Array State := Id.run do
  let mut unit : Array (Option Nat) := #[]
  for s in states do
    let mut symbol : Option Nat := none
    let mut only := true
    for as in s.actions do
      for a in as do
        match a with
        | .skip => pure ()
        | .reduce sym 1 0 0 =>
          if plain sym && (symbol.isNone || symbol == some sym) then
            symbol := some sym
          else
            only := false
        | _ => only := false
    unit := unit.push (if only then symbol else none)
  let unit' := unit
  return states.map fun s =>
    let gotos := s.gotos
    let hop (t : Nat) : Nat := match unit'[t]! with
      | some sym => let n := gotos[sym - g.tokenCount]!; if n == 0 then t else n
      | none => t
    let settle (t : Nat) : Nat := (List.range 64).foldl (fun t _ => hop t) t
    s.mapStates settle

/-- Drops the states that nothing leads to. -/
def dropUnused (states : Array State) : Array State := Id.run do
  let mut used := Array.replicate states.size false
  let mut queue := #[0, 1]
  for _ in [0:states.size * 512] do
    match queue.back? with
    | none => break
    | some i =>
      queue := queue.pop
      unless used[i]! do
        used := used.set! i true
        for as in states[i]!.actions do
          for a in as do
            if let .shift t _ := a then
              unless used[t]! do queue := queue.push t
        for t in states[i]!.gotos do
          unless used[t]! do queue := queue.push t
  let mut number := Array.replicate states.size 0
  let mut kept : Array State := #[]
  for i in [0:states.size] do
    if used[i]! then
      number := number.set! i kept.size
      kept := kept.push states[i]!
  let number' := number
  return kept.map (·.mapStates fun t => number'[t]!)

/-! ## Groups of tokens -/

/-- For each token, the tokens beside which it must not be looked for unless a
state has a use for both. -/
def TokenFacts.rivals (f : TokenFacts) (companions : Array Nat) : Array Nat :=
  let readable := (Array.range f.grammar.tokenCount).filter fun t => (f.grammar.tokens[t]!).isSome
  (Array.range f.grammar.tokenCount).map fun i =>
    if (f.grammar.tokens[i]!).isNone then 0
    else readable.foldl
      (fun acc t =>
        if f.overlaps.conflicts i t || f.overlaps.begins i t ||
          (!(companions[i]!).testBit t && (f.overlaps.overlaps t i || f.overlaps.overlaps i t))
        then acc + 1 <<< t else acc) 0

/-- Whether the tokens of two states can be looked for together. -/
def together (rivals : Array Nat) (a b : Nat) : Bool := Id.run do
  let difference := a ^^^ b
  for i in [0:rivals.size] do
    if difference.testBit i then
      let other := if a.testBit i then b else a
      if other &&& rivals[i]! != 0 then return false
  return true

def LexMode.ofTokens (lx : Lexicon) (tokens : Array Nat) (atEnd : Bool) : LexMode :=
  let readable := tokens.filter fun t => lx.tokens[t]!.readable
  let free := readable.filter fun t => !lx.tokens[t]!.immediate
  let starts (ts : Array Nat) := ts.foldl (fun acc t => acc ++ lx.tokens[t]!.first) #[]
  let empty (ts : Array Nat) := ts.foldl
    (fun acc t => if lx.tokens[t]!.nullable then lx.better acc t else acc) none
  { atEnd
    start := starts readable, afterBlank := starts free
    nullable := empty readable, nullableAfterBlank := empty free
    blanks := !free.isEmpty }

/-! ## The table -/

/-- Whether the productions name a symbol under an alias anywhere. -/
def aliasedSymbols (g : Productions) : Array Bool := Id.run do
  let mut out := Array.replicate g.symbols.size false
  for p in g.productions do
    for s in p.steps do
      if s.shown.isSome then out := out.set! s.symbol true
  return out

/-- Builds the reader of a grammar. -/
def Table.ofGrammar (grammar : RuleSet) : Table := Id.run do
  let g := grammar.flatten
  let items := Items.ofProductions g
  let first := firstSets g
  let lexicon := Lexicon.ofProductions g
  let (all, _) := allStates g items first
  let overlaps := lexicon.overlaps (followingTokens g first (lastSets g))
  let sets := distinctSets all
  let companions := companions g.tokenCount sets
  let keywords := findKeywords g overlaps sets
  let recovery := recoveryTokens g overlaps keywords companions
  let mut states := all
  states := states.modify 0 fun s =>
    { s with actions := s.actions.mapIdx fun t as =>
        if as.isEmpty && recovery.testBit t then #[.recover] else as }
  let external := g.externals.foldl (fun acc e => acc ||| 1 <<< e) 0
  let facts : TokenFacts := { grammar := g, overlaps, keywords, external }
  states := facts.merge states
  let aliased := aliasedSymbols g
  let families := g.symbols.map fun s => grammar.families.contains s.name
  states := skipUnitReductions g
    (fun s => !g.symbols[s]!.visible && !families[s]! && !g.extras.contains s && !aliased[s]!) states
  states := dropUnused states
  -- groups of tokens
  let rivals := facts.rivals companions
  let wordSet := match g.word with | some w => 1 <<< w | none => 0
  let mut groups : Array Nat := #[]
  let mut groupOf : Array (Option Nat) := #[]
  for s in states do
    let set := s.tokens
    if set.testBit g.tokenCount then
      groupOf := groupOf.push none
    else
      let plain := (bitsOf g.tokenCount set).foldl
        (fun acc t => if keywords.testBit t then acc ||| wordSet
          else if (g.tokens[t]!).isSome || t == 0 then acc ||| 1 <<< t else acc) 0
      match groups.findIdx? fun other => together rivals other plain with
      | some i =>
        groups := groups.modify i (· ||| plain)
        groupOf := groupOf.push (some i)
      | none =>
        groupOf := groupOf.push (some groups.size)
        groups := groups.push plain
  let modes := groups.map fun set => LexMode.ofTokens lexicon (bitsOf g.tokenCount set) (set.testBit 0)
  let externalsOf := states.map fun s => Id.run do
    let mut out := 0
    for i in [0:g.externals.size] do
      unless s.actions[g.externals[i]!]!.isEmpty do
        out := out + 1 <<< i
    return out
  return { grammar := g, lexicon, labels := items.labels, states, modes, modeOf := groupOf,
           externalsOf, keywords }

end CodeAtlas.Grammar
