import CodeAtlas.Parsing.Stack

/-!
# CodeAtlas.Parsing.Engine

Reads a text by a table, whatever the text.

1. where the table allows several actions, all of them are tried on versions of
   the stack of their own;
2. where a token has no place, the version is paused; when no other version does
   better, it goes on by making up a token, by going back to an earlier state in
   which the token has a place, or by leaving the token out;
3. versions that are clearly worse than another one are dropped, and the best
   finished tree wins.
-/

namespace CodeAtlas.Parsing

open CodeAtlas.Grammar

/-! ## Scanners outside the grammar -/

/-- A token found by an outer scanner. -/
structure Scanned (σ : Type) where
  /-- Number of the external token. -/
  token : Nat
  start : Nat
  stop : Nat
  state : σ

/-- Recognises tokens that are not regular. -/
structure Scanner (σ : Type) where
  /-- State before the first token. -/
  initial : σ
  /-- Looks for one of the external tokens that have a use (bit per token). -/
  scan : σ → (useful : Nat) → Source → (place : Nat) → Option (Scanned σ)

/-- What reading a text depends on. -/
structure Reader (σ : Type) where
  table : Table
  scanner : Scanner σ

/-- What reading a text works on. -/
structure Env (σ : Type) where
  reader : Reader σ
  source : Source
  /-- Character classes of the text, and the class of its end. -/
  classes : Array Nat
  endClass : Nat

/-! ## Tokens -/

/-- The result of looking for a token: the token, its start and its end, if there
is one; where the token would have started; and how far the search went. -/
structure Lexed where
  found : Option (Nat × Nat × Nat)
  start : Nat
  reached : Nat

/-- One step of the search. `active` are the positions at which a token may go
on, `done` is a token that ends here. -/
def lexLoop {σ : Type} (env : Env σ) (mode : LexMode) :
    (fuel place start : Nat) → (active : Array Nat) → (inBlanks : Bool) → (done : Option Nat) →
    (best : Option (Nat × Nat × Nat)) → Lexed
  | 0, place, start, _, _, _, best => ⟨best, start, place⟩
  | fuel + 1, place, start, active, inBlanks, done, best =>
    let lx := env.reader.table.lexicon
    let best := match done with
      | some t => some (t, start, place)
      | none => best
    let atEnd := env.source.atEnd place
    if atEnd && mode.atEnd && inBlanks then ⟨some (0, start, place), start, place⟩
    else
      let cls := if atEnd then env.endClass else env.classes.getD place 0
      let k := lx.alphabet.size
      let matched := active.filter fun p => lx.reads.get! (p * k + cls) == 1
      let blank := inBlanks && mode.blanks && lx.isBlank.getD cls false && !atEnd
      if matched.isEmpty && !blank then ⟨best, start, place⟩
      else
        let prec := matched.foldl
          (fun (acc : Option Int) p =>
            let q := (lx.tokens.getD (lx.positions.getD p default).token default).precedence
            some (match acc with | some a => max a q | none => q))
          (if blank then some 0 else none)
        let prec := prec.getD 0
        let onlyBlank := matched.isEmpty
        let stops := match done with
          | none => false
          | some d =>
            let info := lx.tokens.getD d default
            if prec < info.precedence then true
            else if prec == info.precedence then
              onlyBlank || (inBlanks && mode.blanks &&
                !((blank && !info.immediate) ||
                  matched.any fun p => (lx.positions.getD p default).token == d))
            else false
        if stops then ⟨best, start, place⟩
        else
          let next := matched.foldl (fun acc p => addAll acc (lx.positions.getD p default).follow)
            (if blank && !onlyBlank then mode.afterBlank else #[])
          let done := matched.foldl
            (fun acc p =>
              let q := lx.positions.getD p default
              if q.ends then lx.better acc q.token else acc)
            (if blank then mode.nullableAfterBlank else none)
          let place' := if atEnd then place else place + 1
          if onlyBlank then
            lexLoop env mode fuel place' place' mode.afterBlank true done best
          else
            lexLoop env mode fuel place' start next blank done best

/-- Looks for one of the tokens of a mode. -/
def lex {σ : Type} (env : Env σ) (mode : LexMode) (place : Nat) : Lexed :=
  -- a byte order mark at the very start is passed over
  let place := if place == 0 && env.source.charAt 0 == '\ufeff' then 1 else place
  lexLoop env mode (env.source.size - place + 8) place place mode.start true mode.nullable none

/-! ## Versions -/

/-- All that changes while a text is read. -/
structure Run (σ : Type) where
  stack : Stack σ
  finished : Option (Subtree σ)
  accepted : Nat

variable {σ : Type} [BEq σ]

abbrev Reading (σ : Type) := ReaderT (Env σ) (StateM (Run σ))

def getStack : Reading σ (Stack σ) := do return (← get).stack

def modifyStack (f : Stack σ → Stack σ) : Reading σ Unit :=
  modify fun r => { r with stack := f r.stack }

/-- The actions of a state on a symbol. -/
def Env.actions (env : Env σ) (state symbol : Nat) : Array Action :=
  if symbol < env.reader.table.grammar.tokenCount then
    ((env.reader.table.states.getD state default).actions).getD symbol #[]
  else #[]

/-- The state after a symbol; zero if there is none. -/
def Env.nextState (env : Env σ) (state symbol : Nat) : Nat :=
  let g := env.reader.table.grammar
  if symbol < g.tokenCount then
    match (env.actions state symbol).back? with
    | some (.shift s _) => s
    | some .skip => state
    | _ => 0
  else ((env.reader.table.states.getD state default).gotos).getD (symbol - g.tokenCount) 0

def startsWithReduce (actions : Array Action) : Bool :=
  match actions.toList with
  | .reduce _ _ _ _ :: _ => true
  | _ => false

/-- How well a version does. -/
structure Standing where
  cost : Nat
  nodeCount : Nat
  dynamic : Int
  inError : Bool

def Stack.standing (s : Stack σ) (v : Nat) : Standing where
  cost := s.cost v + (if s.isPaused v then Cost.skippedTree else 0)
  nodeCount := s.countSinceError v
  dynamic := s.dynamic v
  inError := s.isPaused v || s.state v == 0

inductive Verdict where
  | takeFirst
  | preferFirst
  | none
  | preferSecond
  | takeSecond
deriving BEq

/-- Costs further apart than this decide between versions at once. -/
def maxCostDifference : Nat := 18 * Cost.skippedTree

def Standing.compare (a b : Standing) : Verdict :=
  if !a.inError && b.inError then
    if a.cost < b.cost then .takeFirst else .preferFirst
  else if a.inError && !b.inError then
    if b.cost < a.cost then .takeSecond else .preferSecond
  else if a.cost < b.cost then
    if maxCostDifference < (b.cost - a.cost) * (1 + a.nodeCount) then .takeFirst else .preferFirst
  else if b.cost < a.cost then
    if maxCostDifference < (a.cost - b.cost) * (1 + b.nodeCount) then .takeSecond else .preferSecond
  else if b.dynamic < a.dynamic then .preferFirst
  else if a.dynamic < b.dynamic then .preferSecond
  else .none

/-- Whether a version at the given cost would be worse than another one. -/
def betterVersionExists (version : Nat) (inError : Bool) (cost : Nat) : Reading σ Bool := do
  let r ← get
  if let some f := r.finished then
    if f.cost ≤ cost then return true
  let s := r.stack
  let place := s.place version
  let own : Standing := ⟨cost, s.countSinceError version, s.dynamic version, inError⟩
  for i in [0:s.count] do
    unless i == version || !s.isActive i || s.place i < place do
      match own.compare (s.standing i) with
      | .takeSecond => return true
      | .preferSecond => if s.canMerge i version then return true
      | _ => pure ()
  return false

/-! ## Looking for the next token -/

/-- Looks for the next token of a version; none at the end of a rule that may
stand anywhere. -/
def nextToken (version state : Nat) : Reading σ (Option (Subtree σ)) := do
  let env ← read
  let s ← getStack
  let t := env.reader.table
  let some modeId := t.modeOf.getD state none | return none
  let start := s.place version
  let before := (s.head version).scanner
  let mut mode := t.modes.getD modeId default
  let mut useful := t.externalsOf.getD state 0
  let mut errorMode := state == 0
  let mut place := start
  -- where text that is no token started and ended
  let mut skipped : Option (Nat × Nat) := none
  for _ in [0:env.source.size + 4] do
    if useful != 0 then
      let from' := if place == 0 && env.source.charAt 0 == '\ufeff' then 1 else place
      match env.reader.scanner.scan (before.getD env.reader.scanner.initial) useful env.source from' with
      | some found =>
        let changed := !(before == some found.state)
        let symbol := t.grammar.externals.getD found.token 0
        let idle := found.stop ≤ place && !changed &&
          (errorMode || !s.hasAdvanced version || env.nextState state symbol == state)
        unless idle do
          match skipped with
          | some (a, z) => return some (leaf t (errorSymbol t) start a z)
          | none =>
            match (leaf t symbol start found.start found.stop : Subtree σ) with
            | .mk sum cs =>
              return some (.mk { sum with scanner := some found.state, scannerChanged := changed } cs)
      | none => pure ()
    let l := lex env mode place
    match l.found with
    | some (symbol, a, z) =>
      match skipped with
      | some (a, z) => return some (leaf t (errorSymbol t) start a z)
      | none =>
        if t.grammar.word == some symbol then
          let text := env.source.slice a z
          match t.lexicon.literals[text]? with
          | some k =>
            if t.keywords.testBit k && !(env.actions state k).isEmpty then
              return some ((leaf t k start a z).setKeyword true)
            else return some (leaf t symbol start a z)
          | none => return some (leaf t symbol start a z)
        else return some (leaf t symbol start a z)
    | none =>
      if !errorMode then
        errorMode := true
        mode := t.modes.getD ((t.modeOf.getD 0 none).getD 0) default
        useful := t.externalsOf.getD 0 0
        place := start
      else
        let (a, z) := skipped.getD (l.start, l.start)
        if l.reached == z then
          if env.source.atEnd l.reached then
            return some (leaf t (errorSymbol t) start a z)
          skipped := some (a, l.reached + 1)
          place := l.reached + 1
        else
          skipped := some (a, l.reached)
          place := l.reached
  return some (leaf t 0 start place place)

/-! ## Building nodes -/

/-- The most versions kept, and how many more may exist for a while. -/
def maxVersions : Nat := 6
def maxVersionsOverflow : Nat := 4

/-- Replaces the last `count` nodes of a version by one node; gives the first
version that came of it, if any. -/
def reduce (version symbol count : Nat) (dynamic : Int) (label : Nat) (endOfExtra : Bool) :
    Reading σ (Option Nat) := do
  let env ← read
  let t := env.reader.table
  let s ← getStack
  let initial := s.count
  let (s, slices) := s.popCount version count
  modifyStack fun _ => s
  let mut removed := 0
  let mut i := 0
  for _ in [0:slices.size] do
    if h : i < slices.size then
      let slice := slices[i]
      let v := slice.version - removed
      -- several lists of nodes may lead to this version
      let mut others : Array (Array (Subtree σ)) := #[]
      for j in [i + 1:slices.size] do
        if (slices.getD j default).version == slice.version then
          others := others.push (slices.getD j default).trees
        else break
      i := i + 1 + others.size
      if maxVersions + maxVersionsOverflow < v then
        modifyStack (·.remove v)
        removed := removed + 1
      else
        let s ← getStack
        let (children, extras) := splitTrailingExtras slice.trees
        let mut trailing := extras
        let place := s.place v
        let mut parent := node t env.source symbol label children place
        for trees in others do
          let (children, extras) := splitTrailingExtras trees
          if prefersSecond parent (node t env.source symbol 0 children place) then
            trailing := extras
            parent := node t env.source symbol label children place
        let state := s.state v
        let next := env.nextState state symbol
        let final := match parent with
          | .mk sum cs => Subtree.mk { sum with
              extra := endOfExtra && next == state, dynamic := sum.dynamic + dynamic } cs
        modifyStack (·.push t v (some final) next)
        for x in trailing do
          modifyStack (·.push t v (some x) next)
        for j in [0:v] do
          unless j == version do
            let (s, merged) := (← getStack).merge t j v
            if merged then
              modifyStack fun _ => s
              removed := removed + 1
              break
  if initial < (← getStack).count then return some initial else return none

/-- Finishes a version: what it holds becomes one tree. -/
def accept (version : Nat) (lookahead : Subtree σ) : Reading σ Unit := do
  let env ← read
  let t := env.reader.table
  let s := (← getStack).push t version (some lookahead) 1
  let (s, slices) := s.popAll version
  modifyStack fun _ => s
  for slice in slices do
    let trees := slice.trees
    let last := (List.range trees.size).reverse.find? fun j => !(trees.getD j default).isExtra
    if let some j := last then
      let x := trees.getD j default
      let all := trees.extract 0 j ++ x.children ++ trees.extract (j + 1) trees.size
      let root := node t env.source x.symbol x.summary.label all x.summary.stop
      modify fun r => { r with
        accepted := r.accepted + 1
        finished := match r.finished with
          | some f => if prefersSecond f root then some root else some f
          | none => some root }
  if let some slice := slices[0]? then
    modifyStack (·.remove slice.version)
  modifyStack (·.halt version)

/-! ## Recovery -/

/-- Does all reductions that some token would allow, or that one token allows;
says whether the token (or any) can then be read. Token zero stands for any. -/
def reduceAll (starting token : Nat) : Reading σ Bool := do
  let env ← read
  let t := env.reader.table
  let initial := (← getStack).count
  let mut canShift := false
  let mut version := starting
  for i in [0:4096] do
    let count := (← getStack).count
    if count ≤ version then break
    let mut merged := false
    for j in [initial:version] do
      let (s, m) := (← getStack).merge t j version
      if m then
        modifyStack fun _ => s
        merged := true
        break
    unless merged do
      let state := (← getStack).state version
      let mut shifts := false
      let mut reductions : Array (Nat × Nat × Int × Nat) := #[]
      let first := if token != 0 then token else 1
      let last := if token != 0 then token + 1 else t.grammar.tokenCount
      for symbol in [first:last] do
        for a in env.actions state symbol do
          match a with
          | .shift _ repetition => unless repetition do shifts := true
          | .recover => shifts := true
          | .reduce sym n dyn label =>
            if 0 < n then
              unless reductions.any fun (s, m, _, _) => s == sym && m == n do
                reductions := reductions.push (sym, n, dyn, label)
          | _ => pure ()
      let mut reached : Option Nat := none
      for (sym, n, dyn, label) in reductions do
        reached ← reduce version sym n dyn label false
      let mut again := false
      if shifts then
        canShift := true
      else
        match reached with
        | some r =>
          if i < maxVersions then
            modifyStack (·.renumber r version)
            again := true
          else if token != 0 then modifyStack (·.remove version)
        | none => if token != 0 then modifyStack (·.remove version)
      unless again do
        version := if version == starting then count else version + 1
  return canShift

/-- Goes back to an earlier state; what lies above becomes skipped text. -/
def recoverTo (version depth goal : Nat) : Reading σ Bool := do
  let env ← read
  let t := env.reader.table
  let (s, slices) := (← getStack).popCount version depth
  modifyStack fun _ => s
  let mut previous : Option Nat := none
  for slice in slices do
    unless previous == some slice.version do
      if (← getStack).state slice.version != goal then
        modifyStack (·.halt slice.version)
      else
        let (s, errors) := (← getStack).popError t slice.version
        modifyStack fun _ => s
        let trees := (errors[0]?.map (·.children)).getD #[] ++ slice.trees
        let (inside, extras) := splitTrailingExtras trees
        unless inside.isEmpty do
          let error := (node t env.source (errorSymbol t) 0 inside 0).setExtra true
          modifyStack (·.push t slice.version (some error) goal)
        for x in extras do
          modifyStack (·.push t slice.version (some x) goal)
        previous := some slice.version
  return previous.isSome

/-- Goes on from a token without a place. -/
def recover (version : Nat) (lookahead : Subtree σ) : Reading σ Unit := do
  let env ← read
  let t := env.reader.table
  let s ← getStack
  let count := s.count
  let place := s.place version
  let sinceError := s.countSinceError version
  let cost := s.cost version
  let isErrorToken := lookahead.symbol == errorSymbol t
  let mut recovered := false
  unless isErrorToken do
    for past in (s.head version).past.getD #[] do
      unless past.state == 0 || past.place == place do
        let depth := if 0 < sinceError then past.depth + 1 else past.depth
        let s ← getStack
        let taken := (List.range count).any fun j => s.state j == past.state && s.place j == place
        unless taken do
          let newCost := cost + past.depth * Cost.skippedTree +
            (env.source.offset place - env.source.offset past.place) * Cost.skippedChar +
            (env.source.row place - env.source.row past.place) * Cost.skippedLine
          if ← betterVersionExists version false newCost then break
          unless (env.actions past.state lookahead.symbol).isEmpty do
            if ← recoverTo version depth past.state then
              recovered := true
              break
  -- versions that were given up meanwhile
  modifyStack fun s =>
    { s with heads := (s.heads.extract 0 count) ++
        (s.heads.extract count s.heads.size).filter fun h => match h.status with
          | .active => true
          | _ => false }
  if recovered && (maxVersions < (← getStack).count || lookahead.summary.scannerChanged) then
    modifyStack (·.halt version)
    return
  if lookahead.symbol == 0 then
    let parent := node t env.source (errorSymbol t) 0 #[] place
    modifyStack (·.push t version (some parent) 1)
    accept version lookahead
    return
  let sum := lookahead.summary
  let newCost := cost + Cost.skippedTree +
    (env.source.offset sum.stop - env.source.offset sum.pad) * Cost.skippedChar +
    (env.source.row sum.stop - env.source.row sum.pad) * Cost.skippedLine
  if ← betterVersionExists version false newCost then
    modifyStack (·.halt version)
    return
  let lookahead := match (env.actions 1 lookahead.symbol).back? with
    | some .skip => lookahead.setExtra true
    | _ => lookahead
  let mut skippedRun := node t env.source (errorRunSymbol t) 0 #[lookahead] place
  if 0 < sinceError then
    let (s, slices) := (← getStack).popCount version 1
    modifyStack fun _ => s
    if let some slice := slices[0]? then
      modifyStack fun s => { s with heads := s.heads.extract 0 (slice.version + 1) }
      modifyStack (·.renumber slice.version version)
      skippedRun := node t env.source (errorRunSymbol t) 0 (slice.trees.push skippedRun) place
  modifyStack (·.push t version (some skippedRun) 0)
  if lookahead.summary.scanner.isSome then
    modifyStack (·.modifyHead version fun h => { h with scanner := lookahead.summary.scanner })

/-- Starts recovery of a version that has met a token without a place. -/
def handleError (version : Nat) (lookahead : Subtree σ) : Reading σ Unit := do
  let env ← read
  let t := env.reader.table
  let previous := (← getStack).count
  discard <| reduceAll version 0
  let count := (← getStack).count
  let place := (← getStack).place version
  let mut madeUp := false
  let mut v := version
  for _ in [0:count + 1] do
    unless v < count do break
    unless madeUp do
      let state := (← getStack).state v
      for symbol in [1:t.grammar.tokenCount] do
        let after := env.nextState state symbol
        unless after == 0 || after == state do
          if startsWithReduce (env.actions after lookahead.symbol) then
            let (s, copy) := (← getStack).copy v
            modifyStack fun _ => s
            let tree := match (leaf t symbol place place place : Subtree σ) with
              | .mk sum cs => Subtree.mk { sum with missing := true } cs
            modifyStack (·.push t copy (some tree) after)
            if ← reduceAll copy lookahead.symbol then
              madeUp := true
              break
    modifyStack (·.push t v none 0)
    v := if v == version then previous else v + 1
  for _ in [previous:count] do
    modifyStack fun s => (s.merge t version previous).1
  modifyStack fun s => s.modifyHead version fun h => { h with past := some (s.pastOf version 16) }
  recover version lookahead

/-! ## Reading on -/

/-- Reads on with one version until it has taken a token, or cannot. -/
def advance (version : Nat) : Reading σ Unit := do
  let env ← read
  let t := env.reader.table
  let mut state := (← getStack).state version
  let mut lookahead ← nextToken version state
  let actionsOf (state : Nat) (lookahead : Option (Subtree σ)) : Array Action := match lookahead with
    | some x => env.actions state x.symbol
    | none => ((t.states.getD state default).actions).getD t.grammar.tokenCount #[]
  let mut actions := actionsOf state lookahead
  for _ in [0:100000] do
    let mut reduced := false
    let mut last : Option Nat := none
    for a in actions do
      match a, lookahead with
      | .shift next repetition, some x =>
        unless repetition do
          let x := if x.isExtra then x.setExtra false else x
          modifyStack (·.push t version (some x) next)
          if x.summary.scanner.isSome then
            modifyStack (·.modifyHead version fun h => { h with scanner := x.summary.scanner })
          return
      | .skip, some x =>
        modifyStack (·.push t version (some (x.setExtra true)) state)
        if x.summary.scanner.isSome then
          modifyStack (·.modifyHead version fun h => { h with scanner := x.summary.scanner })
        return
      | .reduce symbol n dynamic label, _ =>
        let r ← reduce version symbol n dynamic label lookahead.isNone
        reduced := true
        if r.isSome then last := r
      | .accept, some x =>
        accept version x
        return
      | .recover, some x =>
        recover version x
        return
      | _, none => pure ()
    match last with
    | some r =>
      modifyStack (·.renumber r version)
      state := (← getStack).state version
      if lookahead.isNone then
        lookahead ← nextToken version state
      actions := actionsOf state lookahead
    | none =>
      if reduced then
        modifyStack (·.halt version)
        return
      match lookahead with
      | none =>
        modifyStack (·.halt version)
        return
      | some x =>
        -- a keyword without a place may still be a word
        let asWord := match t.grammar.word with
          | some w => if x.summary.keyword && x.symbol != w && !(env.actions state w).isEmpty
              then some w else none
          | none => none
        match asWord with
        | some w =>
          let x := x.setSymbol w (isVisible t w)
          lookahead := some x
          actions := env.actions state w
        | none =>
          if state == 0 then
            recover version x
            return
          modifyStack fun s => s.modifyHead version fun h =>
            { h with status := .paused x, countAtError := (s.top version).nodeCount }
          return

/-- Drops versions that are clearly worse than another one, orders the others,
and lets the best paused one go on if none else can; gives the least cost of a
version that is not in recovery. -/
def condense : Reading σ (Option Nat) := do
  let env ← read
  let t := env.reader.table
  let mut least : Option Nat := none
  let mut i := 0
  for _ in [0:1000] do
    let s ← getStack
    unless i < s.count do break
    if s.isHalted i then
      modifyStack (·.remove i)
    else
      let own := s.standing i
      if !own.inError && least.all (own.cost < ·) then
        least := some own.cost
      -- compare with each version before it; `gone` says that this one left its place
      let mut gone := false
      let mut j := 0
      for _ in [0:1000] do
        unless j < i && !gone do break
        let s ← getStack
        match (s.standing j).compare own with
        | .takeFirst =>
          modifyStack (·.remove i)
          gone := true
        | .preferFirst | .none =>
          let (s, merged) := s.merge t j i
          modifyStack fun _ => s
          if merged then gone := true else j := j + 1
        | .preferSecond =>
          let (s, merged) := s.merge t j i
          if merged then
            modifyStack fun _ => s
            gone := true
          else
            modifyStack fun _ => s.swap i j
            j := j + 1
        | .takeSecond =>
          modifyStack (·.remove j)
          i := i - 1
      unless gone do i := i + 1
  modifyStack fun s => { s with heads := s.heads.extract 0 maxVersions }
  -- resume the best paused version if nothing else goes on
  let mut running := false
  let mut v := 0
  for _ in [0:maxVersions + 1] do
    let s ← getStack
    unless v < s.count do break
    match (s.head v).status with
    | .paused lookahead =>
      if !running && (← get).accepted < maxVersions then
        least := some (s.cost v)
        modifyStack (·.modifyHead v fun h => { h with status := .active })
        handleError v lookahead
        running := true
        v := v + 1
      else
        modifyStack (·.remove v)
    | _ =>
      running := true
      v := v + 1
  return least

/-- Reads the whole text. -/
def readAll : Reading σ Unit := do
  let env ← read
  let mut last := 0
  for _ in [0:64 * (env.source.size + 16)] do
    let mut version := 0
    for _ in [0:1000] do
      unless version < (← getStack).count do break
      for _ in [0:100000] do
        unless (← getStack).isActive version do break
        advance version
        let place := (← getStack).place version
        if last < place || (0 < version && place == last) then
          last := place
          break
      version := version + 1
    let count := version
    let least ← condense
    let r ← get
    if let some f := r.finished then
      if least.all (f.cost < ·) then break
    if count == 0 then break

/-- Reads a text; none if it could not be read at all. -/
def Reader.parse (reader : Reader σ) (source : Source) : Option (Subtree σ) :=
  let alphabet := reader.table.lexicon.alphabet
  let env : Env σ := {
    reader, source
    classes := source.chars.map fun c => alphabet.classOf c.toNat
    endClass := alphabet.classOf 0 }
  let (_, run) := (readAll.run env).run ⟨Stack.initial, none, 0⟩
  run.finished

end CodeAtlas.Parsing
