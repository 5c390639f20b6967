import CodeAtlas.Grammar.Rule
import Std.Data.HashMap

/-!
# CodeAtlas.Grammar.Production

From rules to plain productions.

1. tokens get numbers in the order in which the rules mention them, after the
   end of the input (number zero) and the word token (number one);
2. a repetition becomes a hidden symbol that joins two of itself, and equal
   repetitions share one symbol;
3. a choice becomes one production per alternative, and the remarks of a rule
   (precedence, alias, field) move to the symbols that they cover;
4. an alias under which a symbol always appears becomes the symbol's own name;
5. inlined rules are replaced by their right-hand sides.
-/

namespace CodeAtlas.Grammar

/-- One symbol of a production's right-hand side, with its remarks. -/
structure Step where
  symbol : Nat
  precedence : Option Int
  assoc : Option Associativity
  shown : Option Alias
  field : Option String
deriving BEq, Hashable, Inhabited

structure Production where
  lhs : Nat
  steps : Array Step
  dynamic : Int
deriving BEq, Inhabited

/-- How a symbol looks in a tree. -/
structure SymbolInfo where
  name : String
  visible : Bool
  named : Bool
  /-- Stands for a repetition. -/
  auxiliary : Bool
deriving Inhabited

/-- A grammar over numbered symbols. Numbers below `tokenCount` are tokens. -/
structure Productions where
  symbols : Array SymbolInfo
  tokenCount : Nat
  /-- Token number to token, for the tokens that have a pattern. -/
  tokens : Array (Option Token)
  productions : Array Production
  start : Nat
  word : Option Nat
  extras : Array Nat
  /-- The symbol of each external token, in the order of the grammar. -/
  externals : Array Nat
  blanks : CharSet
deriving Inhabited

/-! ## Tokens -/

mutual
/-- The tokens of a rule, in the order in which it mentions them. -/
def Rule.tokens : Rule → List Token
  | .token t => [t]
  | .seq rs | .choice rs => Rule.tokensOfList rs
  | .many r | .precedence _ _ r | .dynamic _ r | .field _ r | .renamed _ r => r.tokens
  | .blank | .ref _ => []

def Rule.tokensOfList : List Rule → List Token
  | [] => []
  | r :: rs => r.tokens ++ Rule.tokensOfList rs
end

/-- The token that stands for a text, as an external token names it. -/
def Token.ofText (s : String) : Token := ⟨.text s, some s, false, 0⟩

/-- All tokens, each once, with the number of times that it is mentioned. -/
def countTokens (ts : List Token) : Array (Token × Nat) :=
  ts.foldl
    (fun acc t => match acc.findIdx? (·.1 == t) with
      | some i => acc.modify i (fun (t, n) => (t, n + 1))
      | none => acc.push (t, 1))
    #[]

/-- A rule whose name starts with an underscore, or that names a family, is
hidden. -/
def RuleSet.isHidden (g : RuleSet) (name : String) : Bool :=
  name.startsWith "_" || g.families.contains name

/-! ## Repetitions -/

/-- Rules of repetitions found so far, and how many the current rule has. -/
structure Repetitions where
  found : Array (Rule × String) := #[]
  rules : Array (String × Rule) := #[]
  count : Nat := 0

mutual
/-- Replaces each repetition by the name of its own rule. -/
def Rule.nameRepetitions (owner : String) : Rule → StateM Repetitions Rule
  | .many r => do
    let inner ← r.nameRepetitions owner
    let s ← get
    match s.found.find? (·.1 == inner) with
    | some (_, name) => pure (.ref name)
    | none =>
      let name := owner ++ "_repeat" ++ toString (s.count + 1)
      set { s with
        found := s.found.push (inner, name)
        rules := s.rules.push (name, .choice [.seq [.ref name, .ref name], inner])
        count := s.count + 1 }
      pure (.ref name)
  | .seq rs => .seq <$> Rule.nameRepetitionsList owner rs
  | .choice rs => .choice <$> Rule.nameRepetitionsList owner rs
  | .precedence l a r => .precedence l a <$> r.nameRepetitions owner
  | .dynamic l r => .dynamic l <$> r.nameRepetitions owner
  | .field n r => .field n <$> r.nameRepetitions owner
  | .renamed a r => .renamed a <$> r.nameRepetitions owner
  | r => pure r

def Rule.nameRepetitionsList (owner : String) : List Rule → StateM Repetitions (List Rule)
  | [] => pure []
  | r :: rs => do
    let r' ← r.nameRepetitions owner
    let rs' ← Rule.nameRepetitionsList owner rs
    pure (r' :: rs')
end

/-! ## Alternatives -/

/-- The remarks that cover a place in a rule. -/
structure Remarks where
  precedence : Option Int := none
  assoc : Option Associativity := none
  shown : Option Alias := none
  field : Option String := none

/-- One alternative of a rule. -/
structure Alternative where
  steps : Array Step
  dynamic : Int
deriving BEq, Inhabited

def Alternative.append (a b : Alternative) : Alternative :=
  ⟨a.steps ++ b.steps, if a.dynamic.natAbs < b.dynamic.natAbs then b.dynamic else a.dynamic⟩

/-- Changes the last step of an alternative, if it has one. -/
def Alternative.modifyLast (a : Alternative) (f : Step → Step) : Alternative :=
  { a with steps := a.steps.modify (a.steps.size - 1) f }

mutual
/-- The alternatives of a rule. `atEnd` says that nothing of the whole rule
follows; elsewhere the last step of a rule with a precedence keeps the
precedence of what surrounds the rule, because a reader who has passed it is
outside of it again. -/
def Rule.alternatives (symbolOf : Rule → Nat) (remarks : Remarks) (atEnd : Bool) :
    Rule → List Alternative
  | .blank => [⟨#[], 0⟩]
  | .token t => [⟨#[⟨symbolOf (.token t), remarks.precedence, remarks.assoc, remarks.shown, remarks.field⟩], 0⟩]
  | .ref n => [⟨#[⟨symbolOf (.ref n), remarks.precedence, remarks.assoc, remarks.shown, remarks.field⟩], 0⟩]
  | .many _ => []
  | .seq rs => Rule.seqAlternatives symbolOf remarks atEnd [⟨#[], 0⟩] rs
  | .choice rs => Rule.choiceAlternatives symbolOf remarks atEnd rs
  | .precedence level assoc r =>
    let inside := { remarks with precedence := some level, assoc := assoc <|> remarks.assoc }
    let alts := r.alternatives symbolOf inside atEnd
    if atEnd then alts
    else alts.map fun a => a.modifyLast fun s =>
      { s with precedence := remarks.precedence, assoc := if assoc.isSome then remarks.assoc else s.assoc }
  | .dynamic level r =>
    (r.alternatives symbolOf remarks atEnd).map fun a => Alternative.append ⟨#[], level⟩ a
  | .field n r => r.alternatives symbolOf { remarks with field := some n } atEnd
  | .renamed a r => r.alternatives symbolOf { remarks with shown := some a } atEnd

def Rule.seqAlternatives (symbolOf : Rule → Nat) (remarks : Remarks) (atEnd : Bool)
    (before : List Alternative) : List Rule → List Alternative
  | [] => before
  | r :: rs =>
    let here := r.alternatives symbolOf remarks (atEnd && rs.isEmpty)
    Rule.seqAlternatives symbolOf remarks atEnd
      (before.flatMap fun a => here.map fun b => a.append b) rs

def Rule.choiceAlternatives (symbolOf : Rule → Nat) (remarks : Remarks) (atEnd : Bool) :
    List Rule → List Alternative
  | [] => []
  | r :: rs =>
    r.alternatives symbolOf remarks atEnd ++ Rule.choiceAlternatives symbolOf remarks atEnd rs
end

/-! ## Aliases that always apply -/

/-- Per symbol, the alias that it is shown under everywhere, the most common
one first; none if the symbol also appears under its own name. -/
def defaultAliases (count : Nat) (kept : Nat → Bool) (extras : Array Nat) (ps : Array Production) :
    Array (Option Alias) := Id.run do
  let mut plain := Array.replicate count false
  let mut seen : Array (Array (Alias × Nat)) := Array.replicate count #[]
  for p in ps do
    for s in p.steps do
      if kept s.symbol then
        match s.shown with
        | none => plain := plain.set! s.symbol true
        | some a =>
          seen := seen.modify s.symbol fun as => match as.findIdx? (·.1 == a) with
            | some i => as.modify i fun (a, n) => (a, n + 1)
            | none => as.push (a, 1)
  for e in extras do
    plain := plain.set! e true
  let mut out := Array.replicate count none
  for i in [0:count] do
    unless plain[i]! do
      let best := seen[i]!.foldl
        (fun (acc : Option (Alias × Nat)) (a, n) => match acc with
          | some (_, m) => if m < n then some (a, n) else acc
          | none => some (a, n))
        none
      out := out.set! i (best.map (·.1))
  return out

/-- Drops the aliases that have become a symbol's own name, unless another
production of the same rule needs the alias at the same place. -/
def dropDefaultAliases (default : Array (Option Alias)) (ps : Array Production) : Array Production :=
  ps.map fun p =>
    { p with steps := p.steps.mapIdx fun j s =>
      if s.shown.isSome && s.shown == default[s.symbol]! then
        let needed := ps.any fun q =>
          q.lhs == p.lhs && !(q == p) &&
          match q.steps[j]? with
          | some t => t.shown == s.shown && !(default[t.symbol]! == s.shown)
          | none => false
        if needed then s else { s with shown := none }
      else s }

/-! ## Inlined rules -/

/-- Replaces the step at place `i` by the right-hand side `q`. -/
def Production.inlineAt (p : Production) (i : Nat) (q : Production) : Production :=
  let old := p.steps[i]!
  let inner := q.steps.map fun s =>
    { s with shown := old.shown <|> s.shown, field := old.field <|> s.field }
  let inner := inner.modify (inner.size - 1) fun s =>
    { s with precedence := s.precedence <|> old.precedence, assoc := s.assoc <|> old.assoc }
  { p with
    steps := p.steps.extract 0 i ++ inner ++ p.steps.extract (i + 1) p.steps.size
    dynamic := if p.dynamic.natAbs < q.dynamic.natAbs then q.dynamic else p.dynamic }

/-- All productions that come from `p` by replacing inlined symbols, one step
of replacement per unit of fuel. -/
def Production.inlineAll (isInlined : Nat → Bool) (ofSymbol : Nat → Array Production) :
    (fuel : Nat) → Production → List Production
  | 0, p => [p]
  | fuel + 1, p =>
    match p.steps.findIdx? (fun s => isInlined s.symbol) with
    | none => [p]
    | some i =>
      (ofSymbol p.steps[i]!.symbol).toList.flatMap fun q =>
        (p.inlineAt i q).inlineAll isInlined ofSymbol fuel

/-! ## The whole grammar -/

/-- Numbers the symbols of a grammar and flattens its rules. -/
def RuleSet.flatten (g : RuleSet) : Productions := Id.run do
  -- tokens
  let externalTexts := g.externals.filterMap fun
    | .text s => some (Token.ofText s)
    | .named _ => none
  let counted := countTokens (g.rules.flatMap (fun (_, r) => r.tokens) ++ externalTexts)
  -- a rule that is nothing but a token of its own gives the token its name
  let mut tokenName : Array (Option String) := Array.replicate counted.size none
  let mut isToken : Std.HashMap String Nat := {}
  let mut first := true
  for (name, r) in g.rules do
    if let .token t := r then
      if let some i := counted.findIdx? (·.1 == t) then
        if counted[i]!.2 == 1 && !first && (t.literal.isNone || !g.isHidden name) then
          tokenName := tokenName.set! i (some name)
          isToken := isToken.insert name i
    first := false
  -- numbers of the tokens: the end, the word, the others, the external ones
  let wordIdx := g.word.bind fun w => isToken[w]?
  let order := (match wordIdx with | some i => #[i] | none => #[]) ++
    (Array.range counted.size).filter (fun i => some i != wordIdx)
  let mut number := Array.replicate counted.size 0
  let mut symbols : Array SymbolInfo := #[⟨"end", false, true, false⟩]
  let mut tokens : Array (Option Token) := #[none]
  for i in order do
    number := number.set! i symbols.size
    let (t, _) := counted[i]!
    let info : SymbolInfo := match tokenName[i]!, t.literal with
      | some n, _ => ⟨n, !g.isHidden n, true, false⟩
      | none, some s => ⟨s, true, false, false⟩
      | none, none => ⟨"token", false, false, false⟩
    symbols := symbols.push info
    tokens := tokens.push (some t)
  let mut names : Std.HashMap String Nat := {}
  for (n, i) in isToken.toList do
    names := names.insert n number[i]!
  let mut externals := #[]
  for e in g.externals do
    match e with
    | .text s =>
      externals := externals.push <| match counted.findIdx? (·.1 == Token.ofText s) with
        | some i => number[i]!
        | none => 0
    | .named n =>
      match isToken[n]? with
      | some i => externals := externals.push number[i]!
      | none =>
        names := names.insert n symbols.size
        externals := externals.push symbols.size
        symbols := symbols.push ⟨n, !g.isHidden n, true, false⟩
        tokens := tokens.push none
  let tokenCount := symbols.size
  -- repetitions
  let mut reps : Repetitions := {}
  let mut rules : Array (String × Rule × Bool) := #[]
  for (name, r) in g.rules do
    unless isToken.contains name do
      match r with
      | .many inner =>
        if g.isHidden name then
          let (inner, reps') := (inner.nameRepetitions name).run { reps with count := 0 }
          reps := reps'
          rules := rules.push (name, .choice [.seq [.ref name, .ref name], inner], true)
        else
          let (r, reps') := (r.nameRepetitions name).run { reps with count := 0 }
          reps := reps'
          rules := rules.push (name, r, false)
      | _ =>
        let (r, reps') := (r.nameRepetitions name).run { reps with count := 0 }
        reps := reps'
        rules := rules.push (name, r, false)
  for (name, r) in reps.rules do
    rules := rules.push (name, r, true)
  for (name, _, auxiliary) in rules do
    names := names.insert name symbols.size
    symbols := symbols.push ⟨name, !auxiliary && !g.isHidden name, !auxiliary, auxiliary⟩
  -- productions
  let tokenNumber : Token → Nat := fun t =>
    match counted.findIdx? (·.1 == t) with
    | some i => number[i]!
    | none => 0
  let names' := names
  let symbolOf : Rule → Nat
    | .ref n => names'.getD n 0
    | .token t => tokenNumber t
    | _ => 0
  let mut productions : Array Production := #[]
  for (name, r, _) in rules do
    let lhs := names.getD name 0
    let mut own : Array Production := #[]
    for a in r.alternatives symbolOf {} true do
      let p : Production := ⟨lhs, a.steps, a.dynamic⟩
      unless own.contains p do
        own := own.push p
    productions := productions ++ own
  -- aliases
  let inlined := g.inlined.map fun n => names.getD n 0
  let extras := (g.extras.map fun n => names.getD n 0).toArray
  let default := defaultAliases symbols.size (fun s => !inlined.contains s) extras productions
  productions := dropDefaultAliases default productions
  symbols := symbols.mapIdx fun i s => match default[i]! with
    | some a => { s with name := a.name, visible := true, named := a.named }
    | none => s
  -- inlining
  let productions' := productions
  let ofSymbol (s : Nat) := productions'.filter (·.lhs == s)
  let mut final : Array Production := #[]
  for p in productions do
    unless inlined.contains p.lhs do
      let mut own : Array Production := #[]
      for q in p.inlineAll inlined.contains ofSymbol 16 do
        unless own.contains q do
          own := own.push q
      final := final ++ own
  return {
    symbols, tokenCount, tokens
    productions := final
    start := names.getD ((g.rules.head?.map (·.1)).getD "") 0
    word := wordIdx.map (number[·]!)
    extras, externals
    blanks := g.blanks }

end CodeAtlas.Grammar
