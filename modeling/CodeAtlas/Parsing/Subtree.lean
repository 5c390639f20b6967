import CodeAtlas.Grammar.Table
import CodeAtlas.Parsing.Source

/-!
# CodeAtlas.Parsing.Subtree

Nodes as a reader builds them, with what it needs to know to compare one reading
of a text with another.

1. every mistake has a *cost*: so much for each place where reading broke off,
   for each token left out, each character of it, each line of it, and each token
   made up;
2. the *dynamic* precedence of a node adds up the preferences of its parts;
3. a node also tells how many visible nodes it holds, so that a reader knows how
   far it got since its last mistake.
-/

namespace CodeAtlas.Parsing

open CodeAtlas.Grammar

/-! ## Costs of mistakes -/

namespace Cost

def recovery : Nat := 500
def missing : Nat := 110
def skippedTree : Nat := 100
def skippedChar : Nat := 1
def skippedLine : Nat := 30

end Cost

/-! ## Nodes -/

/-- What is known of a node. Places are numbers of characters; `pad` is where
the blanks before the node start. `σ` is the state of the outer scanner. -/
structure Summary (σ : Type) where
  symbol : Nat
  pad : Nat
  start : Nat
  stop : Nat
  label : Nat
  /-- Stands between tokens, where the grammar says nothing of it. -/
  extra : Bool
  /-- Was made up. -/
  missing : Bool
  visible : Bool
  keyword : Bool
  cost : Nat
  visibleChildren : Nat
  descendants : Nat
  dynamic : Int
  /-- The scanner's state after the last token of its own in the node. -/
  scanner : Option σ
  /-- Whether a token in the node changed the scanner's state. -/
  scannerChanged : Bool
deriving Inhabited

inductive Subtree (σ : Type) where
  | mk (summary : Summary σ) (children : Array (Subtree σ))

namespace Subtree

variable {σ : Type}

instance : Inhabited (Subtree σ) := ⟨.mk default #[]⟩

def summary : Subtree σ → Summary σ
  | .mk s _ => s

def children : Subtree σ → Array (Subtree σ)
  | .mk _ cs => cs

def symbol (t : Subtree σ) : Nat := t.summary.symbol

def isExtra (t : Subtree σ) : Bool := t.summary.extra

def setExtra (t : Subtree σ) (e : Bool) : Subtree σ :=
  match t with
  | .mk s cs => .mk { s with extra := e } cs

def setSymbol (t : Subtree σ) (symbol : Nat) (visible : Bool) : Subtree σ :=
  match t with
  | .mk s cs => .mk { s with symbol, visible } cs

def setKeyword (t : Subtree σ) (k : Bool) : Subtree σ :=
  match t with
  | .mk s cs => .mk { s with keyword := k } cs

def cost (t : Subtree σ) : Nat :=
  if t.summary.missing then Cost.missing + Cost.recovery else t.summary.cost

/-- Visible nodes in the tree, the top included; a run of skipped tokens counts
as one more. -/
def nodeCount (errorRun : Nat) (t : Subtree σ) : Nat :=
  t.summary.descendants + (if t.summary.visible then 1 else 0) +
    (if t.symbol == errorRun then 1 else 0)

end Subtree

/-! ## Symbols of recovery -/

/-- The symbol of a node that holds text without a place in the grammar. -/
def errorSymbol (t : Table) : Nat := t.grammar.symbols.size + 1

/-- The symbol of tokens skipped so far. -/
def errorRunSymbol (t : Table) : Nat := t.grammar.symbols.size + 2

def isVisible (t : Table) (symbol : Nat) : Bool :=
  symbol == errorSymbol t || ((t.grammar.symbols[symbol]?).map (·.visible)).getD false

variable {σ : Type}

/-- A node without children. -/
def leaf (t : Table) (symbol pad start stop : Nat) : Subtree σ :=
  .mk { symbol, pad, start, stop, label := 0, extra := symbol == 0, missing := false,
        visible := isVisible t symbol, keyword := false, cost := 0, visibleChildren := 0,
        descendants := 0, dynamic := 0, scanner := none, scannerChanged := false } #[]

/-- A node from its children; `place` is where it stands if it has none. -/
def node (t : Table) (src : Source) (symbol label : Nat) (children : Array (Subtree σ))
    (place : Nat) : Subtree σ := Id.run do
  let isError := symbol == errorSymbol t || symbol == errorRunSymbol t
  let shown := (t.labels[label]?.map (·.shown)).getD #[]
  let mut index := 0
  let mut cost := 0
  let mut visibleChildren := 0
  let mut descendants := 0
  let mut dynamic : Int := 0
  let mut scanner : Option σ := none
  let mut changed := false
  for c in children do
    let s := c.summary
    if s.symbol != errorRunSymbol t then
      cost := cost + c.cost
    if isError && !s.extra && !(s.symbol == errorSymbol t && c.children.isEmpty) then
      if s.visible then cost := cost + Cost.skippedTree
      else if !c.children.isEmpty then cost := cost + Cost.skippedTree * s.visibleChildren
    dynamic := dynamic + s.dynamic
    descendants := descendants + s.descendants
    if !s.extra && s.symbol != 0 && ((shown[index]?).join).isSome then
      descendants := descendants + 1
      visibleChildren := visibleChildren + 1
    else if s.visible then
      descendants := descendants + 1
      visibleChildren := visibleChildren + 1
    else if !c.children.isEmpty then
      visibleChildren := visibleChildren + s.visibleChildren
    if s.scanner.isSome then scanner := s.scanner
    if s.scannerChanged then changed := true
    if !s.extra then index := index + 1
  let (pad, start, stop) := match children[0]?, children.back? with
    | some a, some z => (a.summary.pad, a.summary.start, z.summary.stop)
    | _, _ => (place, place, place)
  if isError then
    cost := cost + Cost.recovery + Cost.skippedChar * (src.offset stop - src.offset start) +
      Cost.skippedLine * (src.row stop - src.row start)
  return .mk { symbol, pad, start, stop, label, extra := false, missing := false,
               visible := isVisible t symbol, keyword := false, cost, visibleChildren,
               descendants, dynamic, scanner, scannerChanged := changed } children

/-- Splits off the nodes at the end that may stand anywhere. -/
def splitTrailingExtras (ts : Array (Subtree σ)) : Array (Subtree σ) × Array (Subtree σ) :=
  let n := (ts.toList.reverse.takeWhile Subtree.isExtra).length
  (ts.extract 0 (ts.size - n), ts.extract (ts.size - n) ts.size)

mutual
/-- Which of two trees comes first by symbols and numbers of children, outermost
first. -/
def Subtree.order : Subtree σ → Subtree σ → Ordering
  | .mk a as, .mk b bs =>
    match compare a.symbol b.symbol with
    | .eq =>
      match compare as.size bs.size with
      | .eq => Subtree.orderList as.toList bs.toList
      | o => o
    | o => o

def Subtree.orderList : List (Subtree σ) → List (Subtree σ) → Ordering
  | a :: as, b :: bs =>
    match Subtree.order a b with
    | .eq => Subtree.orderList as bs
    | o => o
  | _, _ => .eq
end

/-- Whether the second of two readings of the same text is preferred. -/
def prefersSecond (a b : Subtree σ) : Bool :=
  if b.cost < a.cost then true
  else if a.cost < b.cost then false
  else if a.summary.dynamic < b.summary.dynamic then true
  else if b.summary.dynamic < a.summary.dynamic then false
  else if 0 < a.cost then true
  else a.order b == .gt

end CodeAtlas.Parsing
