import CodeAtlas.Grammar.Production
import Std.Data.HashMap
import Std.Data.HashSet

/-!
# CodeAtlas.Grammar.Lexicon

The tokens of a grammar as one position automaton over a small alphabet.

1. characters that no token tells apart share a *class*, and all reading is
   done on classes;
2. a *position* is a place in a token's pattern where one character is read;
3. among several tokens the longest one wins, unless a shorter one has the
   higher precedence; equally long ones are settled by precedence, then by kind
   (a written text before a pattern, a token that follows without a blank
   before one that does not), then by order in the grammar.
-/

namespace CodeAtlas.Grammar

/-! ## Character classes -/

/-- The character sets of a pattern. -/
def Pattern.charSets : Pattern → List CharSet
  | .empty => []
  | .chars s => [s]
  | .seq a b | .alt a b => Pattern.charSets a ++ Pattern.charSets b
  | .plus a => Pattern.charSets a

/-- Characters grouped so that no two of one class are told apart. -/
structure Alphabet where
  /-- First code point and class of each interval, ascending. -/
  intervals : Array (Nat × Nat)
  /-- Classes of the ASCII characters. -/
  ascii : Array Nat
  /-- A member of each class. -/
  members : Array Nat
deriving Inhabited

namespace Alphabet

/-- The alphabet that tells apart what one of the given sets tells apart. -/
def ofSets (sets : Array CharSet) : Alphabet := Id.run do
  let mut cuts : Array Nat := #[0]
  for s in sets do
    for (lo, hi) in s.ranges do
      cuts := (cuts.push lo).push (hi + 1)
  cuts := cuts.qsort (· < ·)
  let mut classes : Std.HashMap Nat Nat := {}
  let mut members : Array Nat := #[]
  let mut intervals : Array (Nat × Nat) := #[]
  let mut previous := CharSet.maxCode + 2
  for c in cuts do
    if c != previous && c ≤ CharSet.maxCode then
      previous := c
      let mut signature := 0
      for i in [0:sets.size] do
        if sets[i]!.contains c then
          signature := signature + 1 <<< i
      match classes[signature]? with
      | some k => intervals := intervals.push (c, k)
      | none =>
        intervals := intervals.push (c, members.size)
        classes := classes.insert signature members.size
        members := members.push c
  let intervals' := intervals
  let find (c : Nat) : Nat :=
    (intervals'[CharSet.lastStart intervals' c 32 0 intervals'.size]?.map (·.2)).getD 0
  return { intervals, members, ascii := (Array.range 128).map find }

def classOf (a : Alphabet) (c : Nat) : Nat :=
  match a.ascii[c]? with
  | some k => k
  | none => (a.intervals[CharSet.lastStart a.intervals c 32 0 a.intervals.size]?.map (·.2)).getD 0

def size (a : Alphabet) : Nat := a.members.size

/-- The classes that make up a set. -/
def classesOf (a : Alphabet) (s : CharSet) : Array Nat :=
  (Array.range a.size).filter fun k => s.contains a.members[k]!

end Alphabet

/-! ## Positions -/

/-- A place in a token's pattern where one character is read. -/
structure Position where
  token : Nat
  classes : Array Nat
  /-- Positions that may come next. -/
  follow : Array Nat
  /-- Whether the token may end here. -/
  ends : Bool
deriving Inhabited

/-- Where a pattern may start and end, and whether it matches nothing at all. -/
structure Pattern.Ends where
  nullable : Bool
  first : Array Nat
  last : Array Nat

/-- Members of `b` that `a` lacks, after those of `a`. -/
def addAll (a b : Array Nat) : Array Nat :=
  b.foldl (fun acc x => if acc.contains x then acc else acc.push x) a

/-- Allows the positions `next` after each position in `after`. -/
def link (ps : Array Position) (after next : Array Nat) : Array Position :=
  after.foldl (fun ps p => ps.modify p fun q => { q with follow := addAll q.follow next }) ps

/-- Adds the positions of a pattern. -/
def Pattern.positions (alphabet : Alphabet) (token : Nat) :
    Pattern → StateM (Array Position) Pattern.Ends
  | .empty => pure ⟨true, #[], #[]⟩
  | .chars s => do
    let ps ← get
    set (ps.push ⟨token, alphabet.classesOf s, #[], false⟩)
    pure ⟨false, #[ps.size], #[ps.size]⟩
  | .seq a b => do
    let x ← a.positions alphabet token
    let y ← b.positions alphabet token
    modify fun ps => link ps x.last y.first
    pure ⟨x.nullable && y.nullable,
      if x.nullable then addAll x.first y.first else x.first,
      if y.nullable then addAll x.last y.last else y.last⟩
  | .alt a b => do
    let x ← a.positions alphabet token
    let y ← b.positions alphabet token
    pure ⟨x.nullable || y.nullable, addAll x.first y.first, addAll x.last y.last⟩
  | .plus a => do
    let x ← a.positions alphabet token
    modify fun ps => link ps x.last x.first
    pure x

/-! ## The lexicon -/

/-- What a reader has to know of one token. -/
structure TokenInfo where
  first : Array Nat
  nullable : Bool
  immediate : Bool
  precedence : Int
  /-- Rank by kind: texts before patterns, immediate tokens first. -/
  rank : Nat
  /-- Whether the token has a pattern at all. -/
  readable : Bool
deriving Inhabited

structure Lexicon where
  alphabet : Alphabet
  positions : Array Position
  /-- Row per position, column per class: one where the position reads it. -/
  reads : ByteArray
  tokens : Array TokenInfo
  isBlank : Array Bool
  /-- Text to token, for tokens that stand for themselves. -/
  literals : Std.HashMap String Nat
deriving Inhabited

namespace Lexicon

def ofProductions (p : Productions) : Lexicon := Id.run do
  let mut sets : Array CharSet := #[p.blanks, .single '\x00']
  for t in p.tokens do
    if let some t := t then
      for s in t.pattern.charSets do
        unless sets.contains s do
          sets := sets.push s
  let alphabet := Alphabet.ofSets sets
  let mut positions : Array Position := #[]
  let mut tokens : Array TokenInfo := #[]
  let mut literals : Std.HashMap String Nat := {}
  for i in [0:p.tokenCount] do
    match p.tokens[i]! with
    | none => tokens := tokens.push ⟨#[], false, true, 0, 0, false⟩
    | some t =>
      let (e, ps) := (t.pattern.positions alphabet i).run positions
      positions := e.last.foldl (fun ps q => ps.modify q fun x => { x with ends := true }) ps
      tokens := tokens.push ⟨e.first, e.nullable, t.immediate, t.precedence,
        (if t.literal.isSome then 2 else 0) + (if t.immediate then 1 else 0), true⟩
      if let some s := t.literal then
        literals := literals.insert s i
  let k := alphabet.size
  let mut reads := ByteArray.mk (Array.replicate (positions.size * k) 0)
  for i in [0:positions.size] do
    for c in positions[i]!.classes do
      reads := reads.set! (i * k + c) 1
  let blanks := alphabet.classesOf p.blanks
  return { alphabet, positions, reads, tokens, literals,
           isBlank := (Array.range k).map blanks.contains }

/-- Whether token `a` at precedence `pa` is preferred to token `b` at `pb`, when
both match the same text. -/
def prefers (lx : Lexicon) (a b : Nat) : Bool :=
  let x := lx.tokens[a]!
  let y := lx.tokens[b]!
  if x.precedence == y.precedence then
    if x.rank == y.rank then a < b else y.rank < x.rank
  else y.precedence < x.precedence

/-- The preferred one of an optional token and another. -/
def better (lx : Lexicon) (a : Option Nat) (b : Nat) : Option Nat :=
  match a with
  | none => some b
  | some x => if lx.prefers x b then some x else some b

/-! ## How two tokens get in each other's way

Two tokens are read side by side from the same place. Each flag tells something
about the first one of a pair. -/

namespace Relation

/-- It matches a proper beginning of a text of the other, and stops there. -/
def beginning : UInt8 := 1
/-- It reads on where the other one could end. -/
def continues : UInt8 := 2
/-- It reads on, with a character that may also follow the other one. -/
def continuesValidly : UInt8 := 4
/-- It can end where the blanks before the other one go on. -/
def blanks : UInt8 := 8
/-- It is preferred on a text that both match. -/
def sameText : UInt8 := 16
/-- It matches a text that the other one does not. -/
def otherText : UInt8 := 32

end Relation

/-- Elements of a reader's state: a position; the end of a token, after all
positions; the blanks before a token, after all ends. -/
def endOf (lx : Lexicon) (t : Nat) : Nat := lx.positions.size + t

def blanksOf (lx : Lexicon) (t : Nat) : Nat := lx.positions.size + lx.tokens.size + t

def tokenOf (lx : Lexicon) (e : Nat) : Nat :=
  if e < lx.positions.size then lx.positions[e]!.token
  else if e < lx.positions.size + lx.tokens.size then e - lx.positions.size
  else e - lx.positions.size - lx.tokens.size

/-- State before a token, blanks included. -/
def before (lx : Lexicon) (t : Nat) : Array Nat :=
  let info := lx.tokens[t]!
  let s := if info.nullable then info.first.push (lx.endOf t) else info.first
  if info.immediate then s else s.push (lx.blanksOf t)

/-- State after position `e` has read its character. -/
def after (lx : Lexicon) (e : Nat) : Array Nat :=
  let p := lx.positions[e]!
  if p.ends then p.follow.push (lx.endOf p.token) else p.follow

/-- One way on from a state: the class read, the elements reached, the highest
precedence among the ways taken, and whether only blanks were read. -/
structure Move where
  cls : Nat
  reached : Array Nat
  precedence : Int
  blank : Bool
deriving Inhabited

/-- All ways on from a state. -/
def moves (lx : Lexicon) (state : Array Nat) : Array Move := Id.run do
  let mut byClass : Array (Option Move) := Array.replicate lx.alphabet.size none
  let mut touched : Array Nat := #[]
  for e in state do
    if e < lx.positions.size then
      let p := lx.positions[e]!
      let prec := lx.tokens[p.token]!.precedence
      for k in p.classes do
        match byClass[k]! with
        | none =>
          touched := touched.push k
          byClass := byClass.set! k (some ⟨k, lx.after e, prec, false⟩)
        | some m =>
          byClass := byClass.set! k
            (some { m with reached := addAll m.reached (lx.after e), precedence := max m.precedence prec, blank := false })
    else if lx.positions.size + lx.tokens.size ≤ e then
      for k in [0:lx.alphabet.size] do
        if lx.isBlank[k]! then
          match byClass[k]! with
          | none =>
            touched := touched.push k
            byClass := byClass.set! k (some ⟨k, lx.before (lx.tokenOf e), 0, true⟩)
          | some m =>
            byClass := byClass.set! k
              (some { m with reached := addAll m.reached (lx.before (lx.tokenOf e)), precedence := max m.precedence 0 })
  return touched.map fun k => (byClass[k]!).getD default

/-- Whether a move goes on although token `done` could end here. -/
def goesOn (lx : Lexicon) (m : Move) (done : Nat) (inBlanks : Bool) : Bool :=
  let p := lx.tokens[done]!.precedence
  if m.precedence < p then false
  else if m.precedence == p then
    !m.blank && (!inBlanks || m.reached.any fun e => lx.tokenOf e == done)
  else true

/-- Reads two tokens side by side and returns the flags of each. `following`
tells which classes may come right after a token. -/
def compare (lx : Lexicon) (following : Array (Array Bool)) (i j : Nat) : UInt8 × UInt8 := Id.run do
  let mut a : UInt8 := 0
  let mut b : UInt8 := 0
  let mut queue : Array (Array Nat) := #[addAll (lx.before i) (lx.before j)]
  let mut visited : Std.HashSet (Array Nat) := {}
  for _ in [0:4096] do
    match queue.back? with
    | none => break
    | some state =>
      queue := queue.pop
      let liveI := state.any fun e => lx.tokenOf e == i
      let liveJ := state.any fun e => lx.tokenOf e == j
      if !(liveI && liveJ) then
        if liveI then a := a ||| Relation.otherText else b := b ||| Relation.otherText
      else
        let inBlanks := state.any fun e => lx.positions.size + lx.tokens.size ≤ e
        let mut done : Option Nat := none
        for t in [i, j] do
          if state.contains (lx.endOf t) then
            if inBlanks then
              if done.isNone then
                if t == i then a := a ||| Relation.blanks else b := b ||| Relation.blanks
                done := some t
            else match done with
              | none => done := some t
              | some d =>
                if lx.prefers d t then
                  if d == i then a := a ||| Relation.sameText else b := b ||| Relation.sameText
                else
                  done := some t
                  if t == i then a := a ||| Relation.sameText else b := b ||| Relation.sameText
        if inBlanks then
          done := none
        for m in lx.moves state do
          match done with
          | some d =>
            let keeps := m.reached.any fun e => lx.tokenOf e == d
            let moved := m.reached.any fun e => lx.tokenOf e != d
            if moved && !keeps then
              if lx.goesOn m d inBlanks then
                if d == j then
                  a := a ||| Relation.continues
                  if (following[j]!)[m.cls]! then a := a ||| Relation.continuesValidly
                else
                  b := b ||| Relation.continues
                  if (following[i]!)[m.cls]! then b := b ||| Relation.continuesValidly
              else if d == i then a := a ||| Relation.beginning
              else b := b ||| Relation.beginning
          | none => pure ()
          let next := m.reached.qsort (· < ·)
          unless visited.contains next do
            visited := visited.insert next
            queue := queue.push next
  return (a, b)

end Lexicon

/-- The relation of each token to each other one, row by row. -/
structure Overlaps where
  size : Nat
  flags : Array UInt8
deriving Inhabited

namespace Overlaps

def get (o : Overlaps) (i j : Nat) : UInt8 := o.flags[i * o.size + j]!

/-- Token `i` takes a text away from token `j`. -/
def conflicts (o : Overlaps) (i j : Nat) : Bool :=
  o.get i j &&& (Lexicon.Relation.continuesValidly ||| Lexicon.Relation.blanks |||
    Lexicon.Relation.sameText) != 0

def begins (o : Overlaps) (i j : Nat) : Bool := o.get i j &&& Lexicon.Relation.beginning != 0

def takesSameText (o : Overlaps) (i j : Nat) : Bool := o.get i j &&& Lexicon.Relation.sameText != 0

def hasOtherText (o : Overlaps) (i j : Nat) : Bool := o.get i j &&& Lexicon.Relation.otherText != 0

def differsInLength (o : Overlaps) (i j : Nat) : Bool :=
  o.get i j &&& (Lexicon.Relation.continuesValidly ||| Lexicon.Relation.blanks) != 0 &&
  o.get j i &&& Lexicon.Relation.blanks == 0

def overlaps (o : Overlaps) (i j : Nat) : Bool :=
  o.get i j &&& (Lexicon.Relation.blanks ||| Lexicon.Relation.beginning |||
    Lexicon.Relation.sameText ||| Lexicon.Relation.continues) != 0

end Overlaps

/-- Compares every two tokens. `next` tells which tokens may follow a token. -/
def Lexicon.overlaps (lx : Lexicon) (next : Array Nat) : Overlaps := Id.run do
  let n := lx.tokens.size
  let k := lx.alphabet.size
  let mut starting : Array (Array Nat) := #[]
  for t in [0:n] do
    starting := starting.push <|
      if lx.tokens[t]!.readable then ((lx.moves (lx.before t)).map (·.cls)) else #[]
  let mut following : Array (Array Bool) := #[]
  for t in [0:n] do
    let mut row := Array.replicate k false
    for u in [0:n] do
      if (next[t]!).testBit u then
        for c in starting[u]! do
          row := row.set! c true
    following := following.push row
  let mut flags := Array.replicate (n * n) (0 : UInt8)
  for i in [0:n] do
    if lx.tokens[i]!.readable then
      for j in [0:i] do
        if lx.tokens[j]!.readable then
          let (a, b) := lx.compare following i j
          flags := (flags.set! (i * n + j) a).set! (j * n + i) b
  return ⟨n, flags⟩

end CodeAtlas.Grammar
