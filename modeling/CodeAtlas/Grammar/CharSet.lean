/-!
# CodeAtlas.Grammar.CharSet

Sets of characters as ascending, disjoint ranges of code points.

1. a range holds both of its ends;
2. ranges never touch: two neighbouring ranges are written as one;
3. a complement never holds code point zero, because a reader sees that code
   point at the end of its input.
-/

namespace CodeAtlas.Grammar

/-- A set of characters, as ascending ranges of code points. -/
structure CharSet where
  ranges : Array (Nat × Nat)
deriving BEq, Hashable, Inhabited

namespace CharSet

/-- The largest code point. -/
def maxCode : Nat := 0x10FFFF

def empty : CharSet := ⟨#[]⟩

def range (lo hi : Nat) : CharSet := ⟨#[(lo, hi)]⟩

def single (c : Char) : CharSet := range c.toNat c.toNat

/-- Adds one range to ranges that all start no later than it does. -/
def pushRange (acc : Array (Nat × Nat)) (r : Nat × Nat) : Array (Nat × Nat) :=
  match acc.back? with
  | some (lo, hi) => if r.1 ≤ hi + 1 then acc.pop.push (lo, max hi r.2) else acc.push r
  | none => acc.push r

/-- The set of all characters in any of the given ranges, in any order. -/
def ofRanges (rs : Array (Nat × Nat)) : CharSet :=
  ⟨(rs.qsort (fun a b => a.1 < b.1)).foldl pushRange #[]⟩

def union (a b : CharSet) : CharSet := ofRanges (a.ranges ++ b.ranges)

def ofString (s : String) : CharSet :=
  ofRanges (s.toList.map (fun c => (c.toNat, c.toNat))).toArray

/-- All characters outside the set, code point zero excepted. -/
def compl (a : CharSet) : CharSet :=
  let (next, out) := a.ranges.foldl
    (fun (next, out) (lo, hi) => (max next (hi + 1), if next < lo then out.push (next, lo - 1) else out))
    ((1, #[]) : Nat × Array (Nat × Nat))
  ⟨if next ≤ maxCode then out.push (next, maxCode) else out⟩

/-- Binary search: the last index below `hi` whose range starts at or before `c`. -/
def lastStart (rs : Array (Nat × Nat)) (c : Nat) : (fuel lo hi : Nat) → Nat
  | 0, lo, _ => lo
  | fuel + 1, lo, hi =>
    if lo + 1 < hi then
      let mid := (lo + hi) / 2
      if (rs.getD mid (0, 0)).1 ≤ c then lastStart rs c fuel mid hi else lastStart rs c fuel lo mid
    else lo

def contains (a : CharSet) (c : Nat) : Bool :=
  match a.ranges[lastStart a.ranges c 32 0 a.ranges.size]? with
  | some (lo, hi) => lo ≤ c && c ≤ hi
  | none => false

end CharSet

end CodeAtlas.Grammar
