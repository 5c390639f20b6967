/-!
# CodeAtlas.Parsing.Source

A text together with the place of each of its characters.

1. a place is given by the number of characters before it;
2. lines end with a line feed, and columns count bytes;
3. the character at the end of the text is code point zero.
-/

namespace CodeAtlas.Parsing

structure Source where
  chars : Array Char
  /-- Bytes before each place. -/
  offsets : Array Nat
  /-- Line of each place, from zero. -/
  rows : Array Nat
  /-- Bytes between the start of the line and each place. -/
  columns : Array Nat
deriving Inhabited

namespace Source

/-- The place after the characters read so far. -/
structure Cursor where
  offset : Nat
  row : Nat
  column : Nat

/-- The place after one more character. -/
def Cursor.step (p : Cursor) (c : Char) : Cursor :=
  let n := c.utf8Size
  if c = '\n' then ⟨p.offset + n, p.row + 1, 0⟩ else ⟨p.offset + n, p.row, p.column + n⟩

def ofString (s : String) : Source := Id.run do
  let mut at' : Cursor := ⟨0, 0, 0⟩
  let mut chars : Array Char := #[]
  let mut offsets := #[0]
  let mut rows := #[0]
  let mut columns := #[0]
  for c in s.toList do
    at' := at'.step c
    chars := chars.push c
    offsets := offsets.push at'.offset
    rows := rows.push at'.row
    columns := columns.push at'.column
  return { chars, offsets, rows, columns }

def size (s : Source) : Nat := s.chars.size

def charAt (s : Source) (i : Nat) : Char := s.chars.getD i '\x00'

def atEnd (s : Source) (i : Nat) : Bool := s.chars.size ≤ i

def offset (s : Source) (i : Nat) : Nat := s.offsets.getD i 0

def row (s : Source) (i : Nat) : Nat := s.rows.getD i 0

def column (s : Source) (i : Nat) : Nat := s.columns.getD i 0

/-- The text between two places. -/
def slice (s : Source) (start stop : Nat) : String :=
  String.ofList (s.chars.extract start stop).toList

end Source

end CodeAtlas.Parsing
