import CodeAtlas.Parsing.Engine

/-!
# CodeAtlas.Rust.Scanner

The tokens of Rust that are not regular.

1. a raw string ends with a quote and as many hashes as it starts with;
2. a number with a point is one token only if the point is not followed by a
   letter or another point, so that `1.max(2)` and `1..2` are read from the
   integer;
3. block comments nest; the star or exclamation mark that makes a comment a
   documentation comment is a token of its own;
4. while recovering from a mistake none of these is looked for.
-/

namespace CodeAtlas.Rust

open CodeAtlas.Parsing

/-- Hashes at the start of the raw string that is open; their number is kept in
one byte. -/
structure OpenRaw where
  hashes : UInt8
deriving BEq, Inhabited

namespace Scanner

/-! ## Numbers of the external tokens -/

def stringContent : Nat := 0
def rawStart : Nat := 1
def rawContent : Nat := 2
def rawEnd : Nat := 3
def float : Nat := 4
def outerDocMarker : Nat := 5
def innerDocMarker : Nat := 6
def commentContent : Nat := 7
def docLine : Nat := 8
def recovering : Nat := 9

/-! ## Runs of characters -/

/-- The place after the longest run of characters of a kind. -/
def skipWhile (src : Source) (p : Char → Bool) : (fuel i : Nat) → Nat
  | 0, i => i
  | fuel + 1, i => if !src.atEnd i && p (src.charAt i) then skipWhile src p fuel (i + 1) else i

def skip (src : Source) (p : Char → Bool) (i : Nat) : Nat := skipWhile src p (src.size - i) i

def isSpace (c : Char) : Bool := c == ' ' || ('\t' ≤ c && c ≤ '\r')

def isNumeral (c : Char) : Bool := c == '_' || c.isDigit

/-! ## Strings -/

/-- Text up to a quote or a backslash, if there is some. -/
def readString (src : Source) (i : Nat) : Option (Nat × Nat) :=
  let stop := skip src (fun c => c != '"' && c != '\\') i
  if src.atEnd stop || stop == i then none else some (stringContent, stop)

/-- The start of a raw string: its hashes and where its text begins. -/
def readRawStart (src : Source) (i : Nat) : Option (UInt8 × Nat) :=
  let i := if src.charAt i == 'b' || src.charAt i == 'c' then i + 1 else i
  if src.charAt i != 'r' then none
  else
    let stop := skip src (· == '#') (i + 1)
    if src.charAt stop != '"' then none else some ((stop - (i + 1)).toUInt8, stop + 1)

/-- Where the text of a raw string stops: before the first quote with enough
hashes after it. -/
def readRawText (src : Source) (hashes : Nat) : (fuel i : Nat) → Option Nat
  | 0, _ => none
  | fuel + 1, i =>
    let quote := skip src (· != '"') i
    if src.atEnd quote then none
    else
      let after := skip src (· == '#') (quote + 1)
      if hashes ≤ after - (quote + 1) then some quote else readRawText src hashes fuel after

/-! ## Numbers -/

/-- The end of a number with a point or an exponent, if it is one. -/
def readFloat (src : Source) (i : Nat) : Option Nat := do
  let whole := skip src isNumeral (i + 1)
  let hasPoint := src.charAt whole == '.'
  let next := src.charAt (whole + 1)
  if hasPoint && (next.isAlpha || next == '.') then none
  let fraction := if hasPoint then skip src isNumeral (whole + 1) else whole
  let hasExponent := src.charAt fraction == 'e' || src.charAt fraction == 'E'
  let sign := src.charAt (fraction + 1)
  let digits := if sign == '+' || sign == '-' then fraction + 2 else fraction + 1
  if hasExponent && !isNumeral (src.charAt digits) then return fraction
  if !hasExponent && !hasPoint then none
  let number := if hasExponent then skip src isNumeral (digits + 1) else fraction
  let suffix := src.charAt number
  if (suffix == 'u' || suffix == 'i' || suffix == 'f') && (src.charAt (number + 1)).isDigit then
    return skip src Char.isDigit (number + 1)
  return number

/-! ## Block comments -/

/-- What the last character read may be the first half of. -/
inductive CommentState where
  | slash
  | star
  | plain

/-- Reads the text of a block comment that is `depth` deep; `stop` is the last
place at which the text could end. -/
def readComment (src : Source) :
    (fuel : Nat) → CommentState → (depth : Nat) → (stop : Option Nat) → (i : Nat) → Nat
  | 0, _, _, stop, i => stop.getD i
  | fuel + 1, state, depth, stop, i =>
    if src.atEnd i || depth == 0 then stop.getD i
    else
      let c := src.charAt i
      let (state, depth, stop) := match state with
        | .slash => (CommentState.plain, if c == '*' then depth + 1 else depth, stop)
        | .star =>
          if c == '*' then (.star, depth, some i)
          else (.plain, if c == '/' then depth - 1 else depth, stop)
        | .plain => (if c == '/' then .slash else if c == '*' then .star else .plain, depth, some i)
      let stop := if c == '/' && depth != 0 then some (i + 1) else stop
      readComment src fuel state depth stop (i + 1)

/-- A token inside of a block comment: its number and its end. -/
def readBlockComment (useful : Nat → Bool) (src : Source) (i : Nat) : Option (Nat × Nat) :=
  let first := src.charAt i
  let next := src.charAt (i + 1)
  let outer := useful outerDocMarker && first == '*'
  if useful innerDocMarker && first == '!' then some (innerDocMarker, i + 1)
  else if outer && next == '/' then none
  else if outer && next != '*' then some (outerDocMarker, i + 1)
  else if !useful commentContent || (first == '*' && next == '/') then none
  else
    let state := if first == '*' then CommentState.star else if first == '/' then .slash else .plain
    let start := min (i + 1) src.size
    some (commentContent, readComment src (src.size - i + 1) state 1
      (if outer then some start else none) start)

/-! ## The scanner -/

/-- Looks for an external token. -/
def scan (s : OpenRaw) (bits : Nat) (src : Source) (place : Nat) : Option (Scanned OpenRaw) :=
  let useful (t : Nat) : Bool := bits.testBit t
  let keep (start : Nat) (found : Option (Nat × Nat)) : Option (Scanned OpenRaw) :=
    found.map fun (token, stop) => ⟨token, start, stop, s⟩
  if useful recovering then none
  else if useful commentContent || useful innerDocMarker || useful outerDocMarker then
    keep place (readBlockComment useful src place)
  else if useful stringContent && !useful float then keep place (readString src place)
  else if useful docLine then
    keep place (some (docLine, min src.size (skip src (· != '\n') place + 1)))
  else
    let i := skip src isSpace place
    let c := src.charAt i
    if useful rawStart && (c == 'r' || c == 'b' || c == 'c') then
      (readRawStart src i).map fun (hashes, stop) => ⟨rawStart, i, stop, ⟨hashes⟩⟩
    else if useful rawContent then
      keep i ((readRawText src s.hashes.toNat (src.size - i + 1) i).map (rawContent, ·))
    else if useful rawEnd && c == '"' then
      keep i (some (rawEnd, min src.size (i + 1 + s.hashes.toNat)))
    else if useful float && c.isDigit then keep i ((readFloat src i).map (float, ·))
    else none

end Scanner

/-- The scanner for raw strings, numbers with a point and comments. -/
def scanner : Scanner OpenRaw where
  initial := ⟨0⟩
  scan := Scanner.scan

end CodeAtlas.Rust
