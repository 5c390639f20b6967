import CodeAtlas.Parsing.Engine

/-!
# CodeAtlas.Python.Layout

Line ends, indentation and the parts of strings.

1. a line end is a token only where a statement may end; a token of layout is
   empty and stands where the blanks before it start;
2. a line that is indented more than the block opens a block, one that is
   indented less closes blocks, one at a time; a tab counts as eight blanks;
3. comments of the block's own indentation belong to the block, so the block is
   closed after them;
4. between brackets there is no layout; a block is closed there only where
   nothing else helps to recover from a mistake;
5. a string ends with the quotes that it starts with, and the letters before it
   say what may be written inside.
-/

namespace CodeAtlas.Python

open CodeAtlas.Parsing

/-! ## State -/

/-- How the text of an open string is read. -/
structure Delimiter where
  quote : Char
  triple : Bool
  raw : Bool
  bytes : Bool
  format : Bool
deriving BEq, Inhabited

/-- Indentations of the open blocks, innermost first, without the outermost
zero; open strings, innermost first; whether the last string started is a
formatted one that is still open. -/
structure Layout where
  indents : List Nat
  delimiters : List Delimiter
  insideFormatted : Bool
deriving BEq, Inhabited

namespace Layout

/-- Numbers of the external tokens. -/
def newline : Nat := 0
def indent : Nat := 1
def dedent : Nat := 2
def stringStart : Nat := 3
def stringContent : Nat := 4
def escapeInterpolation : Nat := 5
def stringEnd : Nat := 6
def closeBracket : Nat := 8
def closeParen : Nat := 9
def closeBrace : Nat := 10
def except : Nat := 11

/-! ## Inside a string -/

/-- Why the text of a string stops. -/
inductive StringStop where
  /-- Content up to a place. -/
  | content (stop : Nat)
  /-- The closing quotes, up to a place. -/
  | close (stop : Nat)
  /-- Nothing of the string; other tokens may follow. -/
  | nothing
  /-- No token at all. -/
  | fail

/-- Reads the text of a string from `i`; `has` says whether some was read. -/
def readString (src : Source) (d : Delimiter) : (fuel i : Nat) → (has : Bool) → StringStop
  | 0, _, _ => .nothing
  | fuel + 1, i, has =>
    let c := src.charAt i
    let content (stop : Nat) := if has then StringStop.content stop else .fail
    if src.atEnd i || c == '\x00' then .nothing
    else if (c == '\x7b' || c == '\x7d') && d.format then content i
    else if c == '\\' then
      if d.raw then
        let i := i + 1
        let i := if src.charAt i == d.quote || src.charAt i == '\\' then i + 1 else i
        let i := if src.charAt i == '\r' then (if src.charAt (i + 1) == '\n' then i + 2 else i + 1)
          else if src.charAt i == '\n' then i + 1 else i
        readString src d fuel i has
      else if d.bytes then
        let n := src.charAt (i + 1)
        -- names and code points are not escapes in bytes
        if n == 'N' || n == 'u' || n == 'U' then readString src d fuel (i + 3) true else content i
      else content i
    else if c == d.quote then
      if d.triple then
        if src.charAt (i + 1) == d.quote && src.charAt (i + 2) == d.quote then
          if has then .content i else .close (i + 3)
        else if src.charAt (i + 1) == d.quote then .content (i + 2)
        else .content (i + 1)
      else if has then .content i else .close (i + 1)
    else if c == '\n' && has && !d.triple then .fail
    else readString src d fuel (i + 1) true

/-! ## Between tokens -/

/-- Blanks, line ends and comments before a token. -/
structure Gap where
  stop : Nat
  endOfLine : Bool
  indentation : Nat
  /-- Indentation of the first comment on a line of its own. -/
  comment : Option Nat

/-- Reads what stands before a token; none if it cannot stand there. -/
def readGap (src : Source) (comments : Bool) : (fuel : Nat) → Gap → Option Gap
  | 0, g => some g
  | fuel + 1, g =>
    let c := src.charAt g.stop
    let next (g : Gap) := readGap src comments fuel { g with stop := g.stop + 1 }
    if src.atEnd g.stop then some { g with indentation := 0, endOfLine := true }
    else if c == '\n' then next { g with endOfLine := true, indentation := 0 }
    else if c == ' ' then next { g with indentation := g.indentation + 1 }
    else if c == '\r' || c == '\x0c' then next { g with indentation := 0 }
    else if c == '\t' then next { g with indentation := g.indentation + 8 }
    else if c == '#' && comments then
      if !g.endOfLine then none
      else
        let length := ((src.chars.extract g.stop src.size).toList.takeWhile (· != '\n')).length
        readGap src comments fuel { g with
          stop := g.stop + length + 1, indentation := 0
          comment := g.comment <|> some g.indentation }
    else if c == '\\' then
      let i := g.stop + 1
      let i := if src.charAt i == '\r' then i + 1 else i
      if src.charAt i == '\n' || src.atEnd i then
        readGap src comments fuel { g with stop := i + 1 }
      else none
    else some g

/-- The letters that may stand before a string: their effect, and how many. -/
def readLetters (src : Source) : (fuel i : Nat) → Delimiter → Delimiter × Nat
  | 0, i, d => (d, i)
  | fuel + 1, i, d =>
    match src.charAt i with
    | 'f' | 'F' => readLetters src fuel (i + 1) { d with format := true }
    | 'r' | 'R' => readLetters src fuel (i + 1) { d with raw := true }
    | 'b' | 'B' => readLetters src fuel (i + 1) { d with bytes := true }
    | 'u' | 'U' => readLetters src fuel (i + 1) d
    | _ => (d, i)

/-- The start of a string: how to read on, and where the text starts. -/
def readStart (src : Source) (i : Nat) : Option (Delimiter × Nat) :=
  let (d, i) := readLetters src (src.size - i + 1) i ⟨'\x00', false, false, false, false⟩
  let c := src.charAt i
  if src.atEnd i then none
  else if c == '\x60' then some ({ d with quote := c }, i + 1)
  else if c == '\'' || c == '"' then
    if src.charAt (i + 1) == c && src.charAt (i + 2) == c then
      some ({ d with quote := c, triple := true }, i + 3)
    else some ({ d with quote := c }, i + 1)
  else none

/-- The current indentation. -/
def current (l : Layout) : Nat := l.indents.headD 0

/-- Looks for a token after blanks. A token of layout is empty and stands at
`place`. -/
def scanAfterGap (l : Layout) (useful : Nat → Bool) (src : Source) (place : Nat) :
    Option (Scanned Layout) :=
  let recovering := useful stringContent && useful indent
  let inBrackets := useful closeBrace || useful closeParen || useful closeBracket
  let comments := useful indent || useful dedent || useful newline || useful except
  match readGap src comments (src.size - place + 2) ⟨place, false, 0, none⟩ with
  | none => none
  | some g =>
    let c := src.charAt g.stop
    let startsString := c == '"' || c == '\'' || c == '\x60'
    let empty (token : Nat) (l : Layout) : Option (Scanned Layout) := some ⟨token, place, place, l⟩
    if g.endOfLine && useful indent && l.current < g.indentation then
      empty indent { l with indents := g.indentation :: l.indents }
    else if g.endOfLine &&
        (useful dedent ||
          (!useful newline && !(useful stringStart && startsString) && !inBrackets)) &&
        g.indentation < l.current && !l.insideFormatted &&
        (g.comment.all (· < l.current)) then
      empty dedent { l with indents := l.indents.tail }
    else if g.endOfLine && useful newline && !recovering then empty newline l
    else if g.comment.isNone && useful stringStart then
      match readStart src g.stop with
      | some (d, stop) =>
        some ⟨stringStart, g.stop, stop,
          { l with delimiters := d :: l.delimiters, insideFormatted := d.format }⟩
      | none => none
    else none

/-- Looks for an external token. -/
def scan (l : Layout) (bits : Nat) (src : Source) (place : Nat) : Option (Scanned Layout) :=
  let useful (t : Nat) : Bool := bits.testBit t
  let recovering := useful stringContent && useful indent
  let c := src.charAt place
  match l.delimiters with
  | d :: rest =>
    if recovering then scanAfterGap l useful src place
    else if useful escapeInterpolation && (c == '\x7b' || c == '\x7d') && d.format then
      if src.charAt (place + 1) == c then some ⟨escapeInterpolation, place, place + 2, l⟩ else none
    else if useful stringContent then
      match readString src d (src.size - place + 1) place false with
      | .content stop => some ⟨stringContent, place, stop, l⟩
      | .close stop =>
        some ⟨stringEnd, place, stop, { l with delimiters := rest, insideFormatted := false }⟩
      | .fail => none
      | .nothing => scanAfterGap l useful src place
    else scanAfterGap l useful src place
  | [] => scanAfterGap l useful src place

/-- The scanner for layout and strings. -/
def scanner : Scanner Layout where
  initial := ⟨[], [], false⟩
  scan := scan

end Layout

end CodeAtlas.Python
