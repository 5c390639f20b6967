/-!
# CodeAtlas.Files.Glob

Patterns for relative paths.

1. `*` stands for any bytes and `?` for one byte, but never for a slash;
2. `**` stands for any directories where it fills a whole segment, and for `*`
   otherwise;
3. `[a-z]` stands for one of some characters, `[!a-z]` for any other, and a bracket
   that is not closed for itself; a range must not run backwards;
4. `{a,b}` stands for one of several patterns, and a backslash makes the next
   character stand for itself.
-/

namespace CodeAtlas

/-- A part of a pattern. -/
inductive GlobPart where
  | literal (c : Char)
  /-- One byte other than a slash. -/
  | one
  /-- Any bytes other than slashes. -/
  | many
  /-- Any directories at the start. -/
  | directories
  /-- A slash and all that follows. -/
  | inside
  /-- A slash, with any directories after it. -/
  | between
  /-- One byte of some ranges, or outside of them. -/
  | oneOf (negated : Bool) (ranges : List (Char × Char))
  /-- One of several patterns. -/
  | either (patterns : List (List GlobPart))
deriving Inhabited

/-- A pattern. -/
abbrev Glob := List GlobPart

namespace Glob

/-! ## Reading -/

/-- A pattern while it is read. -/
structure Draft where
  /-- The parts of the innermost open pattern, last part first. -/
  parts : List GlobPart
  /-- The open groups, innermost first: the parts before each group, last part first,
  and its finished patterns. -/
  groups : List (List GlobPart × List Glob)
deriving Inhabited

namespace Draft

def push (d : Draft) (p : GlobPart) : Draft := { d with parts := p :: d.parts }

/-- Opens a group. -/
def enter (d : Draft) : Draft := ⟨[], (d.parts, []) :: d.groups⟩

/-- Starts the next pattern of a group; outside of groups a comma stands for itself. -/
def next (d : Draft) : Draft :=
  match d.groups with
  | [] => d.push (.literal ',')
  | (before, done) :: groups => ⟨[], (before, done ++ [d.parts.reverse]) :: groups⟩

/-- Closes a group. -/
def leave? (d : Draft) : Option Draft :=
  match d.groups with
  | [] => none
  | (before, done) :: groups => some ⟨.either (done ++ [d.parts.reverse]) :: before, groups⟩

/-- Two stars that fill a segment, after a slash; `last` says that nothing follows. -/
def pushDirectories (d : Draft) (last : Bool) : Draft :=
  match d.parts with
  | .directories :: rest => { d with parts := .directories :: rest }
  | .inside :: rest => { d with parts := .inside :: rest }
  | _ :: rest => { d with parts := (if last then .inside else .between) :: rest }
  | [] => d

end Draft

/-- What a bracket begins. -/
inductive ClassReading where
  /-- A class, and what follows it. -/
  | closed (ranges : List (Char × Char)) (rest : List Char)
  | unclosed
  /-- A range whose end comes before its start. -/
  | backwards

/-- The ranges of a class up to its bracket, in order, and what follows; those that are
read already are given last range first. -/
def readRanges : (first inRange : Bool) → List (Char × Char) → List Char → ClassReading
  | _, _, _, [] => .unclosed
  | true, inRange, ranges, ']' :: cs => readRanges false inRange ((']', ']') :: ranges) cs
  | false, inRange, ranges, ']' :: cs =>
    .closed (if inRange then ('-', '-') :: ranges else ranges).reverse cs
  | first, inRange, ranges, c :: cs =>
    if c == '-' && !first && !inRange then readRanges false true ranges cs
    else
      match inRange, ranges with
      | true, (low, _) :: rest =>
        if c < low then .backwards else readRanges false false ((low, c) :: rest) cs
      | _, _ => readRanges false false ((c, c) :: ranges) cs

/-- Whether a class is negated, and what it holds, after its opening bracket. -/
def readClass (cs : List Char) : Bool × ClassReading :=
  match cs with
  | '!' :: rest => (true, readRanges true false [] rest)
  | '^' :: rest => (true, readRanges true false [] rest)
  | _ => (false, readRanges true false [] cs)

/-- Two stars, with the character before them and what follows them; gives how many of
those characters are used up. -/
def readStars (d : Draft) (before : Option Char) (cs : List Char) : Draft × Nat :=
  let plain := (d.push .many).push .many
  if d.parts.isEmpty then
    match cs with
    | [] => (d.push .directories, 0)
    | '/' :: _ => (d.push .directories, 1)
    | _ => (plain, 0)
  else if before != some '/' && !(!d.groups.isEmpty && (before == some ',' || before == some '{'))
  then (plain, 0)
  else
    match cs with
    | [] => (d.pushDirectories true, 0)
    | '/' :: _ => (d.pushDirectories false, 1)
    | c :: _ =>
      if !d.groups.isEmpty && (c == ',' || c == '\x7d') then (d.pushDirectories true, 0)
      else (plain, 0)

/-- Reads the rest of a pattern. Every step uses up at least one character, so as many
steps as there are characters are enough. -/
def readFrom : (fuel : Nat) → Draft → (before : Option Char) → List Char → Option Draft
  | _, d, _, [] => some d
  | 0, _, _, _ => none
  | fuel + 1, d, before, c :: cs =>
    match c with
    | '?' => readFrom fuel (d.push .one) (some c) cs
    | '*' =>
      match cs with
      | '*' :: rest =>
        let (d, used) := readStars d before rest
        readFrom fuel d (if used == 0 then some '*' else some '/') (rest.drop used)
      | _ => readFrom fuel (d.push .many) (some c) cs
    | '[' =>
      match readClass cs with
      | (negated, .closed ranges rest) =>
        readFrom fuel (d.push (.oneOf negated ranges)) (some ']') rest
      | (_, .unclosed) => readFrom fuel (d.push (.literal '[')) (some c) cs
      | (_, .backwards) => none
    | '{' => readFrom fuel d.enter (some c) cs
    | '}' => d.leave?.bind fun d => readFrom fuel d (some c) cs
    | ',' => readFrom fuel d.next (some c) cs
    | '\\' =>
      match cs with
      | [] => none
      | e :: rest => readFrom fuel (d.push (.literal e)) (some e) rest
    | _ => readFrom fuel (d.push (.literal c)) (some c) cs

/-- Reads a pattern, whose groups must be closed. -/
def ofText? (s : String) : Option Glob :=
  match readFrom s.length ⟨[], []⟩ none s.toList with
  | some ⟨parts, []⟩ => some parts.reverse
  | _ => none

/-! ## Matching -/

/-- The byte of a slash. -/
def slash : UInt8 := 47

/-- What may remain after some bytes that are no slashes. -/
def afterMany : List UInt8 → List (List UInt8)
  | [] => [[]]
  | b :: bs => (b :: bs) :: if b == slash then [] else afterMany bs

/-- What may remain after each slash. -/
def afterSlashes : List UInt8 → List (List UInt8)
  | [] => []
  | b :: bs => if b == slash then bs :: afterSlashes bs else afterSlashes bs

/-- All ends of some bytes. -/
def ends : List UInt8 → List (List UInt8)
  | [] => [[]]
  | b :: bs => (b :: bs) :: ends bs

/-- Drops repeated remainders of one text, which are told apart by their lengths. -/
def distinct : List (List UInt8) → List (List UInt8)
  | [] => []
  | r :: rs =>
    let rest := distinct rs
    if rest.any (·.length == r.length) then rest else r :: rest

/-- Whether a byte is among those of some ranges; the ends of a range may have several
bytes. -/
def inRanges (ranges : List (Char × Char)) (b : UInt8) : Bool :=
  ranges.any fun (low, high) =>
    let ls := (String.singleton low).toUTF8.toList
    let hs := (String.singleton high).toUTF8.toList
    if low == high then ls.contains b
    else ls.dropLast.contains b || hs.tail.contains b ||
      (ls.getLastD 0 ≤ b && b ≤ hs.headD 0)

/-- What may remain of some bytes after the bytes of a text. -/
def afterBytes : (start : List UInt8) → List UInt8 → List (List UInt8)
  | [], bs => [bs]
  | s :: start, b :: bs => if s == b then afterBytes start bs else []
  | _ :: _, [] => []

mutual

/-- What may remain of some bytes after a part of a pattern. -/
def GlobPart.rests : GlobPart → List UInt8 → List (List UInt8)
  | .literal c, bs => afterBytes (String.singleton c).toUTF8.toList bs
  | .one, b :: bs => if b == slash then [] else [bs]
  | .one, [] => []
  | .many, bs => afterMany bs
  | .directories, bs => bs :: afterSlashes bs
  | .inside, b :: bs => if b == slash then ends bs else []
  | .inside, [] => []
  | .between, b :: bs => if b == slash then bs :: afterSlashes bs else []
  | .between, [] => []
  | .oneOf negated ranges, b :: bs => if inRanges ranges b != negated then [bs] else []
  | .oneOf _ _, [] => []
  | .either patterns, bs => if emptyAll patterns then [bs] else restsOfAny patterns bs

/-- What may remain after a pattern. -/
def restsOf : Glob → List UInt8 → List (List UInt8)
  | [], bs => [bs]
  | p :: ps, bs => (distinct (GlobPart.rests p bs)).flatMap fun rest => restsOf ps rest

/-- What may remain after one of several patterns; an empty pattern counts for
nothing. -/
def restsOfAny : List Glob → List UInt8 → List (List UInt8)
  | [], _ => []
  | [] :: ps, bs => restsOfAny ps bs
  | p :: ps, bs => restsOf p bs ++ restsOfAny ps bs

/-- Whether all patterns are empty. -/
def emptyAll : List Glob → Bool
  | [] => true
  | p :: ps => p.isEmpty && emptyAll ps

end

/-- Whether a pattern stands for a whole path. -/
def accepts (g : Glob) (path : String) : Bool :=
  match g with
  | [.directories] => true
  | _ => (restsOf g path.toUTF8.toList).any (·.isEmpty)

end Glob

end CodeAtlas
