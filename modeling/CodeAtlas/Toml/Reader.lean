import CodeAtlas.Toml.Basic

/-!
# CodeAtlas.Toml.Reader

Reads documents of the configuration format TOML, version 1.0.

1. a document is read whole or not at all;
2. values nest less than eighty deep;
3. integers have 64 bits, and a number with a point is not so large that it counts
   as infinite;
4. a line ends with a line feed, perhaps after a carriage return, and other control
   characters stand nowhere.

Each reader gives what it has read and the characters after it.
-/

namespace CodeAtlas.Toml.Reader

abbrev Chars := List Char

/-- What is read at the start of some characters, and the rest. -/
abbrev Read (α : Type) := Chars → Option (α × Chars)

/-! ## Blanks -/

def isBlank (c : Char) : Bool := c == ' ' || c == '\t'

/-- Characters that comments and texts may hold. -/
def isPlain (c : Char) : Bool := c == '\t' || (0x20 ≤ c.toNat && c.toNat != 0x7f)

def skipBlanks (cs : Chars) : Chars := cs.dropWhile isBlank

/-- What stands after a line end. -/
def newline? : Chars → Option Chars
  | '\n' :: cs => some cs
  | '\r' :: '\n' :: cs => some cs
  | _ => none

/-- What stands after a comment, if there is one. -/
def skipComment : Chars → Chars
  | '#' :: cs => cs.dropWhile isPlain
  | cs => cs

/-- What stands after the end of a line with nothing more on it. -/
def endOfLine? (cs : Chars) : Option Chars :=
  match skipComment (skipBlanks cs) with
  | [] => some []
  | cs => newline? cs

/-- Skips blanks, comments and line ends. -/
def skipLines : (fuel : Nat) → Chars → Option Chars
  | 0, cs => some cs
  | fuel + 1, cs =>
    match skipBlanks cs with
    | '#' :: cs => (newline? (cs.dropWhile isPlain)).bind (skipLines fuel)
    | '\n' :: cs => skipLines fuel cs
    | '\r' :: cs => (newline? ('\r' :: cs)).bind (skipLines fuel)
    | cs => some cs

def skipGap (cs : Chars) : Option Chars := skipLines (cs.length + 1) cs

/-! ## Texts -/

def hexValue? (c : Char) : Option Nat :=
  if c.isDigit then some (c.toNat - '0'.toNat)
  else if 'a' ≤ c && c ≤ 'f' then some (c.toNat - 'a'.toNat + 10)
  else if 'A' ≤ c && c ≤ 'F' then some (c.toNat - 'A'.toNat + 10)
  else none

/-- The character whose code point is written in so many hexadecimal digits. -/
def codePoint (digits : Nat) : Read Char := fun cs => do
  let ds ← (cs.take digits).mapM hexValue?
  if ds.length != digits then none
  let n := ds.foldl (fun n d => 16 * n + d) 0
  if n.isValidChar then some (Char.ofNat n, cs.drop digits) else none

/-- The character that an escape stands for, after its backslash. -/
def escape : Read Char
  | 'b' :: cs => some ('\x08', cs)
  | 't' :: cs => some ('\t', cs)
  | 'n' :: cs => some ('\n', cs)
  | 'f' :: cs => some ('\x0c', cs)
  | 'r' :: cs => some ('\r', cs)
  | '"' :: cs => some ('"', cs)
  | '\\' :: cs => some ('\\', cs)
  | 'u' :: cs => codePoint 4 cs
  | 'U' :: cs => codePoint 8 cs
  | _ => none

/-- The text of a basic string on one line, up to its closing quote. -/
def basic : (fuel : Nat) → Read Chars
  | 0, _ => none
  | fuel + 1, cs =>
    match cs with
    | '"' :: cs => some ([], cs)
    | '\\' :: cs => do
      let (c, cs) ← escape cs
      let (content, cs) ← basic fuel cs
      some (c :: content, cs)
    | c :: cs => do
      if !isPlain c then none
      let (content, cs) ← basic fuel cs
      some (c :: content, cs)
    | [] => none

/-- The text of a literal string on one line, up to its closing quote. -/
def literal : Read Chars := fun cs =>
  match cs.dropWhile fun c => c != '\'' && isPlain c with
  | '\'' :: rest => some (cs.takeWhile fun c => c != '\'' && isPlain c, rest)
  | _ => none

/-- What quotes in a string over several lines stand for: up to two are text, and
three close the string, with up to two of text before them. -/
def quotes (q : Char) (cs : Chars) : Option (Chars × Bool × Chars) :=
  let n := (cs.takeWhile (· == q)).length
  let rest := cs.dropWhile (· == q)
  if n < 3 then some (List.replicate n q, false, rest)
  else if n ≤ 5 then some (List.replicate (n - 3) q, true, rest)
  else none

/-- Blanks and line ends after a backslash at the end of a line. -/
def skipWhite : (fuel : Nat) → Chars → Chars
  | 0, cs => cs
  | fuel + 1, cs =>
    match newline? (skipBlanks cs) with
    | some cs => skipWhite fuel cs
    | none => skipBlanks cs

/-- The text of a string over several lines; escapes count between double quotes. -/
def multiline (q : Char) : (fuel : Nat) → Read Chars
  | 0, _ => none
  | fuel + 1, cs =>
    match cs with
    | [] => none
    | c :: rest =>
      if c == q then do
        let (content, closed, rest) ← quotes q cs
        if closed then some (content, rest)
        else
          let (more, rest) ← multiline q fuel rest
          some (content ++ more, rest)
      else if c == '\\' && q == '"' then
        match newline? (skipBlanks rest) with
        | some rest => multiline q fuel (skipWhite rest.length rest)
        | none => do
          let (c, rest) ← escape rest
          let (more, rest) ← multiline q fuel rest
          some (c :: more, rest)
      else
        match newline? cs with
        | some rest => do
          let (more, rest) ← multiline q fuel rest
          some ('\n' :: more, rest)
        | none => do
          if !isPlain c then none
          let (more, rest) ← multiline q fuel rest
          some (c :: more, rest)

/-- Drops a line end that follows the opening quotes. -/
def dropFirstLineEnd (cs : Chars) : Chars := (newline? cs).getD cs

/-- A string of any of the four kinds. -/
def string : Read String := fun cs =>
  let found := match cs with
    | '"' :: '"' :: '"' :: cs => multiline '"' (cs.length + 1) (dropFirstLineEnd cs)
    | '\'' :: '\'' :: '\'' :: cs => multiline '\'' (cs.length + 1) (dropFirstLineEnd cs)
    | '"' :: cs => basic (cs.length + 1) cs
    | '\'' :: cs => literal cs
    | _ => none
  found.map fun (content, cs) => (String.ofList content, cs)

/-! ## Numbers -/

/-- Digits and single underscores between them, after the first digit. -/
def moreDigits (p : Char → Bool) : Chars → Chars × Chars
  | '_' :: c :: cs =>
    if p c then
      let (ds, rest) := moreDigits p cs
      (c :: ds, rest)
    else ([], '_' :: c :: cs)
  | c :: cs =>
    if p c then
      let (ds, rest) := moreDigits p cs
      (c :: ds, rest)
    else ([], c :: cs)
  | [] => ([], [])

/-- A digit and more digits. -/
def digits (p : Char → Bool) : Read Chars
  | c :: cs =>
    if p c then
      let (ds, rest) := moreDigits p cs
      some (c :: ds, rest)
    else none
  | [] => none

def valueOf (base : Nat) (ds : Chars) : Nat :=
  ds.foldl (fun n c => base * n + (hexValue? c).getD 0) 0

/-- A sign: whether it is a minus. -/
def sign : Chars → Bool × Chars
  | '-' :: cs => (true, cs)
  | '+' :: cs => (false, cs)
  | cs => (false, cs)

/-- An integer of 64 bits. -/
def bounded (n : Int) : Option Toml :=
  if -0x8000000000000000 ≤ n ∧ n < 0x8000000000000000 then some (.integer n) else none

/-- An integer in a base other than ten. -/
def based (base : Nat) (p : Char → Bool) : Read Toml := fun cs => do
  let (ds, cs) ← digits p cs
  some (← bounded (valueOf base ds), cs)

/-- Whether `digits` times a power of ten is too large for a floating number of 64
bits. -/
def isInfinite (digits : Nat) (exponent : Int) : Bool :=
  let size := (Nat.toDigits 10 digits).length + exponent
  if digits == 0 || size < 300 then false
  else if 320 < size then true
  else
    let limit : Nat := 1 <<< 1024 - 1 <<< 970
    if 0 ≤ exponent then limit ≤ digits * Nat.pow 10 exponent.toNat
    else limit * Nat.pow 10 (-exponent).toNat ≤ digits

/-- The exponent of a number, if it has one. -/
def exponent : Read (Option Int)
  | c :: cs =>
    if c == 'e' || c == 'E' then do
      let (negative, cs) := sign cs
      let (ds, cs) ← digits Char.isDigit cs
      let n : Int := valueOf 10 ds
      some (some (if negative then -n else n), cs)
    else some (none, c :: cs)
  | [] => some (none, [])

/-- A decimal number after its sign. -/
def decimal (negative : Bool) : Read Toml := fun cs => do
  let (whole, cs) ← match cs with
    | '0' :: cs => some (['0'], cs)
    | cs => digits Char.isDigit cs
  let (fraction, cs) ← match cs with
    | '.' :: cs => (digits Char.isDigit cs).map fun (ds, cs) => (some ds, cs)
    | cs => some (none, cs)
  let (power, cs) ← exponent cs
  if fraction.isNone && power.isNone then
    let n : Int := valueOf 10 whole
    return (← bounded (if negative then -n else n), cs)
  let ds := fraction.getD []
  if !negative && isInfinite (valueOf 10 (whole ++ ds)) (power.getD 0 - ds.length) then none
  some (.float, cs)

/-- A number. -/
def number : Read Toml
  | '0' :: 'x' :: cs => based 16 (fun c => (hexValue? c).isSome) cs
  | '0' :: 'o' :: cs => based 8 (fun c => '0' ≤ c && c ≤ '7') cs
  | '0' :: 'b' :: cs => based 2 (fun c => c == '0' || c == '1') cs
  | cs =>
    match sign cs with
    | (_, 'i' :: 'n' :: 'f' :: cs) => some (.float, cs)
    | (_, 'n' :: 'a' :: 'n' :: cs) => some (.float, cs)
    | (negative, cs) => decimal negative cs

/-! ## Times -/

/-- A number of exactly so many digits within bounds. -/
def fixed (count lo hi : Nat) : Read Nat := fun cs =>
  let ds := cs.take count
  let n := valueOf 10 ds
  if ds.length == count && ds.all Char.isDigit && lo ≤ n && n ≤ hi then some (n, cs.drop count)
  else none

def daysOf (year month : Nat) : Nat :=
  if month == 2 then
    (if year % 4 == 0 && (year % 100 != 0 || year % 400 == 0) then 29 else 28)
  else if month == 4 || month == 6 || month == 9 || month == 11 then 30
  else 31

def expect (c : Char) : Read Unit
  | d :: cs => if c == d then some ((), cs) else none
  | [] => none

/-- A time of day. -/
def clock : Read Unit := fun cs => do
  let (_, cs) ← fixed 2 0 23 cs
  let (_, cs) ← expect ':' cs
  let (_, cs) ← fixed 2 0 59 cs
  let (_, cs) ← expect ':' cs
  let (_, cs) ← fixed 2 0 60 cs
  match cs with
  | '.' :: c :: rest => if c.isDigit then some ((), rest.dropWhile Char.isDigit) else none
  | ['.'] => none
  | cs => some ((), cs)

/-- The distance from universal time, if it is given. -/
def offset : Read Unit
  | 'Z' :: cs => some ((), cs)
  | 'z' :: cs => some ((), cs)
  | c :: cs =>
    if c == '+' || c == '-' then do
      let (_, cs) ← fixed 2 0 23 cs
      let (_, cs) ← expect ':' cs
      let (_, cs) ← fixed 2 0 59 cs
      some ((), cs)
    else some ((), c :: cs)
  | [] => some ((), [])

/-- A date, perhaps with a time of day. -/
def date : Read Unit := fun cs => do
  let (year, cs) ← fixed 4 0 9999 cs
  let (_, cs) ← expect '-' cs
  let (month, cs) ← fixed 2 1 12 cs
  let (_, cs) ← expect '-' cs
  let (day, cs) ← fixed 2 1 31 cs
  if daysOf year month < day then none
  match cs with
  | c :: a :: b :: ':' :: rest =>
    if (c == 'T' || c == 't' || c == ' ') && a.isDigit && b.isDigit then do
      let (_, cs) ← clock (a :: b :: ':' :: rest)
      offset cs
    else some ((), cs)
  | cs => some ((), cs)

/-- Whether a value that starts with a digit is a date or a time of day. -/
def startsTime (cs : Chars) : Bool :=
  let n := (cs.takeWhile Char.isDigit).length
  (n == 4 && (cs.drop 4).head? == some '-') || (n == 2 && (cs.drop 2).head? == some ':')

/-- A date or a time of day. -/
def time : Read Toml := fun cs =>
  (if (cs.drop 2).head? == some ':' then clock cs else date cs).map fun (_, cs) => (.time, cs)

/-! ## Keys -/

def isBare (c : Char) : Bool := c.isAlphanum || c == '-' || c == '_'

/-- One part of a key. -/
def keyPart : Read String := fun cs =>
  match cs with
  | '"' :: cs => (basic (cs.length + 1) cs).map fun (t, cs) => (String.ofList t, cs)
  | '\'' :: cs => (literal cs).map fun (t, cs) => (String.ofList t, cs)
  | cs =>
    let part := cs.takeWhile isBare
    if part.isEmpty then none else some (String.ofList part, cs.dropWhile isBare)

/-- The parts of a key with points between them. -/
def keyParts : (fuel : Nat) → Read (List String)
  | 0, _ => none
  | fuel + 1, cs => do
    let (part, cs) ← keyPart (skipBlanks cs)
    match skipBlanks cs with
    | '.' :: cs =>
      let (parts, cs) ← keyParts fuel cs
      some (part :: parts, cs)
    | cs => some ([part], cs)

/-- How deep values and keys may go. -/
def maxDepth : Nat := 79

/-- A key: what stands before its last part, and that part. -/
def key : Read (List String × String) := fun cs => do
  let (parts, cs) ← keyParts (cs.length + 1) cs
  if maxDepth < parts.length then none
  let last ← parts.getLast?
  some ((parts.dropLast, last), cs)

/-! ## Values -/

/-- The items of an array after its bracket, each read by `item`. -/
def arrayItems (item : Read Toml) : (fuel : Nat) → Read (List Toml)
  | 0, _ => none
  | fuel + 1, cs => do
    match ← skipGap cs with
    | ']' :: cs => some ([], cs)
    | cs =>
      let (v, cs) ← item cs
      match ← skipGap cs with
      | ',' :: cs =>
        let (vs, cs) ← arrayItems item fuel cs
        some (v :: vs, cs)
      | ']' :: cs => some ([v], cs)
      | _ => none

/-- A key and its value, the value read by `item`. -/
def pair (item : Read Toml) : Read ((List String × String) × Toml) := fun cs => do
  let (k, cs) ← key cs
  let (_, cs) ← expect '=' (skipBlanks cs)
  let (v, cs) ← item (skipBlanks cs)
  some ((k, v), cs)

/-- The entries of a table in braces after the first brace, which is not followed by
the last one. -/
def inlinePairs (item : Read Toml) : (fuel : Nat) → Entries → Read Entries
  | 0, _, _ => none
  | fuel + 1, entries, cs => do
    let (((path, k), v), cs) ← pair item (skipBlanks cs)
    let entries ← addDotted path.isEmpty k v path entries
    match skipBlanks cs with
    | ',' :: cs => inlinePairs item fuel entries cs
    | '\x7d' :: cs => some (entries, cs)
    | _ => none

/-- A value that nests at most so deep. -/
def value : (depth : Nat) → Read Toml
  | 0, _ => none
  | depth + 1, cs =>
    match cs with
    | 't' :: 'r' :: 'u' :: 'e' :: cs => some (.boolean true, cs)
    | 'f' :: 'a' :: 'l' :: 's' :: 'e' :: cs => some (.boolean false, cs)
    | '[' :: cs => (arrayItems (value depth) (cs.length + 1) cs).map fun (vs, cs) => (.array vs, cs)
    | '\x7b' :: cs =>
      match skipBlanks cs with
      | '\x7d' :: cs => some (.table .inline [], cs)
      | cs => (inlinePairs (value depth) (cs.length + 1) [] cs).map fun (es, cs) =>
        (.table .inline es, cs)
    | c :: rest =>
      if c == '"' || c == '\'' then (string cs).map fun (t, cs) => (.text t, cs)
      else if startsTime cs then time cs
      else number (c :: rest)
    | [] => none

/-! ## Documents -/

/-- What is read of a document so far, and the header that keys belong to. -/
structure State where
  root : Entries
  header : List String

/-- A header after its first bracket. -/
def header (s : State) (isRow : Bool) (cs : Chars) : Option (State × Chars) := do
  let ((path, k), cs) ← key cs
  let (_, cs) ← expect ']' (skipBlanks cs)
  let cs ← if isRow then (expect ']' cs).map (·.2) else some cs
  let root ← atHeader (if isRow then openRow k else openTable k) path s.root
  some (⟨root, path ++ [k]⟩, cs)

/-- One line with a header, or a key and its value. -/
def line (s : State) : Chars → Option (State × Chars)
  | '[' :: '[' :: cs => header s true cs
  | '[' :: cs => header s false cs
  | cs => do
    let (((path, k), v), cs) ← pair (value maxDepth.succ) cs
    let root ← atHeader (addDotted path.isEmpty k v path) s.header s.root
    some (⟨root, s.header⟩, cs)

/-- The lines of a document. -/
def lines : (fuel : Nat) → State → Chars → Option Entries
  | 0, _, _ => none
  | fuel + 1, s, cs =>
    match skipBlanks cs with
    | [] => some s.root
    | '#' :: cs => (endOfLine? ('#' :: cs)).bind (lines fuel s)
    | '\n' :: cs => lines fuel s cs
    | '\r' :: cs => (newline? ('\r' :: cs)).bind (lines fuel s)
    | cs => do
      let (s, cs) ← line s cs
      lines fuel s (← endOfLine? cs)

end Reader

/-- Reads a document. -/
def read? (text : String) : Option Entries :=
  let cs := text.toList
  -- a byte order mark at the very start is passed over
  let cs := if cs.head? == some '\ufeff' then cs.tail else cs
  Reader.lines (cs.length + 2) ⟨[], []⟩ cs

end CodeAtlas.Toml
