import CodeAtlas.Json.Basic

/-!
# CodeAtlas.Json.Reader

Reads the values of JSON texts.

1. a text holds one value, with blanks around it and between its parts;
2. values may be nested 127 levels deep;
3. a number must be in the range of floating-point numbers of 64 bits;
4. the characters of a text are Unicode scalar values: an escape for half of a pair
   stands only beside the other half.
-/

namespace CodeAtlas.Json

namespace Reader

/-- What is read, and what follows it. -/
abbrev Rest (α : Type) := Option (α × List Char)

/-! ## Texts -/

def isBlank (c : Char) : Bool := c == ' ' || c == '\n' || c == '\t' || c == '\r'

def skipBlanks (cs : List Char) : List Char := cs.dropWhile isBlank

/-- The value of a hexadecimal digit. -/
def hexDigit? (c : Char) : Option Nat :=
  if c.isDigit then some (c.toNat - '0'.toNat)
  else if 'a' ≤ c && c ≤ 'f' then some (c.toNat - 'a'.toNat + 10)
  else if 'A' ≤ c && c ≤ 'F' then some (c.toNat - 'A'.toNat + 10)
  else none

/-- A number of four hexadecimal digits. -/
def hexNumber? (a b c d : Char) : Option Nat := do
  return (((← hexDigit? a) * 16 + (← hexDigit? b)) * 16 + (← hexDigit? c)) * 16 + (← hexDigit? d)

/-- The character that a letter after a backslash stands for. -/
def escape? (c : Char) : Option Char :=
  match c with
  | '"' => some '"'
  | '\\' => some '\\'
  | '/' => some '/'
  | 'b' => some '\x08'
  | 'f' => some '\x0c'
  | 'n' => some '\n'
  | 'r' => some '\r'
  | 't' => some '\t'
  | _ => none

/-- The characters of a text after its first quote; `back` holds those read, last
character first. -/
def text? (back : List Char) : List Char → Rest String
  | [] => none
  | '"' :: cs => some (String.ofList back.reverse, cs)
  | '\\' :: 'u' :: a :: b :: c :: d :: cs =>
    match hexNumber? a b c d with
    | none => none
    | some n =>
      if n < 0xd800 || 0xe000 ≤ n then text? (Char.ofNat n :: back) cs
      else if 0xdc00 ≤ n then none
      else
        match cs with
        | '\\' :: 'u' :: a' :: b' :: c' :: d' :: cs =>
          match hexNumber? a' b' c' d' with
          | none => none
          | some m =>
            if 0xdc00 ≤ m && m < 0xe000 then
              text? (Char.ofNat (0x10000 + (n - 0xd800) * 0x400 + (m - 0xdc00)) :: back) cs
            else none
        | _ => none
  | '\\' :: c :: cs =>
    match escape? c with
    | some e => text? (e :: back) cs
    | none => none
  | c :: cs => if c.toNat < 32 || c == '\\' then none else text? (c :: back) cs

/-! ## Numbers -/

/-- The digits at the start. -/
def digits (cs : List Char) : List Char × List Char :=
  (cs.takeWhile Char.isDigit, cs.dropWhile Char.isDigit)

/-- The number that digits stand for. -/
def valueOf (ds : List Char) : Nat := ds.foldl (fun n c => 10 * n + (c.toNat - '0'.toNat)) 0

/-- Digits of the whole part: a zero stands alone. -/
def whole? (cs : List Char) : Rest (List Char) :=
  match digits cs with
  | ([], _) => none
  | ('0' :: _ :: _, _) => none
  | (ds, rest) => some (ds, rest)

/-- Digits after a point, if there is one. -/
def fraction? : List Char → Rest (Option (List Char))
  | '.' :: cs =>
    match digits cs with
    | ([], _) => none
    | (ds, rest) => some (some ds, rest)
  | cs => some (none, cs)

/-- An exponent, if there is one. -/
def exponent? : List Char → Rest (Option Int)
  | c :: cs =>
    if c == 'e' || c == 'E' then
      let (negative, body) := match cs with
        | '-' :: r => (true, r)
        | '+' :: r => (false, r)
        | r => (false, r)
      match digits body with
      | ([], _) => none
      | (ds, rest) => some (some (if negative then -(valueOf ds : Int) else valueOf ds), rest)
    else some (none, c :: cs)
  | [] => some (none, [])

/-- The first number beyond the range of floating-point numbers of 64 bits. -/
def beyond : Nat := 1 <<< 1024 - 1 <<< 970

/-- Whether a number is in the range of floating-point numbers of 64 bits. -/
def inRange (mantissa : Nat) (digits : Nat) (exponent : Int) : Bool :=
  if mantissa == 0 then true
  else if 400 < exponent + digits then false
  else if exponent < 0 then mantissa < beyond * Nat.pow 10 (min (-exponent).toNat (digits + 400))
  else mantissa * Nat.pow 10 exponent.toNat < beyond

/-- A number after its sign. -/
def number? (negative : Bool) (cs : List Char) : Option (Json × List Char) := do
  let (ds, rest) ← whole? cs
  let (fraction, rest) ← fraction? rest
  let (exponent, rest) ← exponent? rest
  let written := String.ofList ((if negative then ['-'] else []) ++
    cs.take (cs.length - rest.length))
  let n := valueOf ds
  let isWhole := fraction.isNone && exponent.isNone
  if isWhole && !negative && n < 0x10000000000000000 then return (.integer n, rest)
  else if isWhole && negative && n != 0 && n ≤ 0x8000000000000000 then return (.integer (-n), rest)
  else
    let places := fraction.getD []
    if inRange (valueOf (ds ++ places)) (ds ++ places).length
        (exponent.getD 0 - places.length) then
      return (.number written, rest)
    else none

/-! ## Values -/

/-- What follows a word. -/
def word? (word : String) (v : Json) (cs : List Char) : Rest Json :=
  if word.toList.isPrefixOf cs then some (v, cs.drop word.length) else none

mutual

/-- Reads a value. Each call uses up a character or follows one that did, so `fuel` of
twice the number of characters is enough. `depth` is the number of levels left. -/
def value? : (fuel depth : Nat) → List Char → Rest Json
  | 0, _, _ => none
  | fuel + 1, depth, cs =>
    match skipBlanks cs with
    | 'n' :: cs => word? "ull" .null cs
    | 't' :: cs => word? "rue" (.bool true) cs
    | 'f' :: cs => word? "alse" (.bool false) cs
    | '"' :: cs => (text? [] cs).map fun (s, rest) => (.text s, rest)
    | '-' :: cs => number? true cs
    | '[' :: cs =>
      match depth with
      | 0 => none
      | depth + 1 =>
        match skipBlanks cs with
        | ']' :: cs => some (.array [], cs)
        | cs => (items? fuel depth cs).map fun (vs, rest) => (.array vs, rest)
    | '{' :: cs =>
      match depth with
      | 0 => none
      | depth + 1 =>
        match skipBlanks cs with
        | '}' :: cs => some (.object [], cs)
        | cs => (fields? fuel depth cs).map fun (fs, rest) => (.object fs, rest)
    | cs => number? false cs

/-- Reads the items of an array up to its end; there is at least one. -/
def items? : (fuel depth : Nat) → List Char → Rest (List Json)
  | 0, _, _ => none
  | fuel + 1, depth, cs =>
    match value? fuel depth cs with
    | none => none
    | some (v, rest) =>
      match skipBlanks rest with
      | ']' :: rest => some ([v], rest)
      | ',' :: rest => (items? fuel depth rest).map fun (vs, rest) => (v :: vs, rest)
      | _ => none

/-- Reads the fields of an object up to its end; there is at least one. -/
def fields? : (fuel depth : Nat) → List Char → Rest (List (String × Json))
  | 0, _, _ => none
  | fuel + 1, depth, cs =>
    match skipBlanks cs with
    | '"' :: cs =>
      match text? [] cs with
      | none => none
      | some (k, rest) =>
        match skipBlanks rest with
        | ':' :: rest =>
          match value? fuel depth rest with
          | none => none
          | some (v, rest) =>
            match skipBlanks rest with
            | '}' :: rest => some ([(k, v)], rest)
            | ',' :: rest => (fields? fuel depth rest).map fun (fs, rest) => ((k, v) :: fs, rest)
            | _ => none
        | _ => none
    | _ => none

end

/-- The levels that values may be nested. -/
def maxDepth : Nat := 127

end Reader

/-- The value of a text. -/
def ofText? (s : String) : Option Json :=
  match Reader.value? (2 * s.length + 2) Reader.maxDepth s.toList with
  | some (v, rest) => if (Reader.skipBlanks rest).isEmpty then some v else none
  | none => none

end CodeAtlas.Json
