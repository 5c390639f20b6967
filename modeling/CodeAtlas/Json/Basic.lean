/-!
# CodeAtlas.Json.Basic

Values of JSON texts, and their texts.

1. the fields of an object stand in the order in which they were given;
2. integers of 64 bits are kept as they are; other numbers are kept as written;
3. a text is written on one line without blanks, or with a line for each item, indented
   by two blanks a level.
-/

namespace CodeAtlas

inductive Json where
  | null
  | bool (b : Bool)
  | integer (n : Int)
  /-- A number that is no integer of 64 bits. -/
  | number (text : String)
  | text (s : String)
  | array (items : List Json)
  | object (fields : List (String × Json))
deriving Inhabited

namespace Json

/-! ## Values -/

/-- A number without a sign. -/
def nat (n : Nat) : Json := .integer n

def texts (xs : List String) : Json := .array (xs.map .text)

def textOrNull : Option String → Json
  | some s => .text s
  | none => .null

/-- The value of the first field with a name. -/
def field? (fields : List (String × Json)) (name : String) : Option Json :=
  (fields.find? (·.1 == name)).map (·.2)

/-! ## Writing -/

/-- The last four hexadecimal digits of a number. -/
def fourDigits (n : Nat) : List Char :=
  [n / 4096, n / 256, n / 16, n].map fun d => Nat.digitChar (d % 16)

/-- A character between quotes. -/
def escaped (c : Char) : List Char :=
  if c == '"' then ['\\', '"']
  else if c == '\\' then ['\\', '\\']
  else if c == '\n' then ['\\', 'n']
  else if c == '\r' then ['\\', 'r']
  else if c == '\t' then ['\\', 't']
  else if c == '\x08' then ['\\', 'b']
  else if c == '\x0c' then ['\\', 'f']
  else if c.toNat < 32 then ['\\', 'u'] ++ fourDigits c.toNat
  else [c]

/-- A text between quotes. -/
def quote (s : String) : String := String.ofList ('"' :: s.toList.flatMap escaped ++ ['"'])

mutual

/-- The text on one line. -/
def compact : Json → String
  | .null => "null"
  | .bool b => if b then "true" else "false"
  | .integer n => toString n
  | .number s => s
  | .text s => quote s
  | .array items => "[" ++ compactItems true items ++ "]"
  | .object fields => "\x7b" ++ compactFields true fields ++ "\x7d"

/-- Items with commas between them; `first` says that none is needed yet. -/
def compactItems (first : Bool) : List Json → String
  | [] => ""
  | v :: vs => (if first then "" else ",") ++ compact v ++ compactItems false vs

def compactFields (first : Bool) : List (String × Json) → String
  | [] => ""
  | (k, v) :: fs =>
    (if first then "" else ",") ++ quote k ++ ":" ++ compact v ++ compactFields false fs

end

/-- The start of a line at a level. -/
def margin (level : Nat) : String := "\n" ++ String.ofList (List.replicate (2 * level) ' ')

mutual

/-- The text with a line for each item; `level` counts what is open around it. -/
def prettyAt (level : Nat) : Json → String
  | .null => "null"
  | .bool b => if b then "true" else "false"
  | .integer n => toString n
  | .number s => s
  | .text s => quote s
  | .array [] => "[]"
  | .array (v :: vs) => "[" ++ prettyItems level true (v :: vs) ++ margin level ++ "]"
  | .object [] => "\x7b\x7d"
  | .object (f :: fs) => "\x7b" ++ prettyFields level true (f :: fs) ++ margin level ++ "\x7d"

def prettyItems (level : Nat) (first : Bool) : List Json → String
  | [] => ""
  | v :: vs =>
    (if first then "" else ",") ++ margin (level + 1) ++ prettyAt (level + 1) v ++
      prettyItems level false vs

def prettyFields (level : Nat) (first : Bool) : List (String × Json) → String
  | [] => ""
  | (k, v) :: fs =>
    (if first then "" else ",") ++ margin (level + 1) ++ quote k ++ ": " ++
      prettyAt (level + 1) v ++ prettyFields level false fs

end

/-- The text with a line for each item. -/
def pretty (v : Json) : String := prettyAt 0 v

end Json

end CodeAtlas
