/-!
# CodeAtlas.Toml.Writer

Writes texts and lists of texts for documents of the configuration format TOML.

1. a text is written in the first of these ways that needs no escapes: between double
   quotes, between single quotes, between three double quotes, between three single
   quotes; if all need escapes, between double quotes, three of them if it has line
   ends;
2. control characters always need escapes, except for tabs;
3. a list of several texts has one text on each line.
-/

namespace CodeAtlas.Toml.Writer

/-- The length of the longest run of a character. -/
def longestRun (q : Char) : (run longest : Nat) → List Char → Nat
  | run, longest, [] => max run longest
  | run, longest, c :: cs =>
    if c == q then longestRun q (run + 1) longest cs else longestRun q 0 (max run longest) cs

/-- Control characters that must be escaped. -/
def isControl (c : Char) : Bool :=
  (c.toNat < 0x20 && c != '\t' && c != '\n') || c.toNat == 0x7f

/-- A code point in four hexadecimal digits. -/
def fourDigits (n : Nat) : List Char :=
  (List.range 4).map fun i => (Nat.digitChar (n / Nat.pow 16 (3 - i) % 16)).toUpper

/-- A character in a string with escapes. -/
def escaped (multiline : Bool) (c : Char) : List Char :=
  match c with
  | '\x08' => ['\\', 'b']
  | '\t' => ['\\', 't']
  | '\n' => if multiline then ['\n'] else ['\\', 'n']
  | '\x0c' => ['\\', 'f']
  | '\r' => ['\\', 'r']
  | '\\' => ['\\', '\\']
  | c => if isControl c then '\\' :: 'u' :: fourDigits c.toNat else [c]

/-- The text with escapes; a run of double quotes longer than `allowed` has a
backslash before each one beyond. -/
def escape (multiline : Bool) (allowed : Nat) : (run : Nat) → List Char → List Char
  | _, [] => []
  | run, c :: cs =>
    if c == '"' then
      if allowed ≤ run then '\\' :: '"' :: escape multiline allowed 0 cs
      else '"' :: escape multiline allowed (run + 1) cs
    else escaped multiline c ++ escape multiline allowed 0 cs

/-- A text as it is written. -/
def text (s : String) : String :=
  let cs := s.toList
  let control := cs.any isControl
  let backslash := cs.contains '\\'
  let lineEnd := cs.contains '\n'
  let double := longestRun '"' 0 0 cs
  let single := longestRun '\'' 0 0 cs
  let start := if lineEnd then "\n" else ""
  let basic := "\"" ++ String.ofList (escape false 0 0 cs) ++ "\""
  let long := "\"\"\"" ++ start ++ String.ofList (escape true 2 0 cs) ++ "\"\"\""
  if !control && !backslash && double == 0 && !lineEnd then basic
  else if !control && single == 0 && !lineEnd then "'" ++ s ++ "'"
  else if !control && !backslash && double ≤ 2 then long
  else if !control && single ≤ 2 then "'''" ++ start ++ s ++ "'''"
  else if lineEnd then long
  else basic

/-- A list of texts as it is written. -/
def texts : List String → String
  | [] => "[]"
  | [s] => "[" ++ text s ++ "]"
  | ss => "[\n" ++ String.join (ss.map fun s => "    " ++ text s ++ ",\n") ++ "]"

end CodeAtlas.Toml.Writer
