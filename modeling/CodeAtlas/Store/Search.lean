/-!
# CodeAtlas.Store.Search

Looking for a part of a name, whatever the case of ASCII letters.

1. a pattern is looked for by a wildcard pattern: it has a `%` at each end, and a
   backslash before each `%`, `_` and `\` of the pattern;
2. in a wildcard pattern `%` stands for any text and `_` for any one character; what
   follows a backslash stands for itself, and so does every other character;
3. texts and wildcard patterns end before their first character of code point zero;
4. a wildcard pattern of more than fifty thousand bytes is refused.
-/

namespace CodeAtlas.Store.Search

/-! ## Writing wildcard patterns -/

/-- Whether a character has a meaning of its own in wildcard patterns. -/
def isSpecial (c : Char) : Bool := c == '%' || c == '_' || c == '\\'

/-- A character as it stands for itself in a wildcard pattern. -/
def escaped (c : Char) : List Char := if isSpecial c then ['\\', c] else [c]

/-- The wildcard pattern for the texts that have a pattern in them. -/
def wildcard (pattern : String) : String :=
  String.ofList ('%' :: (pattern.toList.flatMap escaped ++ ['%']))

/-- The size in bytes of the largest wildcard pattern that is looked for. -/
def maxSize : Nat := 50000

/-! ## Reading wildcard patterns -/

/-- A part of a wildcard pattern. -/
inductive Part where
  /-- Any text. -/
  | any
  /-- Any one character. -/
  | one
  /-- One character, in either case if it is an ASCII letter. -/
  | only (c : Char)
deriving DecidableEq, Inhabited, Repr

/-- The parts of a wildcard pattern. There is nothing that a backslash at the end stands
for. -/
def parts? : List Char → Option (List Part)
  | [] => some []
  | ['\\'] => none
  | '\\' :: c :: cs => (parts? cs).map (.only c :: ·)
  | c :: cs =>
    (parts? cs).map ((if c == '%' then .any else if c == '_' then .one else .only c) :: ·)

/-- Whether the text has an end with a property. -/
def anyEnd (p : List Char → Bool) : List Char → Bool
  | [] => p []
  | c :: cs => p (c :: cs) || anyEnd p cs

/-- Whether the text is made of the parts. -/
def fits : List Part → List Char → Bool
  | [], text => text.isEmpty
  | .any :: parts, text => anyEnd (fits parts) text
  | .one :: parts, _ :: text => fits parts text
  | .only c :: parts, d :: text => c.toLower == d.toLower && fits parts text
  | _ :: _, [] => false

/-- The characters before the first one of code point zero. -/
def visible (s : String) : List Char := s.toList.takeWhile (· != '\x00')

/-- Whether a text has the form of a wildcard pattern. -/
def like (wildcard text : String) : Bool :=
  match parts? (visible wildcard) with
  | some parts => fits parts (visible text)
  | none => false

end CodeAtlas.Store.Search
