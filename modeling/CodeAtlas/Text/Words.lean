/-!
# CodeAtlas.Text.Words

Words and blanks of a text. A blank is a character with the Unicode property
White_Space; a word is a longest run of other characters.
-/

namespace CodeAtlas.Text

/-- Characters with the Unicode property White_Space. -/
def isBlank (c : Char) : Bool :=
  let n := c.toNat
  (9 ≤ n && n ≤ 13) || n == 0x20 || n == 0x85 || n == 0xa0 || n == 0x1680 ||
    (0x2000 ≤ n && n ≤ 0x200a) || n == 0x2028 || n == 0x2029 || n == 0x202f || n == 0x205f ||
    n == 0x3000

/-- The words among characters; `word` holds the one being read, last character
first. -/
def wordsFrom (word : List Char) : List Char → List (List Char)
  | [] => if word.isEmpty then [] else [word.reverse]
  | c :: cs =>
    if isBlank c then (if word.isEmpty then wordsFrom [] cs else word.reverse :: wordsFrom [] cs)
    else wordsFrom (c :: word) cs

/-- The words of a text, in order. -/
def words (s : String) : List String := (wordsFrom [] s.toList).map String.ofList

/-- The text without its blanks. -/
def withoutBlanks (s : String) : String := String.ofList (s.toList.filter fun c => !isBlank c)

/-- The words of a text with one space between them. -/
def collapse (s : String) : String := " ".intercalate (words s)

/-- The text without the blanks at its start and end. -/
def trim (s : String) : String :=
  String.ofList ((s.toList.dropWhile isBlank).reverse.dropWhile isBlank).reverse

def trimEnd (s : String) : String :=
  String.ofList (s.toList.reverse.dropWhile isBlank).reverse

/-- The text up to its first line feed. -/
def firstLine (s : String) : String := String.ofList (s.toList.takeWhile (· != '\n'))

end CodeAtlas.Text
