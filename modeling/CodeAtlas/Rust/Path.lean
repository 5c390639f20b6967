import CodeAtlas.Text.Segments
import CodeAtlas.Text.Words

/-!
# CodeAtlas.Rust.Path

Paths as they are written: names with `::` between them.

1. blanks and type arguments are no part of a path;
2. leaving out type arguments may leave two separators in a row, which count as
   one;
3. a path does not end with a separator.
-/

namespace CodeAtlas.Rust.Path

/-! ## Type arguments -/

/-- The characters outside of angle brackets; a closing bracket without an opening
one counts for nothing. -/
def outsideBrackets (depth : Nat) : List Char → List Char
  | [] => []
  | '<' :: cs => outsideBrackets (depth + 1) cs
  | '>' :: cs => outsideBrackets (depth - 1) cs
  | c :: cs => if depth = 0 then c :: outsideBrackets depth cs else outsideBrackets depth cs

/-- One separator in place of two in a row, until there are no two in a row. -/
def joinSeparators : List Char → List Char
  | ':' :: ':' :: ':' :: ':' :: cs => joinSeparators (':' :: ':' :: cs)
  | c :: cs => c :: joinSeparators cs
  | [] => []
termination_by cs => cs.length

/-- Drops separators from the start of a reversed text. -/
def dropSeparators : List Char → List Char
  | ':' :: ':' :: cs => dropSeparators cs
  | cs => cs

/-- The text without separators at its end. -/
def trimSeparators (cs : List Char) : List Char := (dropSeparators cs.reverse).reverse

/-- The path without its type arguments. -/
def withoutArguments (cs : List Char) : List Char :=
  trimSeparators (joinSeparators (outsideBrackets 0 cs))

/-- The path that a text writes. -/
def written (s : String) : String :=
  String.ofList (withoutArguments (s.toList.filter fun c => !Text.isBlank c))

/-! ## Segments -/

/-- A path below another one. -/
def join (above path : String) : String := Text.join "::" above path

/-- The last segment of a path. -/
def last (path : String) : String := Text.lastSegment "::" path

/-- A path that ends in `self` stands for what it lies in. -/
def withoutSelf (path : String) : String := (Text.stripEnd? "::self" path).getD path

/-- The path before the star that stands for all names. -/
def beforeStar (path : String) : String :=
  String.ofList (trimSeparators (path.toList.reverse.dropWhile (· == '*')).reverse)

end CodeAtlas.Rust.Path
