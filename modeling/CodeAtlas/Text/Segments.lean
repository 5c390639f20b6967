/-!
# CodeAtlas.Text.Segments

Texts that are made of segments with a separator between them.

1. a text is cut at the first occurrence of the separator from the left, or from
   the right;
2. the empty text stands for no segments at all, so nothing is joined to it by a
   separator.
-/

namespace CodeAtlas.Text

/-! ## Characters -/

/-- What stands after a text at the start, if it stands there. -/
def after? : (start : List Char) → List Char → Option (List Char)
  | [], cs => some cs
  | s :: start, c :: cs => if s = c then after? start cs else none
  | _ :: _, [] => none

/-- What stands before and after the first occurrence of a separator. -/
def cutChars (separator : List Char) : List Char → Option (List Char × List Char)
  | [] => if separator.isEmpty then some ([], []) else none
  | c :: cs =>
    match after? separator (c :: cs) with
    | some rest => some ([], rest)
    | none => (cutChars separator cs).map fun (before, rest) => (c :: before, rest)

/-- What stands before and after the last occurrence of a separator, looked for
from the right. -/
def cutLastChars (separator cs : List Char) : Option (List Char × List Char) :=
  (cutChars separator.reverse cs.reverse).map fun (back, front) => (front.reverse, back.reverse)

/-- Repeats the cut at a separator up to `fuel` times. -/
def splitCharsFuel (separator : List Char) : Nat → List Char → List (List Char)
  | 0, cs => [cs]
  | fuel + 1, cs =>
    match cutChars separator cs with
    | some (before, rest) => before :: splitCharsFuel separator fuel rest
    | none => [cs]

/-- The segments between separators, of which there is at least one. A text has no
more separators than characters, unless the separator is empty. -/
def splitChars (separator cs : List Char) : List (List Char) :=
  splitCharsFuel separator cs.length cs

/-! ## Texts -/

/-- What stands before and after the first occurrence of a separator. -/
def cut? (separator s : String) : Option (String × String) :=
  (cutChars separator.toList s.toList).map fun (a, b) => (String.ofList a, String.ofList b)

/-- What stands before and after the last occurrence of a separator. -/
def cutLast? (separator s : String) : Option (String × String) :=
  (cutLastChars separator.toList s.toList).map fun (a, b) => (String.ofList a, String.ofList b)

/-- The segments of a text. -/
def split (separator s : String) : List String :=
  (splitChars separator.toList s.toList).map String.ofList

/-- The segment after the last separator. -/
def lastSegment (separator s : String) : String :=
  match cutLast? separator s with
  | some (_, last) => last
  | none => s

/-- The segments before the last separator; none for a single segment. -/
def parentOf (separator s : String) : String :=
  match cutLast? separator s with
  | some (parent, _) => parent
  | none => ""

/-- One text below another. -/
def join (separator base relative : String) : String :=
  if base == "" then relative
  else if relative == "" then base
  else base ++ separator ++ relative

/-- What stands after a text at the start of another one. -/
def strip? (start s : String) : Option String :=
  (after? start.toList s.toList).map String.ofList

/-- What stands before a text at the end of another one. -/
def stripEnd? (stop s : String) : Option String :=
  (after? stop.toList.reverse s.toList.reverse).map fun cs => String.ofList cs.reverse

/-- Whether a text occurs in another one. -/
def occurs (part s : String) : Bool := (cutChars part.toList s.toList).isSome

end CodeAtlas.Text
