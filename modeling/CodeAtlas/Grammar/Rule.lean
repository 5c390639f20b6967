import CodeAtlas.Grammar.CharSet

/-!
# CodeAtlas.Grammar.Rule

Grammars as data. A grammar names its rules; a rule is an expression over
tokens and rule names, with four kinds of remarks that do not change the
language it describes:

1. a *precedence* settles a conflict between two ways of reading on, and an
   *associativity* settles one between equal precedences;
2. a *dynamic* precedence chooses between two readings of the same text;
3. a *field* names the place of a child in its parent;
4. an *alias* shows a child under another name.

A rule whose name starts with an underscore is hidden: its children take its
place in the tree. Tokens are regular: a pattern, or a text that stands for
itself.
-/

namespace CodeAtlas.Grammar

/-! ## Tokens -/

/-- Regular expressions over characters. -/
inductive Pattern where
  | empty
  | chars (set : CharSet)
  | seq (a b : Pattern)
  | alt (a b : Pattern)
  | plus (a : Pattern)
deriving BEq, Inhabited

namespace Pattern

def opt (p : Pattern) : Pattern := alt p empty

def star (p : Pattern) : Pattern := opt (plus p)

def seqs : List Pattern → Pattern
  | [] => empty
  | [p] => p
  | p :: ps => seq p (seqs ps)

def alts : List Pattern → Pattern
  | [] => chars .empty
  | [p] => p
  | p :: ps => alt p (alts ps)

/-- The text itself. -/
def text (s : String) : Pattern := seqs (s.toList.map fun c => chars (.single c))

def oneOf (s : String) : Pattern := chars (.ofString s)

def noneOf (s : String) : Pattern := chars (CharSet.ofString s).compl

def between (lo hi : Char) : Pattern := chars (.range lo.toNat hi.toNat)

/-- Exactly `n` repetitions. -/
def times (n : Nat) (p : Pattern) : Pattern := seqs (List.replicate n p)

/-- Between one and `n + 1` repetitions. -/
def upTo (n : Nat) (p : Pattern) : Pattern :=
  match n with
  | 0 => p
  | n + 1 => seq p (opt (upTo n p))

end Pattern

/-- A token of the language. -/
structure Token where
  pattern : Pattern
  /-- The text, if the token stands for itself. -/
  literal : Option String
  /-- Whether the token must follow the last one without a blank. -/
  immediate : Bool
  precedence : Int
deriving BEq, Inhabited

/-! ## Rules -/

inductive Associativity where
  | left
  | right
deriving BEq, Hashable, Inhabited, DecidableEq

/-- The name under which a child is shown; only a named child counts as a
node of the language, others as punctuation. -/
structure Alias where
  name : String
  named : Bool
deriving BEq, Hashable, Inhabited

inductive Rule where
  | blank
  | token (t : Token)
  | ref (name : String)
  | seq (rules : List Rule)
  | choice (rules : List Rule)
  /-- One or more times. -/
  | many (rule : Rule)
  | precedence (level : Int) (assoc : Option Associativity) (rule : Rule)
  | dynamic (level : Int) (rule : Rule)
  | field (name : String) (rule : Rule)
  | renamed (shown : Alias) (rule : Rule)
deriving BEq, Inhabited

namespace Rule

def text (s : String) : Rule := token ⟨.text s, some s, false, 0⟩

/-- A token given by a pattern. -/
def pattern (p : Pattern) (precedence : Int := 0) : Rule := token ⟨p, none, false, precedence⟩

/-- A token given by a pattern, which follows the last one without a blank. -/
def immediate (p : Pattern) (precedence : Int := 0) : Rule := token ⟨p, none, true, precedence⟩

/-- A token given by a text, which follows the last one without a blank. -/
def immediateText (s : String) (precedence : Int := 0) : Rule :=
  token ⟨.text s, some s, true, precedence⟩

def opt (r : Rule) : Rule := choice [r, blank]

/-- Any number of times. -/
def any (r : Rule) : Rule := choice [many r, blank]

def sepBy (r : Rule) (separator : Rule) : Rule := seq [r, any (seq [separator, r])]

def prec (level : Int) (r : Rule) : Rule := precedence level none r

def precLeft (level : Int) (r : Rule) : Rule := precedence level (some .left) r

def precRight (level : Int) (r : Rule) : Rule := precedence level (some .right) r

/-- Shows a child as a node of another name. -/
def as (name : String) (r : Rule) : Rule := renamed ⟨name, true⟩ r

/-- Shows a child as punctuation. -/
def asText (name : String) (r : Rule) : Rule := renamed ⟨name, false⟩ r

end Rule

/-! ## Grammars -/

/-- What a scanner outside the grammar can recognise: a token of its own, or
one that the grammar describes too. -/
inductive External where
  | named (name : String)
  | text (s : String)
deriving BEq, Inhabited

/-- The rules of a language. -/
structure RuleSet where
  /-- Named rules; the first describes a whole file. -/
  rules : List (String × Rule)
  /-- Characters that may stand between any two tokens. -/
  blanks : CharSet
  /-- Rules that may stand between any two tokens. -/
  extras : List String
  externals : List External
  /-- Rules that are replaced by their right-hand sides. -/
  inlined : List String
  /-- Rules that name a family of nodes and stay hidden. -/
  families : List String
  /-- The token that a keyword is read as where the keyword has no place. -/
  word : Option String
deriving Inhabited

end CodeAtlas.Grammar
