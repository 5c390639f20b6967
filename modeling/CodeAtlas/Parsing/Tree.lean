import CodeAtlas.Graph.Span
import CodeAtlas.Parsing.Engine

/-!
# CodeAtlas.Parsing.Tree

Trees as they are looked at.

1. hidden nodes are gone: their children stand in their place;
2. a child knows the field under which its parent names it;
3. what stands anywhere, such as a comment, is a child without a field;
4. a node has an error if it, or a node below it, stands for text that could not
   be read or was made up.
-/

namespace CodeAtlas.Parsing

open CodeAtlas.Grammar

/-- What is known of a node by itself. Places are numbers of characters. -/
structure NodeInfo where
  kind : String
  named : Bool
  start : Nat
  stop : Nat
  isError : Bool
  isMissing : Bool
  hasError : Bool
deriving Inhabited, BEq

/-- Where a node stands in the text. -/
def NodeInfo.span (i : NodeInfo) (src : Source) : Span :=
  ⟨src.row i.start, src.column i.start, src.row i.stop, src.column i.stop⟩

inductive Tree where
  | node (info : NodeInfo) (children : List (Option String × Tree))
deriving Inhabited

namespace Tree

def info : Tree → NodeInfo
  | .node i _ => i

def children : Tree → List (Option String × Tree)
  | .node _ cs => cs

def kind (t : Tree) : String := t.info.kind

/-- Children that are nodes of the language, in order. -/
def namedChildren (t : Tree) : List Tree :=
  (t.children.map (·.2)).filter (·.info.named)

/-- The first child under a field. -/
def field? (t : Tree) (name : String) : Option Tree :=
  (t.children.find? (·.1 == some name)).map (·.2)

/-- All children under a field, in order. -/
def fields (t : Tree) (name : String) : List Tree :=
  (t.children.filter (·.1 == some name)).map (·.2)

/-- The text of a node. -/
def text (t : Tree) (src : Source) : String := src.slice t.info.start t.info.stop

def span (t : Tree) (src : Source) : Span := t.info.span src

/-! ### Smaller trees -/

theorem sizeOf_child_lt {t c : Tree} {f : Option String} (h : (f, c) ∈ t.children) :
    sizeOf c < sizeOf t := by
  cases t with
  | node i cs =>
    have h1 := List.sizeOf_lt_of_mem h
    simp only [children] at h1
    simp only [Tree.node.sizeOf_spec]
    simp only [Prod.mk.sizeOf_spec] at h1
    omega

theorem sizeOf_lt_of_mem_namedChildren {t c : Tree} (h : c ∈ t.namedChildren) :
    sizeOf c < sizeOf t := by
  simp only [namedChildren, List.mem_filter, List.mem_map] at h
  obtain ⟨⟨⟨f, c'⟩, hm, rfl⟩, -⟩ := h
  exact sizeOf_child_lt hm

theorem sizeOf_lt_of_field? {t c : Tree} {name : String} (h : t.field? name = some c) :
    sizeOf c < sizeOf t := by
  simp only [field?, Option.map_eq_some_iff] at h
  obtain ⟨⟨f, c'⟩, hf, rfl⟩ := h
  exact sizeOf_child_lt (List.mem_of_find?_eq_some hf)

mutual
/-- The first node that stands for unreadable or made up text, outermost first. -/
def firstError : Tree → Option NodeInfo
  | .node i cs =>
    if i.isError || i.isMissing then some i
    else if i.hasError then firstErrorIn cs
    else none

def firstErrorIn : List (Option String × Tree) → Option NodeInfo
  | [] => none
  | (_, t) :: ts => (firstError t).orElse fun _ => firstErrorIn ts
end

end Tree

variable {σ : Type}

mutual
/-- The nodes that a subtree shows: itself, or its children if it is hidden. -/
def Subtree.show (t : Table) (shown : Option Alias) (field : Option String) :
    Subtree σ → List (Option String × Tree)
  | .mk s cs =>
    let children := Subtree.showList t (t.labels.getD s.label default) 0 cs.toList
    let symbol := (t.grammar.symbols[s.symbol]?).getD ⟨"ERROR", true, true, false⟩
    let isError := s.symbol == errorSymbol t
    let node (kind : String) (named : Bool) : Tree :=
      .node { kind, named, start := s.start, stop := s.stop, isError, isMissing := s.missing
              hasError := s.missing || 0 < s.cost } children
    match shown with
    | some a => [(field, node a.name a.named)]
    | none =>
      if s.visible then [(field, node (if isError then "ERROR" else symbol.name) (isError || symbol.named))]
      else children.map fun (f, c) => (f <|> field, c)

/-- The nodes that the children of one node show, from child number `index` on. -/
def Subtree.showList (t : Table) (label : Label) (index : Nat) :
    List (Subtree σ) → List (Option String × Tree)
  | [] => []
  | .mk s cs :: rest =>
    if s.extra then
      (Subtree.show t none none (.mk s cs)) ++ Subtree.showList t label index rest
    else
      Subtree.show t (label.shown.getD index none) (label.fields.getD index none) (.mk s cs) ++
        Subtree.showList t label (index + 1) rest
end

/-- The tree of a text; none if it could not be read at all. -/
def Reader.tree [BEq σ] (reader : Reader σ) (source : Source) : Option Tree := do
  let root ← reader.parse source
  let shown ← (root.show reader.table none none).head?
  return shown.2

end CodeAtlas.Parsing
