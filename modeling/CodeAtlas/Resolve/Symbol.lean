import CodeAtlas.Graph.Node
import CodeAtlas.Store.Rows

/-!
# CodeAtlas.Resolve.Symbol

What is known of the nodes of other files while a file is resolved.

1. symbols are looked up by name or by qualified name; a look-up may fail if the
   symbols are kept in a store;
2. a table of symbols lists what it finds in the order of ids;
3. a symbol that is added again takes the place of the earlier one, and is found by
   its earlier names too.
-/

namespace CodeAtlas

/-- A node as a reference may mean it. -/
structure Symbol where
  id : String
  kind : NodeKind
  name : String
  qualifiedName : String
  file : String
deriving DecidableEq, Inhabited, Repr

def Node.symbol (n : Node) : Symbol := ⟨n.id, n.kind, n.name, n.qualifiedName, n.file⟩

/-- A way to look symbols up. -/
structure SymbolIndex where
  byName : String → Except Error (List Symbol)
  byQualifiedName : String → Except Error (List Symbol)

/-! ## Tables -/

/-- Symbols with the names by which they are found. -/
structure SymbolTable where
  entries : Rows Symbol Symbol.id
  /-- Pairs of a name and an id, each once. -/
  names : List (String × String)
  /-- Pairs of a qualified name and an id, each once. -/
  qualifiedNames : List (String × String)
deriving Inhabited

namespace SymbolTable

def empty : SymbolTable := ⟨{}, [], []⟩

/-- Adds a pair unless it is there. -/
def addPair (pairs : List (String × String)) (p : String × String) : List (String × String) :=
  if pairs.contains p then pairs else pairs ++ [p]

/-- Adds one node. -/
def add (t : SymbolTable) (n : Node) : SymbolTable where
  entries := t.entries.put n.symbol
  names := addPair t.names (n.name, n.id)
  qualifiedNames := addPair t.qualifiedNames (n.qualifiedName, n.id)

/-- Adds nodes one after the other. -/
def addNodes (t : SymbolTable) (nodes : List Node) : SymbolTable := nodes.foldl add t

/-- Drops one symbol. -/
def drop (t : SymbolTable) (s : Symbol) : SymbolTable where
  entries := t.entries.erase s.id
  names := t.names.filter (· != (s.name, s.id))
  qualifiedNames := t.qualifiedNames.filter (· != (s.qualifiedName, s.id))

/-- Drops the symbols that a file declares. -/
def removeFile (t : SymbolTable) (file : String) : SymbolTable :=
  (t.entries.toList.filter (·.file == file)).foldl drop t

def size (t : SymbolTable) : Nat := t.entries.size

/-- The symbols that a list of pairs gives for a name, in the order of ids. -/
def lookUp (t : SymbolTable) (pairs : List (String × String)) (name : String) : List Symbol :=
  (((pairs.filter (·.1 == name)).map (·.2)).mergeSort (· ≤ ·)).filterMap t.entries.get?

def byName (t : SymbolTable) (name : String) : List Symbol := t.lookUp t.names name

def byQualifiedName (t : SymbolTable) (name : String) : List Symbol :=
  t.lookUp t.qualifiedNames name

/-- The table as an index, whose look-ups never fail. -/
def index (t : SymbolTable) : SymbolIndex where
  byName name := .ok (t.byName name)
  byQualifiedName name := .ok (t.byQualifiedName name)

end SymbolTable

end CodeAtlas
