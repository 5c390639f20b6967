import CodeAtlas.Proofs.Resolve.Outside
import CodeAtlas.Proofs.Resolve.Total
import CodeAtlas.Proofs.Upsert.Calls
import Mathlib.Data.List.Induction

/-!
# CodeAtlas.Proofs.Resolve.Indexes

A file is resolved alike by all indexes that know the same symbols.

An index lists symbols in an order of its own, a table by their ids and a store by their
files and places.  The resolver takes the symbol that it prefers, the only one there is, or
none, so all that it makes of an answer is the same for every order of it
(`SymbolIndex.Alike.resolve`).  A table that was filled with some nodes and a store that holds
exactly these answer alike (`SymbolTable.index_alike`).
-/

namespace CodeAtlas

open Resolve

/-! ## Answers in another order -/

/-- Two look-ups fail alike, or list the same symbols in whatever order. -/
inductive SameAnswer : Except Error (List Symbol) → Except Error (List Symbol) → Prop
  | error (e : Error) : SameAnswer (.error e) (.error e)
  | ok {xs ys : List Symbol} : xs.Perm ys → SameAnswer (.ok xs) (.ok ys)

/-- What does not depend on the order is made of two such answers alike. -/
theorem SameAnswer.bind {α : Type} {x y : Except Error (List Symbol)} (h : SameAnswer x y)
    {f g : List Symbol → Except Error α} (hfg : ∀ xs ys, xs.Perm ys → f xs = g ys) :
    (x >>= f) = (y >>= g) := by
  cases h with
  | error e => rfl
  | ok hperm => exact hfg _ _ hperm

/-- Two indexes list the same symbols for every name. -/
structure SymbolIndex.Alike (a b : SymbolIndex) : Prop where
  byName : ∀ name, SameAnswer (a.byName name) (b.byName name)
  byQualifiedName : ∀ name, SameAnswer (a.byQualifiedName name) (b.byQualifiedName name)

/-! ## The preferred symbol -/

/-- A node that is seen as a symbol. -/
def Symbol.node (s : Symbol) : Node :=
  ⟨s.id, s.kind, s.name, s.qualifiedName, s.file, "", default, none⟩

theorem Symbol.map_symbol_node (xs : List Symbol) : (xs.map node).map Node.symbol = xs := by
  rw [List.map_map]
  exact List.map_id xs

theorem Resolve.best?_id_perm {xs ys : List Symbol} (h : xs.Perm ys) :
    (best? xs).map Symbol.id = (best? ys).map Symbol.id := by
  have hid : ∀ zs : List Symbol,
      (best? zs).map Symbol.id = (Upsert.best? (zs.map Symbol.node)).map Node.id := by
    intro zs
    conv_lhs => rw [← Symbol.map_symbol_node zs, FileScope.best?_symbol, Option.map_map]
    rfl
  rw [hid, hid]
  exact Upsert.best?_id_congr fun n => (h.map Symbol.node).mem_iff

namespace SymbolIndex.Alike

variable {a b : SymbolIndex} (h : a.Alike b) (c : FileScope) (r : Relationship)

/-- What is picked from two lists that differ in their order has one id. -/
theorem pick_id {xs ys : List Symbol} (hperm : xs.Perm ys) :
    (c.pick xs r).map Symbol.id = (c.pick ys r).map Symbol.id :=
  best?_id_perm (hperm.filter _)

/-! ## Targets -/

include h

theorem global (name : String) : c.global a name r = c.global b name r := by
  rw [FileScope.global, FileScope.global]
  refine (h.byName name).bind fun xs ys hperm => ?_
  exact FileScope.global_eq_of_perm (a := ⟨fun _ => .ok xs, fun _ => .ok []⟩)
    (b := ⟨fun _ => .ok ys, fun _ => .ok []⟩) rfl rfl (hperm.filter _)

theorem qualified (name : String) : c.qualified a name r = c.qualified b name r := by
  rw [FileScope.qualified, FileScope.qualified]
  split
  · rfl
  · split
    · rfl
    · refine (h.byQualifiedName name).bind fun xs ys hperm => ?_
      have hid := pick_id c r hperm
      cases hx : c.pick xs r <;> cases hy : c.pick ys r <;> simp_all

theorem inGlobs? (path : String) (globs : List String) :
    c.inGlobs? a path r globs = c.inGlobs? b path r globs := by
  induction globs with
  | nil => rfl
  | cons glob globs ih =>
      refine (h.byQualifiedName _).bind fun xs ys hperm => ?_
      have hid := pick_id c r hperm
      cases hx : c.pick xs r <;> cases hy : c.pick ys r <;> simp_all

theorem ofPath (segments scope : List String) :
    c.ofPath a segments scope r = c.ofPath b segments scope r := by
  simp only [FileScope.ofPath, h.qualified, h.inGlobs?, h.global]

theorem ofMember (member : String) (scope : List String) :
    c.ofMember a member scope r = c.ofMember b member scope r := by
  simp only [FileScope.ofMember, h.global]

theorem target (written : String) (scope : List String) :
    c.target a written scope r = c.target b written scope r := by
  simp only [FileScope.target, h.ofPath, h.ofMember, h.global]

/-! ## Whole files -/

omit r in
theorem reference? (fact : Fact) : Resolve.reference? c a fact = Resolve.reference? c b fact := by
  simp only [Resolve.reference?, h.qualified, h.target]

omit r in
theorem addReferences (f : SourceFile) (found : Resolution) (facts : List Fact) :
    Resolve.addReferences f c a found facts = Resolve.addReferences f c b found facts := by
  induction facts generalizing found with
  | nil => rfl
  | cons fact facts ih => simp only [Resolve.addReferences, h.reference?, ih]

omit c r in
/-- A file is resolved alike, or fails to be. -/
theorem resolve (f : SourceFile) : Resolve.resolve a f = Resolve.resolve b f :=
  h.addReferences _ f _ f.facts

end SymbolIndex.Alike

/-! ## Tables and stores -/

namespace SymbolTable

theorem addPair_of_fresh {pairs : List (String × String)} {p : String × String}
    (h : ∀ q ∈ pairs, q.2 ≠ p.2) : addPair pairs p = pairs ++ [p] :=
  if_neg fun hmem => h p (List.contains_iff_mem.1 hmem) rfl

/-- A table that was filled with nodes lists each of them under its names, and no other. -/
theorem addNodes_spec {nodes : List Node} (h : (nodes.map Node.id).Nodup) :
    (empty.addNodes nodes).entries.toList = nodes.map Node.symbol ∧
      (empty.addNodes nodes).names = nodes.map (fun n => (n.name, n.id)) ∧
      (empty.addNodes nodes).qualifiedNames = nodes.map fun n => (n.qualifiedName, n.id) := by
  induction nodes using List.reverseRec with
  | nil => exact ⟨rfl, rfl, rfl⟩
  | append_singleton nodes n ih =>
      rw [List.map_append, List.nodup_append] at h
      obtain ⟨hnodes, -, hfresh⟩ := h
      obtain ⟨hentries, hnames, hqualified⟩ := ih hnodes
      have hne : ∀ m ∈ nodes, m.id ≠ n.id := fun m hm =>
        hfresh m.id (List.mem_map_of_mem hm) n.id (List.mem_singleton_self n.id)
      have hadd : empty.addNodes (nodes ++ [n]) = (empty.addNodes nodes).add n :=
        List.foldl_concat ..
      rw [hadd]
      refine ⟨?_, ?_, ?_⟩
      · rw [add, Rows.toList_put_of_fresh, hentries, List.map_append, List.map_singleton]
        intro s hs
        rw [← Rows.mem_toList, hentries] at hs
        obtain ⟨m, hm, rfl⟩ := List.mem_map.1 hs
        exact hne m hm
      · rw [add, hnames, List.map_append, List.map_singleton]
        exact addPair_of_fresh (List.forall_mem_map.2 hne)
      · rw [add, hqualified, List.map_append, List.map_singleton]
        exact addPair_of_fresh (List.forall_mem_map.2 hne)

/-- What such a table gives for a name: the nodes that have it. -/
theorem lookUp_perm {t : SymbolTable} {nodes : List Node}
    (hentries : t.entries.toList = nodes.map Node.symbol) (nameOf : Node → String) (name : String) :
    (t.lookUp (nodes.map fun n => (nameOf n, n.id)) name).Perm
      ((nodes.filter (nameOf · == name)).map Node.symbol) := by
  have hget : ∀ n ∈ nodes, t.entries.get? n.id = some n.symbol := fun n hn =>
    Rows.get?_eq_some_iff.2 ⟨by rw [← Rows.mem_toList, hentries]; exact List.mem_map_of_mem hn, rfl⟩
  have hids : ((nodes.map fun n => (nameOf n, n.id)).filter (·.1 == name)).map (·.2) =
      (nodes.filter (nameOf · == name)).map Node.id := by
    rw [List.filter_map, List.map_map]
    rfl
  have hfound : ((nodes.filter (nameOf · == name)).map Node.id).filterMap t.entries.get? =
      (nodes.filter (nameOf · == name)).map Node.symbol := by
    rw [List.filterMap_map, ← List.filterMap_eq_map]
    exact List.filterMap_congr fun n hn => hget n (List.mem_of_mem_filter hn)
  rw [lookUp, hids, ← hfound]
  exact (List.mergeSort_perm _ _).filterMap _

/-- A table that was filled with nodes and a store that holds exactly these answer alike. -/
theorem index_alike {nodes : List Node} (h : (nodes.map Node.id).Nodup) {s : Store}
    (hs : ∀ n, n ∈ s.nodes ↔ n ∈ nodes) : (empty.addNodes nodes).index.Alike s.symbols := by
  obtain ⟨hentries, hnames, hqualified⟩ := addNodes_spec h
  have hsame : s.nodes.toList.Perm nodes :=
    (List.perm_ext_iff_of_nodup (s.nodes.nodup.of_map _) (h.of_map _)).2 hs
  have hstore : ∀ p, (s.nodesWhere p).Perm (nodes.filter p) := fun p =>
    (List.mergeSort_perm _ _).trans (hsame.filter p)
  refine ⟨fun name => .ok ?_, fun name => .ok ?_⟩
  · rw [byName, hnames]
    exact (lookUp_perm hentries Node.name name).trans ((hstore _).map _).symm
  · rw [byQualifiedName, hqualified]
    exact (lookUp_perm hentries Node.qualifiedName name).trans ((hstore _).map _).symm

end SymbolTable

/-- **The order of symbols does not matter.**  A file is resolved to the same nodes, edges,
waiting names and ambiguous names, or fails alike, against any two indexes that list the same
symbols for every name in whatever order.  So a table that was filled with nodes of distinct
ids and an open store that holds exactly these, and refuses no question, give one resolution
of every file. -/
theorem Resolve.resolve_order_independent :
    (∀ (a b : SymbolIndex) (f : SourceFile), a.Alike b → resolve a f = resolve b f) ∧
    ∀ (nodes : List Node) (b : Backend) (f : SourceFile), (nodes.map Node.id).Nodup →
      b.isOpen = true → (∀ q, b.refuses q = none) → (∀ n, n ∈ b.store.nodes ↔ n ∈ nodes) →
      ∃ r, resolve (SymbolTable.empty.addNodes nodes).index f = .ok r ∧
        resolve b.symbols f = .ok r := by
  refine ⟨fun a b f h => h.resolve f, fun nodes b f hids hopen hanswers hnodes => ?_⟩
  have halike := SymbolTable.index_alike hids hnodes
  rw [Backend.symbols_eq hopen hanswers, halike.resolve f]
  obtain ⟨r, hr⟩ := resolve_total b.store f
  exact ⟨r, hr, hr⟩

/-- A class and a function of one qualified name, and two functions of one simple name; by
their files they come in another order than by their ids. -/
def sharedNames : List Node :=
  [.plain .classLike "f" "m.f" "z.py", .plain .function "f" "m.f" "a.py",
    .plain .function "g" "k.g" "z.py", .plain .method "g" "a.A.g" "a.py"]

def sharedNamesStored : Backend :=
  { Backend.new with store := { Store.empty with nodes := Rows.putAll {} sharedNames } }

/-- A file that imports the first name and calls the second one. -/
def usesSharedNames : SourceFile :=
  ⟨"b.py", "b.py", "python", ".",
    [.imported "f" "m.f" [] ⟨0, 0, 0, 15⟩, .call "_.g" [] ⟨1, 0, 1, 5⟩], ⟨0, 0, 2, 0⟩⟩

/-- The class is preferred and the call is ambiguous, whichever comes first. -/
theorem Resolve.resolve_order_independent_sharedNames :
    (sharedNames.map Node.id).Nodup ∧ sharedNamesStored.store.nodes.toList = sharedNames ∧
      (∃ r, resolve (SymbolTable.empty.addNodes sharedNames).index usesSharedNames = .ok r ∧
        resolve sharedNamesStored.symbols usesSharedNames = .ok r) ∧
      ∀ symbols ∈ [sharedNames.map Node.symbol, (sharedNames.map Node.symbol).reverse],
        (resolve (.ofList symbols) usesSharedNames).toOption.map
            (fun r => (r.edges.map Edge.target, r.ambiguous)) =
          some ([some "class:m.f", none], ["g"]) := by
  have hids : (sharedNames.map Node.id).Nodup := by decide +kernel
  have hstored : sharedNamesStored.store.nodes.toList = sharedNames := by decide +kernel
  have halike : (SymbolIndex.ofList (sharedNames.map Node.symbol)).Alike
      (.ofList (sharedNames.map Node.symbol).reverse) :=
    ⟨fun _ => .ok ((List.reverse_perm _).symm.filter _),
      fun _ => .ok ((List.reverse_perm _).symm.filter _)⟩
  refine ⟨hids, hstored, ?_, ?_⟩
  · exact resolve_order_independent.2 sharedNames sharedNamesStored usesSharedNames hids rfl
      (fun _ => rfl) fun n => by rw [← Rows.mem_toList, hstored]
  · rw [List.forall_mem_cons, List.forall_mem_singleton,
      ← resolve_order_independent.1 _ _ usesSharedNames halike]
    decide +kernel

end CodeAtlas
