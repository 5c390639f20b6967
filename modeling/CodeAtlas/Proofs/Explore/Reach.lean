import CodeAtlas.Proofs.Explore.Frontier
import CodeAtlas.Proofs.Explore.Order
import CodeAtlas.Proofs.Store.Contents

/-!
# CodeAtlas.Proofs.Explore.Reach

The imports of a module list all modules that imports lead to.

One import leads from a module to the module that the imported node is declared in
(`Store.LeadsTo`).  The first search finds the modules that any number of imports lead to, and
the arcs of their graph are the imports between them (`Store.mem_arcs`).  The walk along the
arcs finds the ids of the same modules again (`Store.walk_spec`), so neither of the two leaves
out or adds a module (`Store.mem_transitive`).
-/

namespace CodeAtlas

namespace Store

variable {s : Store}

/-! ## One import -/

theorem declaringModule?_spec {n m : Node} (hn : n ∈ s.nodes)
    (h : s.declaringModule? n = some m) : m ∈ s.nodes ∧ m.kind = .module ∧ m.file = n.file := by
  rw [declaringModule?] at h
  split at h
  · next hkind =>
    cases h
    exact ⟨hn, beq_iff_eq.1 hkind, rfl⟩
  · have hm := List.mem_of_find?_eq_some h
    have hmodule := List.find?_some h
    rw [nodesInFile, mem_nodesWhere, beq_iff_eq] at hm
    exact ⟨hm.1, beq_iff_eq.1 hmodule, hm.2⟩

/-- Nothing declares a node that is no module if its file has no module. -/
theorem declaringModule?_eq_none_iff {n : Node} (hkind : n.kind ≠ .module) :
    s.declaringModule? n = none ↔ ∀ m ∈ s.nodes, m.kind = .module → m.file ≠ n.file := by
  rw [declaringModule?, if_neg (by rwa [beq_iff_eq]), List.find?_eq_none]
  simp only [nodesInFile, mem_nodesWhere, beq_iff_eq]
  exact ⟨fun h m hm hmodule hfile => h m ⟨hm, hfile⟩ hmodule,
    fun h m hm hmodule => h m hm.1 hmodule hm.2⟩

/-- Whether an edge stands for the import of a node. -/
structure Imports (s : Store) (source : String) (e : Edge) (n : Node) : Prop where
  stored : e ∈ s.edges
  relationship : e.relationship = .imports
  source_eq : e.source = source
  target : e.target = some n.id
  node : n ∈ s.nodes

theorem mem_imported {id : String} {n : Node} : n ∈ s.imported id ↔ ∃ e, s.Imports id e n := by
  simp only [imported, List.mem_filterMap, edgesFrom, mem_edgesWhere, ofKind, Option.all_some,
    Bool.and_eq_true, beq_iff_eq, Option.bind_eq_some_iff, Rows.get?_eq_some_iff]
  constructor
  · rintro ⟨e, ⟨he, hsource, hkind⟩, _, htarget, hn, rfl⟩
    exact ⟨e, he, hkind.symm, hsource, htarget, hn⟩
  · rintro ⟨e, he, hkind, hsource, htarget, hn⟩
    exact ⟨e, ⟨he, hsource, hkind.symm⟩, n.id, htarget, hn, rfl⟩

/-- Whether one import leads from a module to another. -/
def LeadsTo (s : Store) (a b : Node) : Prop :=
  ∃ e n, s.Imports a.id e n ∧ s.declaringModule? n = some b

theorem mem_importedModules {a b : Node} : b ∈ s.importedModules a.id ↔ s.LeadsTo a b := by
  simp only [importedModules, List.mem_filterMap, mem_imported, LeadsTo]
  exact ⟨fun ⟨n, ⟨e, he⟩, hb⟩ => ⟨e, n, he, hb⟩, fun ⟨e, n, he, hb⟩ => ⟨n, ⟨e, he⟩, hb⟩⟩

theorem LeadsTo.stored {a b : Node} (h : s.LeadsTo a b) : b ∈ s.nodes ∧ b.kind = .module :=
  have ⟨_, _, hi, hb⟩ := h
  ⟨(declaringModule?_spec hi.node hb).1, (declaringModule?_spec hi.node hb).2.1⟩

/-! ## The graph of modules -/

/-- The search ends because nothing waits, with the modules that imports lead to. -/
theorem moduleSearch_spec {m : Node} (hm : m ∈ s.nodes) :
    (s.moduleSearch m).waiting = [] ∧ (s.moduleSearch m).found.Nodup ∧
      ∀ k, k ∈ (s.moduleSearch m).found ↔ Relation.ReflTransGen s.LeadsTo m k := by
  have hleads : Frontier.LeadsBy (fun a : Node => s.importedModules a.id) = s.LeadsTo := by
    funext a b
    exact propext mem_importedModules
  have h := Frontier.run_spec Node.id (fun a => s.importedModules a.id) s.nodes.toList
    (fun a ha b hb => Rows.eq_of_key_eq ha hb)
    (fun a _ b hb => (mem_importedModules.1 hb).stored.1) hm (Nat.le_succ s.nodes.size)
  rwa [hleads] at h

theorem mem_modules {m k : Node} (hm : m ∈ s.nodes) :
    k ∈ (s.moduleGraph m).modules ↔ Relation.ReflTransGen s.LeadsTo m k :=
  (moduleSearch_spec hm).2.2 k

theorem modules_stored {m : Node} (hm : m ∈ s.nodes) :
    ∀ k ∈ (s.moduleGraph m).modules, k ∈ s.nodes := by
  intro k hk
  cases (mem_modules hm).1 hk with
  | refl => exact hm
  | tail _ hlast => exact hlast.stored.1

/-- The arcs are the imports between the modules. -/
theorem mem_arcs {m : Node} (hm : m ∈ s.nodes) {x y : String} :
    (x, y) ∈ (s.moduleGraph m).arcs ↔
      ∃ a b, Relation.ReflTransGen s.LeadsTo m a ∧ s.LeadsTo a b ∧ a.id = x ∧ b.id = y := by
  simp only [moduleGraph, List.mem_eraseDups, List.mem_flatMap, List.mem_map, Prod.mk.injEq,
    (moduleSearch_spec hm).2.2, mem_importedModules]
  exact ⟨fun ⟨a, ha, b, hb, hx, hy⟩ => ⟨a, b, ha, hb, hx, hy⟩,
    fun ⟨a, b, ha, hb, hx, hy⟩ => ⟨a, ha, b, hb, hx, hy⟩⟩

theorem leadsBy_successors {m : Node} (hm : m ∈ s.nodes) {x y : String} :
    Frontier.LeadsBy (s.moduleGraph m).successors x y ↔
      ∃ a b, Relation.ReflTransGen s.LeadsTo m a ∧ s.LeadsTo a b ∧ a.id = x ∧ b.id = y := by
  rw [← mem_arcs hm, Frontier.LeadsBy, ModuleGraph.successors]
  simp

/-- The walk ends because nothing waits, with the ids of the modules that imports lead to. -/
theorem walk_spec {m : Node} (hm : m ∈ s.nodes) :
    ((s.moduleGraph m).walk m.id).waiting = [] ∧ ((s.moduleGraph m).walk m.id).found.Nodup ∧
      ∀ x, x ∈ ((s.moduleGraph m).walk m.id).found ↔
        ∃ k, Relation.ReflTransGen s.LeadsTo m k ∧ k.id = x := by
  have hmem : ∀ {k}, Relation.ReflTransGen s.LeadsTo m k →
      k.id ∈ (s.moduleGraph m).modules.map Node.id := fun hk =>
    List.mem_map_of_mem ((mem_modules hm).2 hk)
  have hnext : ∀ x ∈ (s.moduleGraph m).modules.map Node.id, ∀ y,
      Frontier.LeadsBy (s.moduleGraph m).successors x y →
        y ∈ (s.moduleGraph m).modules.map Node.id := by
    rintro x - y hy
    obtain ⟨a, b, ha, hab, -, rfl⟩ := (leadsBy_successors hm).1 hy
    exact hmem (ha.tail hab)
  have hlength : ((s.moduleGraph m).modules.map Node.id).length ≤
      (s.moduleGraph m).modules.length := (List.length_map Node.id).le
  obtain ⟨hdone, hnodup, hiff⟩ := Frontier.run_spec id (s.moduleGraph m).successors _
    (fun _ _ _ _ h => h) hnext (hmem .refl) hlength
  refine ⟨hdone, hnodup, fun x => (hiff x).trans ⟨fun hx => ?_, ?_⟩⟩
  · cases hx with
    | refl => exact ⟨m, .refl, rfl⟩
    | tail _ hlast =>
        obtain ⟨a, b, ha, hab, -, rfl⟩ := (leadsBy_successors hm).1 hlast
        exact ⟨b, ha.tail hab, rfl⟩
  · rintro ⟨k, hk, rfl⟩
    induction hk with
    | refl => exact .refl
    | @tail a b ha hab ih => exact ih.tail ((leadsBy_successors hm).2 ⟨a, b, ha, hab, rfl, rfl⟩)

/-! ## Other modules -/

/-- An id finds the stored node that has it. -/
theorem find?_id_eq_some_iff {ns : List Node} (h : ∀ n ∈ ns, n ∈ s.nodes) {x : String} {n : Node} :
    ns.find? (·.id == x) = some n ↔ n ∈ ns ∧ n.id = x := by
  constructor
  · intro hfind
    have hid := List.find?_some hfind
    exact ⟨List.mem_of_find?_eq_some hfind, beq_iff_eq.1 hid⟩
  · rintro ⟨hn, rfl⟩
    obtain ⟨k, hk⟩ := Option.isSome_iff_exists.1
      (List.find?_isSome (p := (·.id == n.id)).2 ⟨n, hn, beq_self_eq_true n.id⟩)
    have hid := List.find?_some hk
    rw [hk, Rows.eq_of_key_eq (h k (List.mem_of_find?_eq_some hk)) (h n hn) (beq_iff_eq.1 hid)]

/-- The imports of a module list every other module that some chain of imports leads to. -/
theorem mem_transitive {m k : Node} (hm : m ∈ s.nodes) :
    k ∈ (s.importGraph m).transitive ↔ k ≠ m ∧ Relation.ReflTransGen s.LeadsTo m k := by
  simp only [importGraph, List.mem_mergeSort, List.mem_filterMap, List.mem_filter, bne_iff_ne,
    find?_id_eq_some_iff (modules_stored hm), (walk_spec hm).2.2, mem_modules hm]
  constructor
  · rintro ⟨x, ⟨-, hx⟩, hk, rfl⟩
    exact ⟨fun he => hx (congrArg Node.id he), hk⟩
  · rintro ⟨hne, hk⟩
    have hstored := modules_stored hm k ((mem_modules hm).2 hk)
    exact ⟨k.id, ⟨⟨k, hk, rfl⟩, fun hid => hne (Rows.eq_of_key_eq hstored hm hid)⟩, hk, rfl⟩

theorem nodup_transitive {m : Node} (hm : m ∈ s.nodes) :
    (s.importGraph m).transitive.Nodup := by
  refine List.nodup_mergeSort.2 (((walk_spec hm).2.1.filter _).filterMap fun x y n hx hy => ?_)
  have hstored := modules_stored hm
  exact ((find?_id_eq_some_iff hstored).1 hx).2.symm.trans ((find?_id_eq_some_iff hstored).1 hy).2

/-! ## What is imported as such -/

theorem mem_dropSame {ns : List Node} (h : ∀ a ∈ ns, ∀ b ∈ ns, a.id = b.id → a = b) (n : Node) :
    n ∈ dropSame ns ↔ n ∈ ns := by
  fun_induction dropSame ns with
  | case1 a b rest hid ih =>
      have hab : a = b := h a (by simp) b (by simp) hid
      rw [ih fun c hc d hd => h c (hab ▸ .tail _ hc) d (hab ▸ .tail _ hd)]
      simp [hab]
  | case2 a b rest hid ih =>
      simp only [List.mem_cons, ih fun c hc d hd => h c (.tail _ hc) d (.tail _ hd)]
  | case3 ns => exact Iff.rfl

/-- Of nodes that ascend those that stay do so strictly. -/
theorem pairwise_dropSame {ns : List Node} (h : ∀ a ∈ ns, ∀ b ∈ ns, a.id = b.id → a = b)
    (hsorted : (ns.map Node.position).Pairwise (· ≤ ·)) :
    ((dropSame ns).map Node.position).Pairwise (· < ·) := by
  fun_induction dropSame ns with
  | case1 _ b rest hid ih =>
      have hab := h _ (by simp) b (by simp) hid
      subst hab
      exact ih (fun c hc d hd => h c (.tail _ hc) d (.tail _ hd)) (List.pairwise_cons.1 hsorted).2
  | case2 a b rest hid ih =>
      obtain ⟨hfirst, hsorted⟩ := List.pairwise_cons.1 hsorted
      have hrest := fun c hc d hd => h c (.tail a hc) d (.tail a hd)
      rw [List.map_cons, List.pairwise_cons]
      refine ⟨fun p hp => ?_, ih hrest hsorted⟩
      obtain ⟨c, hc, rfl⟩ := List.mem_map.1 hp
      have hlt : a.position < b.position := by
        refine lt_of_le_of_ne (hfirst _ List.mem_cons_self) fun heq => hid ?_
        exact congrArg (fun p => (ofLex (ofLex (ofLex p).2).2).2) heq
      have hc' := (mem_dropSame hrest c).1 hc
      rcases List.mem_cons.1 hc' with rfl | hc'
      · exact hlt
      · exact hlt.trans_le ((List.pairwise_cons.1 hsorted).1 _ (List.mem_map_of_mem hc'))
  | case3 ns hns =>
      rcases ns with _ | ⟨a, _ | ⟨b, rest⟩⟩
      · exact .nil
      · exact List.pairwise_singleton _ _
      · exact absurd rfl (hns a b rest)

theorem imported_stored {m : Node} :
    ∀ n ∈ (s.imported m.id).mergeSort Node.comesBy, n ∈ s.nodes := fun _ hn =>
  have ⟨_, hi⟩ := mem_imported.1 (List.mem_mergeSort.1 hn)
  hi.node

/-- The imports of a module list what it imports, whatever declares it. -/
theorem mem_direct {m n : Node} : n ∈ (s.importGraph m).direct ↔ ∃ e, s.Imports m.id e n := by
  rw [importGraph, mem_dropSame fun a ha b hb =>
    Rows.eq_of_key_eq (imported_stored a ha) (imported_stored b hb), List.mem_mergeSort,
    mem_imported]

theorem direct_ascends {m : Node} :
    ((s.importGraph m).direct.map Node.position).Pairwise (· < ·) := by
  refine pairwise_dropSame
    (fun a ha b hb => Rows.eq_of_key_eq (imported_stored a ha) (imported_stored b hb)) ?_
  exact pairwise_mergeSort_of_iff Node.comesBy Node.position (fun _ _ => Node.comesBy_iff) _

/-! ## Imports as a closure -/

/-- Stored nodes that are different have different ids. -/
theorem nodup_ids {ns : List Node} (h : ∀ n ∈ ns, n ∈ s.nodes) (hnodup : ns.Nodup) :
    (ns.map Node.id).Nodup :=
  hnodup.map_on fun a ha b hb => Rows.eq_of_key_eq (h a ha) (h b hb)

/-- **The import graph is the reachability closure.**  Both searches for the imports of a stored
module come to an end because nothing waits to be gone on from, whatever cycles there are.  The
direct imports are the stored nodes that resolved import edges of the module point at.  The
transitive ones are the other modules that one or more imports lead to, where an import leads to
the module that its target is declared in.  Either list has each node once, in the order of
file, line, column and id. -/
theorem importGraph_lists_reachable {m : Node} (hm : m ∈ s.nodes) :
    ((s.moduleSearch m).waiting = [] ∧ ((s.moduleGraph m).walk m.id).waiting = []) ∧
      ((∀ n, n ∈ (s.importGraph m).direct ↔ ∃ e, s.Imports m.id e n) ∧
        ((s.importGraph m).direct.map Node.id).Nodup ∧
        ((s.importGraph m).direct.map Node.position).Pairwise (· ≤ ·)) ∧
      (∀ k, k ∈ (s.importGraph m).transitive ↔
        (k ∈ s.nodes ∧ k.kind = .module) ∧ k ≠ m ∧ Relation.TransGen s.LeadsTo m k) ∧
        ((s.importGraph m).transitive.map Node.id).Nodup ∧
        ((s.importGraph m).transitive.map Node.position).Pairwise (· ≤ ·) := by
  have htransitive : ∀ k, k ∈ (s.importGraph m).transitive ↔
      (k ∈ s.nodes ∧ k.kind = .module) ∧ k ≠ m ∧ Relation.TransGen s.LeadsTo m k := by
    intro k
    rw [mem_transitive hm, Relation.reflTransGen_iff_eq_or_transGen]
    constructor
    · rintro ⟨hne, hk⟩
      have hchain := hk.resolve_left hne
      obtain ⟨a, -, hlast⟩ := Relation.TransGen.tail'_iff.1 hchain
      exact ⟨hlast.stored, hne, hchain⟩
    · exact fun ⟨_, hne, hchain⟩ => ⟨hne, .inr hchain⟩
  refine ⟨⟨(moduleSearch_spec hm).1, (walk_spec hm).1⟩, ⟨fun n => mem_direct, ?_, ?_⟩, htransitive,
    ?_, ?_⟩
  · have hstored : ∀ n ∈ (s.importGraph m).direct, n ∈ s.nodes := fun n hn =>
      have ⟨_, hi⟩ := mem_direct.1 hn
      hi.node
    exact nodup_ids hstored (List.Nodup.of_map Node.position (direct_ascends.imp ne_of_lt))
  · exact direct_ascends.imp le_of_lt
  · exact nodup_ids (fun k hk => ((htransitive k).1 hk).1.1) (nodup_transitive hm)
  · exact pairwise_mergeSort_of_iff Node.comesBy Node.position (fun _ _ => Node.comesBy_iff) _

namespace ImportCycle

def module (name : String) : Node :=
  ⟨"module:" ++ name, .module, name, name, name ++ ".py", "python", ⟨0, 0, 4, 0⟩, none⟩

def function : Node :=
  ⟨"function:b.f", .function, "f", "b.f", "b.py", "python", ⟨2, 0, 3, 0⟩, none⟩

/-- The import of a node in a module. -/
def importOf (name : String) (n : Node) : Edge :=
  ⟨Edge.idOf .imports ("module:" ++ name) n.qualifiedName (name ++ ".py"), "module:" ++ name,
    some n.id, .imports, .resolved, n.qualifiedName, name ++ ".py", ⟨0, 0, 0, 8⟩⟩

/-- A module that imports itself and a function, whose module imports one that imports the
first. -/
def store : Store :=
  { Store.empty with
    nodes := Rows.putAll {} [module "a", module "b", module "c", function]
    edges := Rows.putAll {} [importOf "a" (module "a"), importOf "a" function,
      importOf "b" (module "c"), importOf "c" (module "a")] }

end ImportCycle

open ImportCycle in
theorem importGraph_lists_reachable_importCycle :
    module "a" ∈ store.nodes ∧
      ((store.moduleSearch (module "a")).waiting = [] ∧
        ((store.moduleGraph (module "a")).walk "module:a").waiting = []) ∧
      (∀ n ∈ [module "a", function], n ∈ (store.importGraph (module "a")).direct) ∧
      (∀ k ∈ [module "b", module "c"], k ∈ (store.importGraph (module "a")).transitive) ∧
      module "a" ∉ (store.importGraph (module "a")).transitive := by
  have ha : module "a" ∈ store.nodes := by decide
  obtain ⟨hends, ⟨hdirect, -⟩, htransitive, -⟩ := importGraph_lists_reachable ha
  have himport : ∀ name n, importOf name n ∈ store.edges → n ∈ store.nodes →
      store.Imports ("module:" ++ name) (importOf name n) n :=
    fun name n he hn => ⟨he, rfl, rfl, rfl, hn⟩
  have hdeclares : store.declaringModule? function = some (module "b") := by
    have hfile : store.nodesInFile "b.py" = [module "b", function] :=
      List.mergeSort_of_pairwise (by decide)
    rw [declaringModule?, show function.file = "b.py" from rfl, hfile]
    rfl
  have hb : store.LeadsTo (module "a") (module "b") :=
    ⟨_, function, himport "a" function (by decide) (by decide), hdeclares⟩
  have hc : store.LeadsTo (module "b") (module "c") :=
    ⟨_, module "c", himport "b" (module "c") (by decide) (by decide), rfl⟩
  refine ⟨ha, hends, ?_, ?_, fun h => ((htransitive _).1 h).2.1 rfl⟩
  · rintro n hn
    have hn : n = module "a" ∨ n = function := by simpa using hn
    rcases hn with rfl | rfl
    · exact (hdirect _).2 ⟨_, himport "a" (module "a") (by decide) ha⟩
    · exact (hdirect _).2 ⟨_, himport "a" function (by decide) (by decide)⟩
  · intro k hk
    have hk : k = module "b" ∨ k = module "c" := by simpa using hk
    rcases hk with rfl | rfl
    · exact (htransitive _).2 ⟨hb.stored, by decide, .single hb⟩
    · exact (htransitive _).2 ⟨hc.stored, by decide, .tail (.single hb) hc⟩

end Store

end CodeAtlas
