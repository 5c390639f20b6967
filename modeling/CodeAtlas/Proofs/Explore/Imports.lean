import CodeAtlas.Proofs.Explore.Reach
import CodeAtlas.Proofs.Indexing.Reached
import CodeAtlas.Proofs.Resolve.WellFormed
import CodeAtlas.Proofs.Upsert.Names

/-!
# CodeAtlas.Proofs.Explore.Imports

Which imported symbols the imports of a module lead on from.

Every file claims the node of its module (`Store.Moduled`), but several files may be of one
module, and then its node is filed under only one of them.  A symbol is looked up by its file,
so it leads to its module if that file has a module node (`Store.Homed`), and to nothing at all
if its module is filed under another file.
-/

namespace CodeAtlas

open Upsert

/-! ## Stores of resolved files -/

/-- The stores that files lead to which are resolved and applied, or deleted, one after the
other. -/
inductive Store.FromFiles : Store → Prop
  | empty : Store.FromFiles .empty
  | call {s t : Store} {c : Call} : s.FromFiles → c.OfFile → Effect c s t → Store.FromFiles t

/-- Indexers lead to no other stores. -/
theorem Store.Indexed.fromFiles {s : Store} (h : s.Indexed) : s.FromFiles :=
  h.keeps (.of_effect fun _ _ _ hs hc heffect => hs.call hc heffect) .empty

theorem Reachable.fromFiles {b : Backend} (h : Reachable Call.OfFile b) : b.store.FromFiles :=
  h.keeps .empty fun _ _ _ hs hc heffect => hs.call hc heffect

namespace Store.FromFiles

variable {s : Store}

theorem declared (h : s.FromFiles) : s.Declared := by
  induction h with
  | empty => exact .empty
  | call _ hc heffect ih => exact heffect.declared hc ih

end Store.FromFiles

/-! ## Modules of files -/

/-- Whether a node is that of a module which a file claims. -/
def Store.ModuleOf (s : Store) (file : String) (m : Node) : Prop :=
  m ∈ s.nodes ∧ m.kind = .module ∧ s.Claims file m.id

/-- Every file that has a record claims a module. -/
def Store.Moduled (s : Store) : Prop :=
  ∀ file id, s.Claims file id → ∃ m, s.ModuleOf file m

theorem Store.Moduled.effect {s t : Store} {c : Call} (h : s.Moduled) (hs : s.Declared)
    (hc : c.OfFile) (heffect : Effect c s t) : t.Moduled := by
  have hformed := (heffect.declared hc hs).formed
  -- A node that is stored again under its id is still one of a module.
  have hmodule : ∀ {m n : Node}, m.Formed → m.kind = .module → n ∈ t.nodes → n.id = m.id →
      n.kind = .module := fun hm hkind hn hid => ((hm.alike (hformed _ hn) hid).2.1).trans hkind
  have hother : ∀ {path : String} {nodes : List Node} {edges : List Edge},
      Changed path nodes edges s t → ∀ file id, file ≠ path → t.Claims file id →
      ∃ m, t.ModuleOf file m := by
    intro path nodes edges hchanged file id hfile hclaims
    obtain ⟨m, hm, hkind, hmclaims⟩ := h file id ((hchanged.claims_other hfile).1 hclaims)
    obtain ⟨n, hn, hid⟩ := hchanged.node_stays hm hfile hmclaims
    refine ⟨n, hn, hmodule (hs.formed m hm) hkind hn hid, ?_⟩
    rw [hid]
    exact (hchanged.claims_other hfile).2 hmclaims
  cases c with
  | apply record nodes edges =>
      intro file id hclaims
      have hchanged := heffect.changed rfl
      by_cases hfile : file = record.path
      · obtain ⟨index, f, r, hr, hpath, rfl, rfl⟩ := hc
        obtain ⟨m, hm, -, hkind⟩ := Resolve.exists_node_of_defines hr (.inl ⟨rfl, rfl⟩)
        obtain ⟨n, hn, hid, hmem⟩ := hchanged.node_given hm
        have hformed := Resolve.nodes_formed hr m hm
        exact ⟨n, hmem, hmodule hformed hkind hmem hid, hfile ▸ hchanged.claims_node hn⟩
      · exact hother hchanged file id hfile hclaims
  | delete path =>
      intro file id hclaims
      have hchanged := heffect.changed rfl
      by_cases hfile : file = path
      · have hgiven := (hchanged.own id).1 (hfile ▸ hclaims)
        simp [mem_contributionOf] at hgiven
      · exact hother hchanged file id hfile hclaims
  | relink => exact hc.elim

namespace Store

variable {s : Store}

theorem FromFiles.moduled (h : s.FromFiles) : s.Moduled := by
  induction h with
  | empty =>
      rintro file id ⟨r, hr, -⟩
      cases hr
  | call hs hc heffect ih => exact ih.effect hs.declared hc heffect

/-- The file of a node claims a module. -/
theorem FromFiles.exists_moduleOf (h : s.FromFiles) {n : Node} (hn : n ∈ s.nodes) :
    ∃ m, s.ModuleOf n.file m :=
  h.moduled n.file n.id (h.declared.claimed n hn)

/-! ## Symbols and their modules -/

/-- Whether a module is filed under the file of a node. -/
def Homed (s : Store) (n : Node) : Prop := ∃ m ∈ s.nodes, m.kind = .module ∧ m.file = n.file

theorem not_homed_iff {n : Node} (hkind : n.kind ≠ .module) :
    ¬ s.Homed n ↔ s.declaringModule? n = none := by
  simp only [declaringModule?_eq_none_iff hkind, Homed, not_exists, not_and]

/-- Whether the imports of a module list another one, or are its own. -/
def ListsModule (s : Store) (m k : Node) : Prop := k = m ∨ k ∈ (s.importGraph m).transitive

theorem listsModule_iff {m k : Node} (hm : m ∈ s.nodes) :
    s.ListsModule m k ↔ Relation.ReflTransGen s.LeadsTo m k := by
  rw [ListsModule, mem_transitive hm]
  by_cases hk : k = m
  · simp [hk, Relation.ReflTransGen.refl]
  · simp [hk]

/-- The store without an edge. -/
def without (s : Store) (e : Edge) : Store := (s.deleteEdge e.id).2

theorem mem_without {e g : Edge} (he : e ∈ s.edges) :
    g ∈ (s.without e).edges ↔ g ∈ s.edges ∧ g ≠ e := by
  rw [without, deleteEdge, Rows.erase, Rows.mem_filter, bne_iff_ne]
  exact and_congr_right fun hg =>
    not_congr ⟨fun hid => Rows.eq_of_key_eq hg he hid, congrArg Edge.id⟩

theorem without_imports_iff {e g : Edge} (he : e ∈ s.edges) {id : String} {n : Node} :
    (s.without e).Imports id g n ↔ s.Imports id g n ∧ g ≠ e := by
  constructor
  · intro ⟨hg, hr, hsource, htarget, hn⟩
    obtain ⟨hg, hne⟩ := (mem_without he).1 hg
    exact ⟨⟨hg, hr, hsource, htarget, hn⟩, hne⟩
  · intro ⟨⟨hg, hr, hsource, htarget, hn⟩, hne⟩
    exact ⟨(mem_without he).2 ⟨hg, hne⟩, hr, hsource, htarget, hn⟩

theorem without_leadsTo {e : Edge} (he : e ∈ s.edges) {a b : Node}
    (h : (s.without e).LeadsTo a b) : s.LeadsTo a b := by
  obtain ⟨g, n, hi, hb⟩ := h
  exact ⟨g, n, ((without_imports_iff he).1 hi).1, hb⟩

/-- The import of a symbol whose module is filed elsewhere leads to nothing. -/
theorem Imports.leadsTo_iff {id : String} {e : Edge} {n : Node} (h : s.Imports id e n)
    (hn : s.declaringModule? n = none) {a b : Node} :
    (s.without e).LeadsTo a b ↔ s.LeadsTo a b := by
  refine ⟨without_leadsTo h.stored, fun ⟨g, k, hi, hb⟩ => ?_⟩
  refine ⟨g, k, (without_imports_iff h.stored).2 ⟨hi, ?_⟩, hb⟩
  rintro rfl
  have hsame : k = n := Rows.eq_of_key_eq hi.node h.node
    (Option.some.inj (hi.target.symm.trans h.target))
  rw [hsame, hn] at hb
  cases hb

/-- The import of a symbol leads to the module that is filed with it. -/
theorem Imports.exists_leadsTo (hs : s.Declared) {m n : Node} {e : Edge} (h : s.Imports m.id e n)
    (hkind : n.kind ≠ .module) (hhomed : s.Homed n) : ∃ k, s.ModuleOf n.file k ∧ s.LeadsTo m k := by
  cases hk : s.declaringModule? n with
  | none => exact absurd hhomed ((not_homed_iff hkind).2 hk)
  | some k =>
      obtain ⟨hmem, hmodule, hfile⟩ := declaringModule?_spec h.node hk
      exact ⟨k, ⟨hmem, hmodule, hfile ▸ hs.claimed k hmem⟩, e, n, h, hk⟩

/-- **An imported symbol leads to its module exactly if that is filed with it.**  In a store
that files were indexed into, let a module import a symbol.  The symbol is among the direct
imports, and its file claims the node of a module.  The imports of the importing module list
such a node if and only if a module is filed under the symbol's file, or they do so without
this import.  If none is, then all modules of the symbol's file are filed under other files
that claim them as well, and this import changes nothing of what is listed. -/
theorem importGraph_lists_module_iff (h : s.FromFiles) {m n : Node} {e : Edge} (hm : m ∈ s.nodes)
    (himport : s.Imports m.id e n) (hkind : n.kind ≠ .module) :
    n ∈ (s.importGraph m).direct ∧ (∃ k, s.ModuleOf n.file k) ∧
      ((∃ k, s.ModuleOf n.file k ∧ s.ListsModule m k) ↔
        s.Homed n ∨ ∃ k, s.ModuleOf n.file k ∧ (s.without e).ListsModule m k) ∧
      (¬ s.Homed n →
        (∀ k, s.ModuleOf n.file k → k.file ≠ n.file ∧ s.ModuleOf k.file k) ∧
        ∀ k, s.ListsModule m k ↔ (s.without e).ListsModule m k) := by
  have hmono : ∀ {k}, (s.without e).ListsModule m k → s.ListsModule m k := by
    intro k hk
    have hleads := (listsModule_iff (s := s.without e) hm).1 hk
    exact (listsModule_iff hm).2
      (Relation.ReflTransGen.mono (fun _ _ => without_leadsTo himport.stored) _ _ hleads)
  have hsame : ¬ s.Homed n → ∀ k, s.ListsModule m k ↔ (s.without e).ListsModule m k := by
    intro hhomed k
    have hleads : (s.without e).LeadsTo = s.LeadsTo := by
      funext a b
      exact propext (himport.leadsTo_iff ((not_homed_iff hkind).1 hhomed))
    rw [listsModule_iff hm, listsModule_iff (s := s.without e) hm, hleads]
  have helsewhere : ¬ s.Homed n → ∀ k, s.ModuleOf n.file k →
      k.file ≠ n.file ∧ s.ModuleOf k.file k := by
    rintro hhomed k ⟨hk, hmodule, -⟩
    exact ⟨fun hfile => hhomed ⟨k, hk, hmodule, hfile⟩, hk, hmodule, h.declared.claimed k hk⟩
  refine ⟨mem_direct.2 ⟨e, himport⟩, h.exists_moduleOf himport.node, ⟨?_, ?_⟩,
    fun hhomed => ⟨helsewhere hhomed, hsame hhomed⟩⟩
  · rintro ⟨k, hk, hlists⟩
    by_cases hhomed : s.Homed n
    · exact .inl hhomed
    · exact .inr ⟨k, hk, (hsame hhomed k).1 hlists⟩
  · rintro (hhomed | ⟨k, hk, hlists⟩)
    · obtain ⟨k, hk, hleads⟩ := himport.exists_leadsTo h.declared hkind hhomed
      exact ⟨k, hk, (listsModule_iff hm).2 (.single hleads)⟩
    · exact ⟨k, hk, hmono hlists⟩

end Store

theorem applyEach_ofFile {b : Backend} {fs : List SourceFile} {c : Call}
    (h : c ∈ applyEach b fs) : c.OfFile := by
  induction fs generalizing b with
  | nil => exact absurd h List.not_mem_nil
  | cons f fs ih =>
      rcases List.mem_cons.1 h with rfl | h
      · rw [applyIn]
        split
        · next r hr => exact ⟨_, f, r, hr, rfl, rfl, rfl⟩
        · trivial
      · exact ih h

/-- A stub with `g`, a file of the same module with `f`, and a file that imports `g`. -/
def moduleOfTwoFiles : List SourceFile :=
  let function (name : String) : Fact := .definition .function name [] ⟨0, 0, 0, 12⟩ ""
  [⟨"m.pyi", "m.pyi", "python", ".", [function "g"], ⟨0, 0, 1, 0⟩⟩,
    ⟨"m.py", "m.py", "python", ".", [function "f"], ⟨0, 0, 1, 0⟩⟩,
    ⟨"b.py", "b.py", "python", ".", [.imported "g" "m.g" [] ⟨0, 0, 0, 15⟩], ⟨0, 0, 1, 0⟩⟩]

def moduleOfTwoFilesStored : Store :=
  (Backend.new.performAll (applyEach .new moduleOfTwoFiles)).store

/-- The symbol is imported and its file claims a module, but no other module is listed. -/
theorem Store.importGraph_lists_module_iff_moduleOfTwoFiles :
    moduleOfTwoFilesStored.FromFiles ∧
      ∃ m ∈ moduleOfTwoFilesStored.nodes, ∃ e n, m.id = "module:b" ∧ n.id = "function:m.g" ∧
        moduleOfTwoFilesStored.Imports m.id e n ∧ n.kind ≠ .module ∧
        n ∈ (moduleOfTwoFilesStored.importGraph m).direct ∧
        (∃ k, moduleOfTwoFilesStored.ModuleOf n.file k) ∧
        ¬ moduleOfTwoFilesStored.Homed n ∧
        (moduleOfTwoFilesStored.importGraph m).transitive = [] := by
  have hfrom : moduleOfTwoFilesStored.FromFiles :=
    ((Reachable.start rfl).performAll fun _ hc => applyEach_ofFile hc).fromFiles
  obtain ⟨m, hm, hlisted⟩ : ∃ m, moduleOfTwoFilesStored.nodes.get? "module:b" = some m ∧
      (moduleOfTwoFilesStored.importGraph m).transitive = [] :=
    Option.map_eq_some_iff.1 (by decide +kernel)
  obtain ⟨n, hn, hnode⟩ : ∃ n, moduleOfTwoFilesStored.nodes.get? "function:m.g" = some n ∧
      (n.kind, n.file) = (.function, "m.pyi") := Option.map_eq_some_iff.1 (by decide +kernel)
  obtain ⟨e, he, hedge⟩ : ∃ e,
      moduleOfTwoFilesStored.edges.get? "IMPORTS:module:b->m.g@b.py" = some e ∧
        (e.relationship, e.source, e.target) =
          (.imports, "module:b", some "function:m.g") :=
    Option.map_eq_some_iff.1 (by decide +kernel)
  simp only [Prod.mk.injEq] at hnode hedge
  have hmid := Rows.key_of_get? hm
  have hnid := Rows.key_of_get? hn
  have himport : moduleOfTwoFilesStored.Imports m.id e n :=
    ⟨Rows.mem_of_get? he, hedge.1, hedge.2.1.trans hmid.symm, hnid ▸ hedge.2.2, Rows.mem_of_get? hn⟩
  have hkind : n.kind ≠ .module := by simp [hnode.1]
  have hhomed : ¬ moduleOfTwoFilesStored.Homed n := by
    have h : ∀ k ∈ moduleOfTwoFilesStored.nodes.toList, k.kind = .module → k.file ≠ "m.pyi" := by
      decide +kernel
    rintro ⟨k, hk, hmodule, hfile⟩
    exact h k hk hmodule (hfile.trans hnode.2)
  obtain ⟨hdirect, hexists, -⟩ := importGraph_lists_module_iff hfrom (Rows.mem_of_get? hm)
    himport hkind
  exact ⟨hfrom, m, Rows.mem_of_get? hm, e, n, hmid, hnid, himport, hkind, hdirect, hexists, hhomed,
    hlisted⟩

end CodeAtlas
