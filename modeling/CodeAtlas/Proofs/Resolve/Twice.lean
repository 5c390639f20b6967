import CodeAtlas.Proofs.Resolve.Contribution
import CodeAtlas.Proofs.Resolve.Outside

/-!
# CodeAtlas.Proofs.Resolve.Twice

A file that is resolved before and after its own nodes were stored.

The second time the look-ups find what the file stored itself.  Simple names leave that out,
and so do qualified names, but for modules: an import may be given another target.  What is
merged comes to the same nevertheless.  A target that is not stored any more is dropped and
looked for again, and what is then found is what the second look-up finds
(`FileScope.validIn_picked`), if the file and another one do not both have nodes of the
imported name.
-/

namespace CodeAtlas

open Upsert

/-- A file does not share a qualified name with other files. -/
def Store.NameOwn (s : Store) (path name : String) : Prop :=
  ∀ n ∈ s.nodes, n.file = path → n.qualifiedName = name →
    ∀ m ∈ s.nodes, m.file ≠ path → m.qualifiedName ≠ name

/-- Two edges have one id and come to the same when they are merged. -/
def Edge.SameIn (t : Store) (e e' : Edge) : Prop := e.id = e'.id ∧ validIn t e = validIn t e'

/-- Two resolutions come to the same: they have the same nodes, and edges that come to the
same. -/
def Resolution.SameIn (t : Store) (r r' : Resolution) : Prop :=
  r.nodes = r'.nodes ∧ List.Forall₂ (Edge.SameIn t) r.edges r'.edges

theorem NodeKind.rank_eq_zero_iff {k : NodeKind} : k.rank = 0 ↔ k = .module := by
  cases k <;> decide

/-- An import looks for any node of a qualified name. -/
theorem Upsert.targetIn_imports {t : Store} {e : Edge} (h : e.relationship = .imports) :
    targetIn t e = (best? (t.nodesQualified e.targetRef)).map fun n => (n.id, .resolved) := by
  have hwaits : e.waitsQualified = true := by simp [Edge.waitsQualified, h]
  have hall : (t.nodesQualified e.targetRef).filter (fun n => e.relationship.accepts n.kind) =
      t.nodesQualified e.targetRef := by
    rw [h]
    exact List.filter_eq_self.2 fun _ _ => rfl
  rw [targetIn, if_pos hwaits, hall]

/-- A module is preferred to all nodes of its qualified name. -/
theorem Upsert.preferred_module {n m : Node} (hn : n.Formed) (hm : m.Formed)
    (hname : n.qualifiedName = m.qualifiedName) (hmodule : n.kind = .module) :
    preferred n m = true := by
  rw [preferred_iff, NodeKind.rank_eq_zero_iff.2 hmodule]
  by_cases hkind : m.kind = .module
  · have hid : n.id = m.id := by
      rw [show n.id = _ from hn, show m.id = _ from hm, hname, hmodule, hkind]
    exact Or.inr ⟨(NodeKind.rank_eq_zero_iff.2 hkind).symm, hid ▸ String.le_refl m.id⟩
  · exact Or.inl (Nat.pos_of_ne_zero (mt NodeKind.rank_eq_zero_iff.1 hkind))

namespace Resolve

/-! ## Imports -/

namespace FileScope

variable {c : FileScope} {u t : Store}

/-- What is picked for an import and is stored is what the store has for it. -/
theorem picked_stored (hout : u.SameOutside c.file t) (hu : ∀ n ∈ u.nodes, n.Formed)
    (ht : ∀ n ∈ t.nodes, n.Formed) {name : String} (hown : t.NameOwn c.file name) {n : Node}
    (hn : c.picked u name .imports = some n) (hstored : t.nodes.contains n.id = true) :
    ∃ b, Upsert.best? (t.nodesQualified name) = some b ∧ b.id = n.id := by
  obtain ⟨hnamed, hfit⟩ := List.mem_filter.1 (best?_mem hn)
  obtain ⟨hnu, hname⟩ := Store.mem_nodesQualified.1 hnamed
  obtain ⟨n', hnt, hid⟩ := Rows.contains_iff.1 hstored
  obtain ⟨-, hkind, hname'⟩ := (hu n hnu).alike (ht n' hnt) hid
  have hmem : n' ∈ t.nodesQualified name := Store.mem_nodesQualified.2 ⟨hnt, hname'.trans hname⟩
  cases hb : Upsert.best? (t.nodesQualified name) with
  | none =>
      rw [best?_eq_none_iff.1 hb] at hmem
      cases hmem
  | some b =>
      obtain ⟨hbt, hbname⟩ := Store.mem_nodesQualified.1 (best?_mem hb)
      have hpreferred : Upsert.preferred n' b = true := by
        by_cases hmodule : n.kind = .module
        · exact preferred_module (ht n' hnt) (ht b hbt) (hname'.trans (hname.trans hbname.symm))
            (hkind.trans hmodule)
        · -- The node is of another file, and so are all of its name.
          have hfile : n.file ≠ c.file := by simpa [hmodule, Relationship.accepts] using hfit
          have hsame : n' = n := Rows.eq_of_key_eq hnt ((hout n hfile).2 hnu) hid
          have hbfile : b.file ≠ c.file := fun hbf =>
            hown b hbt hbf hbname n ((hout n hfile).2 hnu) hfile hname
          rw [hsame]
          refine best?_preferred hn b (List.mem_filter.2 ⟨?_, ?_⟩)
          · exact Store.mem_nodesQualified.2 ⟨(hout b hbfile).1 hbt, hbname⟩
          · simp [hbfile, Relationship.accepts]
      exact ⟨b, rfl, (preferred_antisymm (best?_preferred hb n' hmem) hpreferred).trans hid⟩

/-- An import comes to what the store has for it, whatever was picked. -/
theorem validIn_picked (hout : u.SameOutside c.file t) (hu : ∀ n ∈ u.nodes, n.Formed)
    (ht : ∀ n ∈ t.nodes, n.Formed) {e : Edge} (hown : t.NameOwn c.file e.targetRef)
    (himports : e.relationship = .imports) (hwaits : e.unlink = e) :
    validIn t ((c.picked u e.targetRef .imports).elim e fun n => e.link n.id .resolved) =
      withTarget t e := by
  have htarget : e.target = none := by rw [← hwaits]; rfl
  cases hn : c.picked u e.targetRef .imports with
  | none =>
      rw [Option.elim_none, validIn, htarget, Option.all_none, if_pos rfl]
  | some n =>
      rw [Option.elim_some]
      cases hstored : t.nodes.contains n.id with
      | true =>
          obtain ⟨b, hb, hid⟩ := picked_stored hout hu ht hown hn hstored
          have hfound : targetIn t e = some (n.id, .resolved) := by
            rw [targetIn_imports himports, hb, Option.map_some, hid]
          simp only [validIn, withTarget, Edge.link, hstored, Option.all_some, if_true,
            Edge.isResolved, Option.isSome_some, htarget, Option.isSome_none, hfound]
          rfl
      | false =>
          have hdropped : (e.link n.id .resolved).unlink = e := hwaits
          simp only [validIn, Edge.link, Option.all_some, hstored]
          exact congrArg (withTarget t) hdropped

end FileScope

/-! ## References -/

/-- Two references of a file come to the same, wherever they stand, if the file shares no
name that it imports. -/
def SameReference (f : SourceFile) (t : Store) (a b : Relationship × String × Target) : Prop :=
  ∀ span, (edgeTo f a.1 a.2.1 a.2.2 span).id = (edgeTo f b.1 b.2.1 b.2.2 span).id ∧
    ((a.1 = .imports → t.NameOwn f.filePath a.2.2.targetRef) →
      validIn t (edgeTo f a.1 a.2.1 a.2.2 span) = validIn t (edgeTo f b.1 b.2.1 b.2.2 span))

theorem SameReference.refl (f : SourceFile) (t : Store) (a : Relationship × String × Target) :
    SameReference f t a a := fun _ => ⟨rfl, fun _ => rfl⟩

variable {f : SourceFile} {c : FileScope} {s t : Store}

/-- A reference other than an import does not see what the file stored. -/
theorem reference?_congr (h : s.SameOutside c.file t) {fact : Fact}
    (hkind : fact.kind ≠ .imported) :
    reference? c s.symbols fact = reference? c t.symbols fact := by
  simp only [reference?]
  split
  · contradiction
  · rw [FileScope.target_congr h rfl]
  · rw [FileScope.target_congr h rfl]
  · rw [FileScope.target_congr h rfl]
  · rfl
  · rfl

theorem edgeTo_elim (f : SourceFile) (source name : String) (span : Span) (n : Option Node) :
    edgeTo f .imports source (n.elim (.unresolved name) fun n => .resolved name n.id) span =
      n.elim (edgeTo f .imports source (.unresolved name) span) fun n =>
        (edgeTo f .imports source (.unresolved name) span).link n.id .resolved := by
  cases n <;> rfl

section

variable (hfile : c.file = f.filePath) (hout : s.SameOutside c.file t)
  (hs : ∀ n ∈ s.nodes, n.Formed) (ht : ∀ n ∈ t.nodes, n.Formed)

include hfile hout hs ht

/-- An import comes to the same twice. -/
theorem import_same (source name : String) : ∃ a b,
    c.qualified s.symbols name .imports = .ok a ∧ c.qualified t.symbols name .imports = .ok b ∧
      SameReference f t (.imports, source, a) (.imports, source, b) := by
  rcases c.qualified_cases name .imports with ⟨target, htarget⟩ | hpicked
  · exact ⟨target, target, htarget s, htarget t, .refl f t _⟩
  · refine ⟨_, _, hpicked s, hpicked t, fun span => ⟨?_, fun himported => ?_⟩⟩
    · cases c.picked s name .imports <;> cases c.picked t name .imports <;> rfl
    · have hown : t.NameOwn c.file name := by
        rw [hfile]
        have h := himported rfl
        cases hn : c.picked s name .imports <;> rwa [hn] at h
      have hvalid : ∀ {u : Store}, u.SameOutside c.file t → (∀ n ∈ u.nodes, n.Formed) →
          validIn t (edgeTo f .imports source ((c.picked u name .imports).elim (.unresolved name)
            fun n => .resolved name n.id) span) =
          withTarget t (edgeTo f .imports source (.unresolved name) span) := by
        intro u hu hform
        rw [edgeTo_elim]
        exact FileScope.validIn_picked hu hform ht
          (e := edgeTo f .imports source (.unresolved name) span) hown rfl rfl
      exact (hvalid hout hs).trans (hvalid (.refl _ t) ht).symm

theorem reference?_same {fact : Fact} {found : Option (Relationship × String × Target)}
    (h : reference? c s.symbols fact = .ok found) : ∃ found',
      reference? c t.symbols fact = .ok found' ∧ Option.Rel (SameReference f t) found found' := by
  by_cases hkind : fact.kind = .imported
  · cases hpath : fact.target with
    | none =>
        have hnone : ∀ index, reference? c index fact = .ok none := by
          intro index
          simp only [reference?, hkind, hpath]
          rfl
        obtain rfl := Except.ok.inj ((hnone s.symbols).symm.trans h)
        exact ⟨none, hnone t.symbols, .none⟩
    | some path =>
        obtain ⟨a, b, ha, hb, hsame⟩ := import_same hfile hout hs ht c.moduleId
          (c.module.absolutize path)
        have hfound : ∀ {index target},
            c.qualified index (c.module.absolutize path) .imports = .ok target →
            reference? c index fact = .ok (some (.imports, c.moduleId, target)) := by
          intro index target htarget
          simp only [reference?, hkind, hpath, htarget]
          rfl
        obtain rfl := Except.ok.inj ((hfound ha).symm.trans h)
        exact ⟨_, hfound hb, .some hsame⟩
  · rw [reference?_congr hout hkind] at h
    refine ⟨found, h, ?_⟩
    cases found with
    | none => exact .none
    | some a => exact .some (.refl f t a)

end

/-! ## Whole files -/

section

variable {r r' : Resolution}

/-- What is the same of edges that come to the same. -/
theorem map_same {α : Type} {g : Edge → α} (hg : ∀ e e', Edge.SameIn t e e' → g e = g e')
    {xs ys : List Edge} (h : List.Forall₂ (Edge.SameIn t) xs ys) : xs.map g = ys.map g := by
  induction h with
  | nil => rfl
  | cons hxy _ ih => rw [List.map_cons, List.map_cons, hg _ _ hxy, ih]

theorem addReference_same (h : r.SameIn t r') {span : Span}
    {a b : Relationship × String × Target} (hab : SameReference f t a b)
    (hown : ∀ e ∈ (addReference f r span a).edges, e.relationship = .imports →
      t.NameOwn f.filePath e.targetRef) :
    (addReference f r span a).SameIn t (addReference f r' span b) := by
  obtain ⟨rel, source, target⟩ := a
  obtain ⟨rel', source', target'⟩ := b
  obtain ⟨hid, hvalid⟩ := hab span
  have hany : r.edges.any (·.id == (edgeTo f rel source target span).id) =
      r'.edges.any (·.id == (edgeTo f rel' source' target' span).id) := by
    have hids := congrArg (List.any · (· == (edgeTo f rel source target span).id))
      (map_same (fun _ _ => And.left) h.2)
    simp only [List.any_map] at hids
    rw [← hid]
    exact hids
  simp only [addReference, hany] at hown ⊢
  split
  · exact h
  · next hnew =>
    rw [if_neg hnew] at hown
    have hadded := hvalid (hown _ (List.mem_append_right _ (List.mem_singleton_self _)))
    exact ⟨h.1, List.rel_append h.2 (.cons ⟨hid, hadded⟩ .nil)⟩

variable (hfile : c.file = f.filePath) (hout : s.SameOutside c.file t)
  (hs : ∀ n ∈ s.nodes, n.Formed) (ht : ∀ n ∈ t.nodes, n.Formed)

include hfile hout hs ht

theorem addReferences_same (h : r.SameIn t r') {facts : List Fact} {r₁ : Resolution}
    (hr : addReferences f c s.symbols r facts = .ok r₁)
    (hown : ∀ e ∈ r₁.edges, e.relationship = .imports → t.NameOwn f.filePath e.targetRef) :
    ∃ r₂, addReferences f c t.symbols r' facts = .ok r₂ ∧ r₁.SameIn t r₂ := by
  induction facts generalizing r r' with
  | nil =>
      cases hr
      exact ⟨r', rfl, h⟩
  | cons fact facts ih =>
      obtain ⟨found, hfound, hr⟩ := bind_ok hr
      obtain ⟨found', hfound', hsame⟩ := reference?_same hfile hout hs ht hfound
      rw [addReferences, hfound']
      cases hsame with
      | none => exact ih h hr
      | some hab =>
          exact ih (addReference_same h hab fun e he => hown e (addReferences_edges hr e he)) hr

end

/-- A file that is resolved again, with what it declares itself stored by then, comes to the
same, if it shares no name that it imports. -/
theorem resolve_same {r : Resolution} (hout : s.SameOutside f.filePath t)
    (hs : ∀ n ∈ s.nodes, n.Formed) (ht : ∀ n ∈ t.nodes, n.Formed)
    (h : resolve s.symbols f = .ok r)
    (hown : ∀ e ∈ r.edges, e.relationship = .imports → t.NameOwn f.filePath e.targetRef) :
    ∃ r', resolve t.symbols f = .ok r' ∧ r.SameIn t r' := by
  refine addReferences_same (c := FileScope.ofFile f) rfl hout hs ht ⟨rfl, ?_⟩ h hown
  exact List.forall₂_same.2 fun e _ => ⟨rfl, rfl⟩

end Resolve

end CodeAtlas
