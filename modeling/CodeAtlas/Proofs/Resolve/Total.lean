import CodeAtlas.Proofs.Indexing.Symbols
import CodeAtlas.Resolve.Resolution

/-!
# CodeAtlas.Proofs.Resolve.Total

A file is resolved whenever its questions are answered.

References are looked up by name, and nothing but such a look-up can fail.  So a file is
resolved against any symbols that are always looked up with success
(`Resolve.resolve_answered`), and those of a store are (`Resolve.resolve_total`).
-/

namespace CodeAtlas

/-- No look-up fails. -/
structure SymbolIndex.Answers (index : SymbolIndex) : Prop where
  byName : ∀ name, ∃ symbols, index.byName name = .ok symbols
  byQualifiedName : ∀ name, ∃ symbols, index.byQualifiedName name = .ok symbols

theorem Store.symbols_answers (s : Store) : s.symbols.Answers :=
  ⟨fun _ => ⟨_, rfl⟩, fun name => ⟨_, s.byQualifiedName_symbols name⟩⟩

/-- A few symbols, for look-ups that are written out. -/
def SymbolIndex.ofList (symbols : List Symbol) : SymbolIndex where
  byName name := .ok (symbols.filter (·.name == name))
  byQualifiedName name := .ok (symbols.filter (·.qualifiedName == name))

theorem SymbolIndex.ofList_answers (symbols : List Symbol) : (ofList symbols).Answers :=
  ⟨fun _ => ⟨_, rfl⟩, fun _ => ⟨_, rfl⟩⟩

namespace Resolve

/-- A sequence gives something if both of its parts do. -/
theorem bind_total {α β : Type} {x : Except Error α} {f : α → Except Error β}
    (hx : ∃ a, x = .ok a) (hf : ∀ a, ∃ b, f a = .ok b) : ∃ b, (x >>= f) = .ok b := by
  obtain ⟨a, rfl⟩ := hx
  exact hf a

namespace FileScope

variable {index : SymbolIndex} (h : index.Answers) (c : FileScope) (r : Relationship)

include h

theorem global_total (name : String) : ∃ t, c.global index name r = .ok t := by
  refine bind_total (h.byName name) fun named => ?_
  simp only []
  split <;> exact ⟨_, rfl⟩

theorem qualified_total (name : String) : ∃ t, c.qualified index name r = .ok t := by
  rw [qualified]
  split
  · exact ⟨_, rfl⟩
  · split
    · exact ⟨_, rfl⟩
    · refine bind_total (h.byQualifiedName name) fun named => ?_
      split <;> exact ⟨_, rfl⟩

theorem inGlobs?_total (path : String) (globs : List String) :
    ∃ t, c.inGlobs? index path r globs = .ok t := by
  induction globs with
  | nil => exact ⟨_, rfl⟩
  | cons glob globs ih =>
      refine bind_total (h.byQualifiedName _) fun named => ?_
      split
      · exact ⟨_, rfl⟩
      · exact ih

theorem ofPath_total (segments scope : List String) :
    ∃ t, c.ofPath index segments scope r = .ok t := by
  simp only [ofPath]
  split
  · exact qualified_total h c r _
  · split
    · exact ⟨_, rfl⟩
    · split
      · exact qualified_total h c r _
      · refine bind_total (inGlobs?_total h c r _ _) fun found => ?_
        split
        · exact ⟨_, rfl⟩
        · split
          · exact global_total h c r _
          · split
            · exact global_total h c r _
            · exact qualified_total h c r _

theorem ofMember_total (member : String) (scope : List String) :
    ∃ t, c.ofMember index member scope r = .ok t := by
  rw [ofMember]
  split
  · exact global_total h c r _
  · simp only []
    split
    · exact ⟨_, rfl⟩
    · exact global_total h c r _

theorem target_total (written : String) (scope : List String) :
    ∃ t, c.target index written scope r = .ok t := by
  rw [target]
  split
  · exact ofPath_total h c r _ _
  · exact ofMember_total h c r _ _
  · exact global_total h c r _

end FileScope

variable {index : SymbolIndex} (h : index.Answers) (c : FileScope)

include h

theorem reference?_total (fact : Fact) : ∃ found, reference? c index fact = .ok found := by
  rw [reference?]
  split
  · split
    · exact ⟨_, rfl⟩
    · exact bind_total (FileScope.qualified_total h c _ _) fun _ => ⟨_, rfl⟩
  · exact bind_total (FileScope.target_total h c _ _ _) fun _ => ⟨_, rfl⟩
  · exact bind_total (FileScope.target_total h c _ _ _) fun _ => ⟨_, rfl⟩
  · split
    · exact ⟨_, rfl⟩
    · exact bind_total (FileScope.target_total h c _ _ _) fun _ => ⟨_, rfl⟩
  · exact ⟨_, rfl⟩
  · exact ⟨_, rfl⟩

theorem addReferences_total (f : SourceFile) (r : Resolution) (facts : List Fact) :
    ∃ r', addReferences f c index r facts = .ok r' := by
  induction facts generalizing r with
  | nil => exact ⟨_, rfl⟩
  | cons fact facts ih =>
      refine bind_total (reference?_total h c fact) fun found => ?_
      split
      · exact ih _
      · exact ih _

/-- A file is resolved if no look-up fails. -/
theorem resolve_answered (f : SourceFile) : ∃ r, resolve index f = .ok r :=
  addReferences_total h _ f _ _

omit h in
/-- A file is always resolved against the nodes of a store. -/
theorem resolve_total (s : Store) (f : SourceFile) : ∃ r, resolve s.symbols f = .ok r :=
  resolve_answered s.symbols_answers f

end Resolve

end CodeAtlas
