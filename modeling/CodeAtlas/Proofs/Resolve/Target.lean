import CodeAtlas.Resolve.Resolution

/-!
# CodeAtlas.Proofs.Resolve.Target

What a reference is taken to mean, and by how much.

A target is found in the scopes of the file, through an import or a module of which all
names are imported, or at last by its name alone.  Only the last way is a guess, and it is
taken only if exactly one node of other files fits (`OnlyOne`); all other targets are
resolved or wait.
-/

namespace CodeAtlas.Resolve

/-- A sequence gives something only if its first part does. -/
theorem bind_ok {α β : Type} {x : Except Error α} {f : α → Except Error β} {b : β}
    (h : (x >>= f) = .ok b) : ∃ a, x = .ok a ∧ f a = .ok b := by
  cases x with
  | error e => cases h
  | ok a => exact ⟨a, rfl, h⟩

namespace FileScope

variable {c : FileScope} {index : SymbolIndex} {r : Relationship}

/-- A target that is guessed is the only node of its name in other files that is
accepted. -/
def OnlyOne (c : FileScope) (index : SymbolIndex) (r : Relationship) (t : Target) : Prop :=
  t.confidence = .heuristic → ∃ named s, index.byName t.targetRef = .ok named ∧
    (named.filter fun s => s.file != c.file && s.kind != .module && r.accepts s.kind) = [s] ∧
    t.id = some s.id

theorem global_onlyOne {name : String} {t : Target} (h : c.global index name r = .ok t) :
    c.OnlyOne index r t := by
  intro hguess
  obtain ⟨named, hnamed, h⟩ := bind_ok h
  simp only [] at h
  split at h
  · cases h
    cases hguess
  · next s hs =>
    cases h
    exact ⟨named, s, hnamed, hs, rfl⟩
  · cases h
    cases hguess

/-- What is looked for by a qualified name is not guessed. -/
theorem qualified_resolved {name : String} {t : Target} (h : c.qualified index name r = .ok t) :
    t.confidence ≠ .heuristic := by
  rw [qualified] at h
  split at h
  · cases h
    simp [Target.resolved]
  · split at h
    · cases h
      simp [Target.resolved]
    · obtain ⟨found, -, h⟩ := bind_ok h
      split at h <;> cases h <;> simp [Target.resolved, Target.unresolved]

theorem inScope?_resolved {path : String} {scope : List String} {t : Target}
    (h : c.inScope? path scope r = some t) : t.confidence ≠ .heuristic := by
  rw [inScope?] at h
  obtain ⟨part, -, hpart⟩ := List.exists_of_findSome?_eq_some h
  split at hpart
  · cases hpart
  · obtain ⟨id, -, rfl⟩ := Option.map_eq_some_iff.1 hpart
    simp [Target.resolved]

theorem inGlobs?_resolved {path : String} {globs : List String} {t : Target}
    (h : c.inGlobs? index path r globs = .ok (some t)) : t.confidence ≠ .heuristic := by
  induction globs with
  | nil => cases h
  | cons glob globs ih =>
      obtain ⟨found, -, h⟩ := bind_ok h
      split at h
      · cases h
        simp [Target.resolved]
      · exact ih h

theorem OnlyOne.of_not_heuristic {t : Target} (h : t.confidence ≠ .heuristic) :
    c.OnlyOne index r t := fun hguess => absurd hguess h

theorem ofPath_onlyOne {segments scope : List String} {t : Target}
    (h : c.ofPath index segments scope r = .ok t) : c.OnlyOne index r t := by
  simp only [ofPath] at h
  split at h
  · exact .of_not_heuristic (qualified_resolved h)
  · split at h
    · next found hfound =>
      cases h
      exact .of_not_heuristic (inScope?_resolved hfound)
    · split at h
      · exact .of_not_heuristic (qualified_resolved h)
      · obtain ⟨found, hglobs, h⟩ := bind_ok h
        split at h
        · cases h
          exact .of_not_heuristic (inGlobs?_resolved hglobs)
        · split at h
          · exact global_onlyOne h
          · split at h
            · exact global_onlyOne h
            · exact .of_not_heuristic (qualified_resolved h)

theorem ofMember_onlyOne {member : String} {scope : List String} {t : Target}
    (h : c.ofMember index member scope r = .ok t) : c.OnlyOne index r t := by
  rw [ofMember] at h
  split at h
  · exact global_onlyOne h
  · simp only [] at h
    split at h
    · cases h
      exact .of_not_heuristic (by simp [Target.resolved])
    · exact global_onlyOne h

/-- A target is guessed only where there is nothing to choose from. -/
theorem target_onlyOne {written : String} {scope : List String} {t : Target}
    (h : c.target index written scope r = .ok t) : c.OnlyOne index r t := by
  rw [target] at h
  split at h
  · exact ofPath_onlyOne h
  · exact ofMember_onlyOne h
  · exact global_onlyOne h

end FileScope

/-! ## References -/

/-- What a fact looks for: an absolute name, or a name as it is written in a scope. -/
inductive Sought where
  | absolute (name : String)
  | written (name : String) (scope : List String)
deriving DecidableEq, Inhabited, Repr

/-- Looks for it. -/
def Sought.find (c : FileScope) (index : SymbolIndex) (r : Relationship) :
    Sought → Except Error Target
  | absolute name => c.qualified index name r
  | written name scope => c.target index name scope r

/-- Relationship and source of what a fact refers to, and what it looks for.  All of it is told
by the file. -/
def sought? (c : FileScope) (fact : Fact) : Option (Relationship × String × Sought) :=
  match fact.kind with
  | .imported => fact.target.map fun path =>
      (.imports, c.moduleId, .absolute (c.module.absolutize path))
  | .call => some (.calls, c.enclosing fact.scope, .written fact.name fact.scope)
  | .reference => some (.references, c.enclosing fact.scope, .written fact.name fact.scope)
  | .base => (subclass? c fact.scope).map fun source =>
      (.inherits, source, .written fact.name fact.scope.dropLast)
  | .definition _ => none
  | .syntaxError => none

/-- A fact refers to what is found for what it looks for. -/
theorem reference?_ok {c : FileScope} {index : SymbolIndex} {fact : Fact}
    {found : Option (Relationship × String × Target)} (h : reference? c index fact = .ok found) :
    (sought? c fact = none ∧ found = none) ∨ ∃ r source sought t,
      sought? c fact = some (r, source, sought) ∧ sought.find c index r = .ok t ∧
        found = some (r, source, t) := by
  cases hkind : fact.kind with
  | imported =>
      simp only [reference?, hkind] at h
      simp only [sought?, hkind]
      cases htarget : fact.target with
      | none =>
          rw [htarget] at h
          cases h
          exact .inl ⟨rfl, rfl⟩
      | some path =>
          rw [htarget] at h
          obtain ⟨t, ht, h⟩ := bind_ok h
          cases h
          exact .inr ⟨_, _, .absolute (c.module.absolutize path), t, rfl, ht, rfl⟩
  | call =>
      simp only [reference?, hkind] at h
      simp only [sought?, hkind]
      obtain ⟨t, ht, h⟩ := bind_ok h
      cases h
      exact .inr ⟨_, _, .written fact.name fact.scope, t, rfl, ht, rfl⟩
  | reference =>
      simp only [reference?, hkind] at h
      simp only [sought?, hkind]
      obtain ⟨t, ht, h⟩ := bind_ok h
      cases h
      exact .inr ⟨_, _, .written fact.name fact.scope, t, rfl, ht, rfl⟩
  | base =>
      simp only [reference?, hkind] at h
      simp only [sought?, hkind]
      cases hsource : subclass? c fact.scope with
      | none =>
          rw [hsource] at h
          cases h
          exact .inl ⟨rfl, rfl⟩
      | some source =>
          rw [hsource] at h
          obtain ⟨t, ht, h⟩ := bind_ok h
          cases h
          exact .inr ⟨_, _, .written fact.name fact.scope.dropLast, t, rfl, ht, rfl⟩
  | definition kind =>
      simp only [reference?, hkind] at h
      cases h
      exact .inl ⟨by simp only [sought?, hkind], rfl⟩
  | syntaxError =>
      simp only [reference?, hkind] at h
      cases h
      exact .inl ⟨by simp only [sought?, hkind], rfl⟩

theorem reference?_some {c : FileScope} {index : SymbolIndex} {fact : Fact} {r : Relationship}
    {source : String} {t : Target} (h : reference? c index fact = .ok (some (r, source, t))) :
    ∃ sought, sought? c fact = some (r, source, sought) ∧ sought.find c index r = .ok t := by
  rcases reference?_ok h with ⟨-, hnone⟩ | ⟨r', source', sought, t', hsought, ht, hsame⟩
  · cases hnone
  · cases hsame
    exact ⟨sought, hsought, ht⟩

theorem reference?_onlyOne {c : FileScope} {index : SymbolIndex} {fact : Fact} {r : Relationship}
    {source : String} {t : Target} (h : reference? c index fact = .ok (some (r, source, t))) :
    c.OnlyOne index r t := by
  obtain ⟨sought, -, ht⟩ := reference?_some h
  cases sought with
  | absolute name => exact .of_not_heuristic (FileScope.qualified_resolved ht)
  | written name scope => exact FileScope.target_onlyOne ht

end CodeAtlas.Resolve
