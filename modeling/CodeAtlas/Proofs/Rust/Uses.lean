import CodeAtlas.Proofs.Rust.Paths
import CodeAtlas.Rust.Facts

/-!
# CodeAtlas.Proofs.Rust.Uses

Use declarations, and the names that they bind.

A use tree is a path, all names of a module, or a group of use trees below a path.  Its leaves are
known with their whole paths (`UseTree.leaves`), and each of them binds one name.  Main statement:
`useFacts_eq_iff`.
-/

namespace CodeAtlas.Rust

open CodeAtlas.Parsing
open CodeAtlas.Text
open CodeAtlas.Rust.Path

/-! ## Use trees -/

/-- An end of a use tree. -/
inductive Leaf where
  /-- A path, which may be renamed. -/
  | path (names : List String) (rename : Option String) (span : Span)
  /-- All names of a module. -/
  | all (names : List String) (span : Span)
deriving DecidableEq, Repr

/-- What a use declaration says. -/
inductive UseTree where
  | leaf (leaf : Leaf)
  | group (names : List String) (trees : List UseTree)
deriving Repr

namespace Leaf

def names : Leaf → List String
  | path names _ _ => names
  | all names _ => names

/-- The end as it stands below a path. -/
def below (above : List String) : Leaf → Leaf
  | path names rename span => path (above ++ names) rename span
  | all names span => all (above ++ names) span

/-- What it binds: the last name of what its path stands for, or the name that it is renamed to. -/
def fact (scope : List String) : Leaf → Fact
  | path names rename span =>
    .imported (rename.getD ((meant names).getLastD "")) ("::".intercalate (meant names)) scope span
  | all names span => .imported "*" ("::".intercalate names) scope span

/-- Whether it renames `self` below a path. -/
def RenamesSelf : Leaf → Prop
  | path names (some _) _ => names.getLast? = some "self" ∧ 1 < names.length
  | _ => False

instance : (l : Leaf) → Decidable l.RenamesSelf
  | path _ (some _) _ => inferInstanceAs (Decidable (_ ∧ _))
  | path _ none _ => inferInstanceAs (Decidable False)
  | all _ _ => inferInstanceAs (Decidable False)

/-- What is found for it: a `self` that is renamed stays in the path. -/
def found (scope : List String) (l : Leaf) : Fact :=
  if l.RenamesSelf then { l.fact scope with target := some ("::".intercalate l.names) }
  else l.fact scope

theorem found_path (scope names : List String) (span : Span) :
    (path names none span).found scope = (path names none span).fact scope :=
  if_neg id

theorem found_renamed (scope names : List String) (rename : String) (span : Span) :
    (path names (some rename) span).found scope =
      .imported rename ("::".intercalate names) scope span := by
  by_cases h : (path names (some rename) span).RenamesSelf
  · rw [found, if_pos h]
    rfl
  · rw [found, if_neg h]
    simp only [RenamesSelf] at h
    simp only [fact, meant, if_neg h, Option.getD_some]

theorem found_all (scope names : List String) (span : Span) :
    (all names span).found scope = (all names span).fact scope :=
  if_neg id

/-- What is found for an end is what it binds, unless it renames `self`. -/
theorem found_eq_fact_iff (scope : List String) (l : Leaf) :
    l.found scope = l.fact scope ↔ ¬ l.RenamesSelf := by
  match l with
  | path names none span => simp [found_path, RenamesSelf]
  | all names span => simp [found_all, RenamesSelf]
  | path names (some rename) span =>
      rw [found_renamed]
      constructor
      · rintro heq ⟨hself, hlength⟩
        obtain ⟨front, rfl⟩ : ∃ front, names = front ++ ["self"] :=
          (List.getLast?_eq_some_iff.1 hself)
        have hfront : front ≠ [] := by
          rintro rfl
          simp at hlength
        simp only [fact, meant_append_self hfront, Fact.imported, Fact.mk.injEq, Option.some.injEq,
          intercalate_append_singleton hfront] at heq
        have hsame := congrArg String.length heq.2.2.2.2.1
        simp only [String.length_append] at hsame
        have htwo : "::".length = 2 := rfl
        omega
      · intro h
        simp only [RenamesSelf] at h
        simp only [fact, meant, if_neg h, Option.getD_some]

end Leaf

namespace UseTree

mutual
/-- The ends of a use tree below a path, in order. -/
def leaves (above : List String) : UseTree → List Leaf
  | leaf l => [l.below above]
  | group names trees => leavesOf (above ++ names) trees

def leavesOf (above : List String) : List UseTree → List Leaf
  | [] => []
  | tree :: trees => leaves above tree ++ leavesOf above trees
end

end UseTree

/-! ## Syntax -/

mutual
/-- Whether a node of the syntax shows a use tree.  No path in it starts with a separator or has a
comment in it. -/
inductive Shows (src : Source) : Tree → UseTree → Prop
  | name {t : Tree} (kind : t.kind ∈ ["identifier", "crate", "self", "super"])
      (isName : IsName (t.text src)) :
      Shows src t (.leaf (.path [t.text src] none (t.span src)))
  | path {t : Tree} {names : List String} (kind : t.kind = "scoped_identifier")
      (text : Writes (t.text src) names) : Shows src t (.leaf (.path names none (t.span src)))
  | renamed {t path rename : Tree} {names : List String} (kind : t.kind = "use_as_clause")
      (hpath : t.field? "path" = some path) (hrename : t.field? "alias" = some rename)
      (text : Writes (path.text src) names) :
      Shows src t (.leaf (.path names (some (rename.text src)) (t.span src)))
  | all {t : Tree} {names : List String} (kind : t.kind = "use_wildcard")
      (text : Writes (t.text src) (names ++ ["*"])) : Shows src t (.leaf (.all names (t.span src)))
  | group {t : Tree} {trees : List UseTree} (kind : t.kind = "use_list")
      (members : ShowsAll src t.namedChildren trees) : Shows src t (.group [] trees)
  | groupBelow {t path list : Tree} {names : List String} {trees : List UseTree}
      (kind : t.kind = "scoped_use_list") (hpath : t.field? "path" = some path)
      (hlist : t.field? "list" = some list) (text : Writes (path.text src) names)
      (members : Shows src list (.group [] trees)) : Shows src t (.group names trees)

/-- Whether nodes show use trees, with comments between them. -/
inductive ShowsAll (src : Source) : List Tree → List UseTree → Prop
  | nil : ShowsAll src [] []
  | cons {t : Tree} {tree : UseTree} {ts : List Tree} {trees : List UseTree}
      (first : Shows src t tree) (rest : ShowsAll src ts trees) :
      ShowsAll src (t :: ts) (tree :: trees)
  | comment {t : Tree} {ts : List Tree} {trees : List UseTree}
      (kind : t.kind ∈ ["line_comment", "block_comment"]) (rest : ShowsAll src ts trees) :
      ShowsAll src (t :: ts) trees
end

/-! ## Facts -/

section Kinds

variable {src : Source} {scope : List String} {above : String} {t : Tree}

theorem useFacts_name (h : t.kind ∈ ["identifier", "crate", "self", "super"]) :
    useFacts src scope above t =
      [if t.text src == "self" && above != "" then .imported (last above) above scope (t.span src)
        else .imported (t.text src) (join above (t.text src)) scope (t.span src)] := by
  rw [useFacts, if_pos (by simpa [or_assoc] using h)]
  simp only []
  split <;> rfl

theorem useFacts_path (h : t.kind = "scoped_identifier") :
    useFacts src scope above t =
      [.imported (last (withoutSelf (join above (pathText t src))))
        (withoutSelf (join above (pathText t src))) scope (t.span src)] := by
  rw [useFacts]
  simp [h]

theorem useFacts_renamed {path rename : Tree} (h : t.kind = "use_as_clause")
    (hpath : t.field? "path" = some path) (hrename : t.field? "alias" = some rename) :
    useFacts src scope above t =
      [.imported (rename.text src) (join above (pathText path src)) scope (t.span src)] := by
  rw [useFacts]
  simp [h, hpath, hrename]

theorem useFacts_all (h : t.kind = "use_wildcard") :
    useFacts src scope above t =
      [.imported "*" (join above (beforeStar (pathText t src))) scope (t.span src)] := by
  rw [useFacts]
  simp [h]

theorem useFacts_group (h : t.kind = "use_list") :
    useFacts src scope above t = t.namedChildren.flatMap (useFacts src scope above) := by
  rw [useFacts]
  simp [h]

theorem useFacts_below {path list : Tree} (h : t.kind = "scoped_use_list")
    (hpath : t.field? "path" = some path) (hlist : t.field? "list" = some list) :
    useFacts src scope above t = useFacts src scope (join above (pathText path src)) list := by
  rw [useFacts]
  simp only [h, String.reduceBEq, Bool.or_self, Bool.false_eq_true, ↓reduceIte, BEq.rfl, hpath]
  split
  · next found hfound =>
    rw [hlist] at hfound
    cases hfound
    rfl
  · next hnone => simp [hlist] at hnone

theorem useFacts_comment (h : t.kind ∈ ["line_comment", "block_comment"]) :
    useFacts src scope above t = [] := by
  rw [useFacts]
  rcases List.mem_pair.1 h with h | h <;> simp [h]

end Kinds

/-! ## Leaves -/

section Leaves

variable {src : Source}

theorem forall_isName_append {above names : List String} (habove : ∀ name ∈ above, IsName name)
    (hnames : ∀ name ∈ names, IsName name) : ∀ name ∈ above ++ names, IsName name := by
  intro name hname
  rcases List.mem_append.1 hname with h | h
  · exact habove name h
  · exact hnames name h

/-- A path is known by the last name of what it stands for. -/
theorem path_fact {names : List String} (scope : List String) (h : ∀ name ∈ names, IsName name)
    (span : Span) :
    .imported (last (withoutSelf ("::".intercalate names))) (withoutSelf ("::".intercalate names))
      scope span = (Leaf.path names none span).found scope := by
  rw [withoutSelf_intercalate h, last_intercalate fun name hname => h name (mem_of_mem_meant hname),
    Leaf.found_path]
  rfl

/-- A name is a path of its own, but `self` stands for what it is below. -/
theorem name_fact {above : List String} {name : String} (scope : List String)
    (habove : ∀ name ∈ above, IsName name)
    (hname : IsName name) (span : Span) :
    (if name == "self" && "::".intercalate above != "" then
        .imported (last ("::".intercalate above)) ("::".intercalate above) scope span
      else .imported name (join ("::".intercalate above) name) scope span) =
      (Leaf.path (above ++ [name]) none span).found scope := by
  have hjoin : Path.join ("::".intercalate above) name = "::".intercalate (above ++ [name]) := by
    rw [← join_intercalate habove (List.forall_mem_singleton.2 hname), String.intercalate_singleton]
  rw [hjoin, Leaf.found_path, Leaf.fact]
  by_cases hself : name = "self"
  · subst hself
    by_cases hnil : above = []
    · subst hnil
      rfl
    · obtain ⟨first, rest, rfl⟩ := List.exists_cons_of_ne_nil hnil
      have hne : "::".intercalate (first :: rest) ≠ "" :=
        intercalate_cons_ne_empty (habove first List.mem_cons_self).1 rest
      rw [meant_append_self hnil]
      simp [hne, last_intercalate habove]
  · simp [hself, meant_append_of_ne hself]

mutual
theorem Shows.useFacts_eq {t : Tree} {u : UseTree} (h : Shows src t u) (scope above : List String)
    (habove : ∀ name ∈ above, IsName name) :
    useFacts src scope ("::".intercalate above) t = (u.leaves above).map (Leaf.found scope) := by
  match h with
  | .name kind isName =>
      rw [useFacts_name kind]
      simp only [name_fact scope habove isName, UseTree.leaves, Leaf.below, List.map_singleton]
  | .path kind text =>
      rw [useFacts_path kind, pathText, written_of_writes text, join_intercalate habove text.names,
        path_fact scope (forall_isName_append habove text.names)]
      rfl
  | .renamed kind hpath hrename text =>
      rw [useFacts_renamed kind hpath hrename, pathText, written_of_writes text,
        join_intercalate habove text.names]
      simp only [UseTree.leaves, Leaf.below, List.map_singleton, Leaf.found_renamed]
  | .all kind text =>
      have hnames := fun name hname => text.names name (List.mem_append_left _ hname)
      rw [useFacts_all kind, pathText, written_of_writes text, beforeStar_intercalate hnames,
        join_intercalate habove hnames]
      simp only [UseTree.leaves, Leaf.below, List.map_singleton, Leaf.found_all, Leaf.fact]
  | .group kind members =>
      rw [useFacts_group kind, members.useFacts_eq scope above habove, UseTree.leaves,
        List.append_nil]
  | .groupBelow kind hpath hlist text members =>
      rw [useFacts_below kind hpath hlist, pathText, written_of_writes text,
        join_intercalate habove text.names,
        members.useFacts_eq scope _ (forall_isName_append habove text.names), UseTree.leaves,
        UseTree.leaves, List.append_nil]

theorem ShowsAll.useFacts_eq {ts : List Tree} {trees : List UseTree} (h : ShowsAll src ts trees)
    (scope above : List String) (habove : ∀ name ∈ above, IsName name) :
    ts.flatMap (useFacts src scope ("::".intercalate above)) =
      (UseTree.leavesOf above trees).map (Leaf.found scope) := by
  match h with
  | .nil => rfl
  | .cons first rest =>
      rw [List.flatMap_cons, first.useFacts_eq scope above habove,
        rest.useFacts_eq scope above habove,
        UseTree.leavesOf, List.map_append]
  | .comment kind rest =>
      rw [List.flatMap_cons, useFacts_comment kind, rest.useFacts_eq scope above habove,
        List.nil_append]
end

/-- **Each end of a use tree is one fact, in order.**  It binds what it should unless it renames a
`self` that stands below a path, which then stays in the path. -/
theorem useFacts_eq_iff {t : Tree} {u : UseTree} {above : List String} (h : Shows src t u)
    (scope : List String) (habove : ∀ name ∈ above, IsName name) :
    useFacts src scope ("::".intercalate above) t = (u.leaves above).map (Leaf.found scope) ∧
      (useFacts src scope ("::".intercalate above) t = (u.leaves above).map (Leaf.fact scope) ↔
        ∀ l ∈ u.leaves above, ¬ l.RenamesSelf) := by
  have hfound := h.useFacts_eq scope above habove
  refine ⟨hfound, ?_⟩
  rw [hfound, List.map_inj_left]
  exact forall₂_congr fun l _ => Leaf.found_eq_fact_iff scope l

end Leaves

/-- The text of a use declaration. -/
def renamingUse : Source := .ofString "use a::{self as f, b::c, d::*};"

/-- A node of its syntax. -/
def renamingNode (kind : String) (start stop : Nat) (children : List (Option String × Tree)) :
    Tree :=
  .node ⟨kind, true, start, stop, false, false, false⟩ children

/-- The name that `self` is renamed to. -/
def renamingName : Tree := renamingNode "identifier" 16 17 []

/-- Its members. -/
def renamingList : Tree :=
  renamingNode "use_list" 7 30
    [(none, renamingNode "use_as_clause" 8 17
      [(some "path", renamingNode "self" 8 12 []), (some "alias", renamingName)]),
    (none, renamingNode "scoped_identifier" 19 23 []),
    (none, renamingNode "use_wildcard" 25 29 [])]

/-- Its syntax. -/
def renamingTree : Tree :=
  renamingNode "scoped_use_list" 4 30
    [(some "path", renamingNode "identifier" 4 5 []), (some "list", renamingList)]

theorem useFacts_eq_iff_renamingTree : ∃ u, Shows renamingUse renamingTree u ∧
    useFacts renamingUse [] "" renamingTree =
      [.imported "f" "a::self" [] ⟨0, 8, 0, 17⟩, .imported "c" "a::b::c" [] ⟨0, 19, 0, 23⟩,
        .imported "*" "a::d" [] ⟨0, 25, 0, 29⟩] ∧
    (u.leaves []).map (Leaf.fact []) =
      [.imported "f" "a" [] ⟨0, 8, 0, 17⟩, .imported "c" "a::b::c" [] ⟨0, 19, 0, 23⟩,
        .imported "*" "a::d" [] ⟨0, 25, 0, 29⟩] ∧
    useFacts renamingUse [] "" renamingTree ≠ (u.leaves []).map (Leaf.fact []) := by
  have hshows : Shows renamingUse renamingTree (.group ["a"]
      [.leaf (.path ["self"] (some (renamingName.text renamingUse)) ⟨0, 8, 0, 17⟩),
        .leaf (.path ["b", "c"] none ⟨0, 19, 0, 23⟩),
        .leaf (.all ["d"] ⟨0, 25, 0, 29⟩)]) := by
    refine .groupBelow rfl rfl rfl ?above (.group rfl (.cons (.renamed rfl rfl rfl ?renamed)
      (.cons (.path rfl ?path) (.cons (.all rfl ?all) .nil))))
    all_goals exact ⟨by decide +kernel, by decide +kernel⟩
  obtain ⟨hfound, hiff⟩ := useFacts_eq_iff hshows [] (List.forall_mem_nil IsName)
  refine ⟨_, hshows, hfound.trans (by decide +kernel), by decide +kernel, fun heq => ?_⟩
  exact absurd (hiff.1 heq) (by decide +kernel)

end CodeAtlas.Rust
