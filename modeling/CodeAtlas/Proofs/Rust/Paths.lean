import CodeAtlas.Proofs.Text.Segments
import CodeAtlas.Rust.Path

/-!
# CodeAtlas.Proofs.Rust.Paths

Paths that are written as names with `::` between them.

Such a path is read as those names (`written_of_writes`), and what is done with the text of a path
is done with its names: one path is put below another one by appending (`join_intercalate`), and
the last name, a `self` at the end and a star at the end are those of the list.
-/

namespace CodeAtlas.Rust.Path

open CodeAtlas.Text

/-- Whether a text is one name of a path, without comments in it. -/
def IsName (name : String) : Prop :=
  name ≠ "" ∧ ∀ c ∈ name.toList, c ∉ [':', '<', '>', '/']

instance (name : String) : Decidable (IsName name) :=
  -- the characters of the text are gone through, not all there are
  letI := List.decidableBAll (· ∉ [':', '<', '>', '/']) name.toList
  inferInstanceAs (Decidable (_ ∧ _))

theorem IsName.colon {name : String} (h : IsName name) : ':' ∉ name.toList := fun hmem =>
  h.2 ':' hmem (by simp)

/-- Whether a text writes a path of some names, with blanks anywhere. -/
structure Writes (s : String) (names : List String) : Prop where
  text : withoutBlanks s = "::".intercalate names
  names : ∀ name ∈ names, IsName name

/-! ## Reading -/

theorem outsideBrackets_plain {cs : List Char} (h : ∀ c ∈ cs, c ≠ '<' ∧ c ≠ '>') :
    outsideBrackets 0 cs = cs := by
  induction cs with
  | nil => rfl
  | cons c cs ih =>
      obtain ⟨hopen, hclose⟩ := h c List.mem_cons_self
      rw [outsideBrackets, if_pos rfl, ih fun d hd => h d (List.mem_cons_of_mem c hd)]
      · exact fun heq => hopen heq
      · exact fun heq => hclose heq

theorem joinSeparators_append {name : List Char} (h : ':' ∉ name) (rest : List Char) :
    joinSeparators (name ++ rest) = name ++ joinSeparators rest := by
  induction name with
  | nil => rfl
  | cons c name ih =>
      rw [List.mem_cons, not_or] at h
      rw [List.cons_append, joinSeparators, ih h.2, List.cons_append]
      rintro cs hc -
      exact h.1 hc.symm

/-- A separator between two names stays. -/
theorem joinSeparators_separator {c : Char} (hc : c ≠ ':') (rest : List Char) :
    joinSeparators (':' :: ':' :: c :: rest) = ':' :: ':' :: joinSeparators (c :: rest) := by
  rw [joinSeparators, joinSeparators]
  · simp [hc]
  · simp [hc]

theorem exists_cons_of_isName {name : String} (h : IsName name) :
    ∃ c rest, name.toList = c :: rest ∧ c ≠ ':' := by
  cases hname : name.toList with
  | nil => exact absurd (String.toList_eq_nil_iff.1 hname) h.1
  | cons c rest =>
      refine ⟨c, rest, rfl, fun hc => h.colon ?_⟩
      rw [hname, hc]
      exact List.mem_cons_self

theorem joinSeparators_intercalate {names : List String} (h : ∀ name ∈ names, IsName name) :
    joinSeparators ("::".intercalate names).toList = ("::".intercalate names).toList := by
  induction names with
  | nil => simp [joinSeparators]
  | cons name names ih =>
      have hname := (h name List.mem_cons_self).colon
      have hrest := ih fun n hn => h n (List.mem_cons_of_mem _ hn)
      cases names with
      | nil =>
          rw [String.intercalate_singleton, ← List.append_nil name.toList,
            joinSeparators_append hname, joinSeparators]
      | cons next names =>
          obtain ⟨c, tail, hnext, hc⟩ := exists_cons_of_isName (h next (by simp))
          have hstart : ∃ tail, ("::".intercalate (next :: names)).toList = c :: tail := by
            cases names <;> simp [hnext]
          obtain ⟨tail, htail⟩ := hstart
          have hwhole : ("::".intercalate (name :: next :: names)).toList =
              name.toList ++ (':' :: ':' :: c :: tail) := by
            rw [String.intercalate_cons_cons, ← htail]
            simp
          rw [hwhole, joinSeparators_append hname, joinSeparators_separator hc, ← htail, hrest]

theorem dropSeparators_plain {cs : List Char} (h : cs.head? ≠ some ':') :
    dropSeparators cs = cs := by
  match cs with
  | [] => rfl
  | c :: cs =>
      rw [dropSeparators]
      rintro tail heq
      simp_all

/-- A path does not end with a separator. -/
theorem getLast?_intercalate {names : List String} (h : ∀ name ∈ names, IsName name) :
    ("::".intercalate names).toList.getLast? ≠ some ':' := by
  rcases List.eq_nil_or_concat names with rfl | ⟨front, last, rfl⟩
  · simp
  · have hlast : IsName last := h last (by simp)
    have hend : ∃ before,
        ("::".intercalate (front ++ [last])).toList = before ++ last.toList := by
      cases front with
      | nil => exact ⟨[], by simp⟩
      | cons first front =>
          rw [intercalate_append_singleton (List.cons_ne_nil _ _)]
          exact ⟨_, String.toList_append⟩
    obtain ⟨before, hbefore⟩ := hend
    rw [List.concat_eq_append, hbefore, List.getLast?_append_of_ne_nil _ (by simpa using hlast.1)]
    exact fun hcolon => hlast.colon (List.mem_of_getLast? hcolon)

theorem trimSeparators_intercalate {names : List String} (h : ∀ name ∈ names, IsName name) :
    trimSeparators ("::".intercalate names).toList = ("::".intercalate names).toList := by
  have hlast := getLast?_intercalate h
  rw [trimSeparators, dropSeparators_plain (by simpa using hlast), List.reverse_reverse]

/-- A text that writes some names is read as those names. -/
theorem written_of_writes {s : String} {names : List String} (h : Writes s names) :
    written s = "::".intercalate names := by
  have hchars : s.toList.filter (fun c => !isBlank c) = ("::".intercalate names).toList := by
    rw [← h.text, withoutBlanks, String.toList_ofList]
  have hplain : ∀ c ∈ ("::".intercalate names).toList, c ≠ '<' ∧ c ≠ '>' := by
    intro c hc
    constructor <;>
    · rintro rfl
      exact not_mem_intercalate (by decide) (fun name hname hmem =>
        (h.names name hname).2 _ hmem (by decide)) hc
  rw [written, hchars, withoutArguments, outsideBrackets_plain hplain,
    joinSeparators_intercalate h.names, trimSeparators_intercalate h.names, String.ofList_toList]

/-! ## Segments -/

theorem join_intercalate {above names : List String} (habove : ∀ name ∈ above, IsName name)
    (hnames : ∀ name ∈ names, IsName name) :
    join ("::".intercalate above) ("::".intercalate names) = "::".intercalate (above ++ names) :=
  Text.join_intercalate (fun name hname => (habove name hname).1)
    fun name hname => (hnames name hname).1

theorem last_intercalate {names : List String} (h : ∀ name ∈ names, IsName name) :
    last ("::".intercalate names) = names.getLastD "" := by
  rcases List.eq_nil_or_concat names with rfl | ⟨front, name, rfl⟩
  · rfl
  · have hname := (h name (by simp)).colon
    rw [List.concat_eq_append]
    cases front with
    | nil => simpa [last] using lastSegment_name hname
    | cons first front =>
        rw [last, intercalate_append_singleton (List.cons_ne_nil _ _), lastSegment_append _ hname,
          List.getLastD_concat]

/-- What a path stands for: one that ends in `self` stands for what it lies in. -/
def meant (names : List String) : List String :=
  if names.getLast? = some "self" ∧ 1 < names.length then names.dropLast else names

theorem mem_of_mem_meant {names : List String} {name : String} (h : name ∈ meant names) :
    name ∈ names := by
  rw [meant] at h
  split at h
  · exact (List.dropLast_subset names) h
  · exact h

theorem meant_append_self {names : List String} (hne : names ≠ []) :
    meant (names ++ ["self"]) = names := by
  simp [meant, List.length_pos_iff.2 hne]

theorem meant_append_of_ne {name : String} (h : name ≠ "self") (names : List String) :
    meant (names ++ [name]) = names ++ [name] := by
  simp [meant, h]

theorem stripEnd?_eq_none_of_last {s : String} (h : last s ≠ "self") :
    stripEnd? "::self" s = none := by
  cases hstrip : stripEnd? "::self" s with
  | none => rfl
  | some front =>
      have hs : s = front ++ "::" ++ "self" := by
        rw [stripEnd?_eq_some_iff.1 hstrip, String.append_assoc]
        rfl
      exact absurd (by rw [hs]; exact lastSegment_append front (by decide)) h

theorem withoutSelf_intercalate {names : List String} (h : ∀ name ∈ names, IsName name) :
    withoutSelf ("::".intercalate names) = "::".intercalate (meant names) := by
  rcases List.eq_nil_or_concat names with rfl | ⟨front, name, rfl⟩
  · rfl
  · rw [List.concat_eq_append]
    by_cases hself : name = "self"
    · subst hself
      by_cases hfront : front = []
      · subst hfront
        decide
      · have hstrip : stripEnd? "::self" ("::".intercalate (front ++ ["self"])) =
            some ("::".intercalate front) := by
          rw [stripEnd?_eq_some_iff, intercalate_append_singleton hfront, String.append_assoc]
          rfl
        rw [meant_append_self hfront, withoutSelf, hstrip, Option.getD_some]
    · have hlast : last ("::".intercalate (front ++ [name])) ≠ "self" := by
        rw [last_intercalate (by simpa using h)]
        simpa using hself
      rw [meant_append_of_ne hself, withoutSelf, stripEnd?_eq_none_of_last hlast, Option.getD_none]

theorem beforeStar_intercalate {names : List String} (h : ∀ name ∈ names, IsName name) :
    beforeStar ("::".intercalate (names ++ ["*"])) = "::".intercalate names := by
  cases names with
  | nil => rfl
  | cons first names =>
      have hlast := getLast?_intercalate h
      have hreverse : ("::".intercalate (first :: names) ++ "::" ++ "*").toList.reverse =
          '*' :: ':' :: ':' :: ("::".intercalate (first :: names)).toList.reverse := by
        simp
      rw [intercalate_append_singleton (List.cons_ne_nil _ _), beforeStar, hreverse]
      generalize "::".intercalate (first :: names) = path at hlast ⊢
      have hpath : path.toList.reverse.head? ≠ some ':' := by simpa using hlast
      simp [trimSeparators, dropSeparators, dropSeparators_plain hpath]

end CodeAtlas.Rust.Path
