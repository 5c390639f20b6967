import CodeAtlas.Proofs.Explore.Order
import CodeAtlas.Proofs.Store.Contents
import Mathlib.Data.List.Infix
import Mathlib.Data.List.TakeWhile

/-!
# CodeAtlas.Proofs.Store.Search

A search looks for its pattern as it is written.

What a wildcard pattern stands for is told by its parts (`Fits`); that is what the reader of
wildcard patterns decides (`fits_iff`).  The wildcard pattern of a pattern is read back as its
characters with any text before and after them (`parts?_wildcard`), whatever characters they are,
so the texts that have its form are those with the pattern in them (`like_wildcard_iff`).

What is found is listed by file, line, column and id, as the store keeps them
(`Place.position`): it keeps numbers as signed ones of 64 bits, so lines and columns from
2^63 on come before all others.
-/

namespace CodeAtlas

namespace Store

namespace Search

/-! ## What wildcard patterns stand for -/

/-- Whether a text is made of parts, one after the other. -/
inductive Fits : List Part → List Char → Prop
  | nil : Fits [] []
  | any {parts : List Part} {text : List Char} (skipped : List Char) :
      Fits parts text → Fits (.any :: parts) (skipped ++ text)
  | one {parts : List Part} {text : List Char} (c : Char) :
      Fits parts text → Fits (.one :: parts) (c :: text)
  | only {parts : List Part} {text : List Char} {c d : Char} :
      c.toLower = d.toLower → Fits parts text → Fits (.only c :: parts) (d :: text)

theorem fits_any {parts : List Part} {text : List Char} :
    Fits (.any :: parts) text ↔ ∃ skipped rest, text = skipped ++ rest ∧ Fits parts rest := by
  constructor
  · rintro (_ | ⟨skipped, h⟩)
    exact ⟨skipped, _, rfl, h⟩
  · rintro ⟨skipped, rest, rfl, h⟩
    exact .any skipped h

theorem anyEnd_iff {p : List Char → Bool} {text : List Char} :
    anyEnd p text = true ↔ ∃ skipped rest, text = skipped ++ rest ∧ p rest = true := by
  induction text with
  | nil =>
      rw [anyEnd]
      exact ⟨fun h => ⟨[], [], rfl, h⟩, fun ⟨_, rest, htext, h⟩ =>
        (List.append_eq_nil_iff.1 htext.symm).2 ▸ h⟩
  | cons c cs ih =>
      rw [anyEnd, Bool.or_eq_true, ih]
      constructor
      · rintro (h | ⟨skipped, rest, rfl, h⟩)
        · exact ⟨[], c :: cs, rfl, h⟩
        · exact ⟨c :: skipped, rest, rfl, h⟩
      · rintro ⟨skipped, rest, htext, h⟩
        cases skipped with
        | nil => exact .inl (htext ▸ h)
        | cons d skipped => exact .inr ⟨skipped, rest, (List.cons.inj htext).2, h⟩

/-- Trying all ends for each part that stands for any text finds out what the parts stand for. -/
theorem fits_iff {parts : List Part} {text : List Char} :
    fits parts text = true ↔ Fits parts text := by
  induction parts generalizing text with
  | nil =>
      rw [fits, List.isEmpty_iff]
      exact ⟨fun h => h ▸ .nil, fun h => by cases h; rfl⟩
  | cons part parts ih =>
      cases part with
      | any =>
          simp only [fits, anyEnd_iff, fits_any, ih]
      | one =>
          cases text with
          | nil => exact ⟨fun h => (Bool.false_ne_true h).elim, fun h => by cases h⟩
          | cons c text =>
              rw [fits, ih]
              exact ⟨.one c, fun h => by cases h; assumption⟩
      | only c =>
          cases text with
          | nil => exact ⟨fun h => (Bool.false_ne_true h).elim, fun h => by cases h⟩
          | cons d text =>
              rw [fits, Bool.and_eq_true, beq_iff_eq, ih]
              exact ⟨fun h => .only h.1 h.2, fun h => by cases h; exact ⟨‹_›, ‹_›⟩⟩

/-! ## Patterns as they are written -/

theorem parts?_cons {c : Char} (h : c ≠ '\\') (cs : List Char) :
    parts? (c :: cs) = (parts? cs).map
      ((if c == '%' then Part.any else if c == '_' then .one else .only c) :: ·) :=
  parts?.eq_4 c cs (fun hc => absurd hc h) fun _ _ hc => absurd hc h

/-- Characters that stand for themselves are read as that. -/
theorem parts?_flatMap_escaped (pattern rest : List Char) :
    parts? (pattern.flatMap escaped ++ rest) =
      (parts? rest).map (pattern.map Part.only ++ ·) := by
  induction pattern with
  | nil => simp
  | cons c pattern ih =>
      rw [List.flatMap_cons, escaped]
      split
      · next h =>
        rw [List.append_assoc, List.cons_append, List.singleton_append, parts?, ih]
        simp [Function.comp_def]
      · next h =>
        simp only [isSpecial, Bool.or_eq_true, beq_iff_eq, not_or] at h
        rw [List.append_assoc, List.singleton_append, parts?_cons h.2, ih]
        simp [h.1.1, h.1.2, Function.comp_def]

theorem visible_eq_toList {text : String} (h : '\x00' ∉ text.toList) :
    visible text = text.toList := by
  refine List.takeWhile_eq_self_iff.2 fun c hc => ?_
  rw [bne_iff_ne]
  rintro rfl
  exact h hc

/-- The wildcard pattern of a pattern stands for its characters, between any two texts. -/
theorem parts?_wildcard {pattern : String} (h : '\x00' ∉ pattern.toList) :
    parts? (visible (wildcard pattern)) =
      some (.any :: (pattern.toList.map Part.only ++ [.any])) := by
  have hchars : (wildcard pattern).toList =
      '%' :: (pattern.toList.flatMap escaped ++ ['%']) := String.toList_ofList
  have hzero : '\x00' ∉ (wildcard pattern).toList := by
    rw [hchars]
    intro hmem
    have hmem : '\x00' ∈ pattern.toList.flatMap escaped := by simpa using hmem
    obtain ⟨c, hc, hescaped⟩ := List.mem_flatMap.1 hmem
    rw [escaped] at hescaped
    have hsame : '\x00' = c := by
      split at hescaped
      · simpa using hescaped
      · simpa using hescaped
    exact h (hsame ▸ hc)
  rw [visible_eq_toList hzero, hchars, parts?_cons (by decide), parts?_flatMap_escaped]
  rfl

/-- A text of characters that stand for themselves has them, in either case, at its start. -/
theorem fits_map_only {pattern : List Char} {parts : List Part} {text : List Char} :
    Fits (pattern.map Part.only ++ parts) text ↔
      ∃ start rest, text = start ++ rest ∧ start.map Char.toLower = pattern.map Char.toLower ∧
        Fits parts rest := by
  induction pattern generalizing text with
  | nil =>
      constructor
      · exact fun h => ⟨[], text, rfl, rfl, h⟩
      · rintro ⟨start, rest, rfl, hstart, h⟩
        rwa [List.map_eq_nil_iff.1 hstart]
  | cons c pattern ih =>
      constructor
      · rintro (_ | _ | _ | ⟨hc, h⟩)
        obtain ⟨start, rest, rfl, hstart, hrest⟩ := ih.1 h
        exact ⟨_ :: start, rest, rfl, by rw [List.map_cons, List.map_cons, hc, hstart], hrest⟩
      · rintro ⟨start, rest, rfl, hstart, h⟩
        obtain ⟨d, start, rfl, hd, hstart⟩ := List.map_eq_cons_iff.1 hstart
        exact .only hd.symm (ih.2 ⟨start, rest, rfl, hstart, h⟩)

/-- Whether a text has another one in it, whatever the case of ASCII letters. -/
def Contains (text part : String) : Prop :=
  part.toList.map Char.toLower <:+: text.toList.map Char.toLower

instance (text part : String) : Decidable (Contains text part) :=
  inferInstanceAs (Decidable (_ <:+: _))

/-- The texts that have the form of a pattern's wildcard pattern are those with the pattern in
them. -/
theorem like_wildcard_iff {pattern text : String} (hpattern : '\x00' ∉ pattern.toList)
    (htext : '\x00' ∉ text.toList) :
    like (wildcard pattern) text = true ↔ Contains text pattern := by
  rw [like, parts?_wildcard hpattern, visible_eq_toList htext]
  dsimp only
  rw [fits_iff, fits_any]
  constructor
  · rintro ⟨before, rest, htext, h⟩
    obtain ⟨found, after, rfl, hfound, -⟩ := fits_map_only.1 h
    refine ⟨before.map Char.toLower, after.map Char.toLower, ?_⟩
    rw [htext, List.map_append, List.map_append, hfound, List.append_assoc]
  · rintro ⟨before, after, h⟩
    obtain ⟨start, after, htext, hstart, -⟩ := List.append_eq_map_iff.1 h
    obtain ⟨before, found, rfl, -, hfound⟩ := List.append_eq_map_iff.1 hstart.symm
    rw [htext, List.append_assoc]
    exact ⟨before, found ++ after, rfl, fits_map_only.2 ⟨found, after, rfl, hfound,
      fits_any.2 ⟨after, [], (List.append_nil after).symm, .nil⟩⟩⟩

end Search

end Store

/-! ## Order -/

/-- File, line, column and id. -/
def Place.position (p : Place) : String ×ₗ Int ×ₗ Int ×ₗ String :=
  toLex (p.file, toLex (p.line, toLex (p.column, p.id)))

theorem Place.le_iff {p q : Place} : p.le q = true ↔ p.position ≤ q.position := by
  simp only [le, position, Prod.Lex.toLex_le_toLex, Bool.or_eq_true, Bool.and_eq_true,
    decide_eq_true_eq, beq_iff_eq]

theorem signed64_of_lt {n : Nat} (h : n < 0x8000000000000000) : signed64 n = n := by
  have hlow : -(((0x10000000000000000 : Nat) : Int) / 2) ≤ n := by omega
  have hhigh : (n : Int) < (((0x10000000000000000 : Nat) : Int) + 1) / 2 := by omega
  exact Int.bmod_eq_of_le hlow hhigh

/-- Whether a store keeps the place of a node as it is. -/
def Node.KeptAsIs (n : Node) : Prop :=
  n.span.startLine < 0x8000000000000000 ∧ n.span.startCol < 0x8000000000000000

/-- Nodes whose places are kept as they are stand in the order of their positions. -/
theorem Node.KeptAsIs.place_le_iff {a b : Node} (ha : a.KeptAsIs) (hb : b.KeptAsIs) :
    a.place.position ≤ b.place.position ↔ a.position ≤ b.position := by
  simp only [place, position, Place.position, Prod.Lex.toLex_le_toLex, signed64_of_lt ha.1,
    signed64_of_lt ha.2, signed64_of_lt hb.1, signed64_of_lt hb.2, Int.ofNat_lt, Int.ofNat_inj]

namespace Store

theorem nodesWhere_ascends (s : Store) (p : Node → Bool) :
    ((s.nodesWhere p).map (·.place.position)).Pairwise (· ≤ ·) :=
  pairwise_mergeSort_of_iff (fun a b => a.place.le b.place) (·.place.position)
    (fun _ _ => Place.le_iff) (s.nodes.toList.filter p)

/-! ## Search -/

/-- **Search is literal.**  In a store whose names have no character of code point zero, a
search for a pattern without it, whose wildcard pattern is not too large, lists the first nodes,
up to the limit, among those that have the pattern in their name or qualified name, whatever the
case of ASCII letters.  They come by file, start line, start column and id as the store keeps
them, which is the plain order where lines and columns are below 2^63. -/
theorem search_finds_literally (s : Store) (pattern : String) (limit : Nat)
    (hnames : ∀ n ∈ s.nodes, '\x00' ∉ n.name.toList ∧ '\x00' ∉ n.qualifiedName.toList)
    (hpattern : '\x00' ∉ pattern.toList)
    (hsize : (Search.wildcard pattern).utf8ByteSize ≤ Search.maxSize) :
    ∃ found : List Node,
      s.run (.searchNodes pattern limit) = .ok ((found.take limit).map .node) ∧
      (found.Nodup ∧ ∀ n, n ∈ found ↔ n ∈ s.nodes ∧
        (Search.Contains n.name pattern ∨ Search.Contains n.qualifiedName pattern)) ∧
      (found.map (·.place.position)).Pairwise (· ≤ ·) ∧
      ((∀ n ∈ found, n.KeptAsIs) → (found.map Node.position).Pairwise (· ≤ ·)) := by
  refine ⟨s.nodesWhere fun n => Search.like (Search.wildcard pattern) n.name ||
    Search.like (Search.wildcard pattern) n.qualifiedName, ?_, ⟨nodup_nodesWhere s _, fun n => ?_⟩,
    nodesWhere_ascends s _, fun hkept => ?_⟩
  · rw [run, search, if_neg (by simp [Nat.not_lt.2 hsize])]
    rfl
  · rw [mem_nodesWhere, Bool.or_eq_true]
    refine and_congr_right fun hn => ?_
    rw [Search.like_wildcard_iff hpattern (hnames n hn).1,
      Search.like_wildcard_iff hpattern (hnames n hn).2]
  · have hascends := nodesWhere_ascends s fun n =>
      Search.like (Search.wildcard pattern) n.name ||
        Search.like (Search.wildcard pattern) n.qualifiedName
    rw [List.pairwise_map] at hascends ⊢
    exact hascends.imp_of_mem fun ha hb h =>
      ((hkept _ ha).place_le_iff (hkept _ hb)).1 h

/-- A function in the file `m.py`. -/
def functionAt (line : Nat) (name : String) : Node :=
  ⟨Node.idOf .function ("m." ++ name), .function, name, "m." ++ name, "m.py", "python",
    ⟨line, 0, line, 9⟩, none⟩

/-- Functions whose names differ in the character that a wildcard may stand for. -/
def wildcardNames : Store :=
  { Store.empty with
    nodes := Rows.putAll {} [functionAt 0 "totalXsum", functionAt 3 "total_sum"] }

theorem search_finds_literally_wildcardNames :
    (∀ n ∈ wildcardNames.nodes, '\x00' ∉ n.name.toList ∧ '\x00' ∉ n.qualifiedName.toList) ∧
      '\x00' ∉ "L_S".toList ∧ (Search.wildcard "L_S").utf8ByteSize ≤ Search.maxSize ∧
      wildcardNames.run (.searchNodes "L_S" 5) = .ok [.node (functionAt 3 "total_sum")] := by
  have hnames : ∀ n ∈ wildcardNames.nodes.toList,
      '\x00' ∉ n.name.toList ∧ '\x00' ∉ n.qualifiedName.toList := by decide
  have hpattern : '\x00' ∉ "L_S".toList := by decide
  have hsize : (Search.wildcard "L_S").utf8ByteSize ≤ Search.maxSize := by decide
  obtain ⟨found, hrun, ⟨hnodup, hmem⟩, -⟩ :=
    search_finds_literally wildcardNames "L_S" 5 hnames hpattern hsize
  have hone : found = [functionAt 3 "total_sum"] := by
    have hall : ∀ n ∈ wildcardNames.nodes.toList,
        (Search.Contains n.name "L_S" ∨ Search.Contains n.qualifiedName "L_S") ↔
          n = functionAt 3 "total_sum" := by decide
    refine List.perm_singleton.1 ((List.perm_ext_iff_of_nodup hnodup (List.nodup_singleton _)).2
      fun n => ?_)
    rw [hmem, List.mem_singleton]
    refine ⟨fun h => (hall n h.1).1 h.2, ?_⟩
    rintro rfl
    exact ⟨by decide, (hall _ (by decide)).2 rfl⟩
  refine ⟨hnames, hpattern, hsize, ?_⟩
  rw [hrun, hone]
  rfl

/-- A function in a line whose number does not fit into 63 bits, and one in the first line. -/
def farLine : Store :=
  { Store.empty with
    nodes := Rows.putAll {} [functionAt 0x8000000000000000 "far", functionAt 0 "near"] }

/-- The function in the far line comes first. -/
theorem search_not_by_line :
    (∀ n ∈ farLine.nodes, '\x00' ∉ n.name.toList ∧ '\x00' ∉ n.qualifiedName.toList) ∧
      '\x00' ∉ "ar".toList ∧ (Search.wildcard "ar").utf8ByteSize ≤ Search.maxSize ∧
      ¬ ∃ found : List Node,
        farLine.run (.searchNodes "ar" 1) = .ok ((found.take 1).map .node) ∧
        (found.Nodup ∧ ∀ n, n ∈ found ↔ n ∈ farLine.nodes ∧
          (Search.Contains n.name "ar" ∨ Search.Contains n.qualifiedName "ar")) ∧
        (found.map Node.position).Pairwise (· ≤ ·) := by
  have hnames : ∀ n ∈ farLine.nodes.toList,
      '\x00' ∉ n.name.toList ∧ '\x00' ∉ n.qualifiedName.toList := by decide
  have hall : farLine.nodesWhere (fun n => Search.like (Search.wildcard "ar") n.name ||
      Search.like (Search.wildcard "ar") n.qualifiedName) =
        [functionAt 0x8000000000000000 "far", functionAt 0 "near"] :=
    List.mergeSort_of_pairwise (by decide +kernel)
  have hrun : farLine.run (.searchNodes "ar" 1) =
      .ok [.node (functionAt 0x8000000000000000 "far")] := by
    rw [run, search, if_neg (by decide), hall]
    rfl
  refine ⟨hnames, by decide, by decide, ?_⟩
  rintro ⟨found, hfound, ⟨-, hmem⟩, hsorted⟩
  have hnear : functionAt 0 "near" ∈ found := (hmem _).2 ⟨by decide, by decide⟩
  rw [hrun] at hfound
  cases found with
  | nil => cases hnear
  | cons n rest =>
      have hfirst : n = functionAt 0x8000000000000000 "far" := by simpa using hfound.symm
      have hrest : functionAt 0 "near" ∈ rest :=
        (List.mem_cons.1 hnear).resolve_left fun h => absurd (h.trans hfirst) (by decide)
      have hle := (List.pairwise_cons.1 hsorted).1 _ (List.mem_map_of_mem hrest)
      rw [hfirst, ← Node.comesBy_iff] at hle
      exact absurd hle (by decide)

end Store

end CodeAtlas
