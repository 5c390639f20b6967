import CodeAtlas.Proofs.Store.Rows
import CodeAtlas.Store.Query

/-!
# CodeAtlas.Proofs.Store.Contents

What the questions and changes of a store mean for its contents.

* a question lists exactly the rows with the property that it asks for;
* merging a row makes its key find it, whatever was there before, and leaves all
  other keys alone; it counts as created exactly if its key found nothing;
* a record is found with the ids that it was written with.
-/

namespace CodeAtlas

/-! ## Sets of texts -/

theorem mem_dropRepeats {x : String} (xs : List String) : x ∈ dropRepeats xs ↔ x ∈ xs := by
  fun_induction dropRepeats xs with
  | case1 b rest ih =>
      rw [ih]
      simp
  | case2 a b rest hne ih => rw [List.mem_cons, ih, ← List.mem_cons]
  | case3 rest h => rfl

/-- A sorted set has the members of the list that it is made from. -/
@[simp] theorem mem_sortedSet {x : String} {xs : List String} : x ∈ sortedSet xs ↔ x ∈ xs := by
  rw [sortedSet, mem_dropRepeats, List.mem_mergeSort]

theorem sortedSet_eq_nil_iff {xs : List String} : sortedSet xs = [] ↔ xs = [] := by
  simp only [List.eq_nil_iff_forall_not_mem, mem_sortedSet]

theorem dropRepeats_sublist (xs : List String) : (dropRepeats xs).Sublist xs := by
  fun_induction dropRepeats xs with
  | case1 b rest ih => exact ih.cons b
  | case2 a b rest hne ih => exact ih.cons_cons a
  | case3 rest h => exact List.Sublist.refl rest

theorem head?_dropRepeats (xs : List String) : (dropRepeats xs).head? = xs.head? := by
  fun_induction dropRepeats xs with
  | case1 b rest ih => exact ih
  | case2 a b rest hne ih => rfl
  | case3 rest h => rfl

/-- Once dropped, repetitions are gone. -/
theorem dropRepeats_dropRepeats (xs : List String) :
    dropRepeats (dropRepeats xs) = dropRepeats xs := by
  fun_induction dropRepeats xs with
  | case1 b rest ih => exact ih
  | case2 a b rest hne ih =>
      obtain ⟨tail, htail⟩ := List.head?_eq_some_iff.1 (head?_dropRepeats (b :: rest))
      rw [htail, dropRepeats, if_neg hne, ← htail, ih]
  | case3 rest h => rw [dropRepeats.eq_2 rest h]

/-- A sorted set is its own sorted set. -/
theorem sortedSet_sortedSet (xs : List String) : sortedSet (sortedSet xs) = sortedSet xs := by
  have hsorted : (sortedSet xs).Pairwise fun a b => decide (a ≤ b) = true := by
    refine List.Pairwise.sublist (dropRepeats_sublist _) (List.pairwise_mergeSort ?_ ?_ xs)
    · intro a b c hab hbc
      exact decide_eq_true (String.le_trans (of_decide_eq_true hab) (of_decide_eq_true hbc))
    · intro a b
      simpa using String.le_total a b
  rw [sortedSet, List.mergeSort_of_pairwise hsorted]
  exact dropRepeats_dropRepeats _

namespace Store

/-! ## Questions -/

theorem mem_nodesWhere {s : Store} {p : Node → Bool} {n : Node} :
    n ∈ s.nodesWhere p ↔ n ∈ s.nodes ∧ p n = true := by
  rw [nodesWhere, List.mem_mergeSort, List.mem_filter, Rows.mem_toList]

theorem mem_edgesWhere {s : Store} {p : Edge → Bool} {e : Edge} :
    e ∈ s.edgesWhere p ↔ e ∈ s.edges ∧ p e = true := by
  rw [edgesWhere, List.mem_mergeSort, List.mem_filter, Rows.mem_toList]

theorem mem_nodesNamed {s : Store} {name : String} {n : Node} :
    n ∈ s.nodesNamed name ↔ n ∈ s.nodes ∧ n.name = name := by
  rw [nodesNamed, mem_nodesWhere, beq_iff_eq]

theorem mem_nodesQualified {s : Store} {name : String} {n : Node} :
    n ∈ s.nodesQualified name ↔ n ∈ s.nodes ∧ n.qualifiedName = name := by
  rw [nodesQualified, mem_nodesWhere, beq_iff_eq]

theorem mem_edgesTo {s : Store} {id : String} {e : Edge} :
    e ∈ s.edgesTo id none ↔ e ∈ s.edges ∧ e.target = some id := by
  rw [edgesTo, mem_edgesWhere]
  simp [ofKind]

theorem mem_unresolved {s : Store} {e : Edge} :
    e ∈ s.unresolved ↔ e ∈ s.edges ∧ e.target = none := by
  rw [unresolved, mem_edgesWhere, Option.isNone_iff_eq_none]

theorem mem_unresolvedFor {s : Store} {name : String} {e : Edge} :
    e ∈ s.unresolvedFor name ↔ e ∈ s.edges ∧ e.target = none ∧ e.targetRef = name := by
  rw [unresolvedFor, mem_edgesWhere]
  simp

/-- What is asked of the nodes does not depend on the rest of the store. -/
theorem nodesWhere_congr {s t : Store} (h : t.nodes = s.nodes) (p : Node → Bool) :
    t.nodesWhere p = s.nodesWhere p := by
  rw [nodesWhere, nodesWhere, h]

/-- Two stores have the same nodes of files other than one. -/
def SameOutside (path : String) (s t : Store) : Prop :=
  ∀ n, n.file ≠ path → (n ∈ t.nodes ↔ n ∈ s.nodes)

theorem SameOutside.refl (path : String) (s : Store) : s.SameOutside path s := fun _ _ => Iff.rfl

theorem nodup_nodesWhere (s : Store) (p : Node → Bool) : (s.nodesWhere p).Nodup :=
  List.nodup_mergeSort.2 (s.nodes.nodup.of_map _ |>.filter p)

/-- Of such nodes the same are found, if maybe in another order. -/
theorem SameOutside.perm {path : String} {s t : Store} (h : s.SameOutside path t)
    {p q : Node → Bool} (hq : ∀ n, q n = true → n.file ≠ path) :
    ((s.nodesWhere p).filter q).Perm ((t.nodesWhere p).filter q) := by
  rw [List.perm_ext_iff_of_nodup ((nodup_nodesWhere s p).filter q)
    ((nodup_nodesWhere t p).filter q)]
  intro n
  simp only [List.mem_filter, mem_nodesWhere]
  exact and_congr_left fun hn => and_congr_left fun _ => (h n (hq n hn)).symm

/-- The file at a path has a record that claims an id. -/
def Claims (s : Store) (path id : String) : Prop :=
  ∃ r, s.records.get? path = some r ∧ id ∈ r.contributions

theorem claims_iff {s : Store} {path id : String} :
    s.Claims path id ↔ ∃ r ∈ s.records, r.path = path ∧ id ∈ r.contributions := by
  simp only [Claims, Rows.get?_eq_some_iff, and_assoc]

theorem mem_otherClaimants {s : Store} {id except path : String} :
    path ∈ s.otherClaimants id except ↔ path ≠ except ∧ s.Claims path id := by
  rw [otherClaimants, List.mem_mergeSort, List.mem_map, claims_iff]
  constructor
  · rintro ⟨r, hr, rfl⟩
    rw [List.mem_filter, Bool.and_eq_true, bne_iff_ne, List.contains_iff_mem] at hr
    exact ⟨hr.2.1, r, hr.1, rfl, hr.2.2⟩
  · rintro ⟨hne, r, hr, rfl, hid⟩
    refine ⟨r, List.mem_filter.2 ⟨hr, ?_⟩, rfl⟩
    rw [Bool.and_eq_true, bne_iff_ne, List.contains_iff_mem]
    exact ⟨hne, hid⟩

/-- Claims depend on the records alone. -/
theorem otherClaimants_congr {s t : Store} (h : t.records = s.records) (id except : String) :
    t.otherClaimants id except = s.otherClaimants id except := by
  rw [otherClaimants, otherClaimants, h]

/-! ## Changes -/

/-- A merged row is found under its key, written or not, and other keys find what they
found. -/
theorem get?_mergeOf {α : Type} {key : α → String} [DecidableEq α] (rows : Rows α key) (a : α)
    (k : String) : (if mergeOf rows a = .unchanged then rows else rows.put a).get? k =
      if key a = k then some a else rows.get? k := by
  split
  · next hsame =>
    have hold : rows.get? (key a) = some a := by
      rw [mergeOf] at hsame
      cases hget : rows.get? (key a) with
      | none => simp [hget] at hsame
      | some old =>
          by_cases ho : old = a
          · rw [ho]
          · simp [hget, ho] at hsame
    split
    · next hk => rw [← hk, hold]
    · rfl
  · exact Rows.get?_put rows a k

theorem get?_mergeNode (s : Store) (n : Node) (k : String) :
    (s.mergeNode n).2.nodes.get? k = if n.id = k then some n else s.nodes.get? k := by
  rw [← get?_mergeOf s.nodes n k, mergeNode]
  cases mergeOf s.nodes n <;> rfl

theorem get?_mergeEdge (s : Store) (e : Edge) (k : String) :
    (s.mergeEdge e).2.edges.get? k = if e.id = k then some e else s.edges.get? k := by
  rw [← get?_mergeOf s.edges e k, mergeEdge]
  cases mergeOf s.edges e <;> rfl

theorem mergeNode_edges (s : Store) (n : Node) : (s.mergeNode n).2.edges = s.edges := by
  rw [mergeNode]
  split <;> rfl

theorem mergeNode_records (s : Store) (n : Node) : (s.mergeNode n).2.records = s.records := by
  rw [mergeNode]
  split <;> rfl

theorem mergeEdge_nodes (s : Store) (e : Edge) : (s.mergeEdge e).2.nodes = s.nodes := by
  rw [mergeEdge]
  split <;> rfl

theorem mergeEdge_records (s : Store) (e : Edge) : (s.mergeEdge e).2.records = s.records := by
  rw [mergeEdge]
  split <;> rfl

/-- A merged node counts as created exactly if its id was not in use. -/
theorem mergeNode_eq_created_iff {s : Store} {n : Node} :
    (s.mergeNode n).1 = .created ↔ s.nodes.get? n.id = none := by
  rw [mergeNode, mergeOf]
  cases h : s.nodes.get? n.id with
  | none => simp
  | some old => by_cases ho : old = n <;> simp [ho]

/-- The record that is kept for a file has the ids that it was written with. -/
theorem get?_putRecord (s : Store) (r : FileRecord) (path : String) :
    (s.putRecord r).records.get? path =
      if r.path = path then
        some { r with
          indexedAt := wholeSeconds r.indexedAt, contributions := sortedSet r.contributions }
      else s.records.get? path := by
  rw [putRecord, Rows.get?_put]

end Store

end CodeAtlas
