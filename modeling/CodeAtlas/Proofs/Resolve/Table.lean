import CodeAtlas.Proofs.Store.Rows
import CodeAtlas.Resolve.Symbol
import Mathlib.Data.List.Induction
import Mathlib.Data.String.Basic

/-!
# CodeAtlas.Proofs.Resolve.Table

A table of symbols that files are added to and removed from, any number of times.

The pairs by which symbols are found name the entries, each once, and nothing else
(`SymbolTable.Names`): a node that is added again brings the pair that its entry has already, and
a file that is removed takes the pairs of its entries along.  So a look-up lists the entries with
the name, in the order of ids; and which entries there are can be told from what was added and
removed (`SymbolTable.Current`), whatever the order (`SymbolTable.looks_up_current`).
-/

namespace CodeAtlas

namespace SymbolTable

/-! ## Look-ups -/

/-- Whether some pairs are those of a name and an id that the entries have, each once. -/
structure Names (entries : Rows Symbol Symbol.id) (nameOf : Symbol → String)
    (pairs : List (String × String)) : Prop where
  nodup : pairs.Nodup
  mem_iff : ∀ p, p ∈ pairs ↔ ∃ s ∈ entries, p = (nameOf s, s.id)

variable {t : SymbolTable} {entries : Rows Symbol Symbol.id} {nameOf : Symbol → String}
  {pairs : List (String × String)}

/-- An entry has one name. -/
theorem Names.mem_pairs_iff (h : Names entries nameOf pairs) {s : Symbol} (hs : s ∈ entries)
    (name : String) : (name, s.id) ∈ pairs ↔ nameOf s = name := by
  rw [h.mem_iff]
  constructor
  · rintro ⟨s', hs', heq⟩
    obtain ⟨rfl, hid⟩ := Prod.mk.inj heq
    rw [Rows.eq_of_key_eq hs hs' hid]
  · rintro rfl
    exact ⟨s, hs, rfl⟩

theorem Names.empty (nameOf : Symbol → String) : Names ∅ nameOf [] :=
  ⟨List.nodup_nil, fun _ => iff_of_false List.not_mem_nil fun ⟨s, hs, _⟩ => Rows.not_mem_empty s hs⟩

theorem mem_addPair {p q : String × String} : q ∈ addPair pairs p ↔ q ∈ pairs ∨ q = p := by
  rw [addPair]
  split
  · next hold =>
    refine (or_iff_left_of_imp ?_).symm
    rintro rfl
    exact List.contains_iff_mem.1 hold
  · rw [List.mem_append, List.mem_singleton]

theorem nodup_addPair (h : pairs.Nodup) (p : String × String) : (addPair pairs p).Nodup := by
  rw [addPair]
  split
  · exact h
  · next hnew =>
    exact h.append (List.nodup_singleton p)
      (List.disjoint_singleton.2 fun hold => hnew (List.contains_iff_mem.2 hold))

/-- An entry that takes the place of one with its name leaves the other names as they are. -/
theorem Names.put (h : Names entries nameOf pairs) {s : Symbol}
    (hsame : ∀ s' ∈ entries, s'.id = s.id → nameOf s' = nameOf s) :
    Names (entries.put s) nameOf (addPair pairs (nameOf s, s.id)) := by
  refine ⟨nodup_addPair h.nodup _, fun p => ?_⟩
  rw [mem_addPair, h.mem_iff]
  constructor
  · rintro (⟨s', hs', rfl⟩ | rfl)
    · by_cases hid : s'.id = s.id
      · exact ⟨s, Rows.mem_put.2 (.inl rfl), by rw [hid, hsame s' hs' hid]⟩
      · exact ⟨s', Rows.mem_put.2 (.inr ⟨hs', hid⟩), rfl⟩
    · exact ⟨s, Rows.mem_put.2 (.inl rfl), rfl⟩
  · rintro ⟨s', hs', rfl⟩
    rcases Rows.mem_put.1 hs' with rfl | ⟨hs', -⟩
    · exact .inr rfl
    · exact .inl ⟨s', hs', rfl⟩

/-- An entry goes with its pair. -/
theorem Names.erase (h : Names entries nameOf pairs) {s : Symbol} (hs : s ∈ entries) :
    Names (entries.erase s.id) nameOf (pairs.filter (· != (nameOf s, s.id))) := by
  refine ⟨h.nodup.filter _, fun p => ?_⟩
  rw [List.mem_filter, bne_iff_ne, h.mem_iff]
  constructor
  · rintro ⟨⟨s', hs', rfl⟩, hne⟩
    refine ⟨s', Rows.mem_filter.2 ⟨hs', bne_iff_ne.2 fun hid => hne ?_⟩, rfl⟩
    rw [Rows.eq_of_key_eq hs' hs hid]
  · rintro ⟨s', hs', rfl⟩
    obtain ⟨hs', hid⟩ := Rows.mem_filter.1 hs'
    exact ⟨⟨s', hs', rfl⟩, fun heq => bne_iff_ne.1 hid (Prod.mk.inj heq).2⟩

/-- The ids that a name is looked up with ascend. -/
theorem pairwise_ids (h : pairs.Nodup) (name : String) :
    (((pairs.filter (·.1 == name)).map (·.2)).mergeSort (· ≤ ·)).Pairwise (· < ·) := by
  have hids : ((pairs.filter (·.1 == name)).map (·.2)).Nodup := by
    refine (h.filter _).map_on fun p hp q hq heq => ?_
    have hp := beq_iff_eq.1 (List.mem_filter.1 hp).2
    have hq := beq_iff_eq.1 (List.mem_filter.1 hq).2
    exact Prod.ext (hp.trans hq.symm) heq
  have hsorted : (((pairs.filter (·.1 == name)).map (·.2)).mergeSort (· ≤ ·)).Pairwise (· ≤ ·) :=
    (List.pairwise_mergeSort (fun a b c => by simpa using le_trans)
      (fun a b => by simpa using le_total a b) _).imp of_decide_eq_true
  have hdistinct : (((pairs.filter (·.1 == name)).map (·.2)).mergeSort (· ≤ ·)).Nodup :=
    (List.mergeSort_perm _ _).nodup_iff.2 hids
  exact (hsorted.and hdistinct).imp fun hle => lt_of_le_of_ne hle.1 hle.2

/-- A look-up lists the entries with the name, in the order of ids. -/
theorem lookUp_spec (h : Names t.entries nameOf pairs) (name : String) :
    (t.lookUp pairs name).Pairwise (·.id < ·.id) ∧
      ∀ s, s ∈ t.lookUp pairs name ↔ s ∈ t.entries ∧ nameOf s = name := by
  constructor
  · refine (pairwise_ids h.nodup name).filterMap _ fun a b hlt s hs s' hs' => ?_
    rw [Rows.key_of_get? hs, Rows.key_of_get? hs']
    exact hlt
  · intro s
    rw [lookUp, List.mem_filterMap]
    constructor
    · rintro ⟨id, hid, hs⟩
      obtain ⟨hentry, rfl⟩ := Rows.get?_eq_some_iff.1 hs
      rw [List.mem_mergeSort, List.mem_map] at hid
      obtain ⟨p, hp, hid⟩ := hid
      obtain ⟨hp, hname⟩ := List.mem_filter.1 hp
      have heq : p = (name, s.id) := Prod.ext (beq_iff_eq.1 hname) hid
      rw [heq, h.mem_pairs_iff hentry] at hp
      exact ⟨hentry, hp⟩
    · rintro ⟨hs, hname⟩
      refine ⟨s.id, ?_, Rows.mem_iff_get?.1 hs⟩
      rw [List.mem_mergeSort, List.mem_map]
      exact ⟨(name, s.id), List.mem_filter.2 ⟨(h.mem_pairs_iff hs name).2 hname, beq_self_eq_true _⟩,
        rfl⟩

/-! ## One table -/

/-- Whether a table finds its entries by their names, and only by them. -/
structure Sound (t : SymbolTable) : Prop where
  names : Names t.entries Symbol.name t.names
  qualifiedNames : Names t.entries Symbol.qualifiedName t.qualifiedNames

theorem Sound.empty : empty.Sound := ⟨Names.empty _, Names.empty _⟩

/-- A node with the names of the entry that it takes the place of can be added. -/
theorem Sound.add (h : t.Sound) {n : Node} (hsame : ∀ s ∈ t.entries, s.id = n.id →
    s.name = n.name ∧ s.qualifiedName = n.qualifiedName) : (t.add n).Sound :=
  ⟨h.names.put (s := n.symbol) fun s hs hid => (hsame s hs hid).1,
    h.qualifiedNames.put (s := n.symbol) fun s hs hid => (hsame s hs hid).2⟩

theorem Sound.drop (h : t.Sound) {s : Symbol} (hs : s ∈ t.entries) : (t.drop s).Sound :=
  ⟨h.names.erase hs, h.qualifiedNames.erase hs⟩

theorem mem_drop {s s' : Symbol} : s' ∈ (t.drop s).entries ↔ s' ∈ t.entries ∧ s'.id ≠ s.id := by
  rw [SymbolTable.drop, Rows.erase, Rows.mem_filter, bne_iff_ne]

/-- Entries that are dropped one after the other are gone, and no others. -/
theorem Sound.dropAll (h : t.Sound) {gone : List Symbol} (hgone : ∀ s ∈ gone, s ∈ t.entries)
    (hids : (gone.map Symbol.id).Nodup) : (gone.foldl SymbolTable.drop t).Sound ∧
      ∀ s, s ∈ (gone.foldl SymbolTable.drop t).entries ↔ s ∈ t.entries ∧ s ∉ gone := by
  induction gone generalizing t with
  | nil => exact ⟨h, fun s => (and_iff_left List.not_mem_nil).symm⟩
  | cons g gone ih =>
      rw [List.map_cons, List.nodup_cons] at hids
      have hg : g ∈ t.entries := hgone g List.mem_cons_self
      have hrest : ∀ s ∈ gone, s ∈ (t.drop g).entries := by
        intro s hs
        refine mem_drop.2 ⟨hgone s (List.mem_cons_of_mem g hs), fun hid => hids.1 ?_⟩
        rw [← hid]
        exact List.mem_map_of_mem hs
      obtain ⟨hsound, hmem⟩ := ih (h.drop hg) hrest hids.2
      refine ⟨hsound, fun s => ?_⟩
      rw [List.foldl_cons, hmem, mem_drop, List.mem_cons, not_or, and_assoc]
      refine and_congr_right fun hs => and_congr_left fun _ => not_congr ?_
      exact ⟨fun hid => Rows.eq_of_key_eq hs hg hid, congrArg Symbol.id⟩

/-- A file goes with all the entries that it declares, and no others. -/
theorem Sound.removeFile (h : t.Sound) (file : String) : (t.removeFile file).Sound ∧
    ∀ s, s ∈ (t.removeFile file).entries ↔ s ∈ t.entries ∧ s.file ≠ file := by
  have hgone : ∀ s ∈ t.entries.toList.filter (·.file == file), s ∈ t.entries :=
    fun s hs => List.mem_of_mem_filter hs
  obtain ⟨hsound, hmem⟩ := h.dropAll hgone
    (t.entries.nodup.sublist (List.filter_sublist.map Symbol.id))
  refine ⟨hsound, fun s => (hmem s).trans (and_congr_right fun hs => ?_)⟩
  rw [List.mem_filter, not_and, beq_iff_eq]
  exact ⟨fun hne => hne hs, fun hne _ => hne⟩

/-! ## One change after the other -/

/-- What happens to a table. -/
inductive Event where
  | added (n : Node)
  | removed (file : String)

/-- A call that changes a table. -/
inductive Call where
  | addNodes (nodes : List Node)
  | removeFile (file : String)

def Event.apply (t : SymbolTable) : Event → SymbolTable
  | added n => t.add n
  | removed file => t.removeFile file

def Call.run (t : SymbolTable) : Call → SymbolTable
  | addNodes nodes => t.addNodes nodes
  | removeFile file => t.removeFile file

def Call.events : Call → List Event
  | addNodes nodes => nodes.map .added
  | removeFile file => [.removed file]

/-- What happens in a sequence of calls. -/
def history (calls : List Call) : List Event := calls.flatMap Call.events

theorem run_eq_apply (calls : List Call) (t : SymbolTable) :
    calls.foldl Call.run t = (history calls).foldl Event.apply t := by
  rw [history, List.foldl_flatMap]
  congr 1
  funext t call
  cases call with
  | addNodes nodes =>
      rw [Call.run, Call.events, List.foldl_map]
      rfl
  | removeFile file => rfl

/-- Whether a symbol is that of the last node added with its id, and its file was not removed
since. -/
def Current (events : List Event) (s : Symbol) : Prop :=
  ∃ before n after, events = before ++ .added n :: after ∧ s = n.symbol ∧
    (∀ m, .added m ∈ after → m.id ≠ n.id) ∧ .removed n.file ∉ after

/-- Whether nodes of one id have one name and one qualified name. -/
def SameNames (events : List Event) : Prop :=
  ∀ m n, .added m ∈ events → .added n ∈ events → m.id = n.id →
    m.name = n.name ∧ m.qualifiedName = n.qualifiedName

variable {events : List Event} {s : Symbol}

theorem not_current_nil : ¬ Current [] s := by
  rintro ⟨before, n, after, h, -⟩
  simp at h

/-- What happens last either brings the symbol, or leaves it. -/
theorem current_concat {e : Event} : Current (events ++ [e]) s ↔
    (∃ n, e = .added n ∧ s = n.symbol) ∨
      Current events s ∧ (∀ m, e = .added m → m.id ≠ s.id) ∧ e ≠ .removed s.file := by
  constructor
  · rintro ⟨before, n, after, h, rfl, hlast, hkept⟩
    rcases List.eq_nil_or_concat after with rfl | ⟨after, e', rfl⟩
    · have he : [e] = [.added n] := (List.append_inj' h rfl).2
      exact .inl ⟨n, (List.cons.inj he).1, rfl⟩
    · rw [List.concat_eq_append] at h hlast hkept
      rw [← List.cons_append, ← List.append_assoc] at h
      obtain ⟨hevents, he⟩ := List.append_inj' h rfl
      obtain rfl : e = e' := (List.cons.inj he).1
      refine .inr ⟨⟨before, n, after, hevents, rfl, fun m hm => hlast m ?_, fun hm => hkept ?_⟩,
        fun m hm => hlast m ?_, fun hm => hkept ?_⟩
      · exact List.mem_append_left _ hm
      · exact List.mem_append_left _ hm
      · exact List.mem_append_right _ (List.mem_singleton.2 hm.symm)
      · exact List.mem_append_right _ (List.mem_singleton.2 hm.symm)
  · rintro (⟨n, rfl, rfl⟩ | ⟨⟨before, n, after, rfl, rfl, hlast, hkept⟩, hother, hstays⟩)
    · exact ⟨events, n, [], rfl, rfl, fun m hm => absurd hm List.not_mem_nil, List.not_mem_nil⟩
    · refine ⟨before, n, after ++ [e], by rw [List.append_assoc, List.cons_append], rfl,
        fun m hm => ?_, fun hm => ?_⟩
      · rcases List.mem_append.1 hm with hm | hm
        · exact hlast m hm
        · exact hother m (List.mem_singleton.1 hm).symm
      · rcases List.mem_append.1 hm with hm | hm
        · exact hkept hm
        · exact hstays (List.mem_singleton.1 hm).symm

/-- A symbol is current only if its node was added. -/
theorem Current.added (h : Current events s) : ∃ n, .added n ∈ events ∧ s = n.symbol := by
  obtain ⟨before, n, after, rfl, rfl, -⟩ := h
  exact ⟨n, List.mem_append_right before List.mem_cons_self, rfl⟩

/-- Whatever is added and removed, the table finds its entries, and they are the current ones. -/
theorem applied (h : SameNames events) : (events.foldl Event.apply empty).Sound ∧
    ∀ s, s ∈ (events.foldl Event.apply empty).entries ↔ Current events s := by
  induction events using List.reverseRec with
  | nil => exact ⟨.empty, fun s => iff_of_false (Rows.not_mem_empty s) not_current_nil⟩
  | append_singleton events e ih =>
      obtain ⟨hsound, hentries⟩ := ih fun m n hm hn =>
        h m n (List.mem_append_left _ hm) (List.mem_append_left _ hn)
      rw [List.foldl_concat]
      cases e with
      | added n =>
          have hn : .added n ∈ events ++ [.added n] := List.mem_append_right _ List.mem_cons_self
          have hsame : ∀ s ∈ (events.foldl Event.apply empty).entries, s.id = n.id →
              s.name = n.name ∧ s.qualifiedName = n.qualifiedName := by
            intro s hs hid
            obtain ⟨m, hm, rfl⟩ := ((hentries s).1 hs).added
            exact h m n (List.mem_append_left _ hm) hn hid
          refine ⟨hsound.add hsame, fun s => ?_⟩
          rw [Event.apply, SymbolTable.add, Rows.mem_put, hentries, current_concat]
          refine or_congr ?_ (and_congr_right fun _ => ?_)
          · simp
          · simp [Node.symbol, eq_comm]
      | removed file =>
          obtain ⟨hremoved, hmem⟩ := hsound.removeFile file
          refine ⟨hremoved, fun s => ?_⟩
          rw [Event.apply, hmem, hentries, current_concat]
          simp [eq_comm]

/-- **The indexes of a table never drift.**  After any calls in which nodes of one id have one
name and one qualified name, a table has one entry for each current symbol, and no others, and a
look-up by name or by qualified name lists those that have it, each once, in the order of ids. -/
theorem looks_up_current (calls : List Call) (h : SameNames (history calls)) :
    let t := calls.foldl Call.run empty
    (∀ id s, t.entries.get? id = some s ↔ Current (history calls) s ∧ s.id = id) ∧
    (∀ name, (t.byName name).Pairwise (·.id < ·.id) ∧
      ∀ s, s ∈ t.byName name ↔ Current (history calls) s ∧ s.name = name) ∧
    (∀ name, (t.byQualifiedName name).Pairwise (·.id < ·.id) ∧
      ∀ s, s ∈ t.byQualifiedName name ↔ Current (history calls) s ∧ s.qualifiedName = name) ∧
    ∃ current : List Symbol, (current.map Symbol.id).Nodup ∧
      (∀ s, s ∈ current ↔ Current (history calls) s) ∧ t.size = current.length := by
  intro t
  have ht : t = (history calls).foldl Event.apply empty := run_eq_apply calls empty
  obtain ⟨hsound, hentries⟩ := applied h
  rw [← ht] at hsound hentries
  refine ⟨fun id s => ?_, fun name => ?_, fun name => ?_, t.entries.toList, t.entries.nodup,
    hentries, rfl⟩
  · rw [Rows.get?_eq_some_iff, hentries]
  · obtain ⟨hsorted, hmem⟩ := lookUp_spec hsound.names name
    exact ⟨hsorted, fun s => (hmem s).trans (and_congr_left' (hentries s))⟩
  · obtain ⟨hsorted, hmem⟩ := lookUp_spec hsound.qualifiedNames name
    exact ⟨hsorted, fun s => (hmem s).trans (and_congr_left' (hentries s))⟩

/-- A function of two files, the first of which is removed with all that it declares. -/
def movedFunction : List Call :=
  [.addNodes [⟨"function:m.f", .function, "f", "m.f", "m.pyi", "python", default, none⟩,
      ⟨"function:m.g", .function, "g", "m.g", "m.pyi", "python", default, none⟩],
    .addNodes [⟨"function:m.f", .function, "f", "m.f", "m.py", "python", default, none⟩],
    .removeFile "m.pyi"]

theorem looks_up_current_movedFunction :
    let t := movedFunction.foldl Call.run empty
    let s : Symbol := ⟨"function:m.f", .function, "f", "m.f", "m.py"⟩
    SameNames (history movedFunction) ∧ t.entries.toList = [s] ∧
      Current (history movedFunction) s ∧ s ∈ t.byName "f" ∧ s ∈ t.byQualifiedName "m.f" ∧
      ∀ s, s ∉ t.byName "g" := by
  intro t s
  have hnames : SameNames (history movedFunction) := by
    intro m n hm hn hid
    simp only [history, movedFunction, List.flatMap_cons, List.flatMap_nil, Call.events,
      List.map_cons, List.map_nil, List.append_nil, List.cons_append, List.nil_append,
      List.mem_cons, List.not_mem_nil, Event.added.injEq, reduceCtorEq, or_false] at hm hn
    rcases hm with rfl | rfl | rfl <;> rcases hn with rfl | rfl | rfl <;> simp_all
  have hall : t.entries.toList = [s] := by decide +kernel
  obtain ⟨hentries, hname, hqualified, -⟩ := looks_up_current movedFunction hnames
  have hs : s ∈ t.entries := by
    rw [← Rows.mem_toList, hall]
    exact List.mem_singleton_self s
  have hcurrent := ((hentries s.id s).1 (Rows.mem_iff_get?.1 hs)).1
  refine ⟨hnames, hall, hcurrent, ((hname "f").2 s).2 ⟨hcurrent, rfl⟩,
    ((hqualified "m.f").2 s).2 ⟨hcurrent, rfl⟩, fun s' hs' => ?_⟩
  obtain ⟨hcurrent', hg⟩ := ((hname "g").2 s').1 hs'
  have hs' : s' ∈ t.entries := Rows.mem_of_get? ((hentries s'.id s').2 ⟨hcurrent', rfl⟩)
  rw [← Rows.mem_toList, hall, List.mem_singleton] at hs'
  rw [hs'] at hg
  exact absurd hg (by decide)

end SymbolTable

end CodeAtlas
