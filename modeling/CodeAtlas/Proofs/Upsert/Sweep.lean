import CodeAtlas.Proofs.Upsert.Idle

/-!
# CodeAtlas.Proofs.Upsert.Sweep

One sweep over the edges that wait is enough.

What an edge is given depends on the nodes alone, and the sweep changes none.  So it does not
matter that the edges are changed while the list of them is gone through: each is given what
the store had for it to begin with, and what waits afterwards has no target in the store
(`Store.Swept`).
-/

namespace CodeAtlas

open Work Upsert

/-- A sweep has led from one store to another and linked a number of edges: those that waited
and for which the store had a target (`targetIn`), and no others.  Nothing else has changed. -/
structure Store.Swept (s : Store) (n : Nat) (t : Store) : Prop where
  nodes : t.nodes = s.nodes
  records : t.records = s.records
  ids : ∀ k, t.edges.contains k = s.edges.contains k
  kept : ∀ e ∈ s.edges, e.target ≠ none → e ∈ t.edges
  linked : ∀ e ∈ s.edges, e.target = none → ∀ d c, targetIn s e = some (d, c) → e.link d c ∈ t.edges
  left : ∀ e ∈ s.edges, e.target = none → targetIn s e = none → e ∈ t.edges
  number : n = s.edges.toList.countP fun e => e.target.isNone && (targetIn s e).isSome
  settled : ∀ e ∈ t.edges, e.target = none → targetIn t e = none

namespace Upsert

variable {s t : Store}

/-! ## What is linked -/

theorem withTarget_of_resolved {e : Edge} (h : e.target ≠ none) : withTarget s e = e :=
  if_pos (Option.isSome_iff_ne_none.2 h)

theorem withTarget_of_waiting {e : Edge} (h : e.target = none) :
    withTarget s e = match targetIn s e with
      | some (id, confidence) => e.link id confidence
      | none => e :=
  if_neg (by rw [Edge.isResolved, h]; exact Bool.false_ne_true)

/-- An edge is found as the sweep left it. -/
theorem mem_of_mapped {g : Edge → Edge} (h : EdgesMapped g s t) (hid : ∀ e, (g e).id = e.id)
    {e : Edge} (he : e ∈ s.edges) : g e ∈ t.edges := by
  rw [Rows.mem_iff_get?, hid, h.edges, Rows.mem_iff_get?.1 he, Option.map_some]

/-- A link counts as one, and is made exactly if there is a target. -/
theorem relinkAll_number {es : List Edge} {u : Store} {c : Commit} (hu : u.nodes = s.nodes)
    (h : (forAll es fun e => do
      match ← findTarget e with
      | some (id, confidence) => link e id confidence
      | none => return 0).Gives u c t) :
    c.edgesLinked = es.countP fun e => (targetIn s e).isSome := by
  induction es generalizing u c with
  | nil =>
      obtain ⟨rfl, -⟩ := Gives.of_pure h
      rfl
  | cons e es ih =>
      obtain ⟨a, v, hfirst, h⟩ := Gives.of_bind h
      obtain ⟨b, w, hrest, h⟩ := Gives.of_bind h
      obtain ⟨rfl, rfl⟩ := Gives.of_pure h
      obtain ⟨found, x, hf, hfirst⟩ := Gives.of_bind hfirst
      obtain ⟨rfl, rfl⟩ := Gives.findTarget hf
      rw [targetIn_congr hu] at hfirst
      have hadd : (a + b).edgesLinked = a.edgesLinked + b.edgesLinked := rfl
      rw [hadd, List.countP_cons, Nat.add_comm]
      cases htarget : targetIn s e with
      | none =>
          rw [htarget] at hfirst
          obtain ⟨rfl, rfl⟩ := Gives.of_pure hfirst
          rw [ih hu hrest]
          rfl
      | some target =>
          rw [htarget] at hfirst
          have hv : v.nodes = s.nodes := by
            rw [Gives.link hfirst, Store.mergeEdge_nodes, hu]
          obtain ⟨m, y, -, hdone⟩ := Gives.of_bind hfirst
          obtain ⟨rfl, -⟩ := Gives.of_pure hdone
          rw [ih hv hrest]
          rfl

/-- The sweep returns the number of edges that wait and have a target. -/
theorem relinkWork_number {n : Nat} (h : relinkWork.Gives s n t) :
    n = s.edges.toList.countP fun e => e.target.isNone && (targetIn s e).isSome := by
  obtain ⟨es, u, ha, h⟩ := Gives.of_bind h
  obtain ⟨rfl, rfl⟩ := Gives.of_ask ha
  obtain ⟨c, v, hl, h⟩ := Gives.of_bind h
  obtain ⟨rfl, -⟩ := Gives.of_pure h
  rw [relinkAll_number rfl hl, Store.unresolved, Store.edgesWhere,
    (List.mergeSort_perm _ _).countP_eq, List.countP_filter]
  exact List.countP_congr fun e _ => by rw [Bool.and_comm]

theorem relinkWork_swept {n : Nat} (h : relinkWork.Gives s n t) : s.Swept n t := by
  have hid : ∀ e, (withTarget s e).id = e.id := fun e =>
    (Edge.eq_of_unlink_eq (withTarget_unlink s e)).1
  cases relinkWork_effect h with
  | relink hm =>
      constructor
      case nodes => exact hm.nodes
      case records => exact hm.records
      case ids =>
        intro k
        rw [Rows.contains_eq_isSome, Rows.contains_eq_isSome, hm.edges, Option.isSome_map]
      case kept =>
        intro e he htarget
        have hmem := mem_of_mapped hm hid he
        rwa [withTarget_of_resolved htarget] at hmem
      case linked =>
        intro e he hwaits d c htarget
        have hmem := mem_of_mapped hm hid he
        rwa [withTarget_of_waiting hwaits, htarget] at hmem
      case left =>
        intro e he hwaits htarget
        have hmem := mem_of_mapped hm hid he
        rwa [withTarget_of_waiting hwaits, htarget] at hmem
      case number => exact relinkWork_number h
      case settled =>
        intro e he hwaits
        obtain ⟨old, -, rfl⟩ := hm.exists_of_mem he
        obtain ⟨hsame, hnone⟩ := withTarget_waiting hwaits
        rw [targetIn_congr hm.nodes, hsame, hnone]

/-- Where nothing that waits has a target, the sweep does nothing. -/
theorem relinkWork_yields (h : ∀ e ∈ s.edges, e.target = none → targetIn s e = none) :
    relinkWork.Yields s 0 s := by
  refine .bind .ask (.bind (a := 0) (u := s) (forAll_yields fun e he => ?_) .pure)
  obtain ⟨hmem, hwaits⟩ := Store.mem_unresolved.1 he
  refine .bind (findTarget_yields s e) ?_
  rw [h e hmem hwaits]
  exact .pure

end Upsert

/-- **One sweep is enough.**  A sweep that succeeds links what has a target and nothing else;
what waits afterwards has none, so that another sweep finds nothing to do, whatever meets it.
A sweep fails only if something happens to the store, and then changes nothing. -/
theorem sweep_settles (b : Backend) :
    (b.isOpen = true → b.outages = [] → ∃ n, b.relink.1 = .ok n) ∧
      (∀ e, b.relink.1 = .error e → b.relink.2.store = b.store) ∧
      ∀ n, b.relink.1 = .ok n → b.store.Swept n b.relink.2.store ∧
        b.relink.2.relink.2.store = b.relink.2.store ∧
        (∀ m, b.relink.2.relink.1 = .ok m → m = 0) ∧
        (b.relink.2.outages = [] → b.relink.2.relink = (.ok 0, b.relink.2)) := by
  refine ⟨fun hopen hout => ?_, fun e h => Backend.transact_error h, fun n h => ?_⟩
  · obtain ⟨n, b', h⟩ := Backend.relink_total hopen hout
    exact ⟨n, congrArg Prod.fst h⟩
  · have hfirst : b.relink = (.ok n, b.relink.2) := Prod.ext h rfl
    have hswept : b.store.Swept n b.relink.2.store :=
      relinkWork_swept (Backend.transact_gives hfirst)
    have hopen : b.relink.2.isOpen = true := by
      rw [(Backend.transact_ok hfirst).2]
      exact (Backend.transact_ok hfirst).1
    have hidle := relinkWork_yields hswept.settled
    have hagain : ∀ m, b.relink.2.relink.1 = .ok m →
        m = 0 ∧ b.relink.2.relink.2.store = b.relink.2.store := fun m hok =>
      hidle.unique relinkWork_built (Backend.transact_gives (Prod.ext hok rfl))
    refine ⟨hswept, ?_, fun m hok => (hagain m hok).1, fun hout =>
      Backend.transact_yields hopen hout (.bind hidle .pure)⟩
    cases hr : b.relink.2.relink.1 with
    | ok m => exact (hagain m hr).2
    | error e => exact Backend.transact_error hr

/-- A function that is referred to, a class of the same name in another file, and then the file
of the function is deleted. -/
def classLeft : Backend :=
  Backend.new.performAll
    [.apply (.plain "a.py") [.plain .function "f" "m.f" "a.py"] [],
      .apply (.plain "c.py") [] [.plain .calls "module:c" "m.f" "c.py"],
      .apply (.plain "b.py") [.plain .classLike "f" "m.f" "b.py"] [], .delete "a.py"]

/-- The sweep links the reference to the class. -/
theorem sweep_settles_classLeft :
    classLeft.relink.1 = .ok 1 ∧ classLeft.store.Swept 1 classLeft.relink.2.store ∧
      classLeft.relink.2.relink = (.ok 0, classLeft.relink.2) ∧
      classLeft.relink.2.store.edges.toList.map (fun e => (e.target, e.confidence)) =
        [(some "class:m.f", .resolved)] := by
  have hok : classLeft.relink.1 = .ok 1 := by decide +kernel
  obtain ⟨hswept, -, -, hagain⟩ := (sweep_settles classLeft).2.2 1 hok
  exact ⟨hok, hswept, hagain (by decide +kernel), by decide +kernel⟩

end CodeAtlas
