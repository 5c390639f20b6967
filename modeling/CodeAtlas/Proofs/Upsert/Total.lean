import CodeAtlas.Proofs.Store.Work
import CodeAtlas.Upsert

/-!
# CodeAtlas.Proofs.Upsert.Total

What all work on a graph has in common because of how it is put together.

Nothing that a transaction on nodes, edges and records does can fail by itself, nothing of
it depends on the circumstances but whether it comes to an end, and none of it touches the
registered source trees.  `Work.Built` says of work that it is put together from questions
and changes of that kind; all else follows by induction on it:

* begun where nothing fails, the work gives something (`Built.succeeds`), so that a call on
  an open store that no outage meets succeeds;
* what it can give, it does give where nothing fails (`Built.yields`), so that it can give
  one thing only (`Built.gives_unique`);
* the registered source trees stay (`Built.repositories`).
-/

namespace CodeAtlas

namespace Work

/-- Work that is put together from questions to a store and changes of its nodes, edges and
records. -/
inductive Built : {α : Type} → Work α → Prop
  | pure {α : Type} (a : α) : Built (pure a)
  | bind {α β : Type} {w : Work α} {f : α → Work β} :
      Built w → (∀ a, Built (f a)) → Built (w >>= f)
  | ask {α : Type} (f : Store → α) : Built (ask f)
  | change {α : Type} {f : Store → α × Store} :
      (∀ s, (f s).2.repositories = s.repositories) → Built (change f)

namespace Built

variable {α : Type}

/-! ## Single changes -/

theorem mergeNode (n : Node) : (mergeNode n).Built := by
  refine .change fun s => ?_
  rw [Store.mergeNode]
  split <;> rfl

theorem mergeEdge (e : Edge) : (mergeEdge e).Built := by
  refine .change fun s => ?_
  rw [Store.mergeEdge]
  split <;> rfl

theorem deleteNode (id : String) : (deleteNode id).Built := .change fun _ => rfl

theorem deleteEdge (id : String) : (deleteEdge id).Built := .change fun _ => rfl

theorem putRecord (r : FileRecord) : (putRecord r).Built := .change fun _ => rfl

theorem deleteRecord (path : String) : (deleteRecord path).Built := .change fun _ => rfl

/-! ## What follows -/

/-- Begun on any store, the work gives something if nothing fails. -/
theorem succeeds {w : Work α} (h : w.Built) (p : Progress) : ∃ a q, w .none p = .ok (a, q) := by
  induction h generalizing p with
  | pure a => exact ⟨a, p, rfl⟩
  | @bind α β w f _ _ ihw ihf =>
      obtain ⟨a, q, ha⟩ := ihw p
      obtain ⟨b, u, hb⟩ := ihf a q
      refine ⟨b, u, ?_⟩
      change (w .none p).bind (fun r => f r.1 .none r.2) = _
      rw [ha]
      exact hb
  | ask f => exact ⟨_, ⟨p.store, p.operations + 1⟩, rfl⟩
  | @change α f _ => exact ⟨_, ⟨(f p.store).2, p.operations + 1⟩, rfl⟩

/-- What the work can give under any circumstances, it gives where nothing fails. -/
theorem yields {w : Work α} (h : w.Built) {s t : Store} {a : α} (hw : w.Gives s a t) :
    w.Yields s a t := by
  induction h generalizing s t with
  | pure b =>
      obtain ⟨rfl, rfl⟩ := Gives.of_pure hw
      exact .pure
  | bind _ _ ihw ihf =>
      obtain ⟨b, u, hb, hw⟩ := Gives.of_bind hw
      exact .bind (ihw hb) (ihf b hw)
  | ask f =>
      obtain ⟨rfl, rfl⟩ := Gives.of_ask hw
      exact .ask
  | change _ =>
      obtain ⟨rfl, rfl⟩ := Gives.of_change hw
      exact .change rfl

/-- Work can give one thing only. -/
theorem gives_unique {w : Work α} (h : w.Built) {s t u : Store} {a b : α} (ha : w.Gives s a t)
    (hb : w.Gives s b u) : b = a ∧ u = t := by
  obtain ⟨m, hm⟩ := h.yields ha 0
  obtain ⟨k, hk⟩ := h.yields hb 0
  rw [hm] at hk
  cases hk
  exact ⟨rfl, rfl⟩

/-- The registered source trees stay as they are. -/
theorem repositories {w : Work α} (h : w.Built) {s t : Store} {a : α} (hw : w.Gives s a t) :
    t.repositories = s.repositories := by
  induction h generalizing s t with
  | pure b => rw [(Gives.of_pure hw).2]
  | bind _ _ ihw ihf =>
      obtain ⟨b, u, hb, hw⟩ := Gives.of_bind hw
      exact (ihf b hw).trans (ihw hb)
  | ask f => rw [(Gives.of_ask hw).2]
  | change hf =>
      rw [(Gives.of_change hw).2]
      exact hf s

end Built

/-- What work can give, where it yields something, is what it yields. -/
theorem Yields.unique {α : Type} {w : Work α} (h : w.Built) {s t u : Store} {a b : α}
    (hy : w.Yields s a t) (hg : w.Gives s b u) : b = a ∧ u = t := by
  obtain ⟨m, hm⟩ := hy 0
  exact h.gives_unique ⟨.none, 0, m, hm⟩ hg

end Work

namespace Upsert

open Work

theorem forAll_built {α : Type} {f : α → Work Commit} (xs : List α)
    (hf : ∀ x, (f x).Built) : (forAll xs f).Built := by
  induction xs with
  | nil => exact .pure _
  | cons x xs ih => exact .bind (hf x) fun _ => .bind ih fun _ => .pure _

/-! ## Retracting -/

theorem unlink_built (e : Edge) : (unlink e).Built := .bind (.mergeEdge _) fun _ => .pure _

theorem retractNode_built (path id : String) : (retractNode path id).Built := by
  refine .bind (.ask _) fun claimants => ?_
  split
  · refine .bind (.ask _) fun found => ?_
    split
    · split
      · exact .bind (.mergeNode _) fun _ => .pure _
      · exact .pure _
    · exact .pure _
  · exact .bind (.ask _) fun es => .bind (forAll_built es unlink_built) fun _ =>
      .bind (.deleteNode id) fun _ => .pure _

theorem retract_built (path : String) (stale : List String) : (retract path stale).Built := by
  refine .bind (forAll_built _ fun id => ?_) fun _ => ?_
  · exact .bind (.deleteEdge id) fun _ => .pure _
  · exact .bind (forAll_built _ fun id => retractNode_built path id) fun _ => .pure _

/-! ## Merging -/

theorem link_built (e : Edge) (target : String) (confidence : Confidence) :
    (link e target confidence).Built := .bind (.mergeEdge _) fun _ => .pure _

theorem uniqueByName_built (e : Edge) : (uniqueByName e).Built :=
  .bind (.ask _) fun _ => .pure _

theorem findTarget_built (e : Edge) : (findTarget e).Built := by
  rw [findTarget]
  split
  · exact .bind (.ask _) fun _ => .pure _
  · exact .bind (uniqueByName_built e) fun _ => .pure _

theorem linkWaiting_built (n : Node) : (linkWaiting n).Built := by
  refine .bind (.ask _) fun es => .bind (forAll_built es fun e => ?_) fun _ => ?_
  · split
    · exact link_built _ _ _
    · exact .pure _
  · split
    · exact .pure _
    · refine .bind (.ask _) fun es => .bind (forAll_built es fun e => ?_) fun _ => .pure _
      split
      · exact .pure _
      · refine .bind (uniqueByName_built e) fun found => ?_
        split
        · split
          · exact link_built _ _ _
          · exact .pure _
        · exact .pure _

theorem mergeNew_built (n : Node) : (mergeNew n).Built := by
  refine .bind (.mergeNode n) fun m => ?_
  cases m with
  | created => exact .bind (linkWaiting_built n) fun _ => .pure _
  | updated => exact .pure _
  | unchanged => exact .pure _

theorem validate_built (e : Edge) : (validate e).Built := by
  have hfound : ∀ {f : Edge → Option (String × Confidence) → Work Edge},
      (∀ e found, (f e found).Built) →
        ∀ e : Edge, (if e.isResolved then pure e else findTarget e >>= f e).Built := by
    intro f hf e
    split
    · exact .pure _
    · exact .bind (findTarget_built e) (hf e)
  simp only [validate]
  cases e.target with
  | none =>
      refine .bind (.pure e) (hfound ?_)
      rintro e (_ | _) <;> exact .pure _
  | some id =>
      refine .bind (.ask _) fun n => ?_
      cases n with
      | none =>
          refine .bind (.pure _) (hfound ?_)
          rintro e (_ | _) <;> exact .pure _
      | some n =>
          refine .bind (.pure _) (hfound ?_)
          rintro e (_ | _) <;> exact .pure _

theorem mergeValid_built (e : Edge) : (mergeValid e).Built := by
  refine .bind (validate_built e) fun e => .bind (.mergeEdge e) fun m => ?_
  cases m <;> exact .pure _

/-! ## Whole transactions -/

theorem replace_built (path : String) (previous : Option FileRecord) (nodes : List Node)
    (edges : List Edge) : (replace path previous nodes edges).Built :=
  .bind (retract_built path _) fun _ => .bind (forAll_built nodes mergeNew_built) fun _ =>
    .bind (forAll_built edges mergeValid_built) fun _ => .pure _

theorem applyWork_built (record : FileRecord) (nodes : List Node) (edges : List Edge) :
    (applyWork record nodes edges).Built := by
  refine .bind (.ask _) fun previous => .bind (replace_built _ _ _ _) fun _ => ?_
  simp only []
  split
  · exact .bind (.putRecord _) fun _ => .pure _
  · exact .pure _

theorem deleteWork_built (path : String) : (deleteWork path).Built := by
  refine .bind (.ask _) fun previous => ?_
  split
  · exact .pure _
  · exact .bind (replace_built _ _ _ _) fun _ => .bind (.deleteRecord path) fun _ => .pure _

theorem relinkWork_built : relinkWork.Built := by
  refine .bind (.ask _) fun es => .bind (forAll_built es fun e => ?_) fun _ => .pure _
  refine .bind (findTarget_built e) fun found => ?_
  split
  · exact link_built _ _ _
  · exact .pure _

end Upsert

namespace Backend

open Work Upsert

variable {b : Backend}

/-- Work that cannot fail by itself succeeds as a transaction, on an open store that no outage
meets. -/
theorem transact_total {α : Type} {w : Work (α × Bool)} (hopen : b.isOpen = true)
    (hout : b.outages = []) (hw : w.Built) : ∃ a b', b.transact w = (.ok a, b') := by
  obtain ⟨⟨a, published⟩, q, ha⟩ := hw.succeeds ⟨b.store, 0⟩
  have hrun : (w.run .none).run ⟨b.store, 0⟩ = .ok ((a, published), q) := ha
  have hbegin : Outage.none.begin = none := rfl
  have hcommit : Outage.none.commit = none := rfl
  cases published <;>
  · simp only [transact, hout, List.headD_nil, List.tail_nil, hbegin, hopen, hrun, hcommit]
    exact ⟨_, _, rfl⟩

theorem apply_total (hopen : b.isOpen = true) (hout : b.outages = []) (record : FileRecord)
    (nodes : List Node) (edges : List Edge) :
    ∃ c b', b.apply record nodes edges = (.ok c, b') :=
  transact_total hopen hout (.bind (applyWork_built _ _ _) fun _ => .pure _)

theorem deleteFile_total (hopen : b.isOpen = true) (hout : b.outages = []) (path : String) :
    ∃ c b', b.deleteFile path = (.ok c, b') :=
  transact_total hopen hout (deleteWork_built path)

theorem relink_total (hopen : b.isOpen = true) (hout : b.outages = []) :
    ∃ n b', b.relink = (.ok n, b') :=
  transact_total hopen hout (.bind relinkWork_built fun _ => .pure _)

end Backend

end CodeAtlas
