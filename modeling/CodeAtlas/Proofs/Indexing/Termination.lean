import CodeAtlas.Proofs.Indexing.Course

/-!
# CodeAtlas.Proofs.Indexing.Termination

Indexing a file and its heirs comes to an end.

Which nodes a file yields depends on its path and its content alone (`Indexer.Yields`).  A
record is stale while it claims a node that its file does not yield.  Only a file with a stale
record hands nodes on when it is indexed, and then its record is stale no more; nothing on the
way makes a record stale.  So the number of stale records falls from one heir to the next, and
it was not greater than the number of records to begin with: the depth at which indexing would
stop is never reached (`Indexer.indexTo_course`).
-/

namespace CodeAtlas

open Indexing Upsert

/-! ## Yielded nodes -/

/-- Which nodes a file is resolved to does not depend on what is known of other files. -/
theorem Resolve.nodes_eq {f : SourceFile} {index index' : SymbolIndex} {r r' : Resolution}
    (h : resolve index f = .ok r) (h' : resolve index' f = .ok r') : r.nodes = r'.nodes :=
  (addReferences_nodes h).trans (addReferences_nodes h').symm

namespace Indexer

variable {i : Indexer} {files : FileTree} {relative : String}

/-- A file that can be read yields the node with an id. -/
def Yields (i : Indexer) (files : FileTree) (relative id : String) : Prop :=
  ∃ language content file index r, i.Reads relative files language content file ∧
    Resolve.resolve index (i.stored relative file) = .ok r ∧ ∃ n ∈ r.nodes, n.id = id

theorem Reads.finds {language : Lang} {content : ByteArray} {file : SourceFile}
    (h : i.Reads relative files language content file) : i.Finds relative files language content :=
  ⟨h.supported, h.found, h.small⟩

theorem Reads.file_eq {language language' : Lang} {content content' : ByteArray}
    {file file' : SourceFile} (h : i.Reads relative files language content file)
    (h' : i.Reads relative files language' content' file') : file = file' := by
  obtain rfl := Except.ok.inj (h.found.symm.trans h'.found)
  exact SourceFile.Outcome.parsed.inj (h.parsed.symm.trans h'.parsed)

theorem Reads.yields_iff {language : Lang} {content : ByteArray} {file : SourceFile}
    {index : SymbolIndex} {r : Resolution} (h : i.Reads relative files language content file)
    (hr : Resolve.resolve index (i.stored relative file) = .ok r) {id : String} :
    i.Yields files relative id ↔ ∃ n ∈ r.nodes, n.id = id := by
  constructor
  · rintro ⟨language', content', file', index', r', h', hr', hn⟩
    obtain rfl := h.file_eq h'
    rwa [Resolve.nodes_eq hr hr']
  · exact fun hn => ⟨language, content, file, index, r, h, hr, hn⟩

/-- A change that gives a file no node that it does not yield. -/
def Faithful (i : Indexer) (files : FileTree) (c : FileChange) : Prop :=
  ∀ id ∈ contributionOf c.nodes c.edges, Edge.isId id = false → i.Yields files c.relative id

/-- The record of a file claims a node that the file does not yield. -/
def Stale (i : Indexer) (files : FileTree) (s : Store) (relative : String) : Prop :=
  ∃ id, s.Claims (i.storePath relative) id ∧ Edge.isId id = false ∧ ¬ i.Yields files relative id

/-- What is decided for a file gives it exactly the nodes that it yields. -/
theorem Ruled.faithful {s : IndexState} {c : FileChange} {tracker : Tracker}
    (h : i.Ruled relative s (.ok (.change c)) tracker) :
    i.Faithful s.site.files c ∧
      ∀ id, i.Yields s.site.files c.relative id → id ∈ contributionOf c.nodes c.edges := by
  have hempty : ∀ id, id ∉ contributionOf [] [] := fun id => by simp [mem_contributionOf]
  have hgone : ¬ c.Replaces → ∀ id, ¬ i.Yields s.site.files relative id := by
    rintro hc id ⟨_, _, _, _, _, hreads, -⟩
    exact h.gone hc hreads.finds
  cases h with
  | unsupported =>
      exact ⟨fun id hid => absurd hid (hempty id), fun id hy => absurd hy (hgone nofun id)⟩
  | missing =>
      exact ⟨fun id hid => absurd hid (hempty id), fun id hy => absurd hy (hgone nofun id)⟩
  | tooLarge =>
      exact ⟨fun id hid => absurd hid (hempty id), fun id hy => absurd hy (hgone nofun id)⟩
  | replace hreads _ hr =>
      have hapart := (Resolve.resolve_madeFrom hr).apart (Resolve.nodes_formed hr)
      refine ⟨fun id hid hnode => ?_, fun id hy => ?_⟩
      · rcases mem_contributionOf.1 hid with hn | ⟨e, he, rfl⟩
        · exact (hreads.yields_iff hr).2 hn
        · exact absurd (hapart.edge e he) (by rw [hnode]; exact Bool.false_ne_true)
      · exact mem_contributionOf.2 (.inl ((hreads.yields_iff hr).1 hy))

/-- Whether a change gives a file exactly the nodes that it yields, under its own path. -/
structure Suits (i : Indexer) (files : FileTree) (c : FileChange) : Prop where
  fits : c.Fits i
  faithful : i.Faithful files c
  complete : ∀ id, i.Yields files c.relative id → id ∈ contributionOf c.nodes c.edges

theorem Ruled.suits {s : IndexState} {c : FileChange} {tracker : Tracker}
    (h : i.Ruled relative s (.ok (.change c)) tracker) : i.Suits s.site.files c :=
  ⟨h.fits.1, h.faithful.1, h.faithful.2⟩

/-! ## Stale records -/

namespace CarriedOut

variable {c : FileChange} {done : Commit} {b b' : Backend}

/-- A change makes no record stale, and leaves that of its file in order. -/
theorem stale (h : i.CarriedOut c done b b') (hc : i.Faithful files c)
    (hstale : i.Stale files b'.store relative) :
    i.Stale files b.store relative ∧ relative ≠ c.relative := by
  obtain ⟨id, hclaims, hnode, hyields⟩ := hstale
  have hne : relative ≠ c.relative := by
    rintro rfl
    exact hyields (hc id ((h.changed.own id).1 hclaims) hnode)
  have hother : i.storePath relative ≠ i.storePath c.relative := mt storePath_inj.1 hne
  exact ⟨⟨id, (h.changed.claims_other hother).1 hclaims, hnode, hyields⟩, hne⟩

/-- A file gives up nodes that its record claimed and that it does not yield. -/
theorem stale_of_givenUp (hexact : ∀ id, i.Yields files c.relative id →
      id ∈ contributionOf c.nodes c.edges) {s : Store} {id : String}
    (hid : id ∈ givenUp s (i.storePath c.relative) c.nodes c.edges) :
    i.Stale files s c.relative := by
  obtain ⟨hclaims, hfresh, hnode⟩ := mem_givenUp.1 hid
  exact ⟨id, hclaims, hnode, fun hy => hfresh (hexact id hy)⟩

/-- A change that has an heir makes its file give up a node. -/
theorem givenUp_of_heirs (h : i.CarriedOut c done b b') (hheirs : c.heirs done ≠ []) :
    ∃ id, id ∈ givenUp b.store (i.storePath c.relative) c.nodes c.edges := by
  obtain ⟨heir, hheir⟩ := List.exists_mem_of_ne_nil _ hheirs
  obtain ⟨-, id, hid, -⟩ := h.heir_claims hheir
  exact ⟨id, hid⟩

/-- A stale record is that of the changed file or was there before. -/
theorem recorded (h : i.CarriedOut c done b b') (hstale : i.Stale files b'.store relative) :
    relative = c.relative ∨ ∃ r ∈ b.store.records, r.path = i.storePath relative := by
  obtain ⟨id, ⟨r, hr, -⟩, -⟩ := hstale
  by_cases hne : relative = c.relative
  · exact .inl hne
  · rw [h.changed.other _ (mt storePath_inj.1 hne)] at hr
    exact .inr ⟨r, Rows.mem_of_get? hr, Rows.key_of_get? hr⟩

end CarriedOut

end Indexer

/-! ## Handing on -/

/-- The file that hands nodes on when something happens, if one does. -/
def Event.handedOn? : Event → Option String
  | looked _ => none
  | stored c done => if c.heirs done = [] then none else some c.relative

/-- The files that handed nodes on, in order. -/
def handedOn (events : List Event) : List String := events.filterMap Event.handedOn?

theorem handedOn_append (first rest : List Event) :
    handedOn (first ++ rest) = handedOn first ++ handedOn rest := List.filterMap_append

theorem handedOn_stored (c : FileChange) (done : Commit) (events : List Event) :
    handedOn (.stored c done :: events) =
      if c.heirs done = [] then handedOn events else c.relative :: handedOn events := by
  by_cases h : c.heirs done = [] <;> simp [handedOn, Event.handedOn?, h]

/-- Whether what is to be done gives a file no node that it does not yield. -/
def IndexTask.Faithful (i : Indexer) (files : FileTree) : IndexTask → Prop
  | index _ => True
  | complete c => i.Faithful files c
  | refresh _ _ => True

namespace Indexer

variable {i : Indexer} {files : FileTree}

/-- The files that may hand nodes on while something is done: those with stale records, and
one that gives up a node to begin with. -/
def MayHandOn (i : Indexer) (files : FileTree) (s : Store) (relative : String) : IndexTask → Prop
  | .index _ => i.Stale files s relative
  | .complete c => i.Stale files s relative ∨ (relative = c.relative ∧
      ∃ id, id ∈ givenUp s (i.storePath c.relative) c.nodes c.edges)
  | .refresh _ _ => i.Stale files s relative

/-- What a course does to stale records: none is made stale, each file hands nodes on only
once, and its record is not stale then. -/
structure Settling (i : Indexer) (files : FileTree) (task : IndexTask) (s t : Store)
    (events : List Event) : Prop where
  stale : ∀ relative, i.Stale files t relative → i.Stale files s relative
  handed : ∀ relative ∈ handedOn events,
    ¬ i.Stale files t relative ∧ i.MayHandOn files s relative task
  once : (handedOn events).Nodup

namespace Settling

variable {s t u : Store} {task : IndexTask} {outcome : FileOutcome} {heirs : List String}

theorem nothing (s : Store) (task : IndexTask) (events : List Event) (h : handedOn events = []) :
    i.Settling files task s s events := by
  refine ⟨fun _ h => h, ?_, ?_⟩
  · rw [h]
    exact nofun
  · rw [h]
    exact List.nodup_nil

/-- A change, and then its heirs. -/
theorem stored {c : FileChange} {done : Commit} {b b' : Backend} {events : List Event}
    (hc : i.CarriedOut c done b b') (hfaithful : i.Faithful files c)
    (h : i.Settling files (.refresh heirs outcome) b'.store t events) :
    i.Settling files (.complete c) b.store t (.stored c done :: events) := by
  have hown : ¬ i.Stale files b'.store c.relative :=
    fun hstale => (hc.stale hfaithful hstale).2 rfl
  have hrest : ∀ relative ∈ handedOn events,
      ¬ i.Stale files t relative ∧ i.MayHandOn files b.store relative (.complete c) := by
    intro relative hmem
    obtain ⟨hstale, hbefore⟩ := h.handed relative hmem
    exact ⟨hstale, .inl (hc.stale hfaithful hbefore).1⟩
  refine ⟨fun r hr => (hc.stale hfaithful (h.stale r hr)).1, ?_, ?_⟩
  · rw [handedOn_stored]
    split
    · exact hrest
    · next hheirs =>
      intro relative hmem
      rcases List.mem_cons.1 hmem with rfl | hmem
      · exact ⟨fun hstale => hown (h.stale _ hstale), .inr ⟨rfl, hc.givenUp_of_heirs hheirs⟩⟩
      · exact hrest relative hmem
  · rw [handedOn_stored]
    split
    · exact h.once
    · exact List.nodup_cons.2 ⟨fun hmem => hown (h.handed _ hmem).2, h.once⟩

/-- An heir, and then the others. -/
theorem heir {heir relative : String} {first rest : List Event}
    (h : i.Settling files (.index relative) s u first)
    (hrest : i.Settling files (.refresh heirs outcome) u t rest) :
    i.Settling files (.refresh (heir :: heirs) outcome) s t (first ++ rest) := by
  refine ⟨fun r hr => h.stale r (hrest.stale r hr), fun r hr => ?_, ?_⟩
  · rw [handedOn_append, List.mem_append] at hr
    rcases hr with hr | hr
    · obtain ⟨hstale, hbefore⟩ := h.handed r hr
      exact ⟨fun ht => hstale (hrest.stale r ht), hbefore⟩
    · obtain ⟨hstale, hbefore⟩ := hrest.handed r hr
      exact ⟨hstale, h.stale r hbefore⟩
  · rw [handedOn_append]
    refine List.nodup_append'.2 ⟨h.once, hrest.once, fun r hr hr' => ?_⟩
    exact (h.handed r hr).1 (hrest.handed r hr').2

end Settling

/-- Whatever happens, records settle. -/
theorem Course.settling {task : IndexTask} {s : IndexState}
    {ending : Except Error FileOutcome × IndexState} {events : List Event}
    (h : i.Course task s ending events) (hfits : task.Fits i)
    (hfaithful : task.Faithful i s.site.files) :
    i.Settling s.site.files task s.site.backend.store ending.2.site.backend.store events := by
  induction h with
  | settled hd =>
      obtain ⟨tracker, rfl, -⟩ := ruled_of_decide hd
      exact .nothing _ _ _ rfl
  | undecided hd =>
      obtain ⟨tracker, rfl, -⟩ := ruled_of_decide hd
      exact .nothing _ _ _ rfl
  | decided hd _ ih =>
      obtain ⟨tracker, rfl, hruled⟩ := ruled_of_decide hd
      obtain ⟨hc, hexact⟩ := hruled.faithful
      obtain ⟨hstale, hhanded, honce⟩ := ih hruled.fits.1 hc
      refine ⟨hstale, fun r hr => ?_, honce⟩
      obtain ⟨hafter, hbefore | ⟨rfl, id, hid⟩⟩ := hhanded r hr
      · exact ⟨hafter, hbefore⟩
      · exact ⟨hafter, CarriedOut.stale_of_givenUp hexact hid⟩
  | refused hc =>
      rw [carryOut_error hc]
      exact .nothing _ _ _ rfl
  | stored hc _ ih => exact .stored (carryOut_ok hfits hc) hfaithful (ih trivial trivial)
  | refreshed => exact .nothing _ _ _ rfl
  | elsewhere _ _ ih =>
      obtain ⟨hstale, hhanded, honce⟩ := ih trivial trivial
      exact ⟨hstale, hhanded, honce⟩
  | @heir _ _ _ _ _ t result _ _ _ _ hfirst _ ih ihrest =>
      have hfiles : t.site.files = _ := hfirst.files trivial
      have hrest := ihrest trivial trivial
      rw [IndexState.afterHeir_site, hfiles] at hrest
      exact .heir (ih trivial trivial) hrest

/-! ## Runs -/

/-- How the heirs of a file are indexed when files are indexed up to some depth. -/
def refreshTo (i : Indexer) : (depth : Nat) → List String → Indexing Unit
  | 0 => fun _ => pure ()
  | depth + 1 => i.refreshEach (i.indexTo depth)

theorem refreshTo_nil (depth : Nat) : i.refreshTo depth [] = pure () := by
  cases depth <;> rfl

/-- To index a file is to decide, and to do that, at any depth. -/
theorem run_indexTo (depth : Nat) (relative : String) (s : IndexState) :
    (i.indexTo depth relative).run s = match (i.decide relative).run s with
      | (.ok (.done outcome), t) => (.ok outcome, t)
      | (.ok (.change c), t) => (i.settle (i.refreshTo depth) c).run t
      | (.error e, t) => (.error e, t) := by
  cases depth <;>
  · rw [indexTo, run_bind]
    split
    · next d t hd =>
      rw [hd]
      cases d <;> rfl
    · next hd => rw [hd]

/-- To do what was decided for a file is to carry it out, and then to index the heirs. -/
theorem run_settle {refresh : List String → Indexing Unit} (hnil : refresh [] = pure ())
    (c : FileChange) (s : IndexState) :
    (i.settle refresh c).run s = match i.carryOut c s.site.backend with
      | (.error e, b) => (.error e, { s with site := { s.site with backend := b } })
      | (.ok done, b) => (refresh (c.heirs done) >>= fun _ => pure (c.outcome done)).run
          { site := { s.site with backend := b }, tracker := c.noted done s.tracker } := by
  cases c with
  | replace relative record nodes edges =>
      simp only [settle, carryOut]
      rw [run_bind, run_onStore]
      rcases s.site.backend.apply record nodes edges with ⟨e | done, b⟩ <;> rfl
  | retract relative =>
      simp only [settle, carryOut]
      rw [run_bind, run_onStore]
      rcases s.site.backend.deleteFile (i.storePath relative) with ⟨e | done, b⟩ <;> rfl
  | skip relative reason =>
      simp only [settle, carryOut]
      rw [run_bind, run_onStore]
      rcases s.site.backend.deleteFile (i.storePath relative) with ⟨e | done, b⟩
      · rfl
      · simp only [FileChange.heirs, FileChange.noted]
        split
        · rfl
        · rw [hnil]
          rfl

theorem run_refreshEach_cons {index : String → Indexing FileOutcome} {heir relative : String}
    (hheir : i.relativeStorePath? heir = some relative) (heirs : List String) {s t : IndexState}
    {result : Except Error FileOutcome}
    (hrun : (index relative).run { s with tracker := s.tracker.invalidate relative } =
      (result, t)) :
    (i.refreshEach index (heir :: heirs)).run s =
      (i.refreshEach index heirs).run (t.afterHeir relative result) := by
  rw [refreshEach, hheir]
  simp only [run_bind, run_onTracker, run_attempt, hrun]
  cases result <;> rfl

/-- The records that may be stale are those of some files. -/
def StaleWithin (i : Indexer) (s : IndexState) (names : List String) : Prop :=
  ∀ relative, i.Stale s.site.files s.site.backend.store relative → relative ∈ names

/-- The course of indexing heirs, where it is known of indexing one of them. -/
theorem refreshEach_course {index : String → Indexing FileOutcome} {names : List String}
    (hindex : ∀ relative s, i.StaleWithin s names →
      ∃ events, i.Course (.index relative) s ((index relative).run s) events)
    (outcome : FileOutcome) (heirs : List String) {s : IndexState} (hs : i.StaleWithin s names) :
    ∃ events, i.Course (.refresh heirs outcome) s
      ((i.refreshEach index heirs >>= fun _ => pure outcome).run s) events := by
  induction heirs generalizing s with
  | nil => exact ⟨_, .refreshed⟩
  | cons heir heirs ih =>
      cases hheir : i.relativeStorePath? heir with
      | none =>
          obtain ⟨events, h⟩ := ih hs
          refine ⟨events, ?_⟩
          have hskip : i.refreshEach index (heir :: heirs) = i.refreshEach index heirs := by
            rw [refreshEach, hheir]
          rw [hskip]
          exact .elsewhere hheir h
      | some relative =>
          obtain ⟨first, hfirst⟩ :=
            hindex relative { s with tracker := s.tracker.invalidate relative } hs
          cases hrun : (index relative).run { s with tracker := s.tracker.invalidate relative } with
          | mk result t =>
              rw [hrun] at hfirst
              have hfiles : t.site.files = s.site.files := hfirst.files trivial
              have ht : i.StaleWithin (t.afterHeir relative result) names := by
                intro r hr
                rw [IndexState.afterHeir_site, hfiles] at hr
                exact hs r ((hfirst.settling trivial trivial).stale r hr)
              obtain ⟨rest, hrest⟩ := ih ht
              rw [run_bind, run_refreshEach_cons hheir heirs hrun, ← run_bind]
              exact ⟨first ++ rest, .heir hheir hfirst hrest⟩

/-- The course of what was decided for a file, where it is known of indexing the heirs. -/
theorem settle_course {refresh : List String → Indexing Unit} (hnil : refresh [] = pure ())
    (c : FileChange) {s : IndexState}
    (hrefresh : ∀ done b, i.carryOut c s.site.backend = (.ok done, b) → c.heirs done ≠ [] →
      ∃ events, i.Course (.refresh (c.heirs done) (c.outcome done))
        { site := { s.site with backend := b }, tracker := c.noted done s.tracker }
        ((refresh (c.heirs done) >>= fun _ => pure (c.outcome done)).run
          { site := { s.site with backend := b }, tracker := c.noted done s.tracker }) events) :
    ∃ events, i.Course (.complete c) s ((i.settle refresh c).run s) events := by
  rw [run_settle hnil]
  rcases hc : i.carryOut c s.site.backend with ⟨e | done, b⟩
  · exact ⟨_, .refused hc⟩
  · by_cases hheirs : c.heirs done = []
    · have hdone : i.Course (.refresh (c.heirs done) (c.outcome done))
          { site := { s.site with backend := b }, tracker := c.noted done s.tracker }
          ((refresh (c.heirs done) >>= fun _ => pure (c.outcome done)).run
            { site := { s.site with backend := b }, tracker := c.noted done s.tracker }) [] := by
        rw [hheirs, hnil]
        exact .refreshed
      exact ⟨_, .stored hc hdone⟩
    · obtain ⟨events, h⟩ := hrefresh done b hc hheirs
      exact ⟨_, .stored hc h⟩

/-- A file that has heirs had a stale record, and the depth that is left is enough for the
other ones. -/
theorem indexTo_course_of_refresh {depth : Nat}
    (hrefresh : ∀ names : List String, names.length < depth → ∀ heirs outcome s,
      i.StaleWithin s names → ∃ events, i.Course (.refresh heirs outcome) s
        ((i.refreshTo depth heirs >>= fun _ => pure outcome).run s) events)
    {names : List String} (hdepth : names.length ≤ depth) (relative : String) {s : IndexState}
    (hs : i.StaleWithin s names) :
    ∃ events, i.Course (.index relative) s ((i.indexTo depth relative).run s) events := by
  obtain ⟨result, tracker, hd, hruled⟩ := i.decide_ruled relative s
  rw [run_indexTo, hd]
  rcases result with e | outcome | c
  · exact ⟨_, .undecided hd⟩
  · exact ⟨_, .settled hd⟩
  · obtain ⟨hfits, rfl⟩ := hruled.fits
    obtain ⟨hfaithful, hexact⟩ := hruled.faithful
    obtain ⟨events, h⟩ : ∃ events, i.Course (.complete c) { s with tracker }
        ((i.settle (i.refreshTo depth) c).run { s with tracker }) events := by
      refine settle_course (i.refreshTo_nil depth) c fun done b hc hheirs => ?_
      have hcarried := carryOut_ok hfits hc
      obtain ⟨id, hid⟩ := hcarried.givenUp_of_heirs hheirs
      have hmem : c.relative ∈ names := hs _ (CarriedOut.stale_of_givenUp hexact hid)
      refine hrefresh (names.erase c.relative) ?_ _ _ _ fun r hr => ?_
      · rw [List.length_erase_of_mem hmem]
        have hpos := List.length_pos_of_mem hmem
        omega
      · obtain ⟨hbefore, hne⟩ := hcarried.stale hfaithful hr
        exact (List.mem_erase_of_ne hne).2 (hs r hbefore)
    exact ⟨_, .decided hd h⟩

/-- **The depth is not reached.**  With a depth for each record that may be stale, a file is
indexed, with its heirs and theirs, as if there were no bound. -/
theorem indexTo_course (depth : Nat) {names : List String} (hdepth : names.length ≤ depth)
    (relative : String) {s : IndexState} (hs : i.StaleWithin s names) :
    ∃ events, i.Course (.index relative) s ((i.indexTo depth relative).run s) events := by
  induction depth generalizing names relative s with
  | zero =>
      exact indexTo_course_of_refresh (fun _ hlt => absurd hlt (Nat.not_lt_zero _)) hdepth relative
        hs
  | succ depth ih =>
      refine indexTo_course_of_refresh (fun names hlt heirs outcome s hs => ?_) hdepth relative hs
      exact refreshEach_course (fun r s hs => ih (Nat.le_of_lt_succ hlt) r hs) outcome heirs hs

/-- What was decided for a file, whenever that was, is done to an end. -/
theorem complete_course (c : FileChange) (hfits : c.Fits i) (s : IndexState) :
    ∃ events, i.Course (.complete c) s ((i.complete c).run s) events := by
  rw [complete, run_bind, run_enoughDepth]
  refine settle_course rfl c fun done b hc _ => ?_
  have hcarried := carryOut_ok hfits hc
  -- Only records that there are can be stale, and besides them that of the file itself.
  let names := c.relative ::
    s.site.backend.store.records.toList.filterMap fun r => i.relativeStorePath? r.path
  have hlength : names.length ≤ s.site.backend.store.records.size + 1 :=
    Nat.succ_le_succ (List.length_filterMap_le ..)
  have hnames : i.StaleWithin
      { site := { s.site with backend := b }, tracker := c.noted done s.tracker } names := by
    intro r hr
    rcases hcarried.recorded hr with rfl | ⟨record, hmem, hpath⟩
    · exact List.mem_cons_self
    · refine List.mem_cons_of_mem _ (List.mem_filterMap.2 ⟨record, hmem, ?_⟩)
      exact relativeStorePath?_eq_some_iff.2 hpath
  exact refreshEach_course (fun r t ht => indexTo_course _ hlength r ht) _ _ hnames

theorem indexFile_course (i : Indexer) (relative : String) (s : IndexState) :
    ∃ events, i.Course (.index relative) s ((i.indexFile relative).run s) events := by
  obtain ⟨result, tracker, hd, hruled⟩ := i.decide_ruled relative s
  rw [indexFile, run_bind, hd]
  rcases result with e | outcome | c
  · exact ⟨_, .undecided hd⟩
  · exact ⟨_, .settled hd⟩
  · obtain ⟨events, h⟩ := complete_course c hruled.fits.1 { s with tracker }
    exact ⟨_, .decided hd h⟩

/-- To index a file is to follow the course of it. -/
theorem Course.indexFile_eq {relative : String} {s : IndexState}
    {ending : Except Error FileOutcome × IndexState} {events : List Event}
    (h : i.Course (.index relative) s ending events) : (i.indexFile relative).run s = ending := by
  obtain ⟨events', hrun⟩ := i.indexFile_course relative s
  exact (hrun.unique h).1

end Indexer

/-- **Indexing comes to an end.**  From every state there is exactly one course of bringing a
file up to date, with its heirs and theirs at any depth, and of removing one; it ends where the
indexer ends.  On the way each file hands nodes on at most once, and when a file is brought up
to date, only files do that whose records claimed nodes that they do not yield. -/
theorem heir_refresh_terminates (i : Indexer) (relative : String) (s : IndexState) :
    (∃ events, (∀ ending events', i.Course (.index relative) s ending events' ↔
        ending = (i.indexFile relative).run s ∧ events' = events) ∧
      (handedOn events).Nodup ∧
      ∀ name ∈ handedOn events, i.Stale s.site.files s.site.backend.store name) ∧
    ∃ events, (∀ ending events', i.Course (.complete (.retract relative)) s ending events' ↔
        ending = (i.removeFile relative).run s ∧ events' = events) ∧
      (handedOn events).Nodup := by
  have honly : ∀ {task ending events}, i.Course task s ending events → ∀ ending' events',
      i.Course task s ending' events' ↔ ending' = ending ∧ events' = events := by
    intro task ending events h ending' events'
    refine ⟨fun h' => h'.unique h, ?_⟩
    rintro ⟨rfl, rfl⟩
    exact h
  constructor
  · obtain ⟨events, h⟩ := i.indexFile_course relative s
    have hsettling := h.settling trivial trivial
    exact ⟨events, honly h, hsettling.once, fun name hname => (hsettling.handed name hname).2⟩
  · obtain ⟨events, h⟩ := i.complete_course (.retract relative) trivial s
    have hfaithful : i.Faithful s.site.files (.retract relative) := by
      intro id hid
      simp [FileChange.nodes, FileChange.edges, mem_contributionOf] at hid
    exact ⟨events, honly h, (h.settling trivial hfaithful).once⟩

end CodeAtlas
