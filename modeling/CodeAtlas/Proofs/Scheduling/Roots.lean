import CodeAtlas.Proofs.Scheduling.Reconciliation
import CodeAtlas.Proofs.Scheduling.Status

/-!
# CodeAtlas.Proofs.Scheduling.Roots

Several trees that share one store.

A scheduler writes under the root of its tree only, and what it writes for a file are the nodes
that the file yields below that root (`Indexer.Writes`).  So a record under some root is named
below one of the roots that it lies under (`Rooted`), whatever the order in which the
trees are reconciled.  A tree that lies beside all others shares no stored path with them
(`Indexer.beside_iff`), and is left in the store as if it had it for itself.

A tree that lies in another one shares its files with it.  There is one record for both, which
keeps the names of the root that was there first, as the file is found unchanged below the other.
-/

namespace CodeAtlas

open Indexing Upsert

/-! ## What a tree writes -/

namespace Indexer

variable {i j : Indexer} {files : FileTree} {relative : String}

/-- Whether no stored path belongs to both of two trees. -/
def Beside (i j : Indexer) : Prop := ∀ p q, i.storePath p ≠ j.storePath q

/-- Trees lie beside each other if the place of none begins that of the other. -/
theorem beside_iff : i.Beside j ↔ ¬ (i.scope ++ "/").toList <+: (j.scope ++ "/").toList ∧
    ¬ (j.scope ++ "/").toList <+: (i.scope ++ "/").toList := by
  have hpath : ∀ (i : Indexer) p, (i.storePath p).toList = (i.scope ++ "/").toList ++ p.toList :=
    fun i p => by rw [storePath, String.toList_append]
  constructor
  · intro h
    constructor
    · rintro ⟨rest, hrest⟩
      refine h (String.ofList rest) "" (String.toList_inj.1 ?_)
      simp [hpath, ← hrest]
    · rintro ⟨rest, hrest⟩
      refine h "" (String.ofList rest) (String.toList_inj.1 ?_)
      simp [hpath, ← hrest]
  · rintro ⟨hij, hji⟩ p q heq
    have hlists := congrArg String.toList heq
    rw [hpath, hpath] at hlists
    rcases List.prefix_or_prefix_of_prefix (List.prefix_append _ _)
      (hlists ▸ List.prefix_append _ _) with h | h
    · exact hji h
    · exact hij h

/-- Whether a file claims exactly the nodes that it yields. -/
def Exact (i : Indexer) (files : FileTree) (s : Store) (relative : String) : Prop :=
  ∀ id, Edge.isId id = false → (s.Claims (i.storePath relative) id ↔ i.Yields files relative id)

theorem Exact.congr {s t : Store} (h : i.Exact files s relative)
    (hrecord : t.records.get? (i.storePath relative) = s.records.get? (i.storePath relative)) :
    i.Exact files t relative := by
  intro id hid
  rw [Store.Claims, hrecord]
  exact h id hid

/-- What the indexer of a tree does to records: each stays, or it is that of a file of the tree,
which claims exactly the nodes that it yields then. -/
def Writes (i : Indexer) (files : FileTree) (s t : Store) : Prop :=
  ∀ path, t.records.get? path = s.records.get? path ∨
    ∃ relative, path = i.storePath relative ∧ i.Exact files t relative

theorem Writes.of_eq {s t : Store} (h : t = s) : i.Writes files s t := fun _ => .inl (by rw [h])

theorem Writes.trans {s t u : Store} (h : i.Writes files s t) (h' : i.Writes files t u) :
    i.Writes files s u := by
  intro path
  rcases h' path with hsame' | hexact
  · rcases h path with hsame | ⟨relative, rfl, hexact⟩
    · exact .inl (hsame'.trans hsame)
    · exact .inr ⟨relative, rfl, hexact.congr hsame'⟩
  · exact .inr hexact

/-- The records of a tree beside it stay. -/
theorem Writes.beside {s t : Store} (h : i.Writes files s t) (hbeside : j.Beside i) (p : String) :
    t.fingerprint? (j.storePath p) = s.fingerprint? (j.storePath p) := by
  rcases h (j.storePath p) with hsame | ⟨q, heq, -⟩
  · rw [Store.fingerprint?, hsame, Store.fingerprint?]
  · exact absurd heq (hbeside p q)

theorem CarriedOut.writes {c : FileChange} {done : Commit} {b b' : Backend}
    (h : i.CarriedOut c done b b') (hc : i.Suits files c) : i.Writes files b.store b'.store := by
  intro path
  by_cases hpath : path = i.storePath c.relative
  · refine .inr ⟨c.relative, hpath, fun id hid => (h.changed.own id).trans ?_⟩
    exact ⟨fun hmem => hc.faithful id hmem hid, hc.complete id⟩
  · exact .inl (h.changed.other path hpath)

end Indexer

/-- Whether what is to be done for a file gives it exactly the nodes that it yields. -/
def IndexTask.Suits (i : Indexer) (files : FileTree) : IndexTask → Prop
  | index _ => True
  | complete c => i.Suits files c
  | refresh _ _ => True

namespace Indexer

variable {i : Indexer} {files : FileTree}

/-- Whatever is done for a file or its heirs, only records of the tree change. -/
theorem Course.writes {task : IndexTask} {s : IndexState}
    {ending : Except Error FileOutcome × IndexState} {events : List Event}
    (h : i.Course task s ending events) (htask : task.Suits i s.site.files) :
    i.Writes s.site.files s.site.backend.store ending.2.site.backend.store := by
  induction h with
  | settled hd =>
      obtain ⟨tracker, rfl, -⟩ := ruled_of_decide hd
      exact .of_eq rfl
  | undecided hd =>
      obtain ⟨tracker, rfl, -⟩ := ruled_of_decide hd
      exact .of_eq rfl
  | decided hd _ ih =>
      obtain ⟨tracker, rfl, hruled⟩ := ruled_of_decide hd
      exact ih hruled.suits
  | refused hc => exact .of_eq (carryOut_error hc)
  | stored hc _ ih => exact ((carryOut_ok htask.fits hc).writes htask).trans (ih trivial)
  | refreshed => exact .of_eq rfl
  | elsewhere _ _ ih => exact ih trivial
  | @heir _ _ _ _ s t result _ _ _ _ hfirst _ ih ihrest =>
      have hfiles : t.site.files = s.site.files := hfirst.files trivial
      have hrest := ihrest trivial
      rw [IndexState.afterHeir_site, hfiles] at hrest
      exact (ih trivial).trans hrest

end Indexer

/-! ## A scheduler of a tree -/

namespace Scheduler

variable {s : Scheduler} {site : Site} {i : Indexer} {relative : String}

/-- Whether a scheduler works for a tree as its files are: what waits for the store is what is
to be done for these files. -/
structure WorksFor (s : Scheduler) (i : Indexer) (files : FileTree) : Prop where
  indexer : s.indexer = i
  stalled : ∀ relative c, s.stalled = some (relative, c) → i.Suits files c

/-- A file is finished as it was begun. -/
theorem finish_writes (hindexer : s.indexer = i) {first : Except Error FileOutcome × IndexState}
    (hfiles : first.2.site.files = site.files)
    (hfirst : i.Writes site.files site.backend.store first.2.site.backend.store) :
    (s.finish relative first).2.files = site.files ∧
      i.Writes site.files site.backend.store (s.finish relative first).2.backend.store := by
  subst hindexer
  refine (@trial_ends s relative (fun t => t.site.files = site.files ∧
      s.indexer.Writes site.files site.backend.store t.site.backend.store) (fun _ => True)
    (fun t ht => ⟨?_, fun _ _ => trivial⟩) (fun _ _ _ ht => ht) (fun _ _ _ => trivial) first
    ⟨⟨hfiles, hfirst⟩, fun _ _ => trivial⟩).1
  obtain ⟨events, hcourse⟩ := s.indexer.indexFile_course relative t
  exact ⟨(hcourse.files trivial).trans ht.1, ht.2.trans (ht.1 ▸ hcourse.writes trivial)⟩

/-- A step of the worker writes records of the tree only. -/
theorem WorksFor.stepped {next : Scheduler × Site} (h : s.WorksFor i site.files)
    (hstep : s.Stepped site next) : next.1.WorksFor i site.files ∧ next.2.files = site.files ∧
      i.Writes site.files site.backend.store next.2.backend.store := by
  obtain ⟨rfl, hstalled⟩ := h
  rcases hstep.tries_or_waits with ⟨relative, s', first, htries, rfl⟩ |
    ⟨relative, rest, c, t, -, -, hd, rfl⟩
  · have hindexer : s'.indexer = s.indexer := by cases htries <;> rfl
    refine ⟨⟨hindexer, nofun⟩, ?_⟩
    cases htries with
    | @resumed c hc =>
        have hsuits := hstalled relative c hc
        obtain ⟨events, hcourse⟩ := Indexer.complete_course c hsuits.fits ⟨site, s.tracker⟩
        exact finish_writes hindexer (hcourse.files hsuits.fits) (hcourse.writes hsuits)
    | indexed =>
        obtain ⟨events, hcourse⟩ := s.indexer.indexFile_course relative ⟨site, s.tracker⟩
        exact finish_writes hindexer (hcourse.files trivial) (hcourse.writes trivial)
  · obtain ⟨tracker, rfl, hruled⟩ := Indexer.ruled_of_decide hd
    refine ⟨⟨rfl, fun relative' c' heq => ?_⟩, rfl, .of_eq rfl⟩
    cases heq
    exact hruled.suits

end Scheduler

/-! ## Many trees, one store -/

section Sharing

variable {ι : Type} {roots : ι → Indexer} {files : FileTree}

/-- Whether each record under a root claims the nodes that its file yields below one of the
roots that it lies under. -/
def Rooted (roots : ι → Indexer) (files : FileTree) (s : Store) : Prop :=
  ∀ k p, (s.fingerprint? ((roots k).storePath p)).isSome →
    ∃ l q, (roots l).storePath q = (roots k).storePath p ∧ (roots l).Exact files s q

theorem Rooted.writes {s t : Store} {m : ι} (h : Rooted roots files s)
    (hwrites : (roots m).Writes files s t) : Rooted roots files t := by
  intro k p hrecord
  rcases hwrites ((roots k).storePath p) with hsame | ⟨q, heq, hexact⟩
  · rw [Store.fingerprint?, hsame] at hrecord
    obtain ⟨l, q, heq, hexact⟩ := h k p hrecord
    exact ⟨l, q, heq, hexact.congr (by rw [heq, hsame])⟩
  · exact ⟨m, q, heq.symm, hexact⟩

variable [DecidableEq ι]

/-- What schedulers lead to that share one store, where nothing is stored under their roots at
first.  Each root may be reconciled at any time, also again with a new scheduler, and the
workers do their steps in any order.  Meanwhile times and the circumstances of the store change
in any way, but neither the files nor what is stored. -/
inductive Sharing (roots : ι → Indexer) (files : FileTree) : (ι → Option Scheduler) → Site → Prop
  | start {site : Site} : site.files = files →
      (∀ k p, site.backend.store.fingerprint? ((roots k).storePath p) = none) →
      Sharing roots files (fun _ => none) site
  | reconcile {schedulers : ι → Option Scheduler} {site : Site} {tracker : Tracker} (k : ι)
      (retry : Retry) : Sharing roots files schedulers site →
      (roots k).tracker site.backend = .ok tracker →
      Sharing roots files (Function.update schedulers k
        (some ((Scheduler.start (roots k) tracker retry).reconcile site.files).2)) site
  /-- A worker does a step; `held` says that the store cannot be written now. -/
  | step {schedulers : ι → Option Scheduler} {s s' : Scheduler} {site site' : Site} (k : ι)
      (held : Bool) : Sharing roots files schedulers site → schedulers k = some s →
      s.step? held site = some (s', site') →
      Sharing roots files (Function.update schedulers k (some s')) site'
  | meanwhile {schedulers : ι → Option Scheduler} {site site' : Site} :
      Sharing roots files schedulers site → site'.files = site.files →
      site'.backend.store = site.backend.store → Sharing roots files schedulers site'

variable {schedulers : ι → Option Scheduler} {site : Site}

namespace Sharing

/-- Each scheduler works for its tree, and writes what files yield below its root. -/
theorem worksFor (h : Sharing roots files schedulers site) : site.files = files ∧
    (∀ k s, schedulers k = some s → s.WorksFor (roots k) files) ∧
    Rooted roots files site.backend.store := by
  induction h with
  | start hfiles hnone =>
      refine ⟨hfiles, fun _ _ => nofun, fun k p hrecord => ?_⟩
      rw [hnone] at hrecord
      cases hrecord
  | @reconcile schedulers site tracker k retry _ htracker ih =>
      obtain ⟨hfiles, hworks, hrooted⟩ := ih
      refine ⟨hfiles, fun l s hs => ?_, hrooted⟩
      by_cases hl : l = k
      · subst hl
        rw [Function.update_self, Option.some.injEq] at hs
        subst hs
        refine ⟨Scheduler.reconcile_indexer .., fun relative c hc => ?_⟩
        obtain ⟨r, queue, hreconcile, -⟩ :=
          Scheduler.reconcile_start (roots l) tracker retry site.files
        rw [hreconcile] at hc
        cases hc
      · rw [Function.update_of_ne hl] at hs
        exact hworks l s hs
  | @step schedulers s s' site site' k held _ hk hstep ih =>
      obtain ⟨rfl, hworks, hrooted⟩ := ih
      obtain ⟨hworks', hfiles, hwrites⟩ := (hworks k s hk).stepped (Scheduler.step?_stepped hstep)
      refine ⟨hfiles, fun l t ht => ?_, hrooted.writes hwrites⟩
      by_cases hl : l = k
      · subst hl
        rw [Function.update_self, Option.some.injEq] at ht
        exact ht ▸ hworks'
      · rw [Function.update_of_ne hl] at ht
        exact hworks l t ht
  | meanwhile _ hfiles hstore ih =>
      obtain ⟨rfl, hworks, hrooted⟩ := ih
      exact ⟨hfiles, hworks, hstore ▸ hrooted⟩

/-- A tree that lies beside all others is served as if there were no others: its scheduler
comes to the files that are listed, and no other file gets a record. -/
theorem serves (h : Sharing roots files schedulers site) {k : ι}
    (hbeside : ∀ l, l ≠ k → (roots k).Beside (roots l)) :
    (∀ p, p ∉ (roots k).walk files →
      site.backend.store.fingerprint? ((roots k).storePath p) = none) ∧
    ∀ s, schedulers k = some s → s.Serves site files (· ∈ (roots k).walk files) := by
  induction h with
  | start _ hnone => exact ⟨fun p _ => hnone k p, fun _ => nofun⟩
  | @reconcile schedulers site tracker l retry h htracker ih =>
      obtain ⟨hnone, hserves⟩ := ih
      refine ⟨hnone, fun s hs => ?_⟩
      by_cases hl : k = l
      · subst hl
        rw [Function.update_self, Option.some.injEq] at hs
        subst hs
        obtain ⟨rfl, -⟩ := h.worksFor
        have hasked : (roots k).Asked site = (· ∈ (roots k).walk site.files) := by
          funext p
          refine propext (or_iff_left_of_imp fun hrecord => ?_)
          by_contra hlisted
          rw [hnone p hlisted] at hrecord
          cases hrecord
        exact hasked ▸ Scheduler.reconcile_serves retry htracker
      · rw [Function.update_of_ne hl] at hs
        exact hserves s hs
  | @step schedulers s s' site site' l held h hl hstep ih =>
      obtain ⟨hnone, hserves⟩ := ih
      obtain ⟨rfl, hworks, -⟩ := h.worksFor
      have hstepped := Scheduler.step?_stepped hstep
      obtain ⟨hindexer, hfiles, hwrites⟩ := (hworks l s hl).stepped hstepped
      by_cases hk : k = l
      · subst hk
        have hmid := (hserves s hl).stepped hstepped
        refine ⟨fun p hp => hindexer.indexer ▸ hmid.unrecorded p hp, fun t ht => ?_⟩
        rw [Function.update_self, Option.some.injEq] at ht
        exact ht ▸ hmid
      · have hsame := hwrites.beside (hbeside l (Ne.symm hk))
        refine ⟨fun p hp => (hsame p).trans (hnone p hp), fun t ht => ?_⟩
        rw [Function.update_of_ne hk] at ht
        refine (hserves t ht).elsewhere hfiles ?_
        rw [(hworks k t ht).indexer]
        exact hsame
  | meanwhile _ hfiles hstore ih =>
      obtain ⟨hnone, hserves⟩ := ih
      rw [hstore]
      exact ⟨hnone, fun s hs => (hserves s hs).elsewhere hfiles fun p => by rw [hstore]⟩

/-- What a worker does on its own, it does among others. -/
theorem works (h : Sharing roots files schedulers site) {k : ι} {s s' : Scheduler} {site' : Site}
    (hk : schedulers k = some s) (hworks : s.Works site s' site') :
    Sharing roots files (Function.update schedulers k (some s')) site' := by
  induction hworks with
  | refl =>
      rw [← hk, Function.update_eq_self]
      exact h
  | step held _ hstep ih =>
      have hnext := (ih h).step k held (Function.update_self ..) hstep
      rwa [Function.update_idem] at hnext
  | meanwhile _ hfiles hstore ih => exact (ih h).meanwhile hfiles hstore

/-- Wherever schedulers have got to, a root can be reconciled, and its worker comes to rest. -/
theorem comes_to_rest (h : Sharing roots files schedulers site) {k : ι} {tracker : Tracker}
    (retry : Retry) (htracker : (roots k).tracker site.backend = .ok tracker) :
    ∃ s site', Sharing roots files (Function.update schedulers k (some s)) site' ∧
      s.queue.isIdle = true := by
  obtain ⟨s, site', hworks, hidle⟩ :=
    Scheduler.reconcile_comes_to_rest (roots k) tracker retry site
  have hdone := (h.reconcile k retry htracker).works (Function.update_self ..) hworks
  rw [Function.update_idem] at hdone
  exact ⟨s, site', hdone, hidle⟩

end Sharing

/-- Whether a store has of a file what is due to it: a record exactly if it is listed and within
the limit, with the fingerprint of its content, and with the nodes that it yields. -/
structure Indexer.Mirrors (i : Indexer) (files : FileTree) (s : Store) (relative : String) :
    Prop where
  inStep : i.InStep files s relative
  exact : (s.fingerprint? (i.storePath relative)).isSome → i.Exact files s relative

/-- What a mirrored file claims does not depend on the store. -/
theorem Indexer.Mirrors.claims_iff {i : Indexer} {s : Store} {relative id : String}
    (h : i.Mirrors files s relative) (hid : Edge.isId id = false) :
    s.Claims (i.storePath relative) id ↔
      (∃ fp, s.fingerprint? (i.storePath relative) = some fp) ∧ i.Yields files relative id := by
  rw [← Option.isSome_iff_exists]
  constructor
  · intro hclaims
    exact ⟨hclaims.fingerprint?, (h.exact hclaims.fingerprint? id hid).1 hclaims⟩
  · rintro ⟨hrecord, hyields⟩
    exact (h.exact hrecord id hid).2 hyields

/-- A tree that lies beside all others is mirrored when its scheduler is done. -/
theorem Sharing.mirrors (h : Sharing roots files schedulers site) {k : ι} {s : Scheduler}
    (hk : schedulers k = some s) (hbeside : ∀ l, l ≠ k → (roots k).Beside (roots l))
    (hsupports : (roots k).Supports) (hidle : s.queue.isIdle = true) {relative : String}
    (hlists : ¬ s.tracker.Lists relative) :
    (roots k).Mirrors files site.backend.store relative := by
  obtain ⟨rfl, hworks, hrooted⟩ := h.worksFor
  obtain ⟨hnone, hserves⟩ := h.serves hbeside
  have hindexer := (hworks k s hk).indexer
  constructor
  · rw [Indexer.inStep_iff hsupports]
    by_cases hlisted : relative ∈ (roots k).walk site.files
    · have hsettled := (hserves s hk).idle hidle hlisted
      rw [hindexer] at hsettled
      rw [if_pos hlisted]
      exact hsettled.resolve_right (mt s.tracker.isOpen_iff.1 hlists)
    · rw [if_neg hlisted]
      exact hnone relative hlisted
  · intro hrecord
    obtain ⟨l, q, heq, hexact⟩ := hrooted k relative hrecord
    by_cases hl : l = k
    · subst hl
      exact Indexer.storePath_inj.1 heq ▸ hexact
    · exact absurd heq.symm (hbeside l hl relative q)

/-- **Trees that lie beside each other do not interfere.**  Let any number of trees be
reconciled into one store, in any order and step by step.  Each record then has the nodes that
its file yields below a root that it lies under.  And when the scheduler of a tree that lies
beside all others is done, each file that is not listed as pending or failed has a record
exactly if the tree lists it and it is within the limit, with the fingerprint of its content and
with the nodes that it yields below this root; and so it has in a store where the tree alone was
reconciled. -/
theorem roots_do_not_interfere (h : Sharing roots files schedulers site) :
    Rooted roots files site.backend.store ∧
    ∀ k s, schedulers k = some s → (∀ l, l ≠ k → (roots k).Beside (roots l)) →
      (roots k).Supports → s.queue.isIdle = true →
      ∀ relative, ¬ s.tracker.Lists relative →
        (roots k).Mirrors files site.backend.store relative ∧
        ∀ alone site' s', Sharing (fun _ : Unit => roots k) files alone site' →
          alone () = some s' → s'.queue.isIdle = true → ¬ s'.tracker.Lists relative →
            site.backend.store.fingerprint? ((roots k).storePath relative) =
              site'.backend.store.fingerprint? ((roots k).storePath relative) ∧
            ∀ id, Edge.isId id = false →
              (site.backend.store.Claims ((roots k).storePath relative) id ↔
                site'.backend.store.Claims ((roots k).storePath relative) id) := by
  refine ⟨h.worksFor.2.2, fun k s hk hbeside hsupports hidle relative hlists => ?_⟩
  have hmirrors := h.mirrors hk hbeside hsupports hidle hlists
  refine ⟨hmirrors, fun alone site' s' halone hs' hidle' hlists' => ?_⟩
  have hmirrors' := halone.mirrors hs' (fun l hl => absurd rfl hl) hsupports hidle' hlists'
  have hfingerprint : site.backend.store.fingerprint? ((roots k).storePath relative) =
      site'.backend.store.fingerprint? ((roots k).storePath relative) :=
    Option.ext fun fp => (hmirrors.inStep fp).trans (hmirrors'.inStep fp).symm
  refine ⟨hfingerprint, fun id hid => ?_⟩
  rw [hmirrors.claims_iff hid, hmirrors'.claims_iff hid, hfingerprint]

end Sharing

/-- The tree of empty files, and one beside it that is read in the same way. -/
def neighbours (other : Bool) : Indexer :=
  { emptyFileIndexer with
    root := cond other "/q" "/r"
    scope := cond other "/q" "/r" }

/-- Each of the trees has one file, with the same name below its root. -/
def neighbourFiles : FileTree := (FileTree.empty.write "/r/b.py" .empty).write "/q/b.py" .empty

def neighbourModule (other : Bool) : Node :=
  Resolve.moduleNode ((neighbours other).stored "b.py" (emptyFile "b.py"))
    (.ofFile ((neighbours other).stored "b.py" (emptyFile "b.py")))

def neighbourRecord (other : Bool) : FileRecord :=
  (neighbours other).recordOf "b.py" 0 .python .empty

/-- The store when the first tree is reconciled. -/
def neighbourStored : Backend :=
  (Backend.new.apply (neighbourRecord false) [neighbourModule false] []).2

theorem neighbours_locate (other : Bool) : neighbourFiles.locate (neighbours other).root =
    .ok [cond other "q" "r"] := by
  have hnul : (neighbours other).root.contains '\x00' = false := by
    cases other <;> simp [neighbours]
  rw [FileTree.locate, hnul]
  cases other <;> decide +kernel

theorem neighbours_walk (other : Bool) : (neighbours other).walk neighbourFiles = ["b.py"] := by
  rw [Indexer.walk, neighbours_locate]
  cases other <;> decide +kernel

theorem neighbours_reads (other : Bool) :
    (neighbours other).Reads "b.py" neighbourFiles .python .empty (emptyFile "b.py") where
  supported := by cases other <;> decide +kernel
  found := by
    have hpath : FilePath.push (neighbours other).root "b.py" = cond other "/q/b.py" "/r/b.py" := by
      cases other <;> decide +kernel
    have hnul : (cond other "/q/b.py" "/r/b.py").contains '\x00' = false := by
      cases other <;> simp
    have hplace : neighbourFiles.locate (cond other "/q/b.py" "/r/b.py") =
        .ok [cond other "q" "r", "b.py"] := by
      rw [FileTree.locate, hnul]
      cases other <;> decide +kernel
    rw [hpath, FileTree.read, hplace]
    cases other <;> rfl
  small := by cases other <;> decide
  parsed := emptyFile_parsed (by decide +kernel)

theorem neighbours_tracker_new (other : Bool) : (neighbours other).tracker .new = .ok .empty := by
  have hrecords : Store.empty.fileRecords = [] := List.mergeSort_of_pairwise .nil
  rw [Indexer.tracker, Backend.fileRecords, Backend.contents]
  simp only [Backend.new, if_true, Except.map, hrecords]
  rfl

/-- A tree of which nothing is stored is reconciled by storing the module of its file. -/
theorem neighbours_reconciled {other : Bool} {b b' : Backend} {c : Commit}
    (htracker : (neighbours other).tracker b = .ok .empty)
    (happly : b.apply (neighbourRecord other) [neighbourModule other] [] = (.ok c, b'))
    (hheirs : c.heirs = []) : ∃ s,
      ((Scheduler.start (neighbours other) .empty .default).reconcile neighbourFiles).2.Works
        ⟨neighbourFiles, b, 0⟩ s ⟨neighbourFiles, b', 0⟩ ∧
      s.queue.isIdle = true ∧ ∀ p, ¬ s.tracker.Lists p := by
  have hknown : Tracker.empty.knownPaths = [] := by decide +kernel
  have hr : Resolve.resolve b.symbols ((neighbours other).stored "b.py" (emptyFile "b.py")) =
      .ok ⟨neighbourModule other, [neighbourModule other], [], [], []⟩ := by
    cases other <;> rfl
  obtain ⟨tracker, hcourse⟩ := Indexer.Course.replaces
    (s := ⟨⟨neighbourFiles, b, 0⟩, .empty⟩) (neighbours_reads other) hr rfl happly hheirs
  have hclosed : ∀ p, ¬ tracker.Lists p := by
    intro p hlists
    have hopen := tracker.isOpen_iff.2 hlists
    by_cases hp : p = "b.py"
    · subst hp
      obtain ⟨⟨reason, houtcome⟩, -⟩ := (hcourse.index_open_iff nofun rfl).1 hopen
      cases houtcome
    · rw [show tracker.state p = Tracker.empty.state p from
        hcourse.state_eq (fun heq => hp (Option.some.inj heq).symm) (by simpa using hp)] at hopen
      rcases hopen with h | h | h <;> cases h
  have hreconciled : ((Scheduler.start (neighbours other) .empty .default).reconcile
      neighbourFiles).2 = { Scheduler.start (neighbours other) .empty .default with
        queue := ⟨["b.py"], [], [], ["b.py"], none, true⟩ } := by
    rw [Scheduler.reconcile]
    simp only [Scheduler.start, neighbours_walk, hknown]
    rfl
  rw [hreconciled]
  refine ⟨⟨neighbours other, tracker, .default, ⟨[], [], [], [], none, true⟩, none, 1, false⟩,
    .step false .refl ((Scheduler.step?_takes rfl rfl rfl).trans ?_), rfl, hclosed⟩
  simp only [Scheduler.start, hcourse.indexFile_eq]
  rfl

/-- A tree is reconciled into a new store. -/
theorem neighbours_alone (other : Bool) : ∃ s site,
    Sharing (fun _ : Unit => neighbours other) neighbourFiles
      (Function.update (fun _ => none) () (some s)) site ∧
    s.queue.isIdle = true ∧ ∀ p, ¬ s.tracker.Lists p := by
  have happly : (Backend.new.apply (neighbourRecord other) [neighbourModule other] []).1 =
      .ok { (0 : Commit) with nodesAdded := 1, recordWritten := true } := by
    cases other <;> decide +kernel
  obtain ⟨s, hworks, hidle, hlists⟩ :=
    neighbours_reconciled (neighbours_tracker_new other) (Prod.ext happly rfl) rfl
  have hstart : Sharing (fun _ : Unit => neighbours other) neighbourFiles (fun _ => none)
      ⟨neighbourFiles, .new, 0⟩ := .start rfl fun _ _ => rfl
  have hdone := (hstart.reconcile () .default (neighbours_tracker_new other)).works
    (Function.update_self ..) hworks
  rw [Function.update_idem] at hdone
  exact ⟨s, _, hdone, hidle, hlists⟩

/-- Both trees are reconciled, one after the other. -/
theorem neighbours_together : ∃ schedulers site, Sharing neighbours neighbourFiles schedulers site ∧
    site.backend.store.records.toList.map (fun r => (r.path, r.contributions)) =
      [("/r/b.py", ["module:b"]), ("/q/b.py", ["module:b"])] ∧
    ∀ other, ∃ s, schedulers other = some s ∧ s.queue.isIdle = true ∧ ∀ p, ¬ s.tracker.Lists p := by
  have hfirst : (Backend.new.apply (neighbourRecord false) [neighbourModule false] []).1 =
      .ok { (0 : Commit) with nodesAdded := 1, recordWritten := true } := by
    decide +kernel
  have hsecond : (neighbourStored.apply (neighbourRecord true) [neighbourModule true] []).1 =
      .ok { (0 : Commit) with nodesUpdated := 1, recordWritten := true } := by
    decide +kernel
  have htracker := neighbours_tracker_new false
  have htracker' : (neighbours true).tracker neighbourStored = .ok .empty := by
    have hopen : neighbourStored.isOpen = true := by decide +kernel
    have hrecords : neighbourStored.store.fileRecords = neighbourStored.store.records.toList := by
      rw [Store.fileRecords]
      exact List.mergeSort_of_pairwise (by decide +kernel)
    have hnone : (neighbourStored.store.records.toList.filterMap fun r =>
        ((neighbours true).relativeStorePath? r.path).map fun path => { r with path }) = [] := by
      decide +kernel
    rw [Indexer.tracker, Backend.fileRecords, Backend.contents, if_pos hopen]
    simp only [Except.map, hrecords]
    rw [Indexer.trackerOf, hnone]
    rfl
  obtain ⟨s, hworks, hidle, hlists⟩ := neighbours_reconciled htracker (Prod.ext hfirst rfl) rfl
  obtain ⟨s', hworks', hidle', hlists'⟩ :=
    neighbours_reconciled htracker' (Prod.ext hsecond rfl) rfl
  have hstart : Sharing neighbours neighbourFiles (fun _ => none) ⟨neighbourFiles, .new, 0⟩ :=
    .start rfl fun _ _ => rfl
  have hboth := (((hstart.reconcile false .default htracker).works (Function.update_self ..)
    hworks).reconcile true .default htracker').works (Function.update_self ..) hworks'
  refine ⟨_, _, hboth, by decide +kernel, fun other => ?_⟩
  cases other with
  | false => exact ⟨s, rfl, hidle, hlists⟩
  | true => exact ⟨s', rfl, hidle', hlists'⟩

/-- The two files have the same names below their roots, so they claim the same module; each has
its record, as it has in a store of its own. -/
theorem roots_do_not_interfere_neighbours : ∃ schedulers site,
    Sharing neighbours neighbourFiles schedulers site ∧
    site.backend.store.records.toList.map (fun r => (r.path, r.contributions)) =
      [("/r/b.py", ["module:b"]), ("/q/b.py", ["module:b"])] ∧
    ∀ other relative,
      (neighbours other).Mirrors neighbourFiles site.backend.store relative ∧
      ∃ alone site', Sharing (fun _ : Unit => neighbours other) neighbourFiles alone site' ∧
        site.backend.store.fingerprint? ((neighbours other).storePath relative) =
          site'.backend.store.fingerprint? ((neighbours other).storePath relative) := by
  obtain ⟨schedulers, site, h, hrecords, hrest⟩ := neighbours_together
  refine ⟨schedulers, site, h, hrecords, fun other relative => ?_⟩
  have hbeside : ∀ l, l ≠ other → (neighbours other).Beside (neighbours l) := by
    intro l hl
    rw [Indexer.beside_iff]
    revert other l
    decide +kernel
  have hsupports : (neighbours other).Supports :=
    fun extension hmem => ⟨.python, .head _, List.mem_cons.2 (.inl (List.mem_singleton.1 hmem))⟩
  obtain ⟨s, hs, hidle, hlists⟩ := hrest other
  obtain ⟨t, site', halone, hidle', hlists'⟩ := neighbours_alone other
  obtain ⟨hmirrors, hsame⟩ :=
    (roots_do_not_interfere h).2 other s hs hbeside hsupports hidle relative (hlists relative)
  exact ⟨hmirrors, _, site', halone, (hsame _ _ t halone rfl hidle' (hlists' relative)).1⟩

end CodeAtlas
