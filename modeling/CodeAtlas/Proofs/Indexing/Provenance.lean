import CodeAtlas.Proofs.Indexing.Again
import CodeAtlas.Proofs.Resolve.Total
import CodeAtlas.Proofs.Upsert.Total

/-!
# CodeAtlas.Proofs.Indexing.Provenance

Stored nodes describe the files that they are attributed to.

When a file releases a node that others claim, the node is attributed to an heir while it
still describes the file that released it.  That is mended when the heir is indexed again, so
along the way a node describes its own file, or its file is awaited (`Described`): it is the
one that is being changed, or an heir whose turn comes.  An heir that is looked at is never
left as it is, as it was invalidated, so it is replaced or loses all nodes; and where files
can be read and the store does not fail, nothing on the way can (`Indexer.Course.mends`).
-/

namespace CodeAtlas

open Indexing Upsert

/-! ## What was applied -/

/-- The nodes that were applied for a file, if that is what happened. -/
def Event.applied? (path : String) : Event → Option (List Node)
  | looked _ => none
  | stored (.replace _ record nodes _) _ => if record.path = path then some nodes else none
  | stored (.retract _) _ => none
  | stored (.skip _ _) _ => none

/-- The nodes that were applied last for a file. -/
def lastApplied (log : List Event) (path : String) : List Node :=
  (log.filterMap (Event.applied? path)).getLast?.getD []

theorem lastApplied_snoc (log : List Event) (e : Event) (path : String) :
    lastApplied (log ++ [e]) path = (e.applied? path).getD (lastApplied log path) := by
  rw [lastApplied, List.filterMap_append]
  cases h : e.applied? path <;> simp [lastApplied, h]

/-- What is stored describes the file that it is attributed to, unless that is awaited. -/
def Described (awaited : List String) (s : Store) (log : List Event) : Prop :=
  ∀ n ∈ s.nodes, n.file ∈ awaited ∨ n ∈ lastApplied log n.file

theorem Described.mono {awaited awaited' : List String} {s : Store} {log : List Event}
    (h : Described awaited s log) (hsub : awaited ⊆ awaited') : Described awaited' s log :=
  fun n hn => (h n hn).imp (fun hmem => hsub hmem) id

theorem Described.looked {awaited : List String} {s : Store} {log : List Event}
    (h : Described awaited s log) (relative : String) :
    Described awaited s (log ++ [.looked relative]) := by
  intro n hn
  rw [lastApplied_snoc]
  exact h n hn

/-! ## What is applied -/

namespace FileChange

variable {i : Indexer} {c : FileChange}

theorem OfFile.apart (h : c.OfFile) : Apart c.nodes c.edges := by
  cases c with
  | replace relative record nodes edges =>
      obtain ⟨index, f, r, hr, -, rfl, rfl⟩ := h
      exact (Resolve.resolve_madeFrom hr).apart (Resolve.nodes_formed hr)
  | retract => exact ⟨nofun, nofun⟩
  | skip => exact ⟨nofun, nofun⟩

theorem OfFile.node (h : c.OfFile) (hfits : c.Fits i) {n : Node} (hn : n ∈ c.nodes) :
    n.Formed ∧ n.file = i.storePath c.relative := by
  cases c with
  | replace relative record nodes edges =>
      obtain ⟨index, f, r, hr, hpath, rfl, rfl⟩ := h
      have hpath : f.filePath = i.storePath relative := hpath.trans hfits
      refine ⟨Resolve.nodes_formed hr n hn, ?_⟩
      rw [(Resolve.resolve_madeFrom hr).nodeFile n hn, hpath]
      rfl
  | retract => cases hn
  | skip => cases hn

end FileChange

/-- Whether what replaces the contribution of a file is what a file was resolved to. -/
def IndexTask.OfFile : IndexTask → Prop
  | index _ => True
  | complete c => c.OfFile
  | refresh _ _ => True

namespace FileChange

variable {i : Indexer} {c : FileChange}

/-- A change of a file applies its nodes, and nothing for other files. -/
theorem applied?_own (hfits : c.Fits i) {n : Node} (hn : n ∈ c.nodes) (done : Commit) :
    (Event.stored c done).applied? (i.storePath c.relative) = some c.nodes := by
  cases c with
  | replace relative record nodes edges => exact if_pos hfits
  | retract => cases hn
  | skip => cases hn

theorem applied?_other (hfits : c.Fits i) {path : String} (hpath : path ≠ i.storePath c.relative)
    (done : Commit) : (Event.stored c done).applied? path = none := by
  cases c with
  | replace relative record nodes edges =>
      have hrecord : record.path = i.storePath relative := hfits
      exact if_neg fun h => hpath (h.symm.trans hrecord)
  | retract => rfl
  | skip => rfl

end FileChange

namespace Indexer

variable {i : Indexer} {c : FileChange} {done : Commit} {b b' : Backend}

namespace CarriedOut

/-- A node is one that the file was given, one that another file declares as before, or one
that passed to an heir. -/
theorem node_cases (h : i.CarriedOut c done b b') (hc : c.OfFile) (hb : b.store.Declared)
    {n : Node} (hn : n ∈ b'.store.nodes) :
    n ∈ c.nodes ∨ (n.file ≠ i.storePath c.relative ∧ n ∈ b.store.nodes) ∨
      n.file ∈ c.heirs done := by
  have hshape : ∀ m ∈ b.store.nodes, Edge.isId m.id = false :=
    fun m hm => (hb.formed m hm).isId_eq_false
  rcases h.changed.node_cases hc.apart hshape hn with
    hgiven | ⟨hne, ⟨hunclaimed, hold⟩ | ⟨hclaims, old, hold, hrel⟩⟩
  · exact .inl hgiven
  · exact .inr (.inl ⟨fun hfile => hunclaimed (hfile ▸ hb.claimed n hold), hold⟩)
  · by_cases hfile : old.file = i.storePath c.relative
    · -- The file declared the node, so it passed to the first of the others that claim it.
      have hid := (released_alike hrel).1
      rw [released] at hrel
      split at hrel
      · cases hrel
      · next heir rest hclaimants =>
        rw [if_pos hfile, Option.some.injEq] at hrel
        obtain rfl := hrel
        have hfresh := (Changed.stale_node_iff hc.apart (hshape old hold) hne).2 hclaims
        rw [mem_staleIds] at hfresh
        have hpasses : PassesTo b.store (i.storePath c.relative)
            (givenUp b.store (i.storePath c.relative) c.nodes c.edges) heir :=
          ⟨old, hold, mem_givenUp.2 ⟨hclaims, hfresh.1.2, hfresh.2⟩, hfile, by rw [hclaimants]; rfl⟩
        exact .inr (.inr ((h.heirs heir).2 hpasses))
    · obtain rfl := released_eq_self hfile hrel
      exact .inr (.inl ⟨hfile, hold⟩)

/-- After a change of an awaited file its heirs are awaited instead. -/
theorem describes (h : i.CarriedOut c done b b') (hc : c.OfFile) (hfits : c.Fits i)
    (hb : b.store.Declared) {awaited : List String} {log : List Event}
    (hlog : Described (i.storePath c.relative :: awaited) b.store log) :
    Described (c.heirs done ++ awaited) b'.store (log ++ [.stored c done]) := by
  intro n hn
  rw [List.mem_append, lastApplied_snoc]
  rcases h.node_cases hc hb hn with hgiven | ⟨hfile, hold⟩ | hheir
  · right
    rw [(hc.node hfits hgiven).2, FileChange.applied?_own hfits hgiven]
    exact hgiven
  · rw [FileChange.applied?_other hfits hfile]
    rcases hlog n hold with hawaited | hmem
    · exact .inl (.inr ((List.mem_cons.1 hawaited).resolve_left hfile))
    · exact .inr hmem
  · exact .inl (.inl hheir)

end CarriedOut

/-! ## Where nothing fails -/

/-- A file that is missing, or holds text that the parser gives a tree for; a file in no
language is not read at all. -/
inductive Readable (i : Indexer) (files : FileTree) (relative : String) : Prop
  | unsupported : Lang.ofPath? i.languages relative = none → Readable i files relative
  | missing : files.read (FilePath.push i.root relative) = .error .missing →
      Readable i files relative
  | text {content : ByteArray} {text : String} :
      files.read (FilePath.push i.root relative) = .ok content →
      String.fromUTF8? content = some text →
      (∀ language, Lang.ofPath? i.languages relative = some language →
        (i.readers.tree language (.ofString text)).isSome) → Readable i files relative

/-- A readable file that is small enough is parsed. -/
theorem Readable.parsed {files : FileTree} {relative : String} {language : Lang}
    {content : ByteArray} (h : i.Readable files relative)
    (hfinds : i.Finds relative files language content) (e : Error) :
    i.readers.read i.languages relative content ≠ .failed e := by
  cases h with
  | unsupported hnone =>
      rw [hfinds.supported] at hnone
      cases hnone
  | missing hmissing =>
      rw [hfinds.found] at hmissing
      cases hmissing
  | text hfound htext htree =>
      obtain rfl := Except.ok.inj (hfound.symm.trans hfinds.found)
      obtain ⟨root, hroot⟩ := Option.isSome_iff_exists.1 (htree _ hfinds.supported)
      rw [Readers.read, hfinds.supported]
      simp [htext, hroot]

/-- A file that was read is readable. -/
theorem Reads.readable {files : FileTree} {relative : String} {language : Lang}
    {content : ByteArray} {file : SourceFile} (h : i.Reads relative files language content file) :
    i.Readable files relative := by
  have hparsed := h.parsed
  rw [Readers.read, h.supported] at hparsed
  simp only [] at hparsed
  split at hparsed
  · cases hparsed
  · next text htext =>
    split at hparsed
    · cases hparsed
    · next root hroot =>
      refine .text h.found htext fun language' hlanguage => ?_
      obtain rfl := Option.some.inj (h.supported.symm.trans hlanguage)
      rw [hroot]
      rfl

end Indexer

/-- A store in use that does not fail. -/
structure Backend.Steady (b : Backend) : Prop where
  isOpen : b.isOpen = true
  outages : b.outages = []
  answers : ∀ q, b.refuses q = none

/-- All records are those of one tree. -/
def Store.Within (scope : String) (s : Store) : Prop :=
  ∀ r ∈ s.records, ∃ relative, r.path = scope ++ "/" ++ relative

/-- A store of one tree that does not fail, where files claim the nodes that they declare. -/
structure Backend.Sound (scope : String) (b : Backend) : Prop where
  steady : b.Steady
  declared : b.store.Declared
  within : b.store.Within scope

namespace Indexer

variable {i : Indexer} {c : FileChange} {done : Commit} {b b' : Backend}

/-- Nothing fails on a store that does not. -/
theorem carryOut_total (hb : b.Steady) (c : FileChange) :
    ∃ done b', i.carryOut c b = (.ok done, b') := by
  cases c with
  | replace => exact Backend.apply_total hb.isOpen hb.outages _ _ _
  | retract => exact Backend.deleteFile_total hb.isOpen hb.outages _
  | skip => exact Backend.deleteFile_total hb.isOpen hb.outages _

theorem CarriedOut.steady (h : i.CarriedOut c done b b') (hb : b.Steady) : b'.Steady := by
  rw [h.rest]
  exact ⟨hb.isOpen, congrArg List.tail hb.outages, hb.answers⟩

theorem CarriedOut.sound (h : i.CarriedOut c done b b') (hc : c.OfFile) (hfits : c.Fits i)
    (hb : b.Sound i.scope) : b'.Sound i.scope := by
  refine ⟨h.steady hb.steady, h.changed.declared hc.apart (fun n hn => hc.node hfits hn)
    hb.declared, fun r hr => ?_⟩
  by_cases hpath : r.path = i.storePath c.relative
  · exact ⟨c.relative, hpath⟩
  · refine hb.within r ?_
    rw [Rows.mem_iff_get?, ← h.changed.other r.path hpath]
    exact Rows.mem_iff_get?.1 hr

/-- A readable file is decided, and one that was forced to be indexed changes the store. -/
theorem Ruled.decides {relative : String} {s : IndexState} {result : Except Error Decision}
    {tracker : Tracker} (h : i.Ruled relative s result tracker) (hs : s.site.backend.Steady)
    (hreadable : i.Readable s.site.files relative) :
    (∃ outcome, result = .ok (.done outcome) ∧
        s.tracker.fingerprints.value? relative ≠ none) ∨
      ∃ c, result = .ok (.change c) ∧ c.OfFile := by
  cases h with
  | unsupported => exact .inr ⟨_, rfl, trivial⟩
  | missing => exact .inr ⟨_, rfl, trivial⟩
  | unreadable hlanguage hread he =>
      cases hreadable with
      | unsupported hnone => exact absurd (hnone.symm.trans hlanguage) nofun
      | missing hmissing => exact absurd (Except.error.inj (hread.symm.trans hmissing)) he
      | text hfound => exact absurd (hread.symm.trans hfound) nofun
  | tooLarge => exact .inr ⟨_, rfl, trivial⟩
  | unchanged _ hneeded =>
      refine .inl ⟨_, rfl, ?_⟩
      rw [Tracker.observe_known _ _ _ hneeded]
      exact Option.some_ne_none _
  | unparsed hfinds _ hfailed => exact absurd hfailed (hreadable.parsed hfinds _)
  | unresolved _ _ hr =>
      rw [Backend.symbols_eq hs.isOpen hs.answers] at hr
      obtain ⟨r, hok⟩ := Resolve.resolve_total s.site.backend.store (i.stored relative _)
      exact absurd (hr.symm.trans hok) nofun
  | replace _ _ hr => exact .inr ⟨_, rfl, _, _, _, hr, rfl, rfl, rfl⟩

/-- The files that are awaited when a task is begun. -/
def awaited (i : Indexer) (s : IndexState) : IndexTask → List String
  | .index relative =>
    if s.tracker.fingerprints.value? relative = none then [i.storePath relative] else []
  | .complete c => [i.storePath c.relative]
  | .refresh heirs _ => heirs

/-- Whatever is done ends well, and what was awaited for it is mended. -/
structure Mends (i : Indexer) (task : IndexTask) (s : IndexState)
    (ending : Except Error FileOutcome × IndexState) (events : List Event) : Prop where
  ok : ∃ outcome, ending.1 = .ok outcome
  sound : ending.2.site.backend.Sound i.scope
  describes : ∀ others log, Described (i.awaited s task ++ others) s.site.backend.store log →
    Described others ending.2.site.backend.store (log ++ events)

namespace Mends

variable {s : IndexState} {ending : Except Error FileOutcome × IndexState} {events : List Event}
  {relative : String} {heirs : List String} {outcome : FileOutcome}

/-- What was decided for a file is done. -/
theorem decided {tracker : Tracker} (hc : c.relative = relative)
    (h : i.Mends (.complete c) { s with tracker } ending events) :
    i.Mends (.index relative) s ending (.looked relative :: events) := by
  refine ⟨h.ok, h.sound, fun others log hlog => ?_⟩
  rw [List.append_cons]
  refine h.describes others _ ((hlog.looked relative).mono ?_)
  refine List.append_subset.2 ⟨?_, List.subset_append_right _ _⟩
  rw [awaited]
  split
  · rw [awaited, hc]
    exact List.subset_append_left _ _
  · exact List.nil_subset _

/-- A change was carried out, and the heirs are indexed. -/
theorem stored {t : IndexState} (hcarried : i.CarriedOut c done s.site.backend t.site.backend)
    (hc : c.OfFile) (hfits : c.Fits i) (hs : s.site.backend.store.Declared)
    (h : i.Mends (.refresh (c.heirs done) outcome) t ending events) :
    i.Mends (.complete c) s ending (.stored c done :: events) := by
  refine ⟨h.ok, h.sound, fun others log hlog => ?_⟩
  rw [List.append_cons]
  exact h.describes others _ (hcarried.describes hc hfits hs hlog)

/-- No stored node is attributed to a file of another tree. -/
theorem elsewhere {heir : String} (hs : s.site.backend.Sound i.scope)
    (hheir : i.relativeStorePath? heir = none)
    (h : i.Mends (.refresh heirs outcome) s ending events) :
    i.Mends (.refresh (heir :: heirs) outcome) s ending events := by
  refine ⟨h.ok, h.sound, fun others log hlog => h.describes others log fun n hn => ?_⟩
  refine (hlog n hn).imp (fun hmem => (List.mem_cons.1 hmem).resolve_left ?_) id
  rintro hfile
  obtain ⟨r, hr, -⟩ := hs.declared.claimed n hn
  obtain ⟨relative, hpath⟩ := hs.within r (Rows.mem_of_get? hr)
  have hstored : heir = i.storePath relative := by
    rw [← hfile, ← Rows.key_of_get? hr]
    exact hpath
  rw [relativeStorePath?_eq_some_iff.2 hstored] at hheir
  cases hheir

/-- An heir is indexed, and then the others. -/
theorem heir {heir : String} {t : IndexState} {result : Except Error FileOutcome}
    {first rest : List Event}
    (hheir : i.relativeStorePath? heir = some relative)
    (h : i.Mends (.index relative) { s with tracker := s.tracker.invalidate relative }
      (result, t) first)
    (hrest : i.Mends (.refresh heirs outcome) (t.afterHeir relative result) ending rest) :
    i.Mends (.refresh (heir :: heirs) outcome) s ending (first ++ rest) := by
  have hunknown : (s.tracker.invalidate relative).fingerprints.value? relative = none := by
    rw [Tracker.invalidate, Tracker.setState_fingerprints, Dict.value?, Rows.get?_erase,
      if_pos rfl]
    rfl
  refine ⟨hrest.ok, hrest.sound, fun others log hlog => ?_⟩
  rw [← List.append_assoc]
  have hfirst := h.describes (heirs ++ others) log
  rw [awaited, if_pos hunknown, ← relativeStorePath?_eq_some_iff.1 hheir] at hfirst
  have hmid := hrest.describes others (log ++ first)
  rw [IndexState.afterHeir_site] at hmid
  exact hmid (hfirst hlog)

end Mends

/-- Where files can be read and the store does not fail, whatever is done ends well and mends
what was awaited for it. -/
theorem Course.mends {task : IndexTask} {s : IndexState}
    {ending : Except Error FileOutcome × IndexState} {events : List Event}
    (h : i.Course task s ending events) (hfits : task.Fits i) (hfile : task.OfFile)
    (hs : s.site.backend.Sound i.scope)
    (hread : ∀ relative, .looked relative ∈ events → i.Readable s.site.files relative) :
    i.Mends task s ending events := by
  induction h with
  | @settled relative s t outcome hd =>
      obtain ⟨tracker, rfl, hruled⟩ := ruled_of_decide hd
      refine ⟨⟨_, rfl⟩, hs, fun others log hlog => ?_⟩
      obtain ⟨-, _, _, -, hknown⟩ := hruled.known
      rw [awaited, if_neg (by simp [hknown])] at hlog
      exact hlog.looked relative
  | @undecided relative s t e hd =>
      obtain ⟨tracker, rfl, hruled⟩ := ruled_of_decide hd
      rcases hruled.decides hs.steady (hread _ List.mem_cons_self) with ⟨_, h, -⟩ | ⟨_, h, -⟩ <;>
        cases h
  | @decided relative s t c ending events hd _ ih =>
      obtain ⟨tracker, rfl, hruled⟩ := ruled_of_decide hd
      obtain ⟨hfits, hc⟩ := hruled.fits
      have hfile : c.OfFile := Decided.ofFile i hruled.decided
      exact .decided hc (ih hfits hfile hs fun r hr => hread r (List.mem_cons_of_mem _ hr))
  | refused hc =>
      obtain ⟨_, _, hok⟩ := carryOut_total hs.steady _
      cases hc.symm.trans hok
  | stored hc _ ih =>
      have hcarried := carryOut_ok hfits hc
      have hrest := ih trivial trivial (hcarried.sound hfile hfits hs)
        fun r hr => hread r (List.mem_cons_of_mem _ hr)
      exact .stored hcarried hfile hfits hs.declared hrest
  | refreshed =>
      refine ⟨⟨_, rfl⟩, hs, fun others log hlog => ?_⟩
      rwa [List.append_nil]
  | elsewhere hheir _ ih => exact .elsewhere hs hheir (ih trivial trivial hs hread)
  | @heir _ relative _ _ s t result _ _ _ hheir hfirst _ ih ihrest =>
      have hmends := ih trivial trivial hs fun r hr => hread r (List.mem_append_left _ hr)
      have hfiles : t.site.files = s.site.files := hfirst.files trivial
      refine .heir hheir hmends (ihrest trivial trivial ?_ fun r hr => ?_)
      · rw [IndexState.afterHeir_site]
        exact hmends.sound
      · rw [IndexState.afterHeir_site, hfiles]
        exact hread r (List.mem_append_right _ hr)

end Indexer

/-! ## Runs on one tree -/

/-- The stores that indexing and removing files of one tree lead to from an empty one, and
all that happened on the way.  Files may change between the calls in any way, and so may what
is known of them; those that are looked at can be read, and the store does not fail. -/
inductive History (scope : String) : Store → List Event → Prop
  | empty : History scope .empty []
  | index {s : IndexState} {log events : List Event} (i : Indexer) (relative : String) :
      History scope s.site.backend.store log → i.scope = scope → s.site.backend.Steady →
      i.Course (.index relative) s ((i.indexFile relative).run s) events →
      (∀ name, .looked name ∈ events → i.Readable s.site.files name) →
      History scope ((i.indexFile relative).run s).2.site.backend.store (log ++ events)
  | remove {s : IndexState} {log events : List Event} (i : Indexer) (relative : String) :
      History scope s.site.backend.store log → i.scope = scope → s.site.backend.Steady →
      i.Course (.complete (.retract relative)) s ((i.removeFile relative).run s) events →
      (∀ name, .looked name ∈ events → i.Readable s.site.files name) →
      History scope ((i.removeFile relative).run s).2.site.backend.store (log ++ events)

/-- Along such a run nothing is awaited between the calls. -/
theorem History.described {scope : String} {s : Store} {log : List Event}
    (h : History scope s log) : s.Declared ∧ s.Within scope ∧ Described [] s log := by
  induction h with
  | empty =>
      exact ⟨.empty, fun r hr => absurd hr (Rows.not_mem_empty r),
        fun n hn => absurd hn (Rows.not_mem_empty n)⟩
  | @index s log events i relative _ hscope hsteady hcourse hread ih =>
      obtain ⟨hdeclared, hwithin, hlog⟩ := ih
      have hmends := hcourse.mends trivial trivial ⟨hsteady, hdeclared, hscope ▸ hwithin⟩ hread
      refine ⟨hmends.sound.declared, hscope ▸ hmends.sound.within, ?_⟩
      exact hmends.describes [] log (hlog.mono (List.nil_subset _))
  | @remove s log events i relative _ hscope hsteady hcourse hread ih =>
      obtain ⟨hdeclared, hwithin, hlog⟩ := ih
      have hmends := hcourse.mends trivial trivial ⟨hsteady, hdeclared, hscope ▸ hwithin⟩ hread
      refine ⟨hmends.sound.declared, hscope ▸ hmends.sound.within, ?_⟩
      exact hmends.describes [] log (hlog.mono (List.nil_subset _))

/-- **Stored nodes describe their own files.**  Files of one tree are indexed and removed in
any order and change in any way in between, all that is looked at can be read, and the store
does not fail.  Then after each call every stored node is one of those that were applied last
for the file that it is attributed to. -/
theorem nodes_describe_their_files {scope : String} {s : Store} {log : List Event}
    (h : History scope s log) : ∀ n ∈ s.nodes, n ∈ lastApplied log n.file := by
  obtain ⟨-, -, hlog⟩ := h.described
  exact fun n hn => (hlog n hn).resolve_left List.not_mem_nil

/-! ### A run with an heir -/

/-- A stub of a module. -/
def stub : FileTree := FileTree.empty.write "/r/m.pyi" .empty

/-- The module and its stub, which share the node of the module. -/
def stubAndModule : FileTree := stub.write "/r/m.py" .empty

/-- How an empty file is indexed that must be, if nobody inherits from it. -/
theorem emptyFile_course {name : String} {s : IndexState} {c : Commit} {b : Backend}
    (hreads : emptyFileIndexer.Reads name s.site.files .python .empty (emptyFile name))
    (hneeded : (s.tracker.observe name (fingerprint .empty)).1 = true) (hnow : s.site.now = 0)
    (happly : s.site.backend.apply (emptyFileRecord name) [emptyFileModule name] [] = (.ok c, b))
    (hheirs : c.heirs = []) :
    ∃ t, emptyFileIndexer.Course (.index name) s (.ok (.indexed c), t) [.looked name,
        .stored (.replace name (emptyFileRecord name) [emptyFileModule name] []) c] ∧
      t.site = { s.site with backend := b } := by
  obtain ⟨tracker, h⟩ := Indexer.Course.replaces hreads rfl hneeded (by rw [hnow]; exact happly)
    hheirs
  rw [hnow] at h
  exact ⟨_, h, rfl⟩

theorem emptyFile_history {name : String} {s : IndexState} {c : Commit} {b : Backend}
    {log : List Event} (h : History "/r" s.site.backend.store log) (hs : s.site.backend.Steady)
    (hreads : emptyFileIndexer.Reads name s.site.files .python .empty (emptyFile name))
    (hneeded : (s.tracker.observe name (fingerprint .empty)).1 = true) (hnow : s.site.now = 0)
    (happly : s.site.backend.apply (emptyFileRecord name) [emptyFileModule name] [] = (.ok c, b))
    (hheirs : c.heirs = []) : b.Steady ∧ ∃ log', History "/r" b.store log' := by
  obtain ⟨t, hcourse, hsite⟩ := emptyFile_course hreads hneeded hnow happly hheirs
  have hcarried : emptyFileIndexer.CarriedOut
      (.replace name (emptyFileRecord name) [emptyFileModule name] []) c s.site.backend b :=
    Indexer.carryOut_ok rfl happly
  have hrun := hcourse.indexFile_eq
  have hread : ∀ relative, Event.looked relative ∈ [Event.looked name,
      Event.stored (.replace name (emptyFileRecord name) [emptyFileModule name] []) c] →
      emptyFileIndexer.Readable s.site.files relative := by
    intro relative hmem
    obtain rfl : relative = name := by simpa using hmem
    exact hreads.readable
  have hafter := History.index emptyFileIndexer name h rfl hs (hrun ▸ hcourse) hread
  rw [hrun, hsite] at hafter
  exact ⟨hcarried.steady hs, _, hafter⟩

/-- What the stub and the module are stored to, one after the other. -/
def stubStored : Backend :=
  (Backend.new.apply (emptyFileRecord "m.pyi") [emptyFileModule "m.pyi"] []).2

def moduleStored : Backend :=
  (stubStored.apply (emptyFileRecord "m.py") [emptyFileModule "m.py"] []).2

/-- What is left when the module is gone: its node, which the stub has taken over. -/
def moduleGone : Backend := (moduleStored.deleteFile "/r/m.py").2

def stubAgain : Backend :=
  (moduleGone.apply (emptyFileRecord "m.pyi") [emptyFileModule "m.pyi"] []).2

theorem locate_module (files : FileTree) {name : String} (hname : name = "m.py" ∨ name = "m.pyi") :
    files.locate (FilePath.push emptyFileIndexer.root name) = files.follow [] ["", "r", name] := by
  have hpath : FilePath.push emptyFileIndexer.root name = "/r/" ++ name := by
    rcases hname with rfl | rfl <;> decide +kernel
  have hnul : ("/r/" ++ name).contains '\x00' = false := by
    rcases hname with rfl | rfl <;> simp
  rw [hpath, FileTree.locate, hnul]
  rcases hname with rfl | rfl <;> rfl

theorem stub_reads : emptyFileIndexer.Reads "m.pyi" stub .python .empty (emptyFile "m.pyi") := by
  refine emptyFile_reads (by decide +kernel) ?_
  rw [FileTree.read, locate_module _ (.inr rfl)]
  rfl

theorem module_reads :
    emptyFileIndexer.Reads "m.py" stubAndModule .python .empty (emptyFile "m.py") := by
  refine emptyFile_reads (by decide +kernel) ?_
  rw [FileTree.read, locate_module _ (.inl rfl)]
  rfl

theorem module_missing :
    stub.read (FilePath.push emptyFileIndexer.root "m.py") = .error .missing := by
  rw [FileTree.read, locate_module _ (.inl rfl)]
  rfl

/-- The stub inherits from the module, and what it is stored to then is what it was before. -/
theorem module_retracted : (moduleStored.deleteFile "/r/m.py").1 = .ok
    { (0 : Commit) with nodesUpdated := 1, recordWritten := true, heirs := ["/r/m.pyi"] } := by
  decide +kernel

theorem stub_applied :
    (moduleGone.apply (emptyFileRecord "m.pyi") [emptyFileModule "m.pyi"] []).1 = .ok 0 := by
  decide +kernel

/-- Without the module its index call retracts it, and then the stub is indexed again. -/
theorem moduleGone_course : ∃ t c c', emptyFileIndexer.Course (.index "m.py")
    ⟨⟨stub, moduleStored, 0⟩, .empty⟩ (.ok (.deleted c), t) [.looked "m.py",
      .stored (.retract "m.py") c, .looked "m.pyi",
      .stored (.replace "m.pyi" (emptyFileRecord "m.pyi") [emptyFileModule "m.pyi"] []) c'] ∧
    t.site.backend = stubAgain := by
  have hd : (emptyFileIndexer.decide "m.py").run ⟨⟨stub, moduleStored, 0⟩, .empty⟩ =
      (.ok (.change (.retract "m.py")), ⟨⟨stub, moduleStored, 0⟩, .empty⟩) := by
    rw [Indexer.decide, module_reads.supported]
    simp only [run_bind, run_get, module_missing]
    rfl
  obtain ⟨t, hstub, hsite⟩ := emptyFile_course (c := 0)
    (s := ⟨⟨stub, moduleGone, 0⟩, (Tracker.empty.deleted "m.py").invalidate "m.pyi"⟩) stub_reads
    (Tracker.observe_invalidate _ _ _) rfl (Prod.ext stub_applied rfl) rfl
  refine ⟨t, _, 0, .decided hd (.stored (Prod.ext module_retracted rfl) ?_),
    congrArg Site.backend hsite⟩
  have hheir : emptyFileIndexer.relativeStorePath? "/r/m.pyi" = some "m.pyi" :=
    Indexer.relativeStorePath?_eq_some_iff.2 rfl
  have hrest : ∀ outcome, emptyFileIndexer.Course (.refresh [] outcome) t (.ok outcome, t) [] :=
    fun _ => .refreshed
  exact Indexer.Course.heir (s := ⟨⟨stub, moduleGone, 0⟩, Tracker.empty.deleted "m.py"⟩) hheir
    hstub (hrest _)

/-- The stub is indexed, then the module beside it; then the module is gone, and its node is
that of the stub again. -/
theorem nodes_describe_their_files_stub : ∃ s log, History "/r" s log ∧
    s.nodes.toList = [emptyFileModule "m.pyi"] ∧ ∀ n ∈ s.nodes, n ∈ lastApplied log n.file := by
  have hfirst : (Backend.new.apply (emptyFileRecord "m.pyi") [emptyFileModule "m.pyi"] []).1 =
      .ok { (0 : Commit) with nodesAdded := 1, recordWritten := true } := by decide +kernel
  have hsecond : (stubStored.apply (emptyFileRecord "m.py") [emptyFileModule "m.py"] []).1 =
      .ok { (0 : Commit) with nodesUpdated := 1, recordWritten := true } := by decide +kernel
  obtain ⟨hsteady, log, hstub⟩ := emptyFile_history (s := ⟨⟨stub, .new, 0⟩, .empty⟩) .empty
    ⟨rfl, rfl, fun _ => rfl⟩ stub_reads rfl rfl (Prod.ext hfirst rfl) rfl
  obtain ⟨hsteady', log', hmodule⟩ := emptyFile_history
    (s := ⟨⟨stubAndModule, stubStored, 0⟩, .empty⟩) hstub hsteady module_reads rfl rfl
    (Prod.ext hsecond rfl) rfl
  obtain ⟨t, c, c', hcourse, hbackend⟩ := moduleGone_course
  have hrun := hcourse.indexFile_eq
  have hhistory := History.index (s := ⟨⟨stub, moduleStored, 0⟩, .empty⟩) emptyFileIndexer "m.py"
    hmodule rfl hsteady' (hrun ▸ hcourse) fun relative hmem => by
      obtain rfl | rfl : relative = "m.py" ∨ relative = "m.pyi" := by simpa using hmem
      · exact .missing module_missing
      · exact stub_reads.readable
  rw [hrun, hbackend] at hhistory
  exact ⟨_, _, hhistory, by decide +kernel, nodes_describe_their_files hhistory⟩

end CodeAtlas
