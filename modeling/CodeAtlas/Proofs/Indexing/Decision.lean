import CodeAtlas.Proofs.Indexing.Work
import CodeAtlas.Proofs.Store.Rows

/-!
# CodeAtlas.Proofs.Indexing.Decision

What is decided for a file, and when.

`Indexer.Ruled` is the table of all cases: what is found of a file, what is decided then or
why nothing can be decided, and what is noted of the file.  Deciding leaves the site alone and
comes to one of these cases (`Indexer.decide_ruled`), none of which touches a fingerprint.
`Indexer.Decided` lists the decisions alone, with all that was read on the way to a
replacement (`Indexer.Reads`); and a file that is to be indexed, and can be read and resolved,
is replaced (`Indexer.decide_replaces`).
-/

namespace CodeAtlas

open Indexing

/-! ## What is known of a file -/

namespace Tracker

variable (t : Tracker) (path fingerprint : String)

/-- To see a file is not to know its fingerprint. -/
theorem observe_fingerprints :
    (t.observe path fingerprint).2.fingerprints = t.fingerprints := by
  simp only [observe]
  split
  · split <;> rfl
  · split <;> rfl

/-- Only a file whose fingerprint is known need not be indexed. -/
theorem observe_known (h : (t.observe path fingerprint).1 = false) :
    t.fingerprints.value? path = some fingerprint := by
  simp only [observe, Bool.or_eq_false_iff, Fingerprints.isChanged, bne_eq_false_iff_eq] at h
  exact h.1.1

@[simp] theorem setState_fingerprints (s : FileState) :
    (t.setState path s).fingerprints = t.fingerprints := rfl

theorem state_setState (s : FileState) (p : String) :
    (t.setState path s).state p = if path = p then s else t.state p := by
  simp only [state, setState, Dict.value?, Dict.insert, Rows.get?_put]
  split <;> rfl

/-- A file that is indexed, and has the fingerprint that is known of it, is left as it is. -/
theorem observe_indexed (hknown : t.fingerprints.value? path = some fingerprint)
    (hstate : t.state path = .indexed) : t.observe path fingerprint = (false, t) := by
  simp [observe, Fingerprints.isChanged, hknown, hstate]

/-- To see a file changes the state of no other file. -/
theorem observe_state {p : String} (h : path ≠ p) :
    (t.observe path fingerprint).2.state p = t.state p := by
  simp only [observe]
  split
  · split
    · rfl
    · rw [state_setState, if_neg h]
  · split
    · rw [state_setState, if_neg h]
    · rfl

/-- What was forced to be indexed is to be indexed. -/
theorem observe_invalidate : ((t.invalidate path).observe path fingerprint).1 = true := by
  have hchanged : (t.invalidate path).fingerprints.isChanged path fingerprint = true := by
    simp [invalidate, setState, Fingerprints.isChanged, Dict.value?, Rows.get?_erase]
  simp [observe, hchanged]

end Tracker

/-! ## What is read of a file -/

/-- A file in one of the languages is read or fails to be read. -/
theorem Readers.read_ne_unsupported {readers : Readers} {languages : List Lang} {path : String}
    {content : ByteArray} {language : Lang} (h : Lang.ofPath? languages path = some language) :
    readers.read languages path content ≠ .unsupported := by
  rw [Readers.read, h]
  simp only []
  split
  · simp
  · split <;> simp

/-! ## Decisions -/

/-- Two states with one site and one table of fingerprints. -/
def IndexState.Untouched (s t : IndexState) : Prop :=
  t.site = s.site ∧ t.tracker.fingerprints = s.tracker.fingerprints

theorem IndexState.Untouched.refl (s : IndexState) : s.Untouched s := ⟨rfl, rfl⟩

namespace Indexer

/-- A file of a tree that can be read in one of its languages. -/
structure Reads (i : Indexer) (relative : String) (files : FileTree) (language : Lang)
    (content : ByteArray) (file : SourceFile) : Prop where
  supported : Lang.ofPath? i.languages relative = some language
  found : files.read (FilePath.push i.root relative) = .ok content
  small : ¬ i.maxFileBytes < content.size
  parsed : i.readers.read i.languages relative content = .parsed file

/-- The record of a file before it has contributed anything. -/
def recordOf (i : Indexer) (relative : String) (now : Int) (language : Lang)
    (content : ByteArray) : FileRecord where
  path := i.storePath relative
  language := language.name
  fingerprint := fingerprint content
  indexedAt := now
  contributions := []

/-- The file as it is stored. -/
def stored (i : Indexer) (relative : String) (file : SourceFile) : SourceFile :=
  { file with filePath := i.storePath relative }

/-- What may be decided for a file. -/
inductive Decided (i : Indexer) (relative : String) (site : Site) : Decision → Prop
  | unchanged : Decided i relative site (.done .unchanged)
  | replace {language : Lang} {content : ByteArray} {file : SourceFile} {r : Resolution} :
      i.Reads relative site.files language content file →
      Resolve.resolve site.backend.symbols (i.stored relative file) = .ok r →
      Decided i relative site (.change
        (.replace relative (i.recordOf relative site.now language content) r.nodes r.edges))
  | retract : Decided i relative site (.change (.retract relative))
  | skip (reason : SkipReason) : Decided i relative site (.change (.skip relative reason))

variable {i : Indexer} {relative : String}

/-! ## All cases -/

/-- A file of a tree that is small enough, in one of its languages. -/
structure Finds (i : Indexer) (relative : String) (files : FileTree) (language : Lang)
    (content : ByteArray) : Prop where
  supported : Lang.ofPath? i.languages relative = some language
  found : files.read (FilePath.push i.root relative) = .ok content
  small : ¬ i.maxFileBytes < content.size

/-- What is found of a file, what is decided then, and what is noted of the file. -/
inductive Ruled (i : Indexer) (relative : String) (s : IndexState) :
    Except Error Decision → Tracker → Prop
  | unsupported : Lang.ofPath? i.languages relative = none →
      Ruled i relative s (.ok (.change (.skip relative .unsupported))) s.tracker
  | missing {language : Lang} : Lang.ofPath? i.languages relative = some language →
      s.site.files.read (FilePath.push i.root relative) = .error .missing →
      Ruled i relative s (.ok (.change (.retract relative))) s.tracker
  | unreadable {language : Lang} {e : ReadFailure} :
      Lang.ofPath? i.languages relative = some language →
      s.site.files.read (FilePath.push i.root relative) = .error e → e ≠ .missing →
      Ruled i relative s (.error (.io e.message)) s.tracker
  | tooLarge {language : Lang} {content : ByteArray} :
      Lang.ofPath? i.languages relative = some language →
      s.site.files.read (FilePath.push i.root relative) = .ok content →
      i.maxFileBytes < content.size →
      Ruled i relative s (.ok (.change (.skip relative .tooLarge))) s.tracker
  | unchanged {language : Lang} {content : ByteArray} :
      i.Finds relative s.site.files language content →
      (s.tracker.observe relative (fingerprint content)).1 = false →
      Ruled i relative s (.ok (.done .unchanged))
        (s.tracker.observe relative (fingerprint content)).2
  | unparsed {language : Lang} {content : ByteArray} {e : Error} :
      i.Finds relative s.site.files language content →
      (s.tracker.observe relative (fingerprint content)).1 = true →
      i.readers.read i.languages relative content = .failed e →
      Ruled i relative s (.error e)
        ((s.tracker.observe relative (fingerprint content)).2.begin relative)
  | unresolved {language : Lang} {content : ByteArray} {file : SourceFile} {e : Error} :
      i.Reads relative s.site.files language content file →
      (s.tracker.observe relative (fingerprint content)).1 = true →
      Resolve.resolve s.site.backend.symbols (i.stored relative file) = .error e →
      Ruled i relative s (.error e)
        ((s.tracker.observe relative (fingerprint content)).2.begin relative)
  | replace {language : Lang} {content : ByteArray} {file : SourceFile} {r : Resolution} :
      i.Reads relative s.site.files language content file →
      (s.tracker.observe relative (fingerprint content)).1 = true →
      Resolve.resolve s.site.backend.symbols (i.stored relative file) = .ok r →
      Ruled i relative s (.ok (.change
        (.replace relative (i.recordOf relative s.site.now language content) r.nodes r.edges)))
        ((s.tracker.observe relative (fingerprint content)).2.begin relative)

/-- To decide is to come to one of the cases. -/
theorem decide_ruled (i : Indexer) (relative : String) (s : IndexState) :
    ∃ result tracker, (i.decide relative).run s = (result, { s with tracker }) ∧
      i.Ruled relative s result tracker := by
  rw [decide]
  cases hlanguage : Lang.ofPath? i.languages relative with
  | none => exact ⟨_, _, rfl, .unsupported hlanguage⟩
  | some language =>
    simp only [run_bind, run_get]
    cases hread : s.site.files.read (FilePath.push i.root relative) with
    | error e =>
      cases e with
      | missing => exact ⟨_, _, rfl, .missing hlanguage hread⟩
      | _ => exact ⟨_, _, rfl, .unreadable hlanguage hread nofun⟩
    | ok content =>
      by_cases hsize : i.maxFileBytes < content.size
      · simp only [if_pos hsize]
        exact ⟨_, _, rfl, .tooLarge hlanguage hread hsize⟩
      · have hfinds : i.Finds relative s.site.files language content := ⟨hlanguage, hread, hsize⟩
        simp only [if_neg hsize, decideContent, run_bind, run_get]
        cases hneeded : (s.tracker.observe relative (fingerprint content)).1 with
        | false => exact ⟨_, _, rfl, .unchanged hfinds hneeded⟩
        | true =>
          cases hparsed : i.readers.read i.languages relative content with
          | unsupported => exact absurd hparsed (Readers.read_ne_unsupported hlanguage)
          | failed e => exact ⟨_, _, rfl, .unparsed hfinds hneeded hparsed⟩
          | parsed file =>
            have hreads : i.Reads relative s.site.files language content file :=
              ⟨hlanguage, hread, hsize, hparsed⟩
            simp only [Bool.not_true, Bool.false_eq_true, if_false, run_bind, run_onTracker]
            rw [← stored]
            cases hr : Resolve.resolve s.site.backend.symbols (i.stored relative file) with
            | error e => exact ⟨_, _, rfl, .unresolved hreads hneeded hr⟩
            | ok r => exact ⟨_, _, rfl, .replace hreads hneeded hr⟩

/-- What was decided is one of the cases. -/
theorem ruled_of_decide {s t : IndexState} {result : Except Error Decision}
    (h : (i.decide relative).run s = (result, t)) :
    ∃ tracker, t = { s with tracker } ∧ i.Ruled relative s result tracker := by
  obtain ⟨_, tracker, hrun, hruled⟩ := i.decide_ruled relative s
  cases h.symm.trans hrun
  exact ⟨tracker, rfl, hruled⟩

namespace Ruled

variable {s : IndexState} {result : Except Error Decision} {tracker : Tracker}

theorem fingerprints (h : i.Ruled relative s result tracker) :
    tracker.fingerprints = s.tracker.fingerprints := by
  cases h with
  | unsupported => rfl
  | missing => rfl
  | unreadable => rfl
  | tooLarge => rfl
  | unchanged => exact Tracker.observe_fingerprints ..
  | unparsed => exact Tracker.observe_fingerprints ..
  | unresolved => exact Tracker.observe_fingerprints ..
  | replace => exact Tracker.observe_fingerprints ..

/-- The states of other files stay. -/
theorem state_other (h : i.Ruled relative s result tracker) {p : String} (hp : relative ≠ p) :
    tracker.state p = s.tracker.state p := by
  have hseen : ∀ fingerprint, ((s.tracker.observe relative fingerprint).2.begin relative).state p =
      s.tracker.state p := by
    intro fingerprint
    rw [Tracker.begin, Tracker.state_setState, if_neg hp, Tracker.observe_state _ _ _ hp]
  cases h with
  | unsupported => rfl
  | missing => rfl
  | unreadable => rfl
  | tooLarge => rfl
  | unchanged => exact Tracker.observe_state _ _ _ hp
  | unparsed => exact hseen _
  | unresolved => exact hseen _
  | replace => exact hseen _

theorem decided {d : Decision} (h : i.Ruled relative s (.ok d) tracker) :
    i.Decided relative s.site d := by
  cases h with
  | unsupported => exact .skip _
  | missing => exact .retract
  | tooLarge => exact .skip _
  | unchanged => exact .unchanged
  | replace hreads _ hr => exact .replace hreads hr

/-- A file with which nothing is to be done holds what is known of it. -/
theorem known {outcome : FileOutcome} (h : i.Ruled relative s (.ok (.done outcome)) tracker) :
    outcome = .unchanged ∧ ∃ language content, i.Finds relative s.site.files language content ∧
      s.tracker.fingerprints.value? relative = some (fingerprint content) := by
  cases h with
  | unchanged hfinds hneeded => exact ⟨rfl, _, _, hfinds, Tracker.observe_known _ _ _ hneeded⟩

/-- A file that is not to be replaced cannot be read as a source file. -/
theorem gone {c : FileChange} (h : i.Ruled relative s (.ok (.change c)) tracker)
    (hc : ¬ c.Replaces) {language : Lang} {content : ByteArray} :
    ¬ i.Finds relative s.site.files language content := by
  intro hfinds
  cases h with
  | unsupported hnone => exact absurd (hnone.symm.trans hfinds.supported) nofun
  | missing _ hmissing => exact absurd (hmissing.symm.trans hfinds.found) nofun
  | tooLarge _ hfound hlarge =>
      obtain rfl := Except.ok.inj (hfound.symm.trans hfinds.found)
      exact hfinds.small hlarge
  | replace => exact hc trivial

end Ruled

/-- Deciding leaves the site and the fingerprints alone. -/
theorem decide_decided (i : Indexer) (relative : String) (s : IndexState) :
    Leads s.Untouched (i.decide relative)
      (fun d t => s.Untouched t ∧ i.Decided relative s.site d) s.Untouched := by
  intro t ht
  obtain ⟨result, tracker, hrun, hruled⟩ := i.decide_ruled relative t
  have huntouched : s.Untouched { t with tracker } := ⟨ht.1, hruled.fingerprints.trans ht.2⟩
  rw [hrun]
  cases result with
  | error e => exact huntouched
  | ok d => exact ⟨huntouched, ht.1 ▸ hruled.decided⟩

/-- A file that is to be indexed, and can be read and resolved, is to be replaced. -/
theorem decide_replaces {s : IndexState} {language : Lang} {content : ByteArray}
    {file : SourceFile} {r : Resolution}
    (hreads : i.Reads relative s.site.files language content file)
    (hr : Resolve.resolve s.site.backend.symbols (i.stored relative file) = .ok r)
    (hneeded : (s.tracker.observe relative (fingerprint content)).1 = true) :
    ∃ tracker, (i.decide relative).run s = (.ok (.change (.replace relative
      (i.recordOf relative s.site.now language content) r.nodes r.edges)), { s with tracker }) := by
  refine ⟨(s.tracker.observe relative (fingerprint content)).2.begin relative, ?_⟩
  rw [decide, hreads.supported]
  simp only [run_bind, run_get, hreads.found, if_neg hreads.small]
  rw [stored] at hr
  rw [decideContent]
  simp only [run_bind, run_get, hneeded, hreads.parsed, hr]
  rfl

/-- A file that is found as it is known is left as it is. -/
theorem decide_unchanged {s : IndexState} {language : Lang} {content : ByteArray}
    (hfinds : i.Finds relative s.site.files language content)
    (hneeded : (s.tracker.observe relative (fingerprint content)).1 = false) :
    (i.decide relative).run s = (.ok (.done .unchanged),
      { s with tracker := (s.tracker.observe relative (fingerprint content)).2 }) := by
  rw [decide, hfinds.supported]
  simp only [run_bind, run_get, hfinds.found, if_neg hfinds.small]
  rw [decideContent]
  simp only [run_bind, run_get, hneeded]
  rfl

end Indexer

end CodeAtlas
