import CodeAtlas.Proofs.Indexing.Symbols
import CodeAtlas.Proofs.Indexing.Termination
import CodeAtlas.Proofs.Resolve.Twice
import CodeAtlas.Proofs.Upsert.Idle

/-!
# CodeAtlas.Proofs.Indexing.Again

A file that is indexed again, with nothing changed, writes nothing.

The second time the file is resolved against a store that holds what it contributed the first
time.  Where no node passes from one file to another, neither by what the file gives up nor
by what it takes over, the second resolution comes to what is stored
(`Resolve.resolve_same`), and to apply that does nothing (`Backend.apply_held`).

Without that it is not so.  A file that takes a node over makes it one of its own, which
simple names of the file never mean; and a file that passes a node on has it taken back when
its heir is indexed.
-/

namespace CodeAtlas

open Indexing Upsert

/-! ## Runs without heirs -/

namespace Indexer

variable {i : Indexer} {relative : String}

/-- A file that was indexed was read and resolved, and what it was resolved to was applied.
Without heirs nothing came after that. -/
theorem indexFile_indexed {s t : IndexState} {c : Commit}
    (h : (i.indexFile relative).run s = (.ok (.indexed c), t)) (hheirs : c.heirs = []) :
    ∃ language content file r, i.Reads relative s.site.files language content file ∧
      Resolve.resolve s.site.backend.symbols (i.stored relative file) = .ok r ∧
      s.site.backend.apply (i.recordOf relative s.site.now language content) r.nodes r.edges =
        (.ok c, t.site.backend) ∧
      t.site.files = s.site.files := by
  obtain ⟨events, hcourse⟩ := i.indexFile_course relative s
  rw [h] at hcourse
  obtain ⟨result, tracker, hrun, hruled⟩ := i.decide_ruled relative s
  cases hcourse with
  | settled hd =>
      cases hd.symm.trans hrun
      cases hruled.known.1
  | @decided _ _ _ change _ _ hd hcomplete =>
      cases hd.symm.trans hrun
      cases hcomplete with
      | @stored _ _ done _ _ _ hc hrest =>
          have houtcome : FileOutcome.indexed c = change.outcome done := hrest.gives rfl
          cases hruled with
          | unsupported => cases houtcome
          | missing => cases houtcome
          | tooLarge => cases houtcome
          | replace hreads _ hr =>
              obtain rfl := FileOutcome.indexed.inj houtcome
              simp only [FileChange.heirs, hheirs] at hrest
              cases hrest
              exact ⟨_, _, _, _, hreads, hr, hc, rfl⟩

/-- A file that is read, resolved and applied is indexed. -/
theorem Course.replaces {s : IndexState} {language : Lang} {content : ByteArray}
    {file : SourceFile} {r : Resolution} {c : Commit} {b : Backend}
    (hreads : i.Reads relative s.site.files language content file)
    (hr : Resolve.resolve s.site.backend.symbols (i.stored relative file) = .ok r)
    (hneeded : (s.tracker.observe relative (fingerprint content)).1 = true)
    (happly : s.site.backend.apply (i.recordOf relative s.site.now language content) r.nodes
      r.edges = (.ok c, b)) (hheirs : c.heirs = []) :
    ∃ tracker, i.Course (.index relative) s
      (.ok (.indexed c), { site := { s.site with backend := b }, tracker })
      [.looked relative, .stored (.replace relative
        (i.recordOf relative s.site.now language content) r.nodes r.edges) c] := by
  obtain ⟨tracker, hd⟩ := decide_replaces hreads hr hneeded
  refine ⟨tracker.committed relative (fingerprint content), .decided hd (.stored happly ?_)⟩
  simp only [FileChange.heirs, hheirs]
  exact .refreshed

end Indexer

/-! ## What is held -/

/-- What comes to the same as what is held is held. -/
theorem Store.Holds.same {t : Store} {record record' : FileRecord} {r r' : Resolution}
    (h : t.Holds record r.nodes r.edges) (hsame : r.SameIn t r')
    (hpath : record'.path = record.path) (hlanguage : record'.language = record.language)
    (hfingerprint : record'.fingerprint = record.fingerprint) :
    t.Holds record' r'.nodes r'.edges := by
  obtain ⟨hnodes, hedges⟩ := hsame
  have hids : r.edges.map Edge.id = r'.edges.map Edge.id :=
    Resolve.map_same (fun _ _ => And.left) hedges
  have hvalid : r.edges.map (validIn t) = r'.edges.map (validIn t) :=
    Resolve.map_same (fun _ _ => And.right) hedges
  constructor
  case node =>
    rw [← hnodes]
    exact h.node
  case edge =>
    have hall := List.forall_mem_map.2 h.edge
    rw [hvalid] at hall
    exact List.forall_mem_map.1 hall
  case record =>
    have hcontribution : contributionOf r'.nodes r'.edges = contributionOf r.nodes r.edges := by
      rw [contributionOf, contributionOf, hnodes, hids]
    have hrecord := h.record
    rw [recordChanged] at hrecord ⊢
    rw [hpath, hcontribution]
    simpa only [hlanguage, hfingerprint] using hrecord

/-- A file does not mix with others when the store changes: none of its nodes is one that
another file declared, and it imports no name that it shares. -/
structure Store.Unmixed (path : String) (s t : Store) : Prop where
  node : ∀ n ∈ t.nodes, n.file = path → ∀ m ∈ s.nodes, m.file ≠ path → n.id ≠ m.id
  imported : ∀ e ∈ t.edges, e.file = path → e.relationship = .imports →
    ∀ n ∈ t.nodes, n.file = path → n.qualifiedName = e.targetRef →
      ∀ m ∈ s.nodes, m.file ≠ path → m.qualifiedName ≠ e.targetRef

/-- A file that was resolved and applied, and let no node change hands, is resolved again to
what the store holds. -/
theorem Resolve.resolve_held {f : SourceFile} {record record' : FileRecord} {r : Resolution}
    {s t : Store} {c : Commit} (hs : s.Declared) (hr : resolve s.symbols f = .ok r)
    (hpath : record.path = f.filePath)
    (hgives : (applyWork record r.nodes r.edges).Gives s c t) (hheirs : c.heirs = [])
    (hmix : s.Unmixed f.filePath t) (hpath' : record'.path = record.path)
    (hlanguage : record'.language = record.language)
    (hfingerprint : record'.fingerprint = record.fingerprint) :
    ∃ r', resolve t.symbols f = .ok r' ∧ t.Holds record' r'.nodes r'.edges := by
  have hmade := resolve_madeFrom hr
  have hform := nodes_formed hr
  have hapart := hmade.apart hform
  have heffect := applyWork_effect hgives
  have hholds := heffect.holds hmade.nodeIds hmade.edgeIds
  have hchanged := heffect.changed rfl
  have hpasses := applyWork_heirs hgives hheirs
  rw [hpath] at hchanged hpasses
  -- The nodes of other files are as they were.
  have hdeclared := hchanged.declared hapart (fun n hn => ⟨hform n hn, hmade.nodeFile n hn⟩) hs
  have houtside := hchanged.sameOutside hapart hmade.nodeFile hs hpasses
    fun n hn => hmix.node n (hholds.node n hn) (hmade.nodeFile n hn)
  have hown : ∀ e ∈ r.edges, e.relationship = .imports → t.NameOwn f.filePath e.targetRef := by
    intro e he himports n hn hfile hname m hm hother
    obtain ⟨-, -, hkind, href, hplace⟩ := Edge.eq_of_unlink_eq (validIn_unlink t e)
    have hedgeFile : e.file = f.filePath := by
      obtain ⟨_, _, _, _, rfl, -⟩ := hmade.edge e he
      rfl
    have hnone := hmix.imported _ (hholds.edge e he) (hplace.trans hedgeFile)
      (hkind.trans himports) n hn hfile (hname.trans href.symm) m ((houtside m hother).1 hm) hother
    rwa [href] at hnone
  obtain ⟨r', hr', hsame⟩ := resolve_same houtside hs.formed hdeclared.formed hr hown
  exact ⟨r', hr', hholds.same hsame hpath' hlanguage hfingerprint⟩

/-- **What is indexed again is not written again.**  A file was indexed; it passed no node on
and did not mix with other files.  If it is forced to be indexed again, at any time, then
nothing is written and the store stays as it is. -/
theorem reindex_writes_nothing {i : Indexer} {relative : String} {s t : IndexState} {c : Commit}
    (hs : s.site.backend.store.Indexed)
    (hindexed : (i.indexFile relative).run s = (.ok (.indexed c), t)) (hheirs : c.heirs = [])
    (hmix : s.site.backend.store.Unmixed (i.storePath relative) t.site.backend.store)
    (hout : t.site.backend.outages = []) (hanswers : ∀ q, t.site.backend.refuses q = none)
    (now : Int) :
    ∃ c' u, (i.indexFile relative).run
        { site := { t.site with now }, tracker := t.tracker.invalidate relative } =
          (.ok (.indexed c'), u) ∧
      c'.writes = 0 ∧ u.site.backend.store = t.site.backend.store := by
  obtain ⟨language, content, file, r, hreads, hr, happly, hfiles⟩ :=
    Indexer.indexFile_indexed hindexed hheirs
  obtain ⟨hopen, hrest⟩ := Backend.transact_ok happly
  have hopen' : t.site.backend.isOpen = true := (congrArg Backend.isOpen hrest).trans hopen
  have hrefuses := congrArg Backend.refuses hrest
  rw [Backend.symbols_eq hopen fun q => hrefuses ▸ hanswers q] at hr
  obtain ⟨r', hr', hholds⟩ : ∃ r',
      Resolve.resolve t.site.backend.store.symbols (i.stored relative file) = .ok r' ∧
      t.site.backend.store.Holds (i.recordOf relative now language content) r'.nodes r'.edges :=
    Resolve.resolve_held hs.declared hr rfl (Backend.apply_gives happly) hheirs hmix rfl rfl rfl
  rw [← Backend.symbols_eq hopen' hanswers] at hr'
  obtain ⟨tracker, hagain⟩ := Indexer.Course.replaces
    (s := { site := { t.site with now }, tracker := t.tracker.invalidate relative })
    (hfiles ▸ hreads) hr' (t.tracker.observe_invalidate relative _)
    (Backend.apply_held hopen' hout hholds) rfl
  exact ⟨0, _, hagain.indexFile_eq, rfl, rfl⟩

/-- A file that defines a function and calls it by its simple name. -/
def functionCalled : SourceFile :=
  ⟨"m.py", "m.py", "python", ".",
    [.definition .function "f" [] ⟨0, 0, 0, 8⟩ "def f():", .call "o.f" [] ⟨2, 0, 2, 5⟩],
    ⟨0, 0, 3, 0⟩⟩

/-- Not to mix with other files is needed: the call means the function while another file
declares it, and nothing once the file itself has taken it over. -/
example :
    let before := (Backend.new.apply (.plain "m.pyi") [.plain .function "f" "m.f" "m.pyi"] []).2
    let after := (before.apply (.plain "m.py") [.plain .function "f" "m.f" "m.py"] []).2
    let targets (b : Backend) := (Resolve.resolve b.symbols functionCalled).map fun r =>
      (r.edges.filter (·.relationship == .calls)).map Edge.target
    targets before = .ok [some "function:m.f"] ∧ targets after = .ok [none] := by
  decide +kernel

/-! ## Empty files -/

/-- A table that reads empty files only. -/
def emptyTable : Grammar.Table :=
  { (default : Grammar.Table) with
    grammar := { (default : Grammar.Productions) with
      tokenCount := 1
      symbols := #[⟨"end", false, false, false⟩, ⟨"module", true, true, false⟩] }
    states := #[default, { actions := #[#[.reduce 1 0 0 0]], gotos := #[2], core := 0 },
      { actions := #[#[.accept]], gotos := #[], core := 0 }]
    modes := #[{ (default : Grammar.LexMode) with atEnd := true }]
    modeOf := #[some 0, some 0, some 0] }

/-- An indexer that can do with empty files. -/
def emptyFileIndexer : Indexer where
  readers := ⟨⟨emptyTable, Python.Layout.scanner⟩, ⟨emptyTable, Rust.scanner⟩⟩
  root := "/r"
  scope := "/r"
  languages := [.python]
  filter := WatchFilter.of ["py"] []
  maxFileBytes := 1000

/-- An empty file, as it is read. -/
def emptyFile (path : String) : SourceFile := ⟨path, path, "python", ".", [], default⟩

theorem emptyFile_parsed {path : String}
    (h : Lang.ofPath? emptyFileIndexer.languages path = some .python) :
    emptyFileIndexer.readers.read emptyFileIndexer.languages path .empty =
      .parsed (emptyFile path) := by
  have hshape : (emptyFileIndexer.readers.tree .python (.ofString "")).map (fun root =>
      (root.kind, root.namedChildren.length, root.firstError.isNone, root.span (.ofString ""))) =
        some ("module", 0, true, default) := by
    decide +kernel
  cases hroot : emptyFileIndexer.readers.tree .python (.ofString "") with
  | none =>
      rw [hroot] at hshape
      cases hshape
  | some root =>
      simp only [hroot, Option.map_some, Option.some.injEq, Prod.mk.injEq, List.length_eq_zero_iff,
        Option.isNone_iff_eq_none] at hshape
      obtain ⟨hkind, hchildren, herror, hspan⟩ := hshape
      have htext : String.fromUTF8? .empty = some "" := rfl
      have hfacts : Python.facts (.ofString "") root = [] := by
        rw [Python.facts, Python.walk]
        simp [hkind, hchildren]
      simp only [Readers.read, Readers.found, h, htext, hroot, Readers.facts, hfacts,
        SourceFile.errorFact?, herror, Option.map_none, hspan]
      rfl

theorem emptyFile_reads {files : FileTree} {name : String}
    (hlanguage : Lang.ofPath? emptyFileIndexer.languages name = some .python)
    (hfound : files.read (FilePath.push emptyFileIndexer.root name) = .ok .empty) :
    emptyFileIndexer.Reads name files .python .empty (emptyFile name) where
  supported := hlanguage
  found := hfound
  small := by decide
  parsed := emptyFile_parsed hlanguage

/-- What an empty file contributes: its module. -/
def emptyFileModule (name : String) : Node :=
  Resolve.moduleNode (emptyFileIndexer.stored name (emptyFile name))
    (.ofFile (emptyFileIndexer.stored name (emptyFile name)))

def emptyFileRecord (name : String) : FileRecord :=
  emptyFileIndexer.recordOf name 0 .python .empty

def oneStored : Backend :=
  (Backend.new.apply (emptyFileRecord "b.py") [emptyFileModule "b.py"] []).2

/-! ## A run on two small files -/

/-- A scanner for the words of the two files. -/
def wordScanner : Parsing.Scanner Python.Layout where
  initial := ⟨[], [], false⟩
  scan layout _ src place :=
    let words := ["from", "import", "def", "():", "()"]
    let start := if (src.charAt place).isWhitespace then place + 1 else place
    match words.findIdx? fun w => src.slice start (start + w.length) == w with
    | some k => some ⟨k, start, start + words[k]!.length, layout⟩
    | none =>
      if (src.charAt start).isAlpha then some ⟨words.length, start, start + 1, layout⟩ else none

/-- A state with what it does on some tokens, and where it goes on some symbols. -/
def wordState (actions : List (Nat × Grammar.Action)) (gotos : List (Nat × Nat)) :
    Grammar.State where
  actions := (Array.range 7).map fun t => ((actions.lookup t).map fun a => #[a]).getD #[]
  gotos := (Array.range 5).map fun k => (gotos.lookup (7 + k)).getD 0
  core := 0

/-- A table that reads an import, if there is one, and a function whose body is a call. -/
def wordTable : Grammar.Table :=
  let dotted : Option Grammar.Alias := some ⟨"dotted_name", true⟩
  let shift (state : Nat) : Grammar.Action := .shift state false
  { (default : Grammar.Table) with
    grammar := { (default : Grammar.Productions) with
      tokenCount := 7
      symbols := #[⟨"end", false, false, false⟩, ⟨"from", true, false, false⟩,
        ⟨"import", true, false, false⟩, ⟨"def", true, false, false⟩, ⟨"():", true, false, false⟩,
        ⟨"()", true, false, false⟩, ⟨"identifier", true, true, false⟩,
        ⟨"module", true, true, false⟩, ⟨"import_from_statement", true, true, false⟩,
        ⟨"function_definition", true, true, false⟩, ⟨"block", true, true, false⟩,
        ⟨"call", true, true, false⟩]
      externals := #[1, 2, 3, 4, 5, 6] }
    labels := #[default,
      ⟨#[none, some "module_name", none, some "name"], #[none, dotted, none, dotted]⟩,
      ⟨#[none, some "name", none, some "body"], #[]⟩, ⟨#[some "function"], #[]⟩]
    states := #[default, wordState [(1, shift 2), (3, shift 7)] [(7, 15), (8, 6), (9, 14)],
      wordState [(6, shift 3)] [], wordState [(2, shift 4)] [], wordState [(6, shift 5)] [],
      wordState [(3, .reduce 8 4 0 1)] [], wordState [(3, shift 7)] [(9, 13)],
      wordState [(6, shift 8)] [], wordState [(4, shift 9)] [],
      wordState [(6, shift 10)] [(10, 12), (11, 16)], wordState [(5, shift 11)] [],
      wordState [(0, .reduce 11 2 0 3)] [], wordState [(0, .reduce 9 4 0 2)] [],
      wordState [(0, .reduce 7 2 0 0)] [], wordState [(0, .reduce 7 1 0 0)] [],
      wordState [(0, .accept)] [], wordState [(0, .reduce 10 1 0 0)] []]
    modes := #[{ (default : Grammar.LexMode) with atEnd := true, blanks := true }]
    modeOf := Array.replicate 17 (some 0)
    externalsOf := Array.replicate 17 63 }

/-- An indexer that can do with the two files. -/
def wordIndexer : Indexer :=
  { emptyFileIndexer with readers := ⟨⟨wordTable, wordScanner⟩, ⟨emptyTable, Rust.scanner⟩⟩ }

def calleeText : ByteArray := "def g():g()".toUTF8

def callerText : ByteArray := "from b import g\ndef f():g()".toUTF8

def callerAndCallee : FileTree :=
  (FileTree.empty.write "/r/b.py" calleeText).write "/r/a.py" callerText

/-- A file that defines a function, as it is read. -/
def calleeFile : SourceFile :=
  ⟨"b.py", "b.py", "python", ".",
    [.definition .function "g" [] ⟨0, 0, 0, 11⟩ "def g", .call "g" ["g"] ⟨0, 8, 0, 11⟩],
    ⟨0, 0, 0, 11⟩⟩

/-- A file that imports the function and calls it in one of its own, as it is read. -/
def callerFile : SourceFile :=
  ⟨"a.py", "a.py", "python", ".",
    [.imported "g" "b.g" [] ⟨0, 14, 0, 15⟩, .definition .function "f" [] ⟨1, 0, 1, 11⟩ "def f",
      .call "g" ["f"] ⟨1, 8, 1, 11⟩],
    ⟨0, 0, 1, 11⟩⟩

theorem callerAndCallee_read {name : String} (hname : name = "a.py" ∨ name = "b.py") :
    callerAndCallee.read (FilePath.push wordIndexer.root name) =
      .ok (if name = "a.py" then callerText else calleeText) := by
  have hpath : FilePath.push wordIndexer.root name = "/r/" ++ name := by
    rcases hname with rfl | rfl <;> decide +kernel
  have hnul : ("/r/" ++ name).contains '\x00' = false := by
    rcases hname with rfl | rfl <;> simp
  have hplace : callerAndCallee.locate ("/r/" ++ name) = .ok ["r", name] := by
    rw [FileTree.locate, hnul]
    rcases hname with rfl | rfl <;> decide +kernel
  rw [hpath, FileTree.read, hplace]
  rcases hname with rfl | rfl <;> rfl

theorem callee_reads : wordIndexer.Reads "b.py" callerAndCallee .python calleeText calleeFile where
  supported := by decide +kernel
  found := callerAndCallee_read (.inr rfl)
  small := by decide +kernel
  parsed := by decide +kernel

theorem caller_reads : wordIndexer.Reads "a.py" callerAndCallee .python callerText callerFile where
  supported := by decide +kernel
  found := callerAndCallee_read (.inl rfl)
  small := by decide +kernel
  parsed := by decide +kernel

/-- What one of the two files is resolved to. -/
def wordResolution (b : Backend) (file : SourceFile) : Resolution :=
  (Resolve.resolve b.symbols (wordIndexer.stored file.relativePath file)).toOption.getD default

/-- What comes of applying that. -/
def wordApplied (b : Backend) (content : ByteArray) (file : SourceFile) :
    Except Error Commit × Backend :=
  b.apply (wordIndexer.recordOf file.relativePath 0 .python content)
    (wordResolution b file).nodes (wordResolution b file).edges

/-- One of the two files is indexed by applying what it is resolved to. -/
theorem words_indexed {b : Backend} {content : ByteArray} {file : SourceFile} {c : Commit}
    (hreads : wordIndexer.Reads file.relativePath callerAndCallee .python content file)
    (hresolves : (Resolve.resolve b.symbols
      (wordIndexer.stored file.relativePath file)).toOption.isSome = true)
    (happly : (wordApplied b content file).1 = .ok c) (hheirs : c.heirs = []) :
    ∃ tracker, (wordIndexer.indexFile file.relativePath).run ⟨⟨callerAndCallee, b, 0⟩, .empty⟩ =
      (.ok (.indexed c), ⟨⟨callerAndCallee, (wordApplied b content file).2, 0⟩, tracker⟩) := by
  have hr : Resolve.resolve b.symbols (wordIndexer.stored file.relativePath file) =
      .ok (wordResolution b file) := by
    rw [wordResolution]
    cases h : Resolve.resolve b.symbols (wordIndexer.stored file.relativePath file) with
    | ok r => rfl
    | error e =>
        rw [h] at hresolves
        cases hresolves
  obtain ⟨tracker, h⟩ := Indexer.Course.replaces (s := ⟨⟨callerAndCallee, b, 0⟩, .empty⟩)
    hreads hr rfl (Prod.ext happly rfl) hheirs
  exact ⟨tracker, h.indexFile_eq⟩

/-- The store with the function that is called. -/
def calleeStored : Backend := (wordApplied .new calleeText calleeFile).2

/-- The store with both files. -/
def callerStored : Backend := (wordApplied calleeStored callerText callerFile).2

/-- A file imports a function of another one, and calls it in a function of its own; it is indexed,
and once more. -/
theorem reindex_writes_nothing_caller : ∃ s t c,
    s.site.backend.store.Indexed ∧
    s.site.backend.store.nodes.toList.map Node.id = ["module:b", "function:b.g"] ∧
    (wordIndexer.indexFile "a.py").run s = (.ok (.indexed c), t) ∧
    c = { (0 : Commit) with nodesAdded := 2, edgesAdded := 3, recordWritten := true } ∧
    (t.site.backend.store.edges.toList.filter (·.file == "/r/a.py")).map
      (fun e => (e.relationship, e.source, e.target)) =
        [(.contains, "module:a", some "function:a.f"), (.imports, "module:a", some "function:b.g"),
          (.calls, "function:a.f", some "function:b.g")] ∧
    ∃ c' u, (wordIndexer.indexFile "a.py").run
        { site := { t.site with now := 5 }, tracker := t.tracker.invalidate "a.py" } =
          (.ok (.indexed c'), u) ∧
      c'.writes = 0 ∧ u.site.backend.store = t.site.backend.store := by
  have hfirst : (wordApplied .new calleeText calleeFile).1 =
      .ok { (0 : Commit) with nodesAdded := 2, edgesAdded := 2, recordWritten := true } := by
    decide +kernel
  have hsecond : (wordApplied calleeStored callerText callerFile).1 =
      .ok { (0 : Commit) with nodesAdded := 2, edgesAdded := 3, recordWritten := true } := by
    decide +kernel
  obtain ⟨-, hone⟩ := Backend.transact_ok (Prod.ext hfirst rfl)
  obtain ⟨-, hboth⟩ := Backend.transact_ok (Prod.ext hsecond rfl)
  obtain ⟨tracker, hrun⟩ := words_indexed callee_reads (by decide +kernel) hfirst rfl
  obtain ⟨tracker', hrun'⟩ := words_indexed caller_reads (by decide +kernel) hsecond rfl
  have hindexed : calleeStored.store.Indexed := by
    have h := Store.Indexed.index wordIndexer "b.py"
      (s := ⟨⟨callerAndCallee, .new, 0⟩, .empty⟩) .empty
    rw [show "b.py" = calleeFile.relativePath from rfl, hrun] at h
    exact h
  have hmix : calleeStored.store.Unmixed "/r/a.py" callerStored.store := by
    have hnodes : ∀ n ∈ callerStored.store.nodes.toList, n.file = "/r/a.py" →
        ∀ m ∈ calleeStored.store.nodes.toList, m.file ≠ "/r/a.py" → n.id ≠ m.id := by
      decide +kernel
    have hnames : ∀ e ∈ callerStored.store.edges.toList, e.file = "/r/a.py" →
        ∀ n ∈ callerStored.store.nodes.toList, n.file = "/r/a.py" →
          e.relationship = .imports → n.qualifiedName ≠ e.targetRef := by
      decide +kernel
    exact ⟨hnodes, fun e he hfile himports n hn hown hname =>
      absurd hname (hnames e he hfile n hn hown himports)⟩
  have hrefuses := congrArg Backend.refuses hone
  have hrefuses' := congrArg Backend.refuses hboth
  have hanswers : ∀ q, callerStored.refuses q = none := congrFun (hrefuses'.trans hrefuses)
  have hout : callerStored.outages = [] := by
    decide +kernel
  have hedges : (callerStored.store.edges.toList.filter (·.file == "/r/a.py")).map
      (fun e => (e.relationship, e.source, e.target)) =
        [(.contains, "module:a", some "function:a.f"), (.imports, "module:a", some "function:b.g"),
          (.calls, "function:a.f", some "function:b.g")] := by
    decide +kernel
  exact ⟨_, _, _, hindexed, by decide +kernel, hrun', rfl, hedges,
    reindex_writes_nothing hindexed hrun' rfl hmix hout hanswers 5⟩

end CodeAtlas
