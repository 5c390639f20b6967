import CodeAtlas.Proofs.Service.Errand

/-!
# CodeAtlas.Proofs.Service.Jobs

Jobs of one service that are at work at the same time.

A request enters a job while it has hold of the table, and got hold of it when no job was at work
on its tree.  Until then nobody else enters a job, and no thread tells of one, so no two jobs are
ever at work on one tree.  `Office.Sound` is what every step keeps (`Office.Sound.step`), and with
it goes what becomes of the jobs in a step (`Office.Step.follows`).
-/

namespace CodeAtlas

/-- Whether a path is the one path of a directory or file, as it is or was. -/
def Canonical (key : String) : Prop :=
  ∃ (files : FileTree) (path : String), files.canonical? path = .ok key

/-- The tree that a request turned out to be about. -/
def Inquiry.key? : Inquiry → Option String
  | asked _ _ => none
  | directory _ _ => none
  | located key _ => some key
  | unregistered key _ => some key

/-- Whatever a request finds out about its tree, the tree has one path. -/
theorem Inquiry.Looks.canonical {site : Site} {r r' : Inquiry} {key : String}
    (hl : r.Looks site (some r')) (hr : ∀ key, r.key? = some key → Canonical key)
    (hkey : r'.key? = some key) : Canonical key := by
  cases hl with
  | directory => cases hkey
  | located hcanonical =>
      obtain rfl := Option.some.inj hkey
      exact ⟨_, _, hcanonical⟩
  | unregistered => exact hr key hkey

/-- A tree that is registered stays so, whatever a job does. -/
theorem Errand.Works.keeps {e e' : Errand} {site site' : Site} {path : String}
    (hw : e.Works site e' site') (h : site.backend.store.Registers path) :
    site'.backend.store.Registers path := by
  cases hw with
  | registers _ hregister => exact Backend.register_keeps hregister h
  | _ => exact h

/-- Whether two jobs are at work on one tree. -/
def Job.Collides (a b : Job) : Prop :=
  a.path = b.path ∧ a.state.isActive = true ∧ b.state.isActive = true

theorem Job.Collides.symm {a b : Job} (h : a.Collides b) : b.Collides a := ⟨h.1.symm, h.2.2, h.2.1⟩

namespace Job.Moves

variable {a b : Job}

/-- A job that is over does not come back to work. -/
theorem wasActive (h : a.Moves b) (hb : b.state.isActive = true) : a.state.isActive = true := by
  by_contra ha
  rw [h.settled (Bool.eq_false_iff.2 ha)] at hb
  exact ha hb

/-- A job that gets on does not come into the way of another one. -/
theorem collides {c : Job} (h : a.Moves b) (hb : b.Collides c) : a.Collides c :=
  ⟨h.path ▸ hb.1, h.wasActive hb.2.1, hb.2.2⟩

end Job.Moves

namespace Office

variable {o o' : Office}

/-- Where no job is found at work on a tree, all jobs of that tree are over. -/
theorem ended_of_activeJob?_eq_none {key : String} (h : o.service.activeJob? key = none) :
    ∀ e ∈ o.errands, e.job.path = key → e.job.state.isActive = false := by
  intro e he hpath
  have hjob : e.job ∈ o.service.jobs :=
    List.mem_map_of_mem (List.mem_map_of_mem he)
  simpa [hpath] using List.find?_eq_none.1 h e.job hjob

/-- What holds in an office at any time: all jobs keep to what is told of them, no two of them are
at work on one tree, and none is on the tree of a request with hold of the table. -/
structure Sound (o : Office) : Prop where
  errands : ∀ e ∈ o.errands, e.Sound o.site.backend.store
  apart : o.errands.Pairwise fun a b => ¬ a.job.Collides b.job
  held : ∀ a, o.holder = some a → ∀ e ∈ o.errands, e.job.path = a.key →
    e.job.state.isActive = false
  asked : ∀ r ∈ o.requests, ∀ key, r.key? = some key → Canonical key
  admitted : ∀ a, o.holder = some a → Canonical a.key
  entered : ∀ e ∈ o.errands, Canonical e.job.path

/-- What becomes of the jobs in a step: each gets on in its place, and new ones are pending. -/
structure Follows (o o' : Office) : Prop where
  moves : ∀ {i : Nat} {a : Errand}, o.errands[i]? = some a →
    ∃ b, o'.errands[i]? = some b ∧ a.job.Moves b.job
  enters : ∀ {i : Nat} {b : Errand}, o.errands[i]? = none → o'.errands[i]? = some b →
    b.job.state = .pending

namespace Sound

/-- Nothing holds an office up that has no job and no request. -/
theorem initial (readers : Readers) (config : Config) (nextJob : Nat) (site : Site) :
    Sound ⟨readers, config, [], nextJob, [], none, site⟩ where
  errands _ he := absurd he List.not_mem_nil
  apart := .nil
  held _ ha := by cases ha
  asked _ hr := absurd hr List.not_mem_nil
  admitted _ ha := by cases ha
  entered _ he := absurd he List.not_mem_nil

/-- Requests come and go while the jobs are as they are. -/
theorem requests (h : o.Sound) {requests : List Inquiry}
    (hrequests : ∀ r ∈ requests, ∀ key, r.key? = some key → Canonical key) :
    Sound { o with requests } :=
  ⟨h.errands, h.apart, h.held, hrequests, h.admitted, h.entered⟩

/-- Another request gets hold of the table, or the same one gets on, or none has hold of it. -/
theorem holder (h : o.Sound) {holder : Option Admission}
    (hheld : ∀ a, holder = some a → Canonical a.key ∧
      ∀ e ∈ o.errands, e.job.path = a.key → e.job.state.isActive = false) :
    Sound { o with holder } :=
  ⟨h.errands, h.apart, fun a ha => (hheld a ha).2, h.asked, fun a ha => (hheld a ha).1, h.entered⟩

/-- A job gets on, and the surroundings change. -/
theorem replaces (h : o.Sound) {before after : List Errand} {e e' : Errand} {site : Site}
    (herrands : o.errands = before ++ e :: after)
    (hkeeps : ∀ path, o.site.backend.store.Registers path → site.backend.store.Registers path)
    (hsound : e'.Sound site.backend.store) (hmoves : e.job.Moves e'.job) :
    Sound { o with errands := before ++ e' :: after, site } := by
  have hmem : ∀ x ∈ before ++ e' :: after, x = e' ∨ x ∈ o.errands := by
    intro x hx
    rw [herrands]
    simp only [List.mem_append, List.mem_cons] at hx ⊢
    tauto
  have he : e ∈ o.errands := by simp [herrands]
  constructor
  case errands =>
    intro x hx
    rcases hmem x hx with rfl | hx
    · exact hsound
    · exact (h.errands x hx).congr hkeeps
  case apart =>
    have hapart := h.apart
    rw [herrands, List.pairwise_append, List.pairwise_cons] at hapart
    obtain ⟨hbefore, ⟨hnext, hafter⟩, hacross⟩ := hapart
    refine List.pairwise_append.2 ⟨hbefore, List.pairwise_cons.2 ⟨fun x hx hc => ?_, hafter⟩,
      fun x hx y hy hc => ?_⟩
    · exact hnext x hx (hmoves.collides hc)
    · rcases List.mem_cons.1 hy with rfl | hy
      · exact hacross x hx e List.mem_cons_self (hmoves.collides hc.symm).symm
      · exact hacross x hx y (List.mem_cons_of_mem _ hy) hc
  case held =>
    intro a ha x hx hpath
    rcases hmem x hx with rfl | hx
    · have hended := h.held a ha e he (hmoves.path ▸ hpath)
      rwa [hmoves.settled hended]
    · exact h.held a ha x hx hpath
  case asked => exact h.asked
  case admitted => exact h.admitted
  case entered =>
    intro x hx
    rcases hmem x hx with rfl | hx
    · rw [hmoves.path]
      exact h.entered e he
    · exact h.entered x hx

/-- A request enters its job. -/
theorem enters (h : o.Sound) {key : String} {isDependency : Bool} {indexer : Indexer}
    {tracker : Tracker} (hholder : o.holder = some (.prepared key isDependency indexer tracker)) :
    Sound { o with
      errands := o.errands ++ [o.entry key isDependency indexer tracker]
      nextJob := o.nextJob + 1
      holder := none } := by
  constructor
  case errands =>
    intro e he
    rcases List.mem_append.1 he with he | he
    · exact h.errands e he
    · rw [List.mem_singleton.1 he]
      exact .entered _ rfl rfl rfl rfl
  case apart =>
    refine List.pairwise_append.2 ⟨h.apart, List.pairwise_singleton _ _, fun a ha b hb hc => ?_⟩
    rw [List.mem_singleton.1 hb] at hc
    have hended := h.held _ hholder a ha hc.1
    rw [hc.2.1] at hended
    cases hended
  case held =>
    intro a (ha : none = some a)
    cases ha
  case asked => exact h.asked
  case admitted =>
    intro a (ha : none = some a)
    cases ha
  case entered =>
    intro e he
    rcases List.mem_append.1 he with he | he
    · exact h.entered e he
    · rw [List.mem_singleton.1 he]
      exact h.admitted _ hholder

/-- Whatever is done in an office, its jobs stay apart and keep to what is told of them. -/
theorem step (h : o.Sound) (hstep : o.Step o') : o'.Sound := by
  have hasked := h.asked
  cases hstep with
  | asks path isDependency =>
      refine h.requests fun r hr key hkey => ?_
      rcases List.mem_append.1 hr with hr | hr
      · exact h.asked r hr key hkey
      · rw [List.mem_singleton.1 hr] at hkey
        cases hkey
  | @looks before after r r' hrequests hlooks =>
      rw [hrequests] at hasked
      refine h.requests fun x hx key hkey => ?_
      rcases List.mem_append.1 hx with hx | hx
      · rcases List.mem_append.1 hx with hx | hx
        · exact hasked x (List.mem_append_left _ hx) key hkey
        · rw [Option.mem_toList] at hx
          subst hx
          exact hlooks.canonical (hasked r (by simp)) hkey
      · exact hasked x (by simp [hx]) key hkey
  | turnsAway hrequests =>
      rw [hrequests] at hasked
      exact h.requests fun x hx =>
        hasked x (((List.sublist_cons_self _ _).append_left _).subset hx)
  | admits hrequests _ hactive =>
      rw [hrequests] at hasked
      have hrest := h.requests fun x hx =>
        hasked x (((List.sublist_cons_self _ _).append_left _).subset hx)
      refine hrest.holder fun a ha => ?_
      obtain rfl := Option.some.inj ha
      exact ⟨hasked _ (List.mem_append_right _ List.mem_cons_self) _ rfl,
        ended_of_activeJob?_eq_none hactive⟩
  | surveys hholder =>
      have hkey := h.admitted _ hholder
      have hheld := h.held _ hholder
      refine h.holder fun a ha => ?_
      obtain rfl := Option.some.inj ha
      exact ⟨hkey, hheld⟩
  | prepares hholder =>
      have hkey := h.admitted _ hholder
      have hheld := h.held _ hholder
      refine h.holder fun a ha => ?_
      obtain rfl := Option.some.inj ha
      exact ⟨hkey, hheld⟩
  | releases => exact h.holder fun a ha => by cases ha
  | enters hholder => exact h.enters hholder
  | works herrands hworks =>
      have he := h.errands _ (herrands ▸ List.mem_append_right _ List.mem_cons_self)
      refine h.replaces herrands (fun _ => hworks.keeps) (hworks.sound he) ?_
      rw [hworks.job_eq]
      exact .refl _
  | tells herrands _ htells =>
      have he := h.errands _ (herrands ▸ List.mem_append_right _ List.mem_cons_self)
      exact h.replaces herrands (fun _ => id) (htells.sound he) (htells.moves he)
  | turns hturns =>
      exact { h with errands := fun e he => (h.errands e he).congr fun _ => hturns.keeps }

end Sound

namespace Follows

/-- The jobs are as they were. -/
theorem same (h : o'.errands = o.errands) : o.Follows o' where
  moves {_ a} ha := ⟨a, h ▸ ha, .refl _⟩
  enters {_ b} hnone hb := by
    rw [h, hnone] at hb
    cases hb

/-- One job gets on. -/
theorem replaced {before after : List Errand} {e e' : Errand}
    (h : o.errands = before ++ e :: after) (h' : o'.errands = before ++ e' :: after)
    (hmoves : e.job.Moves e'.job) : o.Follows o' where
  moves {i a} ha := by
    rw [h] at ha
    rw [h']
    rcases Nat.lt_or_ge i before.length with hlt | hge
    · rw [List.getElem?_append_left hlt] at ha ⊢
      exact ⟨a, ha, .refl _⟩
    · rw [List.getElem?_append_right hge] at ha ⊢
      generalize i - before.length = n at ha ⊢
      cases n with
      | zero =>
          obtain rfl := Option.some.inj ha
          exact ⟨e', rfl, hmoves⟩
      | succ n => exact ⟨a, ha, .refl _⟩
  enters {i b} hnone hb := by
    rw [h, List.getElem?_eq_none_iff] at hnone
    rw [h', List.getElem?_eq_none_iff.2 (by simpa using hnone)] at hb
    cases hb

/-- A job is entered after all others. -/
theorem appended {e : Errand} (h : o'.errands = o.errands ++ [e])
    (hstate : e.job.state = .pending) : o.Follows o' where
  moves {i a} ha := by
    refine ⟨a, ?_, .refl _⟩
    rw [h, List.getElem?_append_left (List.getElem?_eq_some_iff.1 ha).1, ha]
  enters {i b} hnone hb := by
    rw [h, List.getElem?_append_right (List.getElem?_eq_none_iff.1 hnone)] at hb
    rwa [List.mem_singleton.1 (List.mem_of_getElem? hb)]

end Follows

/-- What becomes of the jobs in a step. -/
theorem Step.follows (hstep : o.Step o') (h : o.Sound) : o.Follows o' := by
  cases hstep with
  | enters => exact .appended rfl rfl
  | works herrands hworks => exact .replaced herrands rfl (hworks.job_eq ▸ .refl _)
  | tells herrands _ htells =>
      have he := h.errands _ (herrands ▸ List.mem_append_right _ List.mem_cons_self)
      exact .replaced herrands rfl (htells.moves he)
  | _ => exact .same rfl

/-- All jobs of an office that can be come by are apart and keep to what is told of them. -/
theorem Reached.sound (h : o.Reached) : o.Sound := by
  obtain ⟨readers, config, nextJob, site, hleads⟩ := h
  induction hleads with
  | refl => exact .initial readers config nextJob site
  | tail _ hstep ih => exact ih.step hstep

/-- In the long run each job stays in its place and gets on. -/
theorem Leads.endures (hleads : o.Leads o') (h : o.Sound) {i : Nat} {a : Errand}
    (ha : o.errands[i]? = some a) : ∃ b, o'.errands[i]? = some b ∧ a.job.Endures b.job := by
  have hlong : o'.Sound ∧ ∃ b, o'.errands[i]? = some b ∧ a.job.Endures b.job := by
    induction hleads with
    | refl => exact ⟨h, a, ha, (Job.Moves.refl a.job).endures⟩
    | tail _ hstep ih =>
        obtain ⟨hsound, b, hb, hendures⟩ := ih
        obtain ⟨c, hc, hmoves⟩ := (hstep.follows hsound).moves hb
        exact ⟨hsound.step hstep, c, hc, hmoves.prolongs hendures⟩
  exact hlong.2

end Office

/-- However requests to index, jobs and their surroundings come between each other, no two jobs
are ever at work on one tree.  The tree of every job has one path, and it is registered if the job
is completed.  No more of its files are told to be processed than it has in all, and one more each
time that its thread asked for a file that was being indexed; it does so only if it found a file
twice.  In a step each job stays where it is or comes to the next state, and new ones are pending;
in the long run no file that was processed is forgotten, and a job that is over is never changed
again. -/
theorem jobs_apart_and_honest {o : Office} (h : o.Reached) :
    (o.errands.Pairwise fun a b => ¬ a.job.Collides b.job) ∧
    (∀ e ∈ o.errands, Canonical e.job.path ∧
      e.job.processedFiles ≤ e.job.totalFiles + e.again ∧ (e.found.Nodup → e.again = 0) ∧
      (e.job.state = .completed → o.site.backend.store.Registers e.job.path)) ∧
    (∀ o', o.Step o' → o.Follows o') ∧
    ∀ o', o.Leads o' → ∀ (i : Nat) (a : Errand), o.errands[i]? = some a →
      ∃ b, o'.errands[i]? = some b ∧ a.job.Endures b.job := by
  have hsound := h.sound
  refine ⟨hsound.apart, fun e he => ?_, fun o' hstep => hstep.follows hsound,
    fun o' hleads i a ha => hleads.endures hsound ha⟩
  have hjob := hsound.errands e he
  exact ⟨hsound.entered e he, hjob.bounded, hjob.once,
    fun hcompleted => hjob.registered (.inr hcompleted)⟩

/-- A tree with one file. -/
def oneFile : Site := ⟨FileTree.empty.write "/r/b.py" .empty, .new, 0⟩

def oneFileConfig : Config := .default "/"

def oneFileIndexer : Indexer where
  readers := .build ()
  root := "/r"
  scope := Indexer.scopeOf oneFile.files "/r"
  languages := [.python, .rust]
  filter := .of ([Lang.python, .rust].flatMap (·.extensions)) []
  maxFileBytes := oneFileConfig.index.maxFileBytes

theorem oneFile_ofConfig : Indexer.ofConfig (.build ()) oneFile.files "/r" oneFileConfig.index =
    .ok oneFileIndexer := by
  have hlanguages : Lang.select oneFileConfig.index.languages = .ok [.python, .rust] := by
    decide +kernel
  rw [Indexer.ofConfig, hlanguages]
  rfl

theorem oneFile_tracker : oneFileIndexer.tracker oneFile.backend = .ok .empty := by
  have hrecords : Store.empty.fileRecords = [] := List.mergeSort_of_pairwise .nil
  rw [Indexer.tracker, Backend.fileRecords, Backend.contents]
  simp only [oneFile, Backend.new, if_true, Except.map, hrecords]
  rfl

theorem oneFile_locate (slash : Bool) :
    oneFile.files.locate (cond slash "/r/" "/r") = .ok ["r"] := by
  have hnul : (cond slash "/r/" "/r").contains '\x00' = false := by
    cases slash <;> simp
  rw [FileTree.locate, hnul]
  cases slash <;> decide +kernel

theorem oneFile_walk : oneFileIndexer.walk oneFile.files = ["b.py"] := by
  have hroot : oneFile.files.locate oneFileIndexer.root = .ok ["r"] := oneFile_locate false
  have hfound : ((oneFile.files.reached ["r"]).filterMap oneFileIndexer.foundPath?).filter
      oneFileIndexer.filter.accepts = ["b.py"] := by
    decide +kernel
  rw [Indexer.walk, hroot]
  simp only [hfound]
  exact List.mergeSort_of_pairwise (by decide)

/-- Another file comes into the tree, with the same name in a directory whose name is not text. -/
def besideStray : Site :=
  { oneFile with files := { oneFile.files with strays := [[some "r", none, some "b.py"]] } }

theorem besideStray_walk : oneFileIndexer.walk besideStray.files = ["b.py", "b.py"] := by
  have hroot : besideStray.files.locate oneFileIndexer.root = .ok ["r"] := oneFile_locate false
  have hfound : ((besideStray.files.reached ["r"]).filterMap oneFileIndexer.foundPath?).filter
      oneFileIndexer.filter.accepts = ["b.py", "b.py"] := by
    decide +kernel
  rw [Indexer.walk, hroot]
  simp only [hfound]
  exact List.mergeSort_of_pairwise (by decide)

/-- The job for the tree. -/
def oneFileTask : Task :=
  .new (Service.jobId 0) "/r" false (.start oneFileIndexer .empty oneFileConfig.retry) 1 0

/-- The job with one worker, while its thread queues files. -/
def besideStrayErrand (stage : Stage) (queue : Queue) (worker : Duty) (found : List String)
    (again : Nat) : Errand where
  task := { oneFileTask with
    scheduler := { oneFileTask.scheduler with queue }
    job := { oneFileTask.job with state := .running } }
  stage
  workers := [worker]
  counted := []
  found
  again

/-- The job when it is completed: it has one file in all, and two are told to be processed. -/
def besideStrayDone : Errand where
  task := { oneFileTask with
    scheduler := { oneFileTask.scheduler with
      queue := ⟨[], [], [], [], none, false⟩
      processed := 2
      isStopping := true }
    job := { oneFileTask.job with
      state := .completed
      processedFiles := 2
      errors := oneFileTask.failures
      finishedAt := some 0 } }
  stage := .ended
  workers := [.free]
  counted := []
  found := ["b.py", "b.py"]
  again := 1

/-- The tree is registered. -/
def besideStrayRegistered : Site :=
  { besideStray with backend :=
      (besideStray.backend.register ⟨"/r", Task.repositoryName "/r", false, 0⟩).2 }

/-- The thread finds the file twice, and asks for it again while the worker is at it.  The worker
does it once more while the thread waits. -/
theorem besideStray_completes :
    Errand.Leads (.new oneFileTask, oneFile) (besideStrayDone, besideStrayRegistered) := by
  have hwalks : (besideStrayErrand .begun .new .free [] 0).Works besideStray
      (besideStrayErrand (.listing ["b.py", "b.py"] 0) .new .free ["b.py", "b.py"] 0)
      besideStray := by
    rw [← besideStray_walk]
    exact .walks rfl
  let queue : Queue := ⟨[], ["b.py"], ["b.py"], [], none, true⟩
  have hcompares : (besideStrayErrand (.listing [] 1) queue (.works "b.py") ["b.py", "b.py"]
      1).Works besideStray (besideStrayErrand (.dropping [] 1) queue (.works "b.py")
        ["b.py", "b.py"] 1) besideStray := by
    have hnone : ((besideStrayErrand (.listing [] 1) queue (.works "b.py") ["b.py", "b.py"]
        1).task.scheduler.tracker.knownPaths.filter fun p =>
          !(["b.py", "b.py"].contains p)) = [] := by
      decide +kernel
    have hstep := @Errand.Works.compares besideStray (besideStrayErrand (.listing [] 1) queue
      (.works "b.py") ["b.py", "b.py"] 1) 1 rfl
    rw [show (besideStrayErrand (.listing [] 1) queue (.works "b.py") ["b.py", "b.py"] 1).found =
      ["b.py", "b.py"] from rfl, hnone] at hstep
    exact hstep
  have hdrifts : oneFile.Turns besideStray := .drifts rfl
  refine .head (.turns hdrifts) (.head (.tells (.begins 1 rfl)) ?_)
  refine .head (.works hwalks) (.head (.works (.lists rfl rfl)) ?_)
  refine .head (.works (@Errand.Works.takes _ _ [] [] _ _ rfl rfl)) ?_
  refine .head (.works (@Errand.Works.starts _ _ [] [] _ rfl)) ?_
  refine .head (.works (.lists rfl rfl)) (.head (.works hcompares) ?_)
  refine .head (.works (.sums rfl)) (.head (.tells (.totals rfl)) ?_)
  refine .head (.works (.counts (List.mem_singleton.2 rfl) List.not_mem_nil)) ?_
  refine .head (.works (@Errand.Works.finishes _ _ [] [] _ rfl (List.mem_singleton.2 rfl))) ?_
  refine .head (.works (@Errand.Works.takes _ _ [] [] _ _ rfl rfl)) ?_
  refine .head (.works (@Errand.Works.starts _ _ [] [] _ rfl)) ?_
  refine .head (.works (.counts (List.mem_singleton.2 rfl) List.not_mem_nil)) ?_
  refine .head (.works (@Errand.Works.finishes _ _ [] [] _ rfl (List.mem_singleton.2 rfl))) ?_
  refine .head (.works (.settles rfl rfl)) (.head (.works (.notes rfl)) ?_)
  refine .head (.tells (.leaves rfl)) (.head (.works (.registers rfl rfl)) ?_)
  exact .head (.works (.closes rfl)) (.single (.tells (.completes rfl)))

/-- The offices in which the tree is asked for twice. -/
def askedTwice (requests : List Inquiry) (holder : Option Admission) (errands : List Errand)
    (nextJob : Nat) : Office :=
  ⟨.build (), oneFileConfig, errands, nextJob, requests, holder, oneFile⟩

/-- Both requests find the tree unregistered; one of them enters a job, the other one is turned
away. -/
theorem askedTwice_enters : (askedTwice [] none [] 0).Leads
    (askedTwice [] none [.new oneFileTask] 1) := by
  have hdirectory : ∀ slash, oneFile.files.isDirectory (cond slash "/r/" "/r") = true := by
    intro slash
    rw [FileTree.isDirectory, oneFile_locate]
    decide +kernel
  have hcanonical : ∀ slash, oneFile.files.canonical? (cond slash "/r/" "/r") = .ok "/r" := by
    intro slash
    rw [FileTree.canonical?, oneFile_locate]
    decide +kernel
  have hrepositories : oneFile.backend.repositories = .ok [] := by
    have hnone : Store.empty.repositoryList = [] := List.mergeSort_of_pairwise .nil
    rw [Backend.repositories, Backend.contents]
    simp only [oneFile, Backend.new, if_true, Except.map, hnone]
  have hentry : (askedTwice [.unregistered "/r" false] (some (.prepared "/r" false oneFileIndexer
      .empty)) [] 0).entry "/r" false oneFileIndexer .empty = .new oneFileTask := by
    have hlength : (oneFileIndexer.walk oneFile.files).length = 1 := by
      rw [oneFile_walk]
      rfl
    rw [oneFileTask, ← hlength]
    rfl
  refine .head (.asks "/r" false) (.head (.asks "/r/" false) ?_)
  refine .head (@Office.Step.looks _ [] [.asked "/r/" false] _ _ rfl
    (.directory (hdirectory false))) ?_
  refine .head (@Office.Step.looks _ [] [.asked "/r/" false] _ _ rfl
    (.located (hcanonical false))) ?_
  refine .head (@Office.Step.looks _ [] [.asked "/r/" false] _ _ rfl
    (.unregistered hrepositories rfl)) ?_
  refine .head (@Office.Step.looks _ [.unregistered "/r" false] [] _ _ rfl
    (.directory (hdirectory true))) ?_
  refine .head (@Office.Step.looks _ [.unregistered "/r" false] [] _ _ rfl
    (.located (hcanonical true))) ?_
  refine .head (@Office.Step.looks _ [.unregistered "/r" false] [] _ _ rfl
    (.unregistered hrepositories rfl)) ?_
  refine .head (@Office.Step.admits _ [] [.unregistered "/r" false] _ _ rfl rfl rfl) ?_
  refine .head (.surveys rfl oneFile_ofConfig) (.head (.prepares rfl oneFile_tracker) ?_)
  have hentered : Office.Step
      (askedTwice [.unregistered "/r" false]
        (some (.prepared "/r" false oneFileIndexer .empty)) [] 0)
      (askedTwice [.unregistered "/r" false] none [.new oneFileTask] 1) := by
    rw [← hentry]
    exact .enters rfl
  refine .head hentered (.single ?_)
  exact @Office.Step.turnsAway _ [] [] "/r" false oneFileTask.job rfl rfl rfl

/-- One tree is asked for twice at a time, and indexed once.  More of its files are told to be
processed than it has in all, as one of them was found twice. -/
theorem jobs_apart_and_honest_besideStray :
    Office.Reached { askedTwice [] none [besideStrayDone] 1 with site := besideStrayRegistered } ∧
      besideStrayDone.job.state = .completed ∧ Canonical besideStrayDone.job.path ∧
      besideStrayRegistered.backend.store.Registers besideStrayDone.job.path ∧
      besideStrayDone.job.processedFiles = 2 ∧ besideStrayDone.job.totalFiles = 1 ∧
      besideStrayDone.again = 1 ∧ ¬ besideStrayDone.found.Nodup := by
  have hreached : Office.Reached
      { askedTwice [] none [besideStrayDone] 1 with site := besideStrayRegistered } :=
    ⟨_, _, _, _, askedTwice_enters.trans (@Errand.Leads.office _ _ _ _
      (askedTwice [] none [.new oneFileTask] 1) rfl [] [] besideStray_completes)⟩
  obtain ⟨-, hjobs, -, -⟩ := jobs_apart_and_honest hreached
  obtain ⟨hcanonical, -, honce, hregistered⟩ := hjobs besideStrayDone (List.mem_singleton.2 rfl)
  exact ⟨hreached, rfl, hcanonical, hregistered rfl, rfl, rfl, rfl,
    fun hfound => Nat.one_ne_zero (honce hfound)⟩

end CodeAtlas
