import CodeAtlas.Service.Answer

/-!
# CodeAtlas.Proofs.Service.Answer

What an answer leaves of a service.

Only a request to index touches the jobs, and it touches them at most once, by a new job at the
end (`Service.index_state`, `Service.startJob_state`); all others leave jobs and site alone
(`Service.answer_keeps`).
-/

namespace CodeAtlas

namespace Service

namespace Answering

variable {α β : Type}

theorem run_bind (w : Answering α) (f : α → Answering β) (s : ServiceState) :
    (w >>= f).run.run s = match w.run.run s with
      | (.ok a, t) => (f a).run.run t
      | (.error e, t) => (.error e, t) := by
  change (w >>= f) s = _
  simp only [Bind.bind, ExceptT.bind, ExceptT.mk, StateT.bind, ExceptT.run]
  cases h : w s with
  | mk r t => cases r <;> simp [StateT.run, h] <;> rfl

theorem run_get (s : ServiceState) : (get : Answering ServiceState).run.run s = (.ok s, s) := rfl

theorem run_result (r : Except Error α) (s : ServiceState) : (result r).run.run s = (r, s) := by
  cases r <;> rfl

/-- Work that leaves jobs and site alone. -/
def Keeps (w : Answering α) : Prop :=
  ∀ s, ∃ scheduler, (w.run.run s).2 = { s with scheduler }

namespace Keeps

theorem pure (a : α) : Keeps (pure a) := fun s => ⟨s.scheduler, rfl⟩

theorem throw (e : Error) : Keeps (throw e : Answering α) := fun s => ⟨s.scheduler, rfl⟩

theorem get : Keeps get := fun s => ⟨s.scheduler, rfl⟩

theorem result (r : Except Error α) : Keeps (result r) := fun s =>
  ⟨s.scheduler, by rw [run_result]⟩

theorem bind {w : Answering α} {f : α → Answering β} (hw : Keeps w) (hf : ∀ a, Keeps (f a)) :
    Keeps (w >>= f) := by
  intro s
  obtain ⟨scheduler, hstate⟩ := hw s
  rw [run_bind]
  cases hrun : w.run.run s with
  | mk r t =>
    rw [hrun] at hstate
    obtain rfl : t = { s with scheduler } := hstate
    cases r with
    | ok a => exact hf a _
    | error e => exact ⟨scheduler, rfl⟩

theorem contents : Keeps contents := by
  refine .bind .get fun s => ?_
  split
  · exact .pure _
  · exact .throw _

end Keeps

end Answering

open Answering

/-- What becomes of the service when a job is to be started. -/
theorem startJob_state (path : String) (isDependency : Bool) (s : ServiceState) :
    ((startJob path isDependency).run.run s).2 = s ∨
    ∃ indexer tracker, s.service.activeJob? path = none ∧
      Indexer.ofConfig s.service.readers s.site.files path s.service.config.index = .ok indexer ∧
      indexer.tracker s.site.backend = .ok tracker ∧
      ((startJob path isDependency).run.run s).2 = { s with service := { s.service with
        tasks := s.service.tasks ++ [.new (jobId s.service.nextJob) path isDependency
          (.start indexer tracker s.service.config.retry) (indexer.walk s.site.files).length
          s.site.now]
        nextJob := s.service.nextJob + 1 } } := by
  rw [startJob, run_bind, run_get]
  simp only []
  cases s.service.activeJob? path with
  | some j => exact .inl rfl
  | none =>
      simp only [run_bind, run_result]
      cases Indexer.ofConfig s.service.readers s.site.files path s.service.config.index with
      | error e => exact .inl rfl
      | ok indexer =>
          simp only []
          cases htracker : indexer.tracker s.site.backend with
          | error e => exact .inl rfl
          | ok tracker => exact .inr ⟨indexer, tracker, trivial, rfl, htracker, rfl⟩

/-- What becomes of the service when a directory is to be indexed. -/
theorem index_state (path : String) (isDependency : Bool) (s : ServiceState) :
    ((index path isDependency).run.run s).2 = s ∨
    ∃ key rs, s.site.files.isDirectory path = true ∧ s.site.files.canonical? path = .ok key ∧
      s.site.backend.repositories = .ok rs ∧ rs.any (·.path == key) = false ∧
      (index path isDependency).run.run s = (startJob key isDependency).run.run s := by
  rw [index, run_bind, run_get]
  simp only []
  cases s.site.files.isDirectory path with
  | false => exact .inl rfl
  | true =>
      cases s.site.files.canonical? path with
      | error e => exact .inl rfl
      | ok key =>
          simp only [Bool.not_true, Bool.false_eq_true, if_false, run_bind, run_result]
          cases s.site.backend.repositories with
          | error e => exact .inl rfl
          | ok rs =>
              simp only []
              cases hany : rs.any (·.path == key) with
              | true => exact .inl rfl
              | false => exact .inr ⟨key, rs, trivial, rfl, rfl, hany, rfl⟩

/-- A file is queued in the scheduler of the watched tree. -/
theorem reindexPath_keeps (path : String) : Keeps (reindexPath path) := by
  intro s
  rw [reindexPath, run_bind, run_get]
  simp only []
  split
  · exact ⟨s.scheduler, rfl⟩
  · next scheduler _ =>
    split
    · exact ⟨s.scheduler, rfl⟩
    · next relative _ =>
      have hqueued : Keeps (do
          let queued ← result (scheduler.reindex relative).1
          return Json.object [
            ("path", .text relative),
            ("status", .text (if queued then "queued" else "coalesced"))]) :=
        .bind (.result _) fun _ => .pure _
      exact hqueued { s with scheduler := some (scheduler.reindex relative).2 }

/-- Only a request to index touches the jobs, and none touches the site. -/
theorem answer_keeps {r : Request} (h : ∀ path isDependency, r ≠ .index path isDependency) :
    Keeps (answer r) := by
  cases r with
  | index path isDependency => exact absurd rfl (h path isDependency)
  | reindexPath path => exact reindexPath_keeps path
  | jobStatus id =>
      refine .bind .get fun s => ?_
      split
      · exact .pure _
      · exact .throw _
  | status => exact .bind .get fun _ => .bind .contents fun _ => .pure _
  | listRepositories => exact .bind .get fun _ => .bind (.result _) fun _ => .pure _
  | imports module => exact .bind .contents fun _ => .bind (.result _) fun _ => .pure _
  | search pattern limit => exact .bind .contents fun _ => .bind (.result _) fun _ => .pure _
  | _ => exact .bind .contents fun _ => .pure _

end Service

end CodeAtlas
