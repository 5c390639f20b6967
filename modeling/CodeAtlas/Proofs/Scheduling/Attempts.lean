import CodeAtlas.Proofs.Indexing.Due
import CodeAtlas.Scheduling.Scheduler
import Mathlib.Algebra.Ring.Nat
import Mathlib.Order.Monotone.Basic

/-!
# CodeAtlas.Proofs.Scheduling.Attempts

How often a file is tried, how long the worker waits in between, and what is reported then.

Attempts are numbered from zero, and each may end as it likes (`Retry.outcome`).  Tried are those
up to the first that succeeds or fails for good, or up to the last one allowed (`Retry.IsLast`),
with the waits of `Retry.backoff` in between (`Retry.after_counted`).  After each of them the
failure is noted, so a file that is tried again is pending meanwhile, and one that is given up is
reported with its last error (`Scheduler.trial_reports`).
-/

namespace CodeAtlas

/-! ## Waits -/

namespace Retry

/-- What fits in a word is not cut down to one before the cap. -/
theorem backoff_succ {r : Retry} (hcap : r.maxBackoffMs ≤ maxWord) (k : Nat) :
    r.backoff (k + 1) = min r.maxBackoffMs (r.baseBackoffMs * 2 ^ min k 16) := by
  rw [backoff, Nat.add_sub_cancel, Nat.shiftLeft_eq, Nat.min_assoc, Nat.min_eq_right hcap,
    Nat.min_comm]

theorem backoff_le (r : Retry) (attempt : Nat) : r.backoff attempt ≤ r.maxBackoffMs :=
  Nat.min_le_right _ _

theorem backoff_mono (r : Retry) : Monotone r.backoff := by
  intro attempt later h
  have hexponent : min (attempt - 1) 16 ≤ min (later - 1) 16 := by omega
  have hpower := Nat.pow_le_pow_right Nat.two_pos hexponent
  have hproduct := Nat.mul_le_mul_left r.baseBackoffMs hpower
  rw [backoff, backoff, Nat.shiftLeft_eq, Nat.shiftLeft_eq]
  omega

/-- The waits between `n + 1` attempts. -/
def waits (r : Retry) (n : Nat) : List Nat := (List.range n).map fun k => r.backoff (k + 1)

theorem waits_pairwise (r : Retry) (n : Nat) : (r.waits n).Pairwise (· ≤ ·) := by
  rw [waits, List.pairwise_map]
  refine List.pairwise_lt_range.imp fun h => ?_
  exact r.backoff_mono (Nat.succ_le_succ (Nat.le_of_lt h))

theorem le_of_mem_waits {r : Retry} {n wait : Nat} (h : wait ∈ r.waits n) :
    wait ≤ r.maxBackoffMs := by
  obtain ⟨k, -, rfl⟩ := List.mem_map.1 h
  exact r.backoff_le (k + 1)

/-! ## Attempts -/

variable {α σ : Type}

/-- What an attempt leaves, with its failure noted if it failed. -/
def noted (note : Error → Bool → σ → σ) (last : Bool) (a : Except Error α × σ) : σ :=
  match a.1 with
  | .ok _ => a.2
  | .error e => note e last a.2

/-- How the attempts end, one after the other, if another one follows on every failure. -/
def outcome (index : Nat → σ → Except Error α × σ) (note : Error → Bool → σ → σ) (s : σ) :
    Nat → Except Error α × σ
  | 0 => index 0 s
  | k + 1 => index (k + 1) (noted note false (outcome index note s k))

/-- The next attempt, with the number of those made. -/
def counted (index : Nat → σ → Except Error α × σ) (c : Nat × σ) : Except Error α × Nat × σ :=
  ((index c.1 c.2).1, c.1 + 1, (index c.1 c.2).2)

/-- Notes a failure, and keeps the number of attempts. -/
def noteCounted (note : Error → Bool → σ → σ) (e : Error) (last : Bool) (c : Nat × σ) : Nat × σ :=
  (c.1, note e last c.2)

/-- Whether an attempt is the first that succeeds or fails for good, or else the last allowed. -/
structure IsLast (r : Retry) (results : Nat → Except Error α) (n : Nat) : Prop where
  isAllowed : n < max 1 r.maxAttempts
  earlier : ∀ k < n, ∃ e, results k = .error e ∧ e.isRetryable = true
  ends : (∃ a, results n = .ok a) ∨ (∃ e, results n = .error e ∧ e.isRetryable = false) ∨
    n + 1 = max 1 r.maxAttempts

variable {index : Nat → σ → Except Error α × σ} {note : Error → Bool → σ → σ}

theorem noted_error {a : Except Error α × σ} {e : Error} (h : a.1 = .error e) (last : Bool) :
    noted note last a = note e last a.2 := by
  rw [noted, h]

/-- From attempt `i` on, with so many left, all failures that may pass are tried again. -/
theorem after_counted (r : Retry) (index : Nat → σ → Except Error α × σ)
    (note : Error → Bool → σ → σ) (s : σ) (left i : Nat) :
    ∃ n, i ≤ n ∧ n ≤ i + left ∧
      (∀ k, i ≤ k → k < n →
        ∃ e, (outcome index note s k).1 = .error e ∧ e.isRetryable = true) ∧
      ((∃ a, (outcome index note s n).1 = .ok a) ∨
        (∃ e, (outcome index note s n).1 = .error e ∧ e.isRetryable = false) ∨ n = i + left) ∧
      r.after false (counted index) (noteCounted note) left (i + 1)
          ((outcome index note s i).1, i + 1, (outcome index note s i).2) =
        ⟨(outcome index note s n).1, (n + 1, noted note true (outcome index note s n)),
          (List.range' i (n - i)).map fun k => r.backoff (k + 1)⟩ := by
  induction left generalizing i with
  | zero =>
      refine ⟨i, le_rfl, le_rfl, fun k hle hlt => (hlt.not_ge hle).elim, .inr (.inr rfl), ?_⟩
      rw [Nat.sub_self, noted]
      cases hresult : (outcome index note s i).1 with
      | ok a => rfl
      | error e => rfl
  | succ left ih =>
      cases hresult : (outcome index note s i).1 with
      | ok a =>
          refine ⟨i, le_rfl, Nat.le_add_right i _, fun k hle hlt => (hlt.not_ge hle).elim,
            .inl ⟨a, hresult⟩, ?_⟩
          rw [Nat.sub_self, noted, hresult]
          rfl
      | error e =>
          cases hretryable : e.isRetryable with
          | false =>
              refine ⟨i, le_rfl, Nat.le_add_right i _, fun k hle hlt => (hlt.not_ge hle).elim,
                .inr (.inl ⟨e, hresult, hretryable⟩), ?_⟩
              rw [Nat.sub_self, noted_error hresult, hresult, after, hretryable]
              rfl
          | true =>
              -- the next attempt goes on from the noted failure
              obtain ⟨n, hle, hmost, hearlier, hends, htrial⟩ := ih (i + 1)
              refine ⟨n, by omega, by omega, fun k hk hlt => ?_, ?_, ?_⟩
              · rcases Nat.eq_or_lt_of_le hk with rfl | hk
                · exact ⟨e, hresult, hretryable⟩
                · exact hearlier k hk hlt
              · exact hends.imp_right (Or.imp_right fun h => by omega)
              · have hnext : counted index (noteCounted note e false
                      (i + 1, (outcome index note s i).2)) =
                    ((outcome index note s (i + 1)).1, i + 1 + 1,
                      (outcome index note s (i + 1)).2) := by
                  rw [outcome, noted_error hresult]
                  rfl
                have hwaits : n - i = n - (i + 1) + 1 := by omega
                rw [after, hretryable, hnext, htrial, hwaits, List.range'_succ, List.map_cons]
                rfl

/-- Tried are the attempts up to the last one, and that is noted as the last. -/
theorem run_counted (r : Retry) (index : Nat → σ → Except Error α × σ)
    (note : Error → Bool → σ → σ) (s : σ) :
    ∃ n, r.IsLast (fun k => (outcome index note s k).1) n ∧
      r.run false (counted index) (noteCounted note) (0, s) =
        ⟨(outcome index note s n).1, (n + 1, noted note true (outcome index note s n)),
          r.waits n⟩ := by
  obtain ⟨n, -, hmost, hearlier, hends, htrial⟩ :=
    r.after_counted index note s (r.attempts - 1) 0
  have hattempts : r.attempts = max 1 r.maxAttempts := max_comm _ _
  refine ⟨n, ⟨by omega, fun k hk => hearlier k (Nat.zero_le k) hk, ?_⟩, ?_⟩
  · exact hends.imp_right (Or.imp_right fun h => by omega)
  · rw [waits, List.range_eq_range']
    exact htrial

/-- The number of attempts has no part in them. -/
theorem after_again {again : σ → Except Error α × σ} (hagain : ∀ k u, index (k + 1) u = again u)
    (r : Retry) (stopping : Bool) (left number k : Nat) (result : Except Error α) (u : σ) :
    let trial := r.after stopping (counted index) (noteCounted note) left number (result, k + 1, u)
    r.after stopping again note left number (result, u) =
      ⟨trial.result, trial.state.2, trial.waits⟩ := by
  induction left generalizing number k result u with
  | zero => cases result <;> rfl
  | succ left ih =>
      cases result with
      | ok a => rfl
      | error e =>
          rw [after, after]
          split
          · rw [← hagain k, ih]
            rfl
          · rfl

end Retry

namespace Tracker

/-! ## What is reported of a failed file -/

variable (t : Tracker) (path error : String)

theorem value?_states_failed (last : Bool) :
    (t.failed path error last).states.value? path = some (if last then .failed else .changed) := by
  rw [failed, setState, Dict.value?_insert, if_pos rfl]

theorem state_failed_self (last : Bool) :
    (t.failed path error last).state path = if last then .failed else .changed := by
  rw [failed_state, if_pos rfl]

/-- A file that is given up is reported with the error. -/
theorem mem_failures_failed : (path, error) ∈ (t.failed path error true).failures := by
  rw [failures, List.mem_map]
  refine ⟨path, ?_, ?_⟩
  · exact (mem_pathsIn _).2
      ⟨.failed, List.mem_singleton_self _, t.value?_states_failed path error true⟩
  · rw [failed, setState, Dict.value?_insert, if_pos rfl, Option.getD_some]

/-- A file that is tried again is pending, and not reported as failed. -/
theorem pending_failed : path ∈ (t.failed path error false).pending ∧
    path ∉ (t.failed path error false).failures.map Prod.fst := by
  have hstate := t.value?_states_failed path error false
  constructor
  · exact (mem_pathsIn _).2 ⟨.changed, List.mem_cons_self, hstate⟩
  · rw [map_fst_failures, mem_pathsIn, hstate]
    simp

end Tracker

/-! ## Trials of a file -/

namespace Scheduler

/-- However the attempts at a file end, and whatever they leave, they are made up to the first
that succeeds or fails for good, or up to the last one allowed.  The waits in between double up to
the cap.  A file that is tried again is pending meanwhile, and one whose last attempt failed is
reported as failed, with the error.  The worker does so with the attempts at indexing the file. -/
theorem trial_reports (s : Scheduler) (relative : String) (hrunning : s.isStopping = false)
    (hcap : s.retry.maxBackoffMs ≤ Retry.maxWord)
    (index : Nat → IndexState → Except Error FileOutcome × IndexState) (start : IndexState) :
    let outcome := Retry.outcome index (note relative) start
    let trial := s.retry.run s.isStopping (Retry.counted index) (Retry.noteCounted (note relative))
      (0, start)
    (∃ n, s.retry.IsLast (fun k => (outcome k).1) n ∧
      trial.state.1 = n + 1 ∧
      trial.result = (outcome n).1 ∧
      trial.waits = ((List.range n).map fun k =>
        min s.retry.maxBackoffMs (s.retry.baseBackoffMs * 2 ^ min k 16)) ∧
      ∀ k < n, ∃ e, (outcome k).1 = .error e ∧
        let tracker := (note relative e false (outcome k).2).tracker
        outcome (k + 1) = index (k + 1) (note relative e false (outcome k).2) ∧
        tracker.state relative = .changed ∧ relative ∈ tracker.pending ∧
        relative ∉ tracker.failures.map Prod.fst) ∧
    trial.waits.Pairwise (· ≤ ·) ∧
    (∀ wait ∈ trial.waits, wait ≤ s.retry.maxBackoffMs) ∧
    (∀ e, trial.result = .error e → trial.state.2.tracker.state relative = .failed ∧
      (relative, e.message) ∈ trial.state.2.tracker.failures) ∧
    ((∀ k t, index (k + 1) t = (s.indexer.indexFile relative).run t) →
      s.trial relative (index 0 start) = ⟨trial.result, trial.state.2, trial.waits⟩) := by
  intro outcome trial
  obtain ⟨n, hlast, htrial⟩ := s.retry.run_counted index (note relative) start
  have heq : trial = ⟨(outcome n).1, (n + 1, Retry.noted (note relative) true (outcome n)),
      s.retry.waits n⟩ := by
    rw [← htrial]
    exact congrArg (s.retry.run · (Retry.counted index) (Retry.noteCounted (note relative))
      (0, start)) hrunning
  refine ⟨⟨n, hlast, ?_, ?_, ?_, fun k hk => ?_⟩, ?_, ?_, fun e he => ?_, fun hindex => ?_⟩
  · rw [heq]
  · rw [heq]
  · rw [heq]
    exact List.map_congr_left fun k _ => Retry.backoff_succ hcap k
  · obtain ⟨e, he, -⟩ := hlast.earlier k hk
    refine ⟨e, he, ?_, ?_, (outcome k).2.tracker.pending_failed relative e.message⟩
    · exact congrArg (index (k + 1)) (Retry.noted_error he false)
    · exact (outcome k).2.tracker.state_failed_self relative e.message false
  · rw [heq]
    exact s.retry.waits_pairwise n
  · rw [heq]
    exact fun wait hwait => Retry.le_of_mem_waits hwait
  · rw [heq] at he
    have hstate : trial.state.2 = note relative e true (outcome n).2 := by
      rw [heq]
      exact Retry.noted_error he true
    rw [hstate]
    exact ⟨(outcome n).2.tracker.state_failed_self relative e.message true,
      (outcome n).2.tracker.mem_failures_failed relative e.message⟩
  · exact Retry.after_again hindex s.retry s.isStopping _ 1 0 _ _

/-- A scheduler that tries a file three times at most. -/
def threeAttempts : Scheduler :=
  .start ⟨.build (), "/r", "/r", [.python], .of [] [], 0⟩ .empty ⟨3, 100, 150⟩

/-- Attempts that never reach the store. -/
def unreached (_ : Nat) (t : IndexState) : Except Error FileOutcome × IndexState :=
  (.error (.storeUnavailable "down"), t)

theorem trial_reports_unreached :
    let trial := threeAttempts.retry.run threeAttempts.isStopping (Retry.counted unreached)
      (Retry.noteCounted (note "a.py")) (0, ⟨⟨.empty, .new, 0⟩, .empty⟩)
    threeAttempts.isStopping = false ∧ threeAttempts.retry.maxBackoffMs ≤ Retry.maxWord ∧
    trial.state.1 = 3 ∧ trial.waits = [100, 150] ∧
    trial.state.2.tracker.state "a.py" = .failed ∧
    ("a.py", "Store unavailable: down") ∈ trial.state.2.tracker.failures := by
  obtain ⟨⟨n, hlast, hcount, hresult, hwaits, -⟩, -, -, hreports, -⟩ :=
    trial_reports threeAttempts "a.py" rfl (by decide) unreached ⟨⟨.empty, .new, 0⟩, .empty⟩
  have hfails : ∀ k, (Retry.outcome unreached (note "a.py") ⟨⟨.empty, .new, 0⟩, .empty⟩ k).1 =
      .error (.storeUnavailable "down") := by
    intro k
    cases k <;> rfl
  have hlastAllowed : n + 1 = 3 := by
    rcases hlast.ends with ⟨a, ha⟩ | ⟨e, he, hfinal⟩ | hn
    · rw [hfails n] at ha
      cases ha
    · rw [hfails n] at he
      cases he
      cases hfinal
    · exact hn
  obtain rfl : n = 2 := by omega
  exact ⟨rfl, by decide, hcount, hwaits, hreports _ (hresult.trans (hfails 2))⟩

end Scheduler

end CodeAtlas
