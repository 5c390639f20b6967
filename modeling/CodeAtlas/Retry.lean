import CodeAtlas.Error

/-!
# CodeAtlas.Retry

How often a failed file is tried, and how long it waits in between.

1. a file is tried again only after a failure that may pass, and at most so many times
   in all; each failure is noted, with whether it was the last one;
2. the wait doubles from one attempt to the next, up to a cap;
3. after the seventeenth attempt it does not grow any more; numbers beyond 64 bits
   are never reached.
-/

namespace CodeAtlas

structure Retry where
  maxAttempts : Nat
  baseBackoffMs : Nat
  maxBackoffMs : Nat
deriving DecidableEq, Inhabited, Repr

/-- How work ended that was tried several times. -/
structure Trial (α σ : Type) where
  result : Except Error α
  state : σ
  /-- Milliseconds waited before the second attempt, the third, and so on. -/
  waits : List Nat

namespace Retry

def default : Retry := ⟨5, 100, 5000⟩

/-! ## Waiting -/

/-- The largest number of 64 bits. -/
def maxWord : Nat := 0xFFFFFFFFFFFFFFFF

/-- Milliseconds to wait after an attempt; attempts count from one. -/
def backoff (r : Retry) (attempt : Nat) : Nat :=
  min (min (r.baseBackoffMs <<< min (attempt - 1) 16) maxWord) r.maxBackoffMs

/-- The number of times that a file is tried at most. -/
def attempts (r : Retry) : Nat := max r.maxAttempts 1

/-! ## Trying -/

variable {α σ : Type}

/-- What follows on an attempt: further ones, as long as some are left and the failure
may pass. `note` takes down a failure, and whether it is the last one. -/
def after (r : Retry) (stopping : Bool) (again : σ → Except Error α × σ)
    (note : Error → Bool → σ → σ) : (left number : Nat) → Except Error α × σ → Trial α σ
  | _, _, (.ok a, s) => ⟨.ok a, s, []⟩
  | 0, _, (.error e, s) => ⟨.error e, note e true s, []⟩
  | left + 1, number, (.error e, s) =>
    if e.isRetryable && !stopping then
      let t := r.after stopping again note left (number + 1) (again (note e false s))
      { t with waits := r.backoff number :: t.waits }
    else ⟨.error e, note e true s, []⟩

/-- What follows on a first attempt. -/
def afterFirst (r : Retry) (stopping : Bool) (again : σ → Except Error α × σ)
    (note : Error → Bool → σ → σ) (first : Except Error α × σ) : Trial α σ :=
  r.after stopping again note (r.attempts - 1) 1 first

/-- Tries some work. -/
def run (r : Retry) (stopping : Bool) (attempt : σ → Except Error α × σ)
    (note : Error → Bool → σ → σ) (s : σ) : Trial α σ :=
  r.afterFirst stopping attempt note (attempt s)

end Retry

end CodeAtlas
