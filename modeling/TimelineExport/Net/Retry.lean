import TimelineExport.Number.Scalar

/-!
# Trying again

What fails for a passing reason is tried again, a limited number of times, with waits that double
and have some jitter added so that clients do not come back all at once.
-/

namespace TimelineExport

/-- How often something is tried, how long the first wait is, and the jitter of each wait. -/
structure RetryPolicy (α : Type) where
  attempts : Int
  baseDelay : α
  /-- The jitter added to a wait, which lies between zero and one. -/
  jitter : Nat → α

/-- What follows a failed attempt. -/
inductive RetryStep (α : Type) where
  /-- Another attempt, after a wait. -/
  | wait (delay : α)
  | giveUp
  /-- The wait was doubled too often to be a number. -/
  | overflow

/-- Why something that was tried has no value. -/
inductive RetryFault (ε : Type) where
  | noAttempts
  | overflow
  /-- The last attempt failed. -/
  | attempt (fault : ε)

/-- What became of something that was tried, how often it was tried, and the waits. -/
structure RetryOutcome (α ε β : Type) where
  result : Except (RetryFault ε) β
  calls : Nat
  waits : List α

/-- What a reader is told when nothing may be tried. -/
def noAttemptsMessage : String := "max_retries must be at least 1"

/-- What a reader is told when a wait is no number. -/
def waitOverflowMessage : String := "int too large to convert to float"

/-- How often a wait can be doubled: two to a higher power is no floating-point number. -/
def maxDoublings : Nat := 1023

namespace RetryPolicy

section
variable {α : Type} [Scalar α]

/-- What follows a failed attempt, counted from zero. -/
def next (p : RetryPolicy α) (attempt : Nat) : RetryStep α :=
  if p.attempts ≤ (attempt : Int) + 1 then .giveUp
  else if maxDoublings < attempt then .overflow
  else .wait (p.baseDelay * Scalar.ofInt (Int.pow 2 attempt) + p.jitter attempt)

/-- Tries something for the remaining attempts. -/
def tryFrom {ε β : Type} (p : RetryPolicy α) (isPassing : ε → Bool) (f : Nat → Except ε β) :
    (remaining attempt : Nat) → List α → RetryOutcome α ε β
  | 0, attempt, waits => { result := .error .noAttempts, calls := attempt, waits }
  | remaining + 1, attempt, waits =>
    match f attempt with
    | .ok value => { result := .ok value, calls := attempt + 1, waits }
    | .error fault =>
      match isPassing fault, p.next attempt with
      | true, .wait wait => tryFrom p isPassing f remaining (attempt + 1) (waits ++ [wait])
      | true, .overflow => { result := .error .overflow, calls := attempt + 1, waits }
      | _, _ => { result := .error (.attempt fault), calls := attempt + 1, waits }

/-- Tries something whose attempts are given by number. -/
def run {ε β : Type} (p : RetryPolicy α) (isPassing : ε → Bool) (f : Nat → Except ε β) :
    RetryOutcome α ε β :=
  p.tryFrom isPassing f p.attempts.toNat 0 []

end

end RetryPolicy

end TimelineExport
