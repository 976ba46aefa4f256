import PipelineRunner.Time.Basic

/-!
How often a step is tried, how long an attempt may take and how long the pauses between attempts
are: each pause is longer than the one before by a constant factor, up to a limit.
-/

namespace PipelineRunner

/-- The terms on which a step is tried again. -/
structure RetryPolicy where
  /-- The number of attempts, the first one included. -/
  maxAttempts : Nat
  attemptTimeout : Span
  initialInterval : Span
  backoffCoefficient : Float
  maxInterval : Span
  deriving BEq

namespace RetryPolicy

def standard : RetryPolicy where
  maxAttempts := 3
  attemptTimeout := .ofSeconds 300
  initialInterval := .ofSeconds 1
  backoffCoefficient := 2
  maxInterval := .ofSeconds 30

/-- Squares `base` for each binary digit of the exponent and multiplies what the ones select; six
digits are enough for an exponent up to 32. -/
def powerFrom (result base : Float) : Nat → Nat → Float
  | 0, _ => result
  | digits + 1, exponent =>
    let result := if exponent % 2 = 1 then result * base else result
    if exponent / 2 = 0 then result else powerFrom result (base * base) digits (exponent / 2)

def power (base : Float) (exponent : Nat) : Float :=
  powerFrom 1 base 6 exponent

/-- The pause before a retry; the first retry is number one. The factor stops growing after 32
retries; where the product is no number, the limit counts. -/
def backoff (p : RetryPolicy) (retry : Nat) : Span :=
  let factor := power p.backoffCoefficient (min (retry - 1) 32)
  let wanted := Float.ofNat p.initialInterval.nanoseconds * factor
  let limit := Float.ofNat p.maxInterval.nanoseconds
  let pause := if wanted.isNaN then limit else if limit < wanted then limit else wanted
  ⟨pause.round.toUInt64.toNat⟩

end RetryPolicy
end PipelineRunner
