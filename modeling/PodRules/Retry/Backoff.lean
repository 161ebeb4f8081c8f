import PodRules.Time.Duration

namespace PodRules

structure RetryBackoff where
  steps : Nat
  base : Duration
  factor : Float
  deriving Inhabited

namespace RetryBackoff

def standard : RetryBackoff := ⟨5, .ofMillis 10, 1.0⟩

def attempts (b : RetryBackoff) : Nat := max 1 b.steps

def scaledPower (r a : Float) (n : Nat) : Float :=
  let r := if n % 2 = 1 then r * a else r
  if n < 2 then r else scaledPower r (a * a) (n / 2)
termination_by n

def exponentBound : Nat := Nat.pow 2 31 - 1

/-- The factor, where one that would shorten the waits, or is not finite, counts as one. -/
def growth (b : RetryBackoff) : Float := if b.factor.isFinite && b.factor ≥ 1.0 then b.factor else 1.0

def delay (b : RetryBackoff) (attempt : Nat) : Duration :=
  let power := scaledPower 1.0 b.growth (min (attempt - 1) exponentBound)
  (Duration.ofFloat? (b.base.toFloat * power)).getD .max

end RetryBackoff

end PodRules
