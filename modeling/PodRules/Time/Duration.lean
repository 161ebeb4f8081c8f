namespace PodRules

structure Duration where
  nanos : Nat
  deriving DecidableEq, Repr, Inhabited

namespace Duration

def nanosPerSecond : Nat := 1000000000

def zero : Duration := ⟨0⟩

def ofSeconds (n : Nat) : Duration := ⟨n * nanosPerSecond⟩

def ofMillis (n : Nat) : Duration := ⟨n * 1000000⟩

def seconds (d : Duration) : Nat := d.nanos / nanosPerSecond

def subsecond (d : Duration) : Nat := d.nanos % nanosPerSecond

def secondBound : Nat := Nat.pow 2 64

def max : Duration := ⟨secondBound * nanosPerSecond - 1⟩

def min (a b : Duration) : Duration := if b.nanos < a.nanos then b else a

def ceilMillis (d : Duration) : Nat := (d.nanos + 999999) / 1000000

/-- The longest time that is ever waited at once: thirty years of 365 days. -/
def longestWaitMillis : Nat := 30 * 365 * 86400 * 1000

def waitMillis (d : Duration) : Nat := Nat.min d.ceilMillis longestWaitMillis

def roundDiv (num den : Nat) : Nat :=
  let q := num / den
  let r := num % den
  if 2 * r < den then q
  else if 2 * r = den then q + q % 2
  else q + 1

def toFloat (d : Duration) : Float :=
  d.seconds.toUInt64.toFloat + d.subsecond.toUInt64.toFloat / nanosPerSecond.toUInt64.toFloat

/-- The span nearest to a number of seconds; none when the number is negative, not finite or
too large. A binary64 number is its mantissa times a power of two. -/
def ofFloat? (x : Float) : Option Duration :=
  if x < 0 then none
  else
    let bits := x.toBits.toNat
    let exponent := bits / Nat.pow 2 52 % Nat.pow 2 11
    let fraction := bits % Nat.pow 2 52
    if exponent = 2047 then none
    else if exponent = 0 then some zero
    else
      let mantissa := fraction + Nat.pow 2 52
      if exponent < 1075 then
        some ⟨roundDiv (mantissa * nanosPerSecond) (Nat.pow 2 (1075 - exponent))⟩
      else if 1023 + 64 ≤ exponent then none
      else some ⟨mantissa * Nat.pow 2 (exponent - 1075) * nanosPerSecond⟩

end Duration

end PodRules
