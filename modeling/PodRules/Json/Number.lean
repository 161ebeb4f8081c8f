namespace PodRules.Json

def floatBound : Nat := Nat.pow 2 1024 - Nat.pow 2 970

/-- Whether digits times a power of ten are in the range of binary64. A number with at most 308
digits before the point is, and one with more than 309 is not. -/
def isFloat (digits : Nat) (exponent : Int) : Bool :=
  let places := ((Nat.toDigits 10 digits).length : Int) + exponent
  if digits = 0 || places ≤ 308 then true
  else if 309 < places then false
  else if 0 ≤ exponent then digits * Nat.pow 10 exponent.toNat < floatBound
  else digits < floatBound * Nat.pow 10 (-exponent).toNat

end PodRules.Json
