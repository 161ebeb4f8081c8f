namespace PodRules.Decimal

def digits? (cs : List Char) : Option Nat :=
  if cs.isEmpty then none
  else if cs.all Char.isDigit then some (Nat.ofDigitChars 10 cs 0)
  else none

def unsigned? (bound : Nat) (cs : List Char) : Option Nat :=
  let value :=
    match cs with
    | '+' :: ds => digits? ds
    | ds => digits? ds
  value.filter (· < bound)

def signed? (low high : Int) (cs : List Char) : Option Int :=
  let value :=
    match cs with
    | '+' :: ds => (digits? ds).map Int.ofNat
    | '-' :: ds => (digits? ds).map fun n => -Int.ofNat n
    | ds => (digits? ds).map Int.ofNat
  value.filter fun i => low ≤ i && i ≤ high

def wordBound : Nat := Nat.pow 2 64

def word? (s : String) : Option Nat := unsigned? wordBound s.toList

theorem digits?_toDigits (n : Nat) : digits? (Nat.toDigits 10 n) = some n := by
  have hall : (Nat.toDigits 10 n).all Char.isDigit = true :=
    List.all_eq_true.2 fun c hc => Nat.isDigit_of_mem_toDigits (by decide) (by decide) hc
  simp [digits?, hall, Nat.toDigits_ne_nil, Nat.ofDigitChars_toDigits]

end PodRules.Decimal
