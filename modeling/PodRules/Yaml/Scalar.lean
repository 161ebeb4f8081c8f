import PodRules.Json.Number
import PodRules.Json.Parser

namespace PodRules.Yaml

inductive Number where
  | int (i : Int)
  | decimal (negative : Bool) (digits : Nat) (exponent : Int)
  | infinite (negative : Bool)
  | undefined
  deriving DecidableEq, Repr

inductive Scalar where
  | null
  | bool (b : Bool)
  | number (n : Number)
  | text (s : String)
  deriving DecidableEq, Repr

/-! ## Words -/

def nullWords : List String := ["~", "null", "Null", "NULL"]

def bool? (s : String) : Option Bool :=
  if s ∈ ["true", "True", "TRUE"] then some true
  else if s ∈ ["false", "False", "FALSE"] then some false
  else none

/-! ## Integers -/

def digit? (base : Nat) (c : Char) : Option Nat :=
  (Json.hexDigit? c).bind fun d => if d < base then some d else none

def digits? (base : Nat) (cs : List Char) : Option Nat := do
  let ds ← cs.mapM (digit? base)
  if ds.isEmpty then none else some (ds.foldl (fun n d => n * base + d) 0)

def isZeroLed (cs : List Char) : Bool :=
  match cs with
  | '0' :: d :: ds => (d :: ds).all Char.isDigit
  | _ => false

def magnitude? : List Char → Option Nat
  | '0' :: 'x' :: cs => digits? 16 cs
  | '0' :: 'o' :: cs => digits? 8 cs
  | '0' :: 'b' :: cs => digits? 2 cs
  | cs => if isZeroLed cs then none else digits? 10 cs

def integer? : List Char → Option Int
  | '-' :: cs => (magnitude? cs).map fun n => -(n : Int)
  | '+' :: cs => (magnitude? cs).map fun n => (n : Int)
  | cs => (magnitude? cs).map fun n => (n : Int)

def isShort (i : Int) : Bool := -(Int.pow 2 63) ≤ i && i < Int.pow 2 64

def isLong (i : Int) : Bool := -(Int.pow 2 127) ≤ i && i < Int.pow 2 128

/-! ## Decimals -/

def withoutZeros : (n : Nat) → (digits : Nat) → (exponent : Int) → Nat × Int
  | 0, digits, exponent => (digits, exponent)
  | n + 1, digits, exponent =>
    if digits % 10 = 0 then withoutZeros n (digits / 10) (exponent + 1) else (digits, exponent)

def decimal (negative : Bool) (digits : Nat) (exponent : Int) : Number :=
  if digits = 0 then .decimal false 0 0
  else
    let (digits, exponent) := withoutZeros (Nat.log2 digits) digits exponent
    .decimal negative digits exponent

def mantissa? (cs : List Char) : Option (Nat × Nat × List Char) :=
  let whole := cs.takeWhile Char.isDigit
  let rest := cs.dropWhile Char.isDigit
  let (fraction, rest) :=
    match rest with
    | '.' :: rest => (rest.takeWhile Char.isDigit, rest.dropWhile Char.isDigit)
    | rest => ([], rest)
  if whole.isEmpty ∧ fraction.isEmpty then none
  else some (Nat.ofDigitChars 10 (whole ++ fraction) 0, fraction.length, rest)

def exponent? : List Char → Option Int
  | [] => some 0
  | c :: cs =>
    if c = 'e' ∨ c = 'E' then
      match cs with
      | '-' :: ds => (digits? 10 ds).map fun n => -(n : Int)
      | '+' :: ds => (digits? 10 ds).map fun n => (n : Int)
      | ds => (digits? 10 ds).map fun n => (n : Int)
    else none

def decimal? (negative : Bool) (cs : List Char) : Option Number := do
  let (digits, places, rest) ← mantissa? cs
  let exponent ← exponent? rest
  if Json.isFloat digits (exponent - places) then some (decimal negative digits (exponent - places))
  else none

def float? (cs : List Char) : Option Number :=
  let s := String.ofList cs
  if s ∈ [".inf", ".Inf", ".INF", "+.inf", "+.Inf", "+.INF"] then some (.infinite false)
  else if s ∈ ["-.inf", "-.Inf", "-.INF"] then some (.infinite true)
  else if s ∈ [".nan", ".NaN", ".NAN"] then some .undefined
  else
    match cs with
    | '-' :: cs => decimal? true cs
    | '+' :: cs => decimal? false cs
    | cs => decimal? false cs

/-! ## Scalars -/

/-- What a plain scalar means. Integers of more than 64 bits and at most 128 are not admitted;
longer ones are decimals. -/
def plainScalar? (s : String) : Option Scalar :=
  let cs := s.toList
  if cs.isEmpty || s ∈ nullWords then some .null
  else
    match bool? s with
    | some b => some (.bool b)
    | none =>
      match (integer? cs).filter isLong with
      | some i => if isShort i then some (.number (.int i)) else none
      | none =>
        match if isZeroLed (match cs with
            | '-' :: ds => ds
            | '+' :: ds => ds
            | ds => ds) then none else float? cs with
        | some n => some (.number n)
        | none => some (.text s)

def taggedScalar? (kind s : String) : Option Scalar :=
  match kind with
  | "bool" => (bool? s).map .bool
  | "int" => ((integer? s.toList).filter isShort).map fun i => .number (.int i)
  | "float" => (float? s.toList).map .number
  | "null" => if s ∈ nullWords then some .null else none
  | _ => some (.text s)

end PodRules.Yaml
