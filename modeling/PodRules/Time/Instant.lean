import PodRules.Json.Form
import PodRules.Text.Blank
import PodRules.Text.Decimal
import PodRules.Time.Calendar

namespace PodRules

structure Instant where
  seconds : Int
  nanos : Nat
  deriving DecidableEq, Repr, Inhabited

namespace Instant

def epochDay : Int := 719528

def secondsPerDay : Int := 86400

def ofParts (date : Date) (second : Int) (nanos : Nat) : Instant :=
  ⟨(date.toDays - epochDay) * secondsPerDay + second, nanos⟩

def date (t : Instant) : Date := Date.ofDays (t.seconds / secondsPerDay + epochDay)

def secondOfDay (t : Instant) : Nat := (t.seconds % secondsPerDay).toNat

def padded : Nat → Nat → List Char
  | 0, _ => []
  | width + 1, n => padded width (n / 10) ++ [Nat.digitChar (n % 10)]

def yearChars (y : Int) : List Char :=
  if 0 ≤ y ∧ y ≤ 9999 then padded 4 y.toNat
  else
    let n := y.natAbs
    (if y < 0 then '-' else '+') :: (if n < 10000 then padded 4 n else Nat.toDigits 10 n)

def chars (t : Instant) : List Char :=
  let d := t.date
  let s := t.secondOfDay
  let second := s % 60 + if t.nanos < 1000000000 then 0 else 1
  yearChars d.year ++ '-' :: padded 2 d.month ++ '-' :: padded 2 d.day ++ 'T' ::
    padded 2 (s / 3600) ++ ':' :: padded 2 (s / 60 % 60) ++ ':' :: padded 2 second ++ ['Z']

def text (t : Instant) : String := String.ofList t.chars

def number? (width : Nat) (cs : List Char) : Option (Nat × List Char) :=
  let ds := (cs.take width).takeWhile Char.isDigit
  if ds.isEmpty then none else some (Nat.ofDigitChars 10 ds 0, cs.drop ds.length)

def field? (low high : Nat) (cs : List Char) : Option (Nat × List Char) := do
  let (n, rest) ← number? 2 (Text.trimStart cs)
  if low ≤ n ∧ n ≤ high then some (n, rest) else none

def mark? (c : Char) (cs : List Char) : Option (List Char) :=
  match Text.trimStart cs with
  | d :: rest => if d = c then some rest else none
  | [] => none

def isYear (y : Int) : Bool := -262143 ≤ y && y ≤ 262142

def year? (cs : List Char) : Option (Int × List Char) := do
  let (y, rest) ←
    match Text.trimStart cs with
    | '-' :: cs => (number? cs.length cs).map fun (n, rest) => (-(n : Int), rest)
    | '+' :: cs => (number? cs.length cs).map fun (n, rest) => ((n : Int), rest)
    | cs => (number? 4 cs).map fun (n, rest) => ((n : Int), rest)
  if isYear y then some (y, rest) else none

/-- The nanoseconds of a fraction; digits beyond the ninth are dropped. -/
def fraction? : List Char → Option (Nat × List Char)
  | '.' :: cs => do
    let (n, rest) ← number? 9 cs
    pure (n * Nat.pow 10 (9 - (cs.length - rest.length)), rest.dropWhile Char.isDigit)
  | cs => some (0, cs)

def utcMark? (cs : List Char) : Option (List Char) :=
  match cs with
  | a :: b :: c :: rest =>
    if [a, b, c].map Char.toLower = ['u', 't', 'c'] then some rest else none
  | _ => none

def offset? (cs : List Char) : Option (Int × List Char) :=
  match utcMark? cs with
  | some rest => some (0, rest)
  | none =>
    match cs with
    | c :: cs =>
      if c = 'Z' ∨ c = 'z' then some (0, cs)
      else if c = '+' ∨ c = '-' ∨ c = '\u2212' then
        match cs with
        | h1 :: h2 :: cs =>
          match cs.dropWhile (fun c => c = ':' || Text.isBlank c) with
          | m1 :: m2 :: rest => do
            let hours ← Decimal.digits? [h1, h2]
            let minutes ← Decimal.digits? [m1, m2]
            if hours < 24 ∧ minutes < 60 then
              let seconds : Int := hours * 3600 + minutes * 60
              some (if c = '+' then seconds else -seconds, rest)
            else none
          | _ => none
        | _ => none
      else none
    | [] => none

/-- The instant of a text, after which only blanks may follow. Its year in UTC may be another one
than the text says, and is bounded as well. -/
def ofChars? (cs : List Char) : Option Instant := do
  let (year, cs) ← year? cs
  let cs ← mark? '-' cs
  let (month, cs) ← field? 1 12 cs
  let cs ← mark? '-' cs
  let (day, cs) ← field? 1 31 cs
  let cs ←
    match cs with
    | c :: cs => if c = 'T' ∨ c = 't' ∨ c = ' ' then some cs else none
    | [] => none
  let (hour, cs) ← field? 0 23 cs
  let cs ← mark? ':' cs
  let (minute, cs) ← field? 0 59 cs
  let cs ← mark? ':' cs
  let (second, cs) ← field? 0 60 cs
  let (nanos, cs) ← fraction? cs
  let (offset, cs) ← offset? (Text.trimStart cs)
  let date : Date := ⟨year, month, day⟩
  if !date.isValid || !(Text.trimStart cs).isEmpty then none
  let leap := if second = 60 then 1 else 0
  let time : Int := hour * 3600 + minute * 60 + (second - leap : Nat)
  let t := ofParts date (time - offset) (nanos + leap * 1000000000)
  if isYear t.date.year then some t else none

def parse? (s : String) : Option Instant := ofChars? s.toList

end Instant

instance : JsonForm Instant where
  toJson t := .string t.text
  ofJson?
    | .string s => Instant.parse? s
    | _ => none

end PodRules
