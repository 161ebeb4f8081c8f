import PodRules.Json.Parser
import PodRules.Text.Separated

namespace PodRules.Network.Query

def isPlain (b : UInt8) : Bool :=
  let c := Char.ofNat b.toNat
  c.isAlphanum || c = '*' || c = '-' || c = '.' || c = '_'

def encodeByte (b : UInt8) : List Char :=
  let digit (n : Nat) := (Nat.digitChar n).toUpper
  if isPlain b then [Char.ofNat b.toNat]
  else if b = 0x20 then ['+']
  else ['%', digit (b.toNat / 16), digit (b.toNat % 16)]

def encode (s : String) : String := String.ofList (s.toUTF8.toList.flatMap encodeByte)

/-- The bytes of a text in a query. A percent sign without two digits behind it is itself. -/
def decodeBytes : List Char → List UInt8
  | '%' :: a :: b :: cs =>
    match Json.hexDigit? a, Json.hexDigit? b with
    | some a, some b => UInt8.ofNat (a * 16 + b) :: decodeBytes cs
    | _, _ => UInt8.ofNat '%'.toNat :: decodeBytes (a :: b :: cs)
  | '+' :: cs => 0x20 :: decodeBytes cs
  | c :: cs => (String.singleton c).toUTF8.toList ++ decodeBytes cs
  | [] => []

def decode (cs : List Char) : String :=
  (String.fromUTF8? ⟨(decodeBytes cs).toArray⟩).getD (String.ofList cs)

def parameters (query : String) : List (String × String) :=
  ((Text.splitAt '&' query.toList).filter (!·.isEmpty)).map fun cs =>
    (decode (cs.takeWhile (· ≠ '=')), decode ((cs.dropWhile (· ≠ '=')).drop 1))

end PodRules.Network.Query
