import PodRules.Text.Pem

namespace PodRules.Kubeconfig

open Text (PemBlock)

structure Encoded where
  kind : Nat
  contents : List Nat

namespace Encoded

def integer : Nat := 0x02

def bits : Nat := 0x03

def sequence : Nat := 0x30

def length? : List Nat → Option (Nat × List Nat)
  | [] => none
  | n :: bs =>
    if n < 0x80 then some (n, bs)
    else
      let places := n - 0x80
      if places = 0 || 4 < places || bs.length < places then none
      else some ((bs.take places).foldl (fun n b => n * 256 + b) 0, bs.drop places)

def first? : List Nat → Option (Encoded × List Nat)
  | [] => none
  | kind :: bs => do
    let (n, bs) ← length? bs
    if bs.length < n then none else some (⟨kind, bs.take n⟩, bs.drop n)

def allWithin? : (fuel : Nat) → List Nat → Option (List Encoded)
  | _, [] => some []
  | 0, _ :: _ => none
  | fuel + 1, b :: bs => do
    let (v, bs) ← first? (b :: bs)
    let vs ← allWithin? fuel bs
    pure (v :: vs)

def partKinds? (bytes : List Nat) : Option (List Nat) := do
  match ← first? bytes with
  | (v, []) =>
    if v.kind = sequence then (allWithin? v.contents.length v.contents).map (·.map kind) else none
  | _ => none

end Encoded

def isCertificate (b : PemBlock) : Bool :=
  Encoded.partKinds? b.bytes = some [Encoded.sequence, Encoded.sequence, Encoded.bits]

def isKey (b : PemBlock) : Bool :=
  (Encoded.partKinds? b.bytes).any fun kinds => kinds.head? = some Encoded.integer

def certificateLabel : String := "CERTIFICATE"

def keyLabels : List String := ["PRIVATE KEY", "RSA PRIVATE KEY", "EC PRIVATE KEY"]

def decoded? (s : String) : Option (List Char) :=
  (Text.base64Bytes? s.toList).map (·.map Char.ofNat)

/-- Whether some data can be trusted: all certificates in it have the form of certificates. There
may be none. -/
def isAuthorityData (data : List Char) : Bool :=
  (PemBlock.all? data).any fun bs => bs.all fun b => b.label ≠ certificateLabel || isCertificate b

def isIdentity (data : List Char) : Bool :=
  (PemBlock.all? data).any fun bs =>
    bs.any (·.label = certificateLabel) && bs.any fun b => b.label ∈ keyLabels && isKey b

end PodRules.Kubeconfig
