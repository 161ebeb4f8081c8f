import PodRules.Json.Parser
import PodRules.Text.Decimal
import PodRules.Text.Separated

namespace PodRules.Network

inductive Host where
  | v4 (bytes : List Nat)
  | v6 (groups : List Nat)
  deriving DecidableEq, Repr

structure SocketAddress where
  host : Host
  service : Nat
  deriving DecidableEq, Repr

def byte? (cs : List Char) : Option Nat := do
  if cs.length > 3 ∨ (cs.head? = some '0' ∧ cs.length > 1) then none
  let n ← Decimal.digits? cs
  if n < 256 then some n else none

def bytes? (cs : List Char) : Option (List Nat) :=
  let parts := Text.splitAt '.' cs
  if parts.length = 4 then parts.mapM byte? else none

def group? (cs : List Char) : Option Nat := do
  if cs.isEmpty ∨ cs.length > 4 then none
  let ds ← cs.mapM Json.hexDigit?
  pure (ds.foldl (fun n d => n * 16 + d) 0)

def groups? (cs : List Char) : Option (List Nat) :=
  if cs.isEmpty then some []
  else
    let parts := Text.splitAt ':' cs
    match parts.getLast?.bind bytes? with
    | some [a, b, c, d] => do
      let front ← parts.dropLast.mapM group?
      pure (front ++ [a * 256 + b, c * 256 + d])
    | _ => parts.mapM group?

def splitGap : List Char → Option (List Char × List Char)
  | ':' :: ':' :: cs => some ([], cs)
  | c :: cs => (splitGap cs).map fun (a, b) => (c :: a, b)
  | [] => none

def allGroups? (cs : List Char) : Option (List Nat) :=
  match splitGap cs with
  | none => do
    let gs ← groups? cs
    if gs.length = 8 then some gs else none
  | some (front, back) => do
    if (Text.splitAt ':' front).getLast?.any fun p => p.contains '.' then none
    let front ← groups? front
    let back ← groups? back
    let zeros := 8 - (front.length + back.length)
    if front.length + back.length < 8 then some (front ++ List.replicate zeros 0 ++ back) else none

def service? (cs : List Char) : Option Nat := do
  let n ← Decimal.digits? cs
  if n < Nat.pow 2 16 then some n else none

def isScope (cs : List Char) : Bool := (Decimal.digits? cs).any fun n => decide (n < Nat.pow 2 32)

def SocketAddress.parse? (s : String) : Option SocketAddress :=
  match s.toList with
  | '[' :: cs =>
    match cs.dropWhile (· ≠ ']') with
    | ']' :: ':' :: service => do
      let inner := cs.takeWhile (· ≠ ']')
      match inner.dropWhile (· ≠ '%') with
      | '%' :: scope => if !isScope scope then none
      | _ => pure ()
      let groups ← allGroups? (inner.takeWhile (· ≠ '%'))
      let service ← service? service
      pure ⟨.v6 groups, service⟩
    | _ => none
  | cs =>
    match cs.dropWhile (· ≠ ':') with
    | ':' :: service => do
      let bytes ← bytes? (cs.takeWhile (· ≠ ':'))
      let service ← service? service
      pure ⟨.v4 bytes, service⟩
    | _ => none

/-- Whether a host can be listened on without knowing the machine: the loopback addresses and the
one that stands for all of them. -/
def Host.isLocal : Host → Bool
  | .v4 bytes => bytes.head? = some 127 || bytes = [0, 0, 0, 0]
  | .v6 groups =>
    groups = [0, 0, 0, 0, 0, 0, 0, 1] || groups = [0, 0, 0, 0, 0, 0, 0, 0] ||
      (groups.take 6 = [0, 0, 0, 0, 0, 0xffff] &&
        (groups.drop 6 = [0, 0] || groups[6]?.any fun g => g / 256 = 127))

end PodRules.Network
