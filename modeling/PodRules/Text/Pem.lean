import PodRules.Text.Base64
import PodRules.Text.Blank

namespace PodRules.Text

def cutAt? (mark : List Char) : List Char → Option (List Char × List Char)
  | [] => none
  | c :: cs =>
    if mark.isPrefixOf (c :: cs) then some ([], (c :: cs).drop mark.length)
    else (cutAt? mark cs).map fun (front, back) => (c :: front, back)

structure PemBlock where
  label : String
  bytes : List Nat
  deriving DecidableEq, Repr

namespace PemBlock

/-- The base64 of a block. An empty line ends the headers in front of it. -/
def payload (cs : List Char) : List Char :=
  let cs := cs.filter (· ≠ '\r')
  let cs := match cutAt? ['\n', '\n'] cs with
    | some (_, back) => if (trimStart back).isEmpty then cs else back
    | none => cs
  cs.filter (!isBlank ·)

def first? (cs : List Char) : Option (Option PemBlock × List Char) := do
  let (_, cs) ← cutAt? "-----BEGIN ".toList cs
  let (label, cs) ← cutAt? "-----".toList cs
  let (body, cs) ← cutAt? "-----END ".toList cs
  let (endLabel, cs) ← cutAt? "-----".toList cs
  let block := do
    let bytes ← base64Bytes? (payload (trimStart body))
    if label.isEmpty || label ≠ endLabel then none else some ⟨String.ofList label, bytes⟩
  pure (block, cs)

def allWithin? : (fuel : Nat) → List Char → Option (List PemBlock)
  | 0, _ => some []
  | fuel + 1, cs =>
    match first? cs with
    | none => some []
    | some (block, cs) => do
      let b ← block
      let bs ← allWithin? fuel cs
      pure (b :: bs)

def all? (cs : List Char) : Option (List PemBlock) := allWithin? cs.length cs

end PemBlock

end PodRules.Text
