import PodRules.Text.Separated

namespace PodRules.Network

structure Target where
  path : String
  query : Option String
  deriving DecidableEq, Repr

namespace Target

def isPathChar (c : Char) : Bool :=
  let n := c.toNat
  n = 0x21 || n = 0x22 || (0x24 ≤ n && n ≤ 0x3b) || n = 0x3d || (0x40 ≤ n && n ≤ 0x5f) ||
    (0x61 ≤ n && n ≤ 0x7e) || 0x7f ≤ n

def isQueryChar (c : Char) : Bool :=
  let n := c.toNat
  n = 0x21 || (0x24 ≤ n && n ≤ 0x3b) || n = 0x3d || (0x3f ≤ n && n ≤ 0x7e) || 0x7f ≤ n

def ofChars? (cs : List Char) : Option Target :=
  let cs := cs.takeWhile (· ≠ '#')
  let path := cs.takeWhile (· ≠ '?')
  let query := match cs.dropWhile (· ≠ '?') with
    | _ :: q => some q
    | [] => none
  if path.all isPathChar && (query.getD []).all isQueryChar then
    some ⟨String.ofList path, query.map String.ofList⟩
  else none

end Target

/-! ## Authorities -/

def endsAuthority (c : Char) : Bool := c = '/' || c = '?' || c = '#'

def isAuthorityChar (c : Char) : Bool := c.isAlphanum || "!$&'()*+,-.;=_~".toList.contains c

structure AuthorityScan where
  /-- The colons since the last bracket or sign of a user. -/
  colons : Nat
  opened : Bool
  closed : Bool
  /-- Whether there is a percent sign that is not part of a user or of a bracket. -/
  percent : Bool
  /-- Whether the last character was the sign of a user. -/
  afterUser : Bool

namespace AuthorityScan

def start : AuthorityScan := ⟨0, false, false, false, false⟩

def colonLimit : Nat := 8

def step? (s : AuthorityScan) (c : Char) : Option AuthorityScan :=
  let s := { s with afterUser := false }
  if c = ':' then
    if colonLimit ≤ s.colons then none else some { s with colons := s.colons + 1 }
  else if c = '[' then
    if s.percent || s.opened then none else some { s with opened := true }
  else if c = ']' then
    if !s.opened || s.closed then none
    else some { s with closed := true, colons := 0, percent := false }
  else if c = '@' then some { s with afterUser := true, colons := 0, percent := false }
  else if c = '%' then some { s with percent := true }
  else if isAuthorityChar c then some s
  else none

def isComplete (s : AuthorityScan) : Bool :=
  s.opened = s.closed && s.colons ≤ 1 && !s.afterUser && !s.percent

end AuthorityScan

def isAuthority (cs : List Char) : Bool :=
  (cs.foldlM AuthorityScan.step? AuthorityScan.start).any AuthorityScan.isComplete

/-! ## Addresses -/

structure Uri where
  scheme : Option String
  authority : Option String
  target : Option Target
  deriving DecidableEq, Repr

namespace Uri

def sizeLimit : Nat := 65534

def isSchemeChar (c : Char) : Bool := c.isAlphanum || "+-.~".toList.contains c

def schemeLimit : Nat := 64

def scheme? (cs : List Char) : Option (Option String × List Char) :=
  match cs.dropWhile isSchemeChar with
  | ':' :: '/' :: '/' :: rest =>
    let name := cs.takeWhile isSchemeChar
    if schemeLimit < name.length then none else some (some (String.ofList name), rest)
  | _ => some (none, cs)

/-- The address of some characters. An authority without a scheme stands alone, and one behind a
scheme is not empty. -/
def ofChars? (cs : List Char) : Option Uri := do
  if cs.head? = some '/' || cs = ['*'] then
    let target ← Target.ofChars? cs
    return ⟨none, none, some target⟩
  let (scheme, cs) ← scheme? cs
  let authority := cs.takeWhile (!endsAuthority ·)
  let rest := cs.dropWhile (!endsAuthority ·)
  if authority.isEmpty || !isAuthority authority then none
  match scheme with
  | none => if rest.isEmpty then pure ⟨none, some (String.ofList authority), none⟩ else none
  | some s => do
    let target ← Target.ofChars? rest
    pure ⟨some s, some (String.ofList authority), some target⟩

def parse? (s : String) : Option Uri :=
  if sizeLimit < s.utf8ByteSize then none else ofChars? s.toList

end Uri

end PodRules.Network
