import PodRules.Json.Parser
import PodRules.Yaml.Text

namespace PodRules.Yaml

/-- A token. The beginnings and ends of block collections and the marks of simple keys are not
written as such; they follow from the indentation and from colons. -/
inductive Token where
  | version (major minor : Nat)
  | handle (name stem : String)
  | documentStart
  | documentEnd
  | blockSequence
  | blockMapping
  | blockEnd
  | flowSequence
  | flowSequenceEnd
  | flowMapping
  | flowMappingEnd
  | item
  | comma
  | key
  | value
  | alias (name : String)
  | anchor (name : String)
  | tag (handle suffix : String)
  | scalar (plain : Bool) (text : String)
  | streamEnd
  deriving DecidableEq, Repr

def nameRun (cs : List Char) : List Char × List Char :=
  (cs.takeWhile isNameChar, cs.dropWhile isNameChar)

def anchorName? (cs : List Char) : Option (String × List Char) :=
  let (name, rest) := nameRun cs
  let ends := endsWord rest ||
    rest.head?.any fun c => c ∈ ['?', ':', ',', ']', '\x7d', '%', '@', '\x60']
  if !name.isEmpty && ends then some (String.ofList name, rest) else none

/-! ## Tags -/

def octet? : List Char → Option (Nat × List Char)
  | '%' :: a :: b :: rest => do
    let a ← Json.hexDigit? a
    let b ← Json.hexDigit? b
    pure (a * 16 + b, rest)
  | _ => none

def octets? : (more : Nat) → (n : Nat) → List Char → Option (Nat × List Char)
  | 0, n, cs => some (n, cs)
  | more + 1, n, cs => do
    let (o, rest) ← octet? cs
    if o / 0x40 = 2 then octets? more (n * 0x40 + o % 0x40) rest else none

def escapedOctets? (cs : List Char) : Option (Char × List Char) := do
  let (o, rest) ← octet? cs
  let (n, rest) ←
    if o < 0x80 then some (o, rest)
    else if o / 0x20 = 6 then octets? 1 (o % 0x20) rest
    else if o / 0x10 = 14 then octets? 2 (o % 0x10) rest
    else if o / 0x08 = 30 then octets? 3 (o % 0x08) rest
    else none
  if n.isValidChar then some (Char.ofNat n, rest) else none

def isTagChar (bracketed : Bool) (c : Char) : Bool :=
  isNameChar c ||
    c ∈ [';', '/', '?', ':', '@', '&', '=', '+', '$', '.', '!', '~', '*', '\'', '(', ')'] ||
    (bracketed && c ∈ [',', '[', ']'])

def tagRun? (bracketed : Bool) : Nat → List Char → Option (List Char × List Char)
  | 0, cs => some ([], cs)
  | n + 1, cs =>
    match cs with
    | [] => some ([], [])
    | c :: rest =>
      if c = '%' then do
        let (d, rest) ← escapedOctets? (c :: rest)
        let (t, rest) ← tagRun? bracketed n rest
        pure (d :: t, rest)
      else if isTagChar bracketed c then do
        let (t, rest) ← tagRun? bracketed n rest
        pure (c :: t, rest)
      else some ([], c :: rest)

def tagText? (bracketed : Bool) (cs : List Char) : Option (List Char × List Char) := do
  let (t, rest) ← tagRun? bracketed cs.length cs
  if t.isEmpty then none else some (t, rest)

def tagParts? (cs : List Char) : Option (String × String × List Char) :=
  match cs with
  | '<' :: cs => do
    let (t, rest) ← tagText? true cs
    match rest with
    | '>' :: rest => some ("", String.ofList t, rest)
    | _ => none
  | cs =>
    let (name, rest) := nameRun cs
    match rest with
    | '!' :: rest => do
      let (t, rest) ← tagText? false rest
      pure (String.ofList ('!' :: name ++ ['!']), String.ofList t, rest)
    | rest => do
      let (t, rest) ← tagRun? false rest.length rest
      let t := name ++ t
      if t.isEmpty then pure ("", "!", rest) else pure ("!", String.ofList t, rest)

def tag? (inFlow : Bool) (cs : List Char) : Option (Token × List Char) := do
  let (handle, suffix, rest) ← tagParts? cs
  if endsWord rest || (inFlow && rest.head? = some ',') then some (.tag handle suffix, rest)
  else none

/-! ## Directives -/

def versionNumber? (cs : List Char) : Option (Nat × List Char) :=
  let ds := cs.takeWhile Char.isDigit
  if ds.isEmpty ∨ 9 < ds.length then none
  else some (Nat.ofDigitChars 10 ds 0, cs.dropWhile Char.isDigit)

def versionDirective? (cs : List Char) : Option (Token × List Char) := do
  let (major, rest) ← versionNumber? (cs.dropWhile isBlank)
  match rest with
  | '.' :: rest => do
    let (minor, rest) ← versionNumber? rest
    pure (.version major minor, rest)
  | _ => none

def handleName? : List Char → Option (String × List Char)
  | '!' :: cs =>
    let (name, rest) := nameRun cs
    match rest with
    | '!' :: rest => some (String.ofList ('!' :: name ++ ['!']), rest)
    | rest => if name.isEmpty then some ("!", rest) else none
  | _ => none

def handleDirective? (cs : List Char) : Option (Token × List Char) := do
  let (name, rest) ← handleName? (cs.dropWhile isBlank)
  if !rest.head?.any isBlank then none
  let (stem, rest) ← tagText? true (rest.dropWhile isBlank)
  if endsWord rest then some (.handle name (String.ofList stem), rest) else none

def directive? (cs : List Char) : Option (Token × List Char) := do
  let (name, rest) := nameRun cs
  if !endsWord rest then none
  let (token, rest) ←
    match String.ofList name with
    | "YAML" => versionDirective? rest
    | "TAG" => handleDirective? rest
    | _ => none
  let rest ← lineRest? rest
  pure (token, rest)

end PodRules.Yaml
