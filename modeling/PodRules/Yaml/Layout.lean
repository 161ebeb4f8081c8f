import PodRules.Yaml.BlockScalar
import PodRules.Yaml.Plain
import PodRules.Yaml.Quoted
import PodRules.Yaml.Token

/-!
The tokens of a text. Block collections begin and end where the indentation changes, and a node is
a key when a colon follows it in its line: a possible key is remembered until its colon comes, and
then the mark of the key is put in front of it.
-/

namespace PodRules.Yaml

structure PossibleKey where
  /-- How many tokens precede it. -/
  number : Nat
  index : Nat
  line : Nat
  column : Nat
  /-- Whether nothing but a key can stand there. -/
  required : Bool

structure Layout where
  rest : List Char
  /-- How many characters, lines, and characters of the line were read. -/
  index : Nat
  line : Nat
  column : Nat
  /-- The indentations of the open block collections, the innermost first. -/
  indents : List Nat
  /-- The possible key of each open flow collection, the innermost first, and of the block level. -/
  keys : List (Option PossibleKey)
  /-- Whether a key may begin here. -/
  keyAllowed : Bool
  /-- The tokens in reverse. -/
  tokens : List Token

namespace Layout

def start (cs : List Char) : Layout := ⟨cs, 0, 0, 0, [], [none], true, []⟩

def inFlow (s : Layout) : Bool := decide (1 < s.keys.length)

def outer (s : Layout) : Nat := s.indents.head?.elim 0 (· + 1)

def count (s : Layout) (c : Char) : Layout :=
  if isBreak c then { s with index := s.index + 1, line := s.line + 1, column := 0 }
  else { s with index := s.index + 1, column := s.column + 1 }

def goTo (s : Layout) (rest : List Char) : Layout :=
  { (s.rest.take (s.rest.length - rest.length)).foldl count s with rest }

def push (s : Layout) (t : Token) : Layout := { s with tokens := t :: s.tokens }

def emit (s : Layout) (t : Token) (rest : List Char) : Layout := (s.push t).goTo rest

def insert (s : Layout) (number : Nat) (t : Token) : Layout :=
  let later := s.tokens.length - number
  { s with tokens := s.tokens.take later ++ t :: s.tokens.drop later }

def openBlock (s : Layout) (column number : Nat) (t : Token) : Layout :=
  if s.inFlow || !s.indents.head?.all (· < column) then s
  else { s with indents := column :: s.indents }.insert number t

def closeBlocks (s : Layout) (least : Nat) : Layout :=
  if s.inFlow then s
  else
    let closed := s.indents.takeWhile (least ≤ ·)
    { s with
      indents := s.indents.drop closed.length
      tokens := List.replicate closed.length .blockEnd ++ s.tokens }

def keyReach : Nat := 1024

def dropKeys? (s : Layout) : Option Layout := do
  let keys ← s.keys.mapM fun key =>
    match key with
    | none => some none
    | some k =>
      if k.line < s.line ∨ k.index + keyReach < s.index then
        if k.required then none else some none
      else some (some k)
  pure { s with keys }

def dropKey? (s : Layout) : Option Layout :=
  match s.keys with
  | some k :: keys => if k.required then none else some { s with keys := none :: keys }
  | _ => some s

def offerKey? (s : Layout) : Option Layout :=
  if s.keyAllowed then do
    let t ← s.dropKey?
    let required := !s.inFlow && s.indents.head? = some s.column
    pure { t with keys := some ⟨s.tokens.length, s.index, s.line, s.column, required⟩ :: t.keys.drop 1 }
  else some s

/-- What follows white space and comments, and whether a key may begin there. In block collections
a line end admits keys, and tabs are no white space where a key may begin. -/
def spaceRest (inFlow : Bool) :
    (comment keyAllowed : Bool) → (column : Nat) → List Char → Bool × List Char
  | _, keyAllowed, _, [] => (keyAllowed, [])
  | comment, keyAllowed, column, c :: cs =>
    if isBreak c then spaceRest inFlow false (keyAllowed || !inFlow) 0 cs
    else if comment || c = ' ' || (c = '\t' && (inFlow || !keyAllowed)) ||
        (c = orderMark && decide (column = 0)) then
      spaceRest inFlow comment keyAllowed (column + 1) cs
    else if c = '#' then spaceRest inFlow true keyAllowed (column + 1) cs
    else (keyAllowed, c :: cs)

def skipSpace (s : Layout) : Layout :=
  let (keyAllowed, rest) := spaceRest s.inFlow false s.keyAllowed s.column s.rest
  { s.goTo rest with keyAllowed }

/-! ## Kinds of tokens -/

def documentToken? (s : Layout) (t : Token) (rest : List Char) : Option Layout := do
  let s ← (s.closeBlocks 0).dropKey?
  pure ({ s with keyAllowed := false }.emit t rest)

def openFlow? (s : Layout) (t : Token) (rest : List Char) : Option Layout := do
  let s ← s.offerKey?
  pure ({ s with keys := none :: s.keys, keyAllowed := true }.emit t rest)

def closeFlow? (s : Layout) (t : Token) (rest : List Char) : Option Layout := do
  let s ← s.dropKey?
  let keys := if s.inFlow then s.keys.drop 1 else s.keys
  pure ({ s with keys, keyAllowed := false }.emit t rest)

def comma? (s : Layout) (rest : List Char) : Option Layout := do
  let s ← s.dropKey?
  pure ({ s with keyAllowed := true }.emit .comma rest)

def entry? (s : Layout) (collection t : Token) (allowsKey : Bool) (rest : List Char) :
    Option Layout := do
  if !s.inFlow && !s.keyAllowed then none
  let s ← (s.openBlock s.column s.tokens.length collection).dropKey?
  pure ({ s with keyAllowed := allowsKey }.emit t rest)

def value? (s : Layout) (rest : List Char) : Option Layout :=
  match s.keys with
  | some k :: keys =>
    let s := (s.insert k.number .key).openBlock k.column k.number .blockMapping
    some ({ s with keys := none :: keys, keyAllowed := false }.emit .value rest)
  | _ =>
    if s.inFlow then some ({ s with keyAllowed := false }.emit .value rest)
    else if s.keyAllowed then
      let s := s.openBlock s.column s.tokens.length .blockMapping
      some ({ s with keyAllowed := true }.emit .value rest)
    else none

def node? (s : Layout) (t : Token) (rest : List Char) : Option Layout := do
  let s ← s.offerKey?
  pure ({ s with keyAllowed := false }.emit t rest)

def plain? (s : Layout) : Option Layout := do
  let (t, ended, rest) ← Yaml.plain? s.inFlow s.outer .none s.column s.rest
  let s ← s.node? (.scalar true (String.ofList t)) rest
  pure { s with keyAllowed := ended }

def blockScalar? (s : Layout) (literal : Bool) (rest : List Char) : Option Layout := do
  let (t, rest) ← Yaml.blockScalar? literal s.outer rest
  let s ← s.dropKey?
  pure ({ s with keyAllowed := true }.emit (.scalar false (String.ofList t)) rest)

def quoted? (s : Layout) (scalar : Option (List Char × List Char)) : Option Layout := do
  let (t, rest) ← scalar
  s.node? (.scalar false (String.ofList t)) rest

def alias? (s : Layout) (cs : List Char) : Option Layout := do
  let (name, rest) ← anchorName? cs
  s.node? (.alias name) rest

def anchor? (s : Layout) (cs : List Char) : Option Layout := do
  let (name, rest) ← anchorName? cs
  s.node? (.anchor name) rest

def tag? (s : Layout) (cs : List Char) : Option Layout := do
  let (t, rest) ← Yaml.tag? s.inFlow cs
  s.node? t rest

def directive? (s : Layout) (cs : List Char) : Option Layout := do
  let (t, rest) ← Yaml.directive? cs
  s.documentToken? t rest

def token? (s : Layout) (c : Char) (cs : List Char) : Option Layout :=
  let ends := s.inFlow || endsWord cs
  if s.column = 0 ∧ c = '%' then s.directive? cs
  else if s.column = 0 ∧ isTriple '-' (c :: cs) then s.documentToken? .documentStart (cs.drop 2)
  else if s.column = 0 ∧ isTriple '.' (c :: cs) then s.documentToken? .documentEnd (cs.drop 2)
  else if c = '[' then s.openFlow? .flowSequence cs
  else if c = '\x7b' then s.openFlow? .flowMapping cs
  else if c = ']' then s.closeFlow? .flowSequenceEnd cs
  else if c = '\x7d' then s.closeFlow? .flowMappingEnd cs
  else if c = ',' then s.comma? cs
  else if c = '-' ∧ endsWord cs then s.entry? .blockSequence .item true cs
  else if c = '?' ∧ ends then s.entry? .blockMapping .key (!s.inFlow) cs
  else if c = ':' ∧ ends then s.value? cs
  else if c = '*' then s.alias? cs
  else if c = '&' then s.anchor? cs
  else if c = '!' then s.tag? cs
  else if c = '|' ∧ !s.inFlow then s.blockScalar? true cs
  else if c = '>' ∧ !s.inFlow then s.blockScalar? false cs
  else if c = '\'' then s.quoted? (singleQuoted? .none (s.column + 1) cs)
  else if c = '"' then s.quoted? (doubleQuoted? .none (s.column + 1) cs)
  else if startsPlain s.inFlow (c :: cs) then s.plain?
  else none

def tokens? : (fuel : Nat) → Layout → Option (List Token)
  | 0, _ => none
  | fuel + 1, s => do
    let s ← s.skipSpace.dropKeys?
    let s := s.closeBlocks (s.column + 1)
    match s.rest with
    | [] =>
      let s ← (s.closeBlocks 0).dropKey?
      pure (.streamEnd :: s.tokens).reverse
    | c :: cs =>
      let s ← s.token? c cs
      tokens? fuel s

end Layout

def tokens? (cs : List Char) : Option (List Token) :=
  if cs.all isAllowed then (Layout.start (normalLines cs)).tokens? (cs.length + 1) else none

end PodRules.Yaml
