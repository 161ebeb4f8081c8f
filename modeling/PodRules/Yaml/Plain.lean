import PodRules.Yaml.Text

namespace PodRules.Yaml

def isFlowMark (c : Char) : Bool := c ∈ [',', '[', ']', '\x7b', '\x7d']

/-- The characters that a plain scalar may not begin with. Three of them may still do so if what
follows is part of a word. -/
def isIndicator (c : Char) : Bool :=
  c ∈ ['-', '?', ':', ',', '[', ']', '\x7b', '\x7d', '#', '&', '*', '!', '|', '>', '\'', '"', '%',
    '@', '\x60']

def startsPlain (inFlow : Bool) : List Char → Bool
  | [] => false
  | c :: cs =>
    !(endsWord (c :: cs) || isIndicator c) || (c = '-' && !(cs.head?.any isBlank)) ||
      (!inFlow && (c = '?' || c = ':') && !endsWord cs)

def endsBehind (inFlow : Bool) (least column : Nat) (cs : List Char) : Bool :=
  (!inFlow && decide (column < least)) || (decide (column = 0) && isDocumentMark cs) ||
    cs.head? = some '#'

/-- A plain scalar: its text, whether a line ended behind it, and what follows. Lines after the
first one are indented by at least `least` columns, and not by tabs. In a flow collection a colon
before another mark is an error. -/
def plain? (inFlow : Bool) (least : Nat) :
    Gap → (column : Nat) → List Char → Option (List Char × Bool × List Char)
  | gap, _, [] => some ([], gap.hasLine, [])
  | gap, column, c :: cs =>
    if isBreak c then plain? inFlow least (gap.line c) 0 cs
    else if isBlank c then
      if gap.hasLine ∧ column < least ∧ c = '\t' then none
      else plain? inFlow least (gap.blank c) (column + 1) cs
    else if gap.isOpen ∧ endsBehind inFlow least column (c :: cs) then
      some ([], gap.hasLine, c :: cs)
    else if inFlow ∧ c = ':' ∧ cs.head?.any (fun d => isFlowMark d || d = '?') then none
    else if (c = ':' ∧ endsWord cs) ∨ (inFlow ∧ isFlowMark c) then
      some ([], gap.hasLine, c :: cs)
    else do
      let (t, ended, rest) ← plain? inFlow least .none (column + 1) cs
      pure (gap.chars ++ c :: t, ended, rest)

end PodRules.Yaml
