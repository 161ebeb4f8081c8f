import PodRules.Yaml.Text

namespace PodRules.Yaml

inductive Chomping where
  | strip
  | clip
  | keep
  deriving DecidableEq, Repr

structure BlockHeader where
  chomping : Chomping
  /-- How much further the lines are indented, if the header says it. -/
  increment : Option Nat

def chomping? (c : Char) : Option Chomping :=
  if c = '-' then some .strip else if c = '+' then some .keep else none

def increment? (c : Char) : Option Nat :=
  if c.isDigit ∧ c ≠ '0' then some (c.toNat - '0'.toNat) else none

def blockHeader? (cs : List Char) : Option (BlockHeader × List Char) := do
  let (chomping, cs) :=
    match cs with
    | c :: rest => (chomping? c).elim (none, cs) fun m => (some m, rest)
    | [] => (none, cs)
  let (increment, cs) :=
    match cs with
    | c :: rest => (increment? c).elim (none, cs) fun n => (some n, rest)
    | [] => (none, cs)
  let (chomping, cs) :=
    match chomping, increment, cs with
    | none, some _, c :: rest => (chomping? c).elim (none, cs) fun m => (some m, rest)
    | _, _, _ => (chomping, cs)
  let lines ← lineRest? cs
  pure (⟨chomping.getD .clip, increment⟩, lines)

structure BlockGap where
  breaks : List Char
  /-- How far the next line is indented, as far as it counts. -/
  column : Nat
  /-- How far any of the lines is indented. -/
  widest : Nat
  rest : List Char

/-- The empty lines up to a line with content. Unless the indentation is known, all spaces belong
to it, and no tab may stand within it. -/
def blockGap? (known : Option Nat) : (column : Nat) → (widest : Nat) → List Char → Option BlockGap
  | column, widest, [] => some ⟨[], column, max widest column, []⟩
  | column, widest, c :: cs =>
    let within := known.all fun n => decide (column < n)
    if c = ' ' ∧ within then blockGap? known (column + 1) widest cs
    else if c = '\t' ∧ within then none
    else if isBreak c then
      (blockGap? known 0 (max widest column) cs).map fun g => { g with breaks := c :: g.breaks }
    else some ⟨[], column, max widest column, c :: cs⟩

/-- How a line end and the empty lines after it are read between two lines of a scalar. A folded
line feed between lines that do not begin with blanks is a space, or nothing before empty lines. -/
def joinLines (literal : Bool) (lead breaks : List Char) (blankBefore blankAfter : Bool) :
    List Char :=
  if !literal && lead = ['\n'] && !blankBefore && !blankAfter then
    (if breaks.isEmpty then [' '] else breaks)
  else lead ++ breaks

def blockLines? (literal : Bool) (indent : Nat) : (lines : Nat) → (lead : List Char) →
    (blankBefore : Bool) → BlockGap → Option (List Char × List Char × BlockGap)
  | 0, _, _, _ => none
  | lines + 1, lead, blankBefore, gap =>
    match gap.rest with
    | [] => some ([], lead, gap)
    | c :: cs =>
      if gap.column ≠ indent then some ([], lead, gap)
      else do
        let join := joinLines literal lead gap.breaks blankBefore (isBlank c)
        let line := (c :: cs).takeWhile fun d => !isBreak d
        let behind := (c :: cs).dropWhile fun d => !isBreak d
        let next ← blockGap? (some indent) 0 0 (behind.drop 1)
        let (t, last, rest) ← blockLines? literal indent lines (behind.take 1) (isBlank c) next
        pure (join ++ line ++ t, last, rest)

/-- The text of a block scalar behind its mark, and what follows it. The mark stands in something
that is indented by `outer - 1` columns. -/
def blockScalar? (literal : Bool) (outer : Nat) (cs : List Char) :
    Option (List Char × List Char) := do
  let (header, cs) ← blockHeader? cs
  let known := header.increment.map fun n => (outer - 1) + n
  let gap ← blockGap? known 0 0 cs
  let indent := known.getD (max gap.widest (max outer 1))
  let (t, lead, gap) ← blockLines? literal indent (cs.length + 1) [] false gap
  let tail :=
    match header.chomping with
    | .strip => []
    | .clip => lead
    | .keep => lead ++ gap.breaks
  pure (t ++ tail, gap.rest)

end PodRules.Yaml
