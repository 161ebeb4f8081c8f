import PodRules.Text.Alphanumeric
import PodRules.Text.Blank
import PodRules.Text.Decimal
import PodRules.Text.Separated

/-!
Which log lines are shown. A filter is a list of directives, separated by commas: a level for
everything, or a target with a level, possibly for lines with a certain field only. Of the
directives that cover a line the narrowest one decides.
-/

namespace PodRules.Log

inductive Level where
  | error
  | warn
  | info
  | debug
  | trace
  deriving DecidableEq, Repr

namespace Level

def rank : Level → Nat
  | .error => 1
  | .warn => 2
  | .info => 3
  | .debug => 4
  | .trace => 5

def text : Level → String
  | .error => "ERROR"
  | .warn => "WARN"
  | .info => "INFO"
  | .debug => "DEBUG"
  | .trace => "TRACE"

end Level

def highestRank : Nat := Level.trace.rank

def rank? (cs : List Char) : Option Nat :=
  match Decimal.unsigned? (highestRank + 1) cs with
  | some n => some n
  | none =>
    match (String.ofList cs).toLower with
    | "off" => some 0
    | "error" => some 1
    | "warn" => some 2
    | "info" => some 3
    | "debug" => some 4
    | "trace" => some 5
    | _ => none

/-! ## Directives -/

/-- A directive: lines of a target up to a rank. Without a target it covers all of them, with a
field only those that have it. One about spans covers no line outside of them. -/
structure Directive where
  target : Option String
  field : Option String
  aboutSpan : Bool
  rank : Nat
  deriving DecidableEq, Repr

/-- A text as it is read: each character between the blanks at its ends stands beside the one that
parts of the text are copied from at that place, and some characters to copy are left over. As the
copy is counted from the first character of all, blanks in front shift it. -/
structure Aligned where
  pairs : List (Char × Char)
  surplus : List Char

namespace Aligned

def ofText (cs : List Char) : Aligned :=
  let inner := Text.trim cs
  ⟨inner.zip cs, cs.drop inner.length⟩

def cut? (stop : Char → Bool) (a : Aligned) : Option (List Char × Char × Aligned) :=
  let front := a.pairs.takeWhile fun p => !stop p.1
  match a.pairs.dropWhile fun p => !stop p.1 with
  | p :: rest => some (front.map (·.2), p.1, ⟨rest, a.surplus⟩)
  | [] => none

def remainder (a : Aligned) : List Char := a.pairs.map (·.2) ++ a.surplus

end Aligned

def endRank? (cs : List Char) : Option Nat :=
  if cs.isEmpty then some highestRank else rank? cs

def closed? (target : Option String) (field : Option String) (aboutSpan : Bool) (a : Aligned) :
    Option Directive :=
  match a.pairs with
  | [] => some ⟨target, field, aboutSpan, highestRank⟩
  | ('=', _) :: rest =>
    (endRank? (Aligned.remainder ⟨rest, a.surplus⟩)).map fun n => ⟨target, field, aboutSpan, n⟩
  | _ => none

def bracketed? (target : Option String) (a : Aligned) : Option Directive := do
  let (span, mark, a) ← a.cut? fun c => c = ']' || c = '\x7b'
  if mark = ']' then closed? target none true a
  else do
    let (field, _, a) ← a.cut? (· = '\x7d')
    if field.isEmpty then none
    match a.pairs with
    | (']', _) :: rest =>
      closed? target (some (String.ofList field)) (!span.isEmpty || field.contains '=')
        ⟨rest, a.surplus⟩
    | _ => none

def isFirstChar (c : Char) : Bool :=
  Text.isAlphanumeric c || c = '-' || c = ':' || c = '_'

def directive? (cs : List Char) : Option Directive :=
  let a := Aligned.ofText cs
  match a.pairs with
  | [] => none
  | ('[', _) :: rest => bracketed? none ⟨rest, a.surplus⟩
  | (c, _) :: _ =>
    if !isFirstChar c then none
    else
      match a.cut? fun c => c = '=' || c = '[' with
      | none =>
        match rank? a.remainder with
        | some n => some ⟨none, none, false, n⟩
        | none => some ⟨some (String.ofList a.remainder), none, false, highestRank⟩
      | some (target, mark, a) =>
        let target := some (String.ofList target)
        if mark = '[' then bracketed? target a
        else (endRank? a.remainder).map fun n => ⟨target, none, false, n⟩

def directives? (s : String) : Option (List Directive) :=
  ((Text.splitAt ',' s.toList).filter (!·.isEmpty)).mapM directive?

/-! ## Lines -/

def Directive.covers (target : String) (fields : List String) (d : Directive) : Bool :=
  !d.aboutSpan && (d.target.all fun t => t.isPrefixOf target) && d.field.all (fields.contains ·)

def Directive.width (d : Directive) : Nat :=
  match d.target with
  | some t => t.utf8ByteSize + 1
  | none => 0

/-- Whether a directive is narrower than another one: its target is longer, or it asks for a field,
or for a field that comes later in the order of names. -/
def Directive.isNarrower (d e : Directive) : Bool :=
  if d.width = e.width then
    match d.field, e.field with
    | some f, some g => g < f
    | some _, none => true
    | none, _ => false
  else e.width < d.width

def narrowest? : List Directive → Option Directive
  | [] => none
  | d :: ds =>
    match narrowest? ds with
    | some e => if d.isNarrower e then some d else some e
    | none => some d

/-- The directives in force: errors without any directive, and up to information when there is no
filter or one that cannot be read. -/
def inForce (filter : Option String) : List Directive :=
  match filter.map directives? with
  | some (some []) => [⟨none, none, false, Level.error.rank⟩]
  | some (some ds) => ds
  | _ => [⟨none, none, false, Level.info.rank⟩]

def shows (filter : Option String) (target : String) (fields : List String) (level : Level) :
    Bool :=
  match narrowest? ((inForce filter).filter (·.covers target fields)) with
  | some d => decide (level.rank ≤ d.rank)
  | none => false

end PodRules.Log
