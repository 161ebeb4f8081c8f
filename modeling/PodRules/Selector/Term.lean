import PodRules.Selector.Basic
import PodRules.Text.Quoted

namespace PodRules

inductive SelectorError where
  | unknownOperator (key operator : String)
  | missingValues (key operator : String)
  | unexpectedValues (key operator : String)
  deriving DecidableEq, Repr

namespace SelectorError

def message : SelectorError → String
  | .unknownOperator key operator =>
    "unknown selector operator " ++ Text.quote operator ++ " for key " ++ key
  | .missingValues key operator => "operator " ++ operator ++ " on key " ++ key ++ " requires values"
  | .unexpectedValues key operator =>
    "operator " ++ operator ++ " on key " ++ key ++ " must not carry values"

end SelectorError

inductive Term where
  | oneOf (key : String) (values : List String)
  | noneOf (key : String) (values : List String)
  | present (key : String)
  | absent (key : String)
  deriving DecidableEq, Repr

namespace Term

def text : Term → String
  | .oneOf key values => key ++ " in (" ++ String.intercalate "," values ++ ")"
  | .noneOf key values => key ++ " notin (" ++ String.intercalate "," values ++ ")"
  | .present key => key
  | .absent key => "!" ++ key

/-- Whether labels meet the condition; a missing key is not one of any values. -/
def holds (labels : SortedMap String String) : Term → Bool
  | .oneOf key values => (labels.get? key).any fun v => decide (v ∈ values)
  | .noneOf key values => !(labels.get? key).any fun v => decide (v ∈ values)
  | .present key => (labels.get? key).isSome
  | .absent key => (labels.get? key).isNone

end Term

namespace Requirement

def term? (r : Requirement) : Except SelectorError Term :=
  let values := r.values.getD []
  let withValues (t : Term) : Except SelectorError Term :=
    if values.isEmpty then .error (.missingValues r.key r.operator) else .ok t
  let withoutValues (t : Term) : Except SelectorError Term :=
    if values.isEmpty then .ok t else .error (.unexpectedValues r.key r.operator)
  if r.operator = "In" then withValues (.oneOf r.key values)
  else if r.operator = "NotIn" then withValues (.noneOf r.key values)
  else if r.operator = "Exists" then withoutValues (.present r.key)
  else if r.operator = "DoesNotExist" then withoutValues (.absent r.key)
  else .error (.unknownOperator r.key r.operator)

def terms? : List Requirement → Except SelectorError (List Term)
  | [] => .ok []
  | r :: rs =>
    match r.term? with
    | .error e => .error e
    | .ok t =>
      match terms? rs with
      | .error e => .error e
      | .ok ts => .ok (t :: ts)

/-- Whether labels meet all requirements. A requirement that is not met ends the decision, so a
later one that denotes no term is not noticed. -/
def allHold? (labels : SortedMap String String) : List Requirement → Except SelectorError Bool
  | [] => .ok true
  | r :: rs =>
    match r.term? with
    | .error e => .error e
    | .ok t => if t.holds labels then allHold? labels rs else .ok false

end Requirement

namespace LabelSelector

def query? (s : LabelSelector) : Except SelectorError String :=
  match Requirement.terms? s.requirements with
  | .error e => .error e
  | .ok ts =>
    .ok (String.intercalate "," (s.labelPairs.map (fun p => p.1 ++ "=" ++ p.2) ++ ts.map Term.text))

def matches? (s : LabelSelector) (labels : SortedMap String String) : Except SelectorError Bool :=
  if s.labelPairs.all fun p => labels.get? p.1 = some p.2 then
    Requirement.allHold? labels s.requirements
  else .ok false

def accepts (s : LabelSelector) (labels : SortedMap String String) : Bool :=
  match s.matches? labels with
  | .ok b => b
  | .error _ => false

end LabelSelector

end PodRules
