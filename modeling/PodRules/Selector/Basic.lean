import PodRules.Json.Form

namespace PodRules

structure Requirement where
  key : String
  operator : String
  values : Option (List String)
  deriving DecidableEq, Repr, Inhabited

structure LabelSelector where
  matchLabels : Option (SortedMap String String)
  matchExpressions : Option (List Requirement)
  deriving DecidableEq, Inhabited

namespace LabelSelector

def everything : LabelSelector := ⟨none, none⟩

def labelPairs (s : LabelSelector) : List (String × String) :=
  match s.matchLabels with
  | some m => m.entries
  | none => []

def requirements (s : LabelSelector) : List Requirement := s.matchExpressions.getD []

end LabelSelector

instance : JsonForm Requirement where
  toJson r := .ofMembers [
    Json.field "key" r.key,
    Json.field "operator" r.operator,
    Json.present "values" r.values]
  ofJson?
    | .object ms => do
      let key ← Json.lenient? "key" ms
      let operator ← Json.lenient? "operator" ms
      let values ← Json.lenient? "values" ms
      pure ⟨key.getD "", operator.getD "", values⟩
    | _ => none

instance : JsonForm LabelSelector where
  toJson s := .ofMembers [
    Json.present "matchExpressions" s.matchExpressions,
    Json.present "matchLabels" s.matchLabels]
  ofJson?
    | .object ms => do
      let matchExpressions ← Json.lenient? "matchExpressions" ms
      let matchLabels ← Json.lenient? "matchLabels" ms
      pure ⟨matchLabels, matchExpressions⟩
    | _ => none

end PodRules
