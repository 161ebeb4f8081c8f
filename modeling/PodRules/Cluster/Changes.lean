import PodRules.Cluster.Basic
import PodRules.Json.Printer

namespace PodRules

inductive ObjectChange where
  | ruleSet (key : ObjectKey) (now : Option RuleSet)
  | pod (key : ObjectKey) (now : Option Pod)
  deriving DecidableEq

def SortedMap.changes {κ α : Type} [Ord κ] [Std.TransOrd κ] [Std.LawfulEqOrd κ] [JsonForm α]
    (before after : SortedMap κ α) : List (κ × Option α) :=
  let keys := (SortedSet.ofList (before.keys ++ after.keys)).toList
  let written (v : Option α) : Option String := v.map fun v => (toJson v).text
  (keys.filter fun k => written (before.get? k) ≠ written (after.get? k)).map fun k =>
    (k, after.get? k)

def Cluster.changes (before after : Cluster) : List ObjectChange :=
  (SortedMap.changes before.pods after.pods).map (fun e => .pod e.1 e.2) ++
    (SortedMap.changes before.ruleSets after.ruleSets).map fun e => .ruleSet e.1 e.2

end PodRules
