import PodRules.Object.Pod
import PodRules.RuleSet.Basic
import PodRules.Store.Error

namespace PodRules

inductive StoreCall where
  | getRuleSet (key : ObjectKey)
  | updateRuleSet (ruleSet : RuleSet)
  | updateStatus (ruleSet : RuleSet)
  | listTargets (namespaceName : String) (selector : LabelSelector)
  | getTarget (key : ObjectKey)
  | updateTarget (pod : Pod)
  deriving DecidableEq

namespace StoreCall

abbrev Value : StoreCall → Type
  | .getRuleSet _ => RuleSet
  | .updateRuleSet _ => RuleSet
  | .updateStatus _ => RuleSet
  | .listTargets _ _ => List Pod
  | .getTarget _ => Pod
  | .updateTarget _ => Pod

abbrev Answer (c : StoreCall) : Type := Except StoreError c.Value

def isWrite : StoreCall → Bool
  | .updateRuleSet _ => true
  | .updateStatus _ => true
  | .updateTarget _ => true
  | _ => false

end StoreCall

end PodRules
