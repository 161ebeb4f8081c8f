import PodRules.Object.Ownership
import PodRules.Pass.TargetEdit

namespace PodRules

structure ClaimPlan where
  release : List String
  claim : List String
  deriving DecidableEq, Repr

namespace ClaimPlan

/-- Releases every recorded name that is not selected, once, and claims every selected one. -/
def ofSelection (recorded : List String) (selected : SortedSet String) : ClaimPlan where
  release := (SortedSet.ofList (recorded.filter (· ∉ selected))).toList
  claim := selected.toList

end ClaimPlan

def releaseTargets (b : RetryBackoff) (ns ruleSet : String) : List String → Pass Unit
  | [] => .done ()
  | name :: names =>
    (editTarget b ⟨ns, name⟩ (·.removeOwner ruleSet)).bind fun _ =>
      releaseTargets b ns ruleSet names

/-- Adds a rule set to the owners of one target and arms its expectation if that took a write. The
reply is the target, if it still exists. -/
def claimTarget (b : RetryBackoff) (ns ruleSet name : String) : Pass (Option Pod) :=
  (editTarget b ⟨ns, name⟩ (·.addOwner ruleSet)).bind fun
    | .written base pod => .ask (.arm ⟨ns, name⟩ base) fun _ => .done (some pod)
    | .unchanged pod => .done (some pod)
    | .gone => .done none

def claimTargets (b : RetryBackoff) (ns ruleSet : String) : List String → Pass (List Pod)
  | [] => .done []
  | name :: names =>
    (claimTarget b ns ruleSet name).bind fun pod =>
      (claimTargets b ns ruleSet names).bind fun pods => .done (pod.toList ++ pods)

def carryOut (b : RetryBackoff) (ns ruleSet : String) (plan : ClaimPlan) :
    Pass (List Pod) :=
  (releaseTargets b ns ruleSet plan.release).bind fun _ =>
    claimTargets b ns ruleSet plan.claim

end PodRules
