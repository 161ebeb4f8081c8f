import PodRules.Object.Pod
import PodRules.RuleSet.Basic
import PodRules.Time.Duration

namespace PodRules

structure StageResult where
  interval : Option Duration
  ruleStates : List RuleState
  retry : Bool
  passRules : SortedMap String (SortedSet String)
  rejected : SortedMap String RejectInfo
  deriving DecidableEq, Inhabited

namespace StageResult

def empty : StageResult := ⟨none, [], false, ∅, ∅⟩

def declaredRules (rs : RuleSet) (stage : String) : List String :=
  (rs.spec.rules.filter (·.stage = stage)).map (·.name)

def declared (stage : String) (rs : RuleSet) (targets : List Pod) : StageResult :=
  let rules := declaredRules rs stage
  if rules.isEmpty then empty
  else
    { empty with
      passRules := .ofList (targets.map fun p => (p.metadata.name.getD "", .ofList rules))
      ruleStates := rules.map fun r => ⟨stage, r, none⟩ }

end StageResult

end PodRules
