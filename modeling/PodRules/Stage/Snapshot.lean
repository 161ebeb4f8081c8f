import PodRules.RuleSet.Basic

namespace PodRules

def sortDetails (ds : List Detail) : List Detail :=
  sortBy (fun a b => (compare a.name b.name).isLE) ds

def statusSnapshot (targets : SortedSet String) (generation : Int64) (details : List Detail)
    (ruleStates : List RuleState) (now : Instant) : RuleSetStatus where
  targets := targets.toList
  observedGeneration := generation
  details := sortDetails details
  ruleStates
  updateTime := some now

def detailMap (ds : List Detail) : SortedMap String Detail :=
  .ofList (ds.map fun d => (d.name, d))

def changedOutcomes (old new : List Detail) : SortedSet String :=
  let old := detailMap old
  let new := detailMap new
  .ofList ((old.keys ++ new.keys).filter fun n => new.get? n ≠ old.get? n)

end PodRules
