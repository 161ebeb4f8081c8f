import PodRules.Object.Ownership
import PodRules.RuleSet.Basic
import PodRules.Selector.Term

namespace PodRules

structure RuleSetRef where
  name : String
  namespaceName : Option String
  deriving DecidableEq, Repr

def RuleSetRef.key (r : RuleSetRef) : ObjectKey := ⟨r.namespaceName.getD "", r.name⟩

namespace RuleSet

def ref (rs : RuleSet) : RuleSetRef := ⟨rs.metadata.anyName, rs.metadata.namespaceName⟩

/-- Whether a change of a pod concerns the rule set. An absent namespace is not the empty one. -/
def concerns (p : Pod) (rs : RuleSet) : Bool :=
  rs.metadata.namespaceName = p.metadata.namespaceName &&
    (p.owners.contains rs.metadata.anyName || rs.spec.selector.accepts p.labels)

end RuleSet

def Pod.wakes (p : Pod) (ruleSets : List RuleSet) : List RuleSetRef :=
  (ruleSets.filter (RuleSet.concerns p)).map RuleSet.ref

end PodRules
