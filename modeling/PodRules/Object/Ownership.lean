import PodRules.Json.Parser
import PodRules.Json.Printer
import PodRules.Object.Pod

namespace PodRules

def ownershipAnnotation : String := "ruleset.rulegate.io/rulesets"

namespace Pod

def ownersOfText (text : String) : SortedSet String :=
  ((Json.parse? text).bind ofJson?).getD ∅

def ownersText (owners : SortedSet String) : String := (toJson owners).text

def owners (p : Pod) : SortedSet String :=
  match p.metadata.annotations.bind (·.get? ownershipAnnotation) with
  | some text => ownersOfText text
  | none => ∅

/-- The pod with other owners; without any the annotation is dropped. -/
def withOwners (p : Pod) (owners : SortedSet String) : Pod :=
  let annotations := p.metadata.annotations.getD ∅
  let annotations :=
    if owners.isEmpty then annotations.erase ownershipAnnotation
    else annotations.insert ownershipAnnotation (ownersText owners)
  { p with metadata := { p.metadata with annotations := some annotations } }

def addOwner (p : Pod) (ruleSet : String) : Pod × Bool :=
  if ruleSet ∈ p.owners then (p, false) else (p.withOwners (p.owners.insert ruleSet), true)

def removeOwner (p : Pod) (ruleSet : String) : Pod × Bool :=
  if ruleSet ∈ p.owners then (p.withOwners (p.owners.erase ruleSet), true) else (p, false)

theorem addOwner_unchanged {p : Pod} {name : String} (h : (p.addOwner name).2 = false) :
    (p.addOwner name).1 = p ∧ name ∈ p.owners := by
  unfold addOwner at *
  split at h <;> simp_all

end Pod

end PodRules
