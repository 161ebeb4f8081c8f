import PodRules.Selector.Term
import PodRules.Store.Call

namespace PodRules

def Metadata.atVersion (m : Metadata) (version : String) : Metadata :=
  { m with resourceVersion := some version }

def RuleSet.atVersion (rs : RuleSet) (version : String) : RuleSet :=
  { rs with metadata := rs.metadata.atVersion version }

def Pod.atVersion (p : Pod) (version : String) : Pod :=
  { p with metadata := p.metadata.atVersion version }

/-- Whether an update from one state of an object may replace another: both have the same version,
where no version at all differs from any. -/
def Metadata.mayReplace (update stored : Metadata) : Bool :=
  update.resourceVersion = stored.resourceVersion

def Metadata.isFinished (m : Metadata) : Bool := m.isTerminating && m.finalizerList.isEmpty

structure Cluster where
  ruleSets : SortedMap ObjectKey RuleSet
  pods : SortedMap ObjectKey Pod
  counter : Nat
  deriving DecidableEq

namespace Cluster

def empty : Cluster := ⟨∅, ∅, 0⟩

def nextVersion (s : Cluster) : String := toString (s.counter + 1)

def bump (s : Cluster) : Cluster := { s with counter := s.counter + 1 }

def keepRuleSet (s : Cluster) (rs : RuleSet) : Cluster :=
  { s with ruleSets := s.ruleSets.insert rs.key rs }

def keepPod (s : Cluster) (p : Pod) : Cluster := { s with pods := s.pods.insert p.key p }

def putRuleSet (s : Cluster) (rs : RuleSet) : Cluster :=
  s.bump.keepRuleSet (rs.atVersion s.nextVersion)

def putPod (s : Cluster) (p : Pod) : Cluster := s.bump.keepPod (p.atVersion s.nextVersion)

def deleteRuleSet (s : Cluster) (key : ObjectKey) : Cluster :=
  { s with ruleSets := s.ruleSets.erase key }

def deletePod (s : Cluster) (key : ObjectKey) : Cluster := { s with pods := s.pods.erase key }

def touchRuleSet (s : Cluster) (key : ObjectKey) : Cluster :=
  match s.ruleSets.get? key with
  | some rs => { s.bump with ruleSets := s.ruleSets.insert key (rs.atVersion s.nextVersion) }
  | none => s.bump

def touchPod (s : Cluster) (key : ObjectKey) : Cluster :=
  match s.pods.get? key with
  | some p => { s.bump with pods := s.pods.insert key (p.atVersion s.nextVersion) }
  | none => s.bump

def list (s : Cluster) (ns : String) (selector : LabelSelector) : List Pod :=
  s.pods.values.filter fun p => p.key.namespaceName = ns && selector.accepts p.labels

/-- Replaces a rule set but for its status. One that is finished is removed. -/
def replaceRuleSet (s : Cluster) (stored rs : RuleSet) : RuleSet × Cluster :=
  let next := { rs with status := stored.status }.atVersion s.nextVersion
  if next.metadata.isFinished then (next, s.bump.deleteRuleSet rs.key)
  else (next, s.bump.keepRuleSet next)

def replaceStatus (s : Cluster) (stored rs : RuleSet) : RuleSet × Cluster :=
  let next := { stored with status := rs.status }.atVersion s.nextVersion
  (next, s.bump.keepRuleSet next)

def replacePod (s : Cluster) (p : Pod) : Pod × Cluster :=
  let next := p.atVersion s.nextVersion
  (next, s.bump.keepPod next)

def missing (key : ObjectKey) : StoreError := .notFound key.text

def outdated (key : ObjectKey) : StoreError := .conflict key.text

def answer (s : Cluster) : (c : StoreCall) → c.Answer × Cluster
  | .getRuleSet key =>
    match s.ruleSets.get? key with
    | some rs => (.ok rs, s)
    | none => (.error (missing key), s)
  | .getTarget key =>
    match s.pods.get? key with
    | some p => (.ok p, s)
    | none => (.error (missing key), s)
  | .listTargets ns selector => (.ok (s.list ns selector), s)
  | .updateRuleSet rs =>
    match s.ruleSets.get? rs.key with
    | none => (.error (missing rs.key), s)
    | some stored =>
      if rs.metadata.mayReplace stored.metadata then
        let (next, t) := s.replaceRuleSet stored rs
        (.ok next, t)
      else (.error (outdated rs.key), s)
  | .updateStatus rs =>
    match s.ruleSets.get? rs.key with
    | none => (.error (missing rs.key), s)
    | some stored =>
      if rs.metadata.mayReplace stored.metadata then
        let (next, t) := s.replaceStatus stored rs
        (.ok next, t)
      else (.error (outdated rs.key), s)
  | .updateTarget p =>
    match s.pods.get? p.key with
    | none => (.error (missing p.key), s)
    | some stored =>
      if p.metadata.mayReplace stored.metadata then
        let (next, t) := s.replacePod p
        (.ok next, t)
      else (.error (outdated p.key), s)

end Cluster

end PodRules
