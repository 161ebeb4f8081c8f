import PodRules.Cluster.Basic

/-!
A store with other writers and with failures. The edits of other writers happen between calls, or
in the middle of a pass just before a call. Each method of the store has a line of faults, of
which every call takes the first.
-/

namespace PodRules

inductive StoreMethod where
  | getRuleSet
  | updateRuleSet
  | updateStatus
  | listTargets
  | getTarget
  | updateTarget
  deriving DecidableEq, Repr

def StoreCall.method : StoreCall → StoreMethod
  | .getRuleSet _ => .getRuleSet
  | .updateRuleSet _ => .updateRuleSet
  | .updateStatus _ => .updateStatus
  | .listTargets _ _ => .listTargets
  | .getTarget _ => .getTarget
  | .updateTarget _ => .updateTarget

mutual

inductive Edit where
  | putRuleSet (keepVersion : Bool) (ruleSet : RuleSet)
  | putPod (keepVersion : Bool) (pod : Pod)
  | deleteRuleSet (key : ObjectKey)
  | deletePod (key : ObjectKey)
  | touchRuleSet (key : ObjectKey)
  | touchPod (key : ObjectKey)
  | fault (method : StoreMethod) (faults : List Fault)

inductive Fault where
  | nothing
  /-- The call fails and has no effect. -/
  | fail (error : StoreError)
  /-- The call answers a rule set without touching the store. -/
  | ruleSet (ruleSet : RuleSet)
  /-- The call answers a pod without touching the store. -/
  | pod (pod : Pod)
  /-- The call answers pods without touching the store. -/
  | pods (pods : List Pod)
  /-- Others write first. -/
  | before (edits : List Edit)

end

namespace Fault

def answer? : Fault → (c : StoreCall) → Option c.Answer
  | .fail e, _ => some (.error e)
  | .ruleSet rs, .getRuleSet _ => some (.ok rs)
  | .ruleSet rs, .updateRuleSet _ => some (.ok rs)
  | .ruleSet rs, .updateStatus _ => some (.ok rs)
  | .pod p, .getTarget _ => some (.ok p)
  | .pod p, .updateTarget _ => some (.ok p)
  | .pods ps, .listTargets _ _ => some (.ok ps)
  | _, _ => none

def edits : Fault → List Edit
  | .before edits => edits
  | _ => []

end Fault

structure FaultyCluster where
  cluster : Cluster
  faults : List (StoreMethod × Fault)

namespace FaultyCluster

def empty : FaultyCluster := ⟨.empty, []⟩

def edit (s : FaultyCluster) : Edit → FaultyCluster
  | .putRuleSet keepVersion rs =>
    { s with cluster := if keepVersion then s.cluster.keepRuleSet rs else s.cluster.putRuleSet rs }
  | .putPod keepVersion p =>
    { s with cluster := if keepVersion then s.cluster.keepPod p else s.cluster.putPod p }
  | .deleteRuleSet key => { s with cluster := s.cluster.deleteRuleSet key }
  | .deletePod key => { s with cluster := s.cluster.deletePod key }
  | .touchRuleSet key => { s with cluster := s.cluster.touchRuleSet key }
  | .touchPod key => { s with cluster := s.cluster.touchPod key }
  | .fault method faults => { s with faults := s.faults ++ faults.map fun f => (method, f) }

def editAll (s : FaultyCluster) (edits : List Edit) : FaultyCluster := edits.foldl edit s

def takeFault (method : StoreMethod) :
    List (StoreMethod × Fault) → Fault × List (StoreMethod × Fault)
  | [] => (.nothing, [])
  | e :: es =>
    if e.1 = method then (e.2, es)
    else
      let (f, rest) := takeFault method es
      (f, e :: rest)

def answer (s : FaultyCluster) (c : StoreCall) : c.Answer × FaultyCluster :=
  let (fault, faults) := takeFault c.method s.faults
  let s := { s with faults }
  match fault.answer? c with
  | some a => (a, s)
  | none =>
    let s := s.editAll (fault.edits)
    let (a, cluster) := s.cluster.answer c
    (a, { s with cluster })

end FaultyCluster

end PodRules
