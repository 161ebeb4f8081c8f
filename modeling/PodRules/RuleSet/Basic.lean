import PodRules.Object.Metadata
import PodRules.RuleSet.Detail
import PodRules.Selector.Basic

namespace PodRules

def cleanupFinalizer : String := "ruleset.rulegate.io/need-clean-up"

def terminatingLabel : String := "ruleset.rulegate.io/terminating"

structure RuleSpec where
  name : String
  stage : String
  deriving DecidableEq, Repr, Inhabited

structure RuleSetSpec where
  selector : LabelSelector
  rules : List RuleSpec
  deriving DecidableEq, Inhabited

structure RuleSetStatus where
  targets : List String
  observedGeneration : Int64
  details : List Detail
  ruleStates : List RuleState
  updateTime : Option Instant
  deriving DecidableEq, Inhabited

namespace RuleSetStatus

def initial : RuleSetStatus := ⟨[], 0, [], [], none⟩

def equalButTime (a b : RuleSetStatus) : Bool :=
  a.targets = b.targets && a.details = b.details && a.ruleStates = b.ruleStates &&
    a.observedGeneration = b.observedGeneration

theorem equalButTime_iff {a b : RuleSetStatus} :
    a.equalButTime b = true ↔ { a with updateTime := none } = { b with updateTime := none } := by
  cases a; cases b
  simp only [equalButTime, Bool.and_eq_true, decide_eq_true_eq, RuleSetStatus.mk.injEq, and_true]
  constructor
  · rintro ⟨⟨⟨h1, h2⟩, h3⟩, h4⟩; exact ⟨h1, h4, h2, h3⟩
  · rintro ⟨h1, h4, h2, h3⟩; exact ⟨⟨⟨h1, h2⟩, h3⟩, h4⟩

end RuleSetStatus

structure RuleSet where
  metadata : Metadata
  spec : RuleSetSpec
  status : Option RuleSetStatus
  deriving DecidableEq, Inhabited

namespace RuleSet

def key (rs : RuleSet) : ObjectKey := rs.metadata.key

def version (rs : RuleSet) : String := rs.metadata.version

def isTerminating (rs : RuleSet) : Bool := rs.metadata.isTerminating

/-- Whether deletion is asked for even while targets run; the value of the label is free. -/
def isForced (rs : RuleSet) : Bool := rs.metadata.labelMap.contains terminatingLabel

def carries (rs : RuleSet) (finalizer : String) : Bool :=
  rs.metadata.finalizerList.any (· = finalizer)

def isHeld (rs : RuleSet) : Bool := rs.carries cleanupFinalizer

def recordedStatus (rs : RuleSet) : RuleSetStatus := rs.status.getD .initial

def addFinalizer (rs : RuleSet) : RuleSet :=
  { rs with metadata :=
    { rs.metadata with finalizers := some (rs.metadata.finalizerList ++ [cleanupFinalizer]) } }

def dropFinalizer (rs : RuleSet) : RuleSet :=
  { rs with metadata :=
    { rs.metadata with finalizers := rs.metadata.finalizers.map (·.filter (· ≠ cleanupFinalizer)) } }

end RuleSet

instance : JsonForm RuleSpec where
  toJson r := .ofMembers [Json.field "name" r.name, Json.field "stage" r.stage]
  ofJson? j :=
    match j.fields? ["name", "stage"] with
    | some [name, stage] => do
      let name ← Json.required? name
      let stage ← Json.required? stage
      pure ⟨name, stage⟩
    | _ => none

instance : JsonForm RuleSetSpec where
  toJson s := .ofMembers [Json.field "selector" s.selector, Json.nonEmpty "rules" s.rules]
  ofJson? j :=
    match j.fields? ["selector", "rules"] with
    | some [selector, rules] => do
      let selector ← Json.defaulted? .everything selector
      let rules ← Json.defaulted? [] rules
      pure ⟨selector, rules⟩
    | _ => none

instance : JsonForm RuleSetStatus where
  toJson s := .ofMembers [
    Json.nonEmpty "targets" s.targets,
    Json.field "observedGeneration" s.observedGeneration,
    Json.nonEmpty "details" s.details,
    Json.nonEmpty "ruleStates" s.ruleStates,
    Json.present "updateTime" s.updateTime]
  ofJson? j :=
    match j.fields? ["targets", "observedGeneration", "details", "ruleStates", "updateTime"] with
    | some [targets, observedGeneration, details, ruleStates, updateTime] => do
      let targets ← Json.defaulted? [] targets
      let observedGeneration ← Json.defaulted? 0 observedGeneration
      let details ← Json.defaulted? [] details
      let ruleStates ← Json.defaulted? [] ruleStates
      let updateTime ← Json.optional? updateTime
      pure ⟨targets, observedGeneration, details, ruleStates, updateTime⟩
    | _ => none

def RuleSet.apiVersion : String := "apps.rulegate.io/v1alpha1"

def RuleSet.kind : String := "RuleSet"

instance : JsonForm RuleSet where
  toJson rs := .ofMembers [
    Json.field "apiVersion" RuleSet.apiVersion,
    Json.field "kind" RuleSet.kind,
    Json.field "metadata" rs.metadata,
    Json.field "spec" rs.spec,
    Json.present "status" rs.status]
  ofJson? j :=
    match j.fields? ["metadata", "spec", "status"] with
    | some [metadata, spec, status] => do
      let metadata ← Json.required? metadata
      let spec ← Json.required? spec
      let status ← Json.optional? status
      pure ⟨metadata, spec, status⟩
    | _ => none

end PodRules
