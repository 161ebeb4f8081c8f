import PodRules.Json.Form

namespace PodRules

structure RejectInfo where
  ruleName : String
  reason : String
  deriving DecidableEq, Repr, Inhabited

instance : Ord RejectInfo where
  compare a b := (compare a.ruleName b.ruleName).then (compare a.reason b.reason)

structure RuleState where
  stage : String
  name : String
  message : Option String
  deriving DecidableEq, Repr, Inhabited

instance : Ord RuleState where
  compare a b := (compare a.stage b.stage).then
    ((compare a.name b.name).then (compare a.message b.message))

structure Detail where
  name : String
  stage : String
  passed : Bool
  passedRules : List String
  rejectInfo : List RejectInfo
  deriving DecidableEq, Repr, Inhabited

namespace Detail

def new (name stage : String) : Detail := ⟨name, stage, true, [], []⟩

def addPassed (d : Detail) (rules : List String) : Detail :=
  { d with passedRules := d.passedRules ++ rules }

def addRejection (d : Detail) (r : RejectInfo) : Detail :=
  let rejections := d.rejectInfo ++ [r]
  { d with rejectInfo := rejections, passed := rejections.isEmpty }

end Detail

instance : JsonForm RejectInfo where
  toJson r := .ofMembers [Json.field "ruleName" r.ruleName, Json.field "reason" r.reason]
  ofJson? j :=
    match j.fields? ["ruleName", "reason"] with
    | some [ruleName, reason] => do
      let ruleName ← Json.required? ruleName
      let reason ← Json.required? reason
      pure ⟨ruleName, reason⟩
    | _ => none

instance : JsonForm RuleState where
  toJson s := .ofMembers [
    Json.field "stage" s.stage,
    Json.field "name" s.name,
    Json.present "message" s.message]
  ofJson? j :=
    match j.fields? ["stage", "name", "message"] with
    | some [stage, name, message] => do
      let stage ← Json.required? stage
      let name ← Json.required? name
      let message ← Json.optional? message
      pure ⟨stage, name, message⟩
    | _ => none

instance : JsonForm Detail where
  toJson d := .ofMembers [
    Json.field "name" d.name,
    Json.field "stage" d.stage,
    Json.field "passed" d.passed,
    Json.nonEmpty "passedRules" d.passedRules,
    Json.nonEmpty "rejectInfo" d.rejectInfo]
  ofJson? j :=
    match j.fields? ["name", "stage", "passed", "passedRules", "rejectInfo"] with
    | some [name, stage, passed, passedRules, rejectInfo] => do
      let name ← Json.required? name
      let stage ← Json.required? stage
      let passed ← Json.required? passed
      let passedRules ← Json.defaulted? [] passedRules
      let rejectInfo ← Json.defaulted? [] rejectInfo
      pure ⟨name, stage, passed, passedRules, rejectInfo⟩
    | _ => none

end PodRules
