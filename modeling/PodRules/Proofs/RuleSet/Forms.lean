import PodRules.Proofs.Json.Forms
import PodRules.Proofs.Time.Instant
import PodRules.RuleSet.Basic
import PodRules.Store.Error

namespace PodRules

open Json

/-! ## Rejections, rule states and details -/

namespace RejectInfo

def fields (r : RejectInfo) : List (String × Option Json) :=
  [("ruleName", some (toJson r.ruleName)), ("reason", some (toJson r.reason))]

instance : LawfulForm RejectInfo := by
  apply LawfulForm.ofRecord fields
  · intro r
    rfl
  · intro r
    simp [fields]
  · intro r
    have hfields : (record r.fields).fields? ["ruleName", "reason"] =
        some [some (toJson r.ruleName), some (toJson r.reason)] :=
      fields?_record r.fields (by simp [fields])
    simp [ofJson?, hfields]

end RejectInfo

namespace RuleState

def fields (s : RuleState) : List (String × Option Json) :=
  [("stage", some (toJson s.stage)), ("name", some (toJson s.name)),
    ("message", s.message.map toJson)]

instance : LawfulForm RuleState := by
  apply LawfulForm.ofRecord fields
  · intro s
    show ofMembers [field "stage" s.stage, field "name" s.name, present "message" s.message] = _
    rw [present_eq]
    rfl
  · intro s
    simp [fields]
  · intro s
    have hfields : (record s.fields).fields? ["stage", "name", "message"] =
        some [some (toJson s.stage), some (toJson s.name), s.message.map toJson] :=
      fields?_record s.fields (by simp [fields])
    simp [ofJson?, hfields]

end RuleState

namespace Detail

def fields (d : Detail) : List (String × Option Json) :=
  [("name", some (toJson d.name)), ("stage", some (toJson d.stage)),
    ("passed", some (toJson d.passed)), ("passedRules", listField d.passedRules),
    ("rejectInfo", listField d.rejectInfo)]

instance : LawfulForm Detail := by
  apply LawfulForm.ofRecord fields
  · intro d
    show ofMembers [field "name" d.name, field "stage" d.stage, field "passed" d.passed,
      nonEmpty "passedRules" d.passedRules, nonEmpty "rejectInfo" d.rejectInfo] = _
    rw [nonEmpty_eq, nonEmpty_eq]
    rfl
  · intro d
    simp [fields]
  · intro d
    have hfields : (record d.fields).fields? ["name", "stage", "passed", "passedRules",
        "rejectInfo"] = some [some (toJson d.name), some (toJson d.stage), some (toJson d.passed),
          listField d.passedRules, listField d.rejectInfo] :=
      fields?_record d.fields (by simp [fields])
    simp [ofJson?, hfields]

end Detail

/-! ## Selectors and specifications -/

namespace Requirement

def fields (r : Requirement) : List (String × Option Json) :=
  [("key", (some r.key).map toJson), ("operator", (some r.operator).map toJson),
    ("values", r.values.map toJson)]

instance : LawfulForm Requirement := by
  apply LawfulForm.ofRecord fields
  · intro r
    show ofMembers [field "key" r.key, field "operator" r.operator, present "values" r.values] = _
    rw [present_eq]
    rfl
  · intro r
    simp only [fields, List.forall_mem_cons, plainField_map]
    simp
  · intro r
    have hnames : (r.fields.map (·.1)).Nodup := by simp [fields]
    have hkey := lenient?_record hnames "key" (some r.key) (by simp [fields])
    have hoperator := lenient?_record hnames "operator" (some r.operator) (by simp [fields])
    have hvalues := lenient?_record hnames "values" r.values (by simp [fields])
    simp [record, ofJson?, hkey, hoperator, hvalues]

end Requirement

namespace LabelSelector

def fields (s : LabelSelector) : List (String × Option Json) :=
  [("matchExpressions", s.matchExpressions.map toJson), ("matchLabels", s.matchLabels.map toJson)]

instance : LawfulForm LabelSelector := by
  apply LawfulForm.ofRecord fields
  · intro s
    show ofMembers [present "matchExpressions" s.matchExpressions,
      present "matchLabels" s.matchLabels] = _
    rw [present_eq, present_eq]
    rfl
  · intro s
    simp [fields]
  · intro s
    have hnames : (s.fields.map (·.1)).Nodup := by simp [fields]
    have hlabels := lenient?_record hnames "matchLabels" s.matchLabels (by simp [fields])
    have hexpressions := lenient?_record hnames "matchExpressions" s.matchExpressions
      (by simp [fields])
    simp [record, ofJson?, hlabels, hexpressions]

end LabelSelector

namespace RuleSpec

def fields (r : RuleSpec) : List (String × Option Json) :=
  [("name", some (toJson r.name)), ("stage", some (toJson r.stage))]

instance : LawfulForm RuleSpec := by
  apply LawfulForm.ofRecord fields
  · intro r
    rfl
  · intro r
    simp [fields]
  · intro r
    have hfields : (record r.fields).fields? ["name", "stage"] =
        some [some (toJson r.name), some (toJson r.stage)] :=
      fields?_record r.fields (by simp [fields])
    simp [ofJson?, hfields]

end RuleSpec

namespace RuleSetSpec

def fields (s : RuleSetSpec) : List (String × Option Json) :=
  [("selector", some (toJson s.selector)), ("rules", listField s.rules)]

instance : LawfulForm RuleSetSpec := by
  apply LawfulForm.ofRecord fields
  · intro s
    show ofMembers [field "selector" s.selector, nonEmpty "rules" s.rules] = _
    rw [nonEmpty_eq]
    rfl
  · intro s
    simp [fields]
  · intro s
    have hfields : (record s.fields).fields? ["selector", "rules"] =
        some [some (toJson s.selector), listField s.rules] :=
      fields?_record s.fields (by simp [fields])
    simp [ofJson?, hfields]

end RuleSetSpec

/-! ## Statuses -/

namespace RuleSetStatus

def fields (s : RuleSetStatus) : List (String × Option Json) :=
  [("targets", listField s.targets), ("observedGeneration", some (toJson s.observedGeneration)),
    ("details", listField s.details), ("ruleStates", listField s.ruleStates),
    ("updateTime", s.updateTime.map toJson)]

theorem toJson_eq (s : RuleSetStatus) : toJson s = record s.fields := by
  show ofMembers [nonEmpty "targets" s.targets, field "observedGeneration" s.observedGeneration,
    nonEmpty "details" s.details, nonEmpty "ruleStates" s.ruleStates,
    present "updateTime" s.updateTime] = _
  rw [nonEmpty_eq, nonEmpty_eq, nonEmpty_eq, present_eq]
  rfl

theorem isPlain_toJson (s : RuleSetStatus) : (toJson s).isPlain = true := by
  rw [toJson_eq]
  apply isPlain_record
  have htime : PlainField (s.updateTime.map toJson) := by
    intro j h
    obtain ⟨t, -, rfl⟩ := Option.map_eq_some_iff.1 h
    rfl
  simp [fields, htime]

def atWholeSecond (s : RuleSetStatus) : RuleSetStatus :=
  { s with updateTime := s.updateTime.map Instant.wholeSecond }

/-- Cutting the update time to the second does not show where statuses are compared. -/
theorem equalButTime_atWholeSecond (s : RuleSetStatus) : s.atWholeSecond.equalButTime s = true :=
  equalButTime_iff.2 rfl

/-- A status is read back with its update time at the whole second, which is all that its text
has. -/
theorem ofJson?_toJson {s : RuleSetStatus}
    (hy : ∀ t ∈ s.updateTime, 0 ≤ t.date.year ∧ t.date.year ≤ 9999) :
    ofJson? (toJson s) = some s.atWholeSecond := by
  have hfields : (record s.fields).fields? ["targets", "observedGeneration", "details",
      "ruleStates", "updateTime"] = some [listField s.targets,
        some (toJson s.observedGeneration), listField s.details, listField s.ruleStates,
        s.updateTime.map toJson] :=
    fields?_record s.fields (by simp [fields])
  have htime : optional? (s.updateTime.map toJson) =
      some (s.updateTime.map Instant.wholeSecond) := by
    cases ht : s.updateTime with
    | none => rfl
    | some t =>
      have hread : Instant.parse? t.text = some t.wholeSecond := Instant.parse?_text (hy t ht)
      show (Instant.parse? t.text).map some = some (some t.wholeSecond)
      rw [hread, Option.map_some]
  rw [toJson_eq]
  simp [ofJson?, hfields, htime, atWholeSecond]

end RuleSetStatus

/-! ## Keys and errors -/

namespace ObjectKey

def fields (k : ObjectKey) : List (String × Option Json) :=
  [("namespace", some (toJson k.namespaceName)), ("name", some (toJson k.name))]

instance : LawfulForm ObjectKey := by
  apply LawfulForm.ofRecord fields
  · intro k
    rfl
  · intro k
    simp [fields]
  · intro k
    have hfields : (record k.fields).fields? ["namespace", "name"] =
        some [some (toJson k.namespaceName), some (toJson k.name)] :=
      fields?_record k.fields (by simp [fields])
    simp [ofJson?, hfields]

end ObjectKey

instance : LawfulForm StoreError where
  isPlain_toJson e := by cases e <;> rfl
  toJson_ne_null e := by cases e <;> exact Json.noConfusion
  ofJson?_toJson e := by cases e <;> rfl

/-! ## Reading from text -/

/-- Every value is read back from its text as it was written. Of a status the time is kept to the
whole second, if its year has four digits, and the rest is what it was. -/
theorem rule_set_data_read_back :
    (∀ v : RuleSetSpec, decode? RuleSetSpec (toJson v).text = some v) ∧
    (∀ v : RuleSpec, decode? RuleSpec (toJson v).text = some v) ∧
    (∀ v : Detail, decode? Detail (toJson v).text = some v) ∧
    (∀ v : RejectInfo, decode? RejectInfo (toJson v).text = some v) ∧
    (∀ v : RuleState, decode? RuleState (toJson v).text = some v) ∧
    (∀ v : ObjectKey, decode? ObjectKey (toJson v).text = some v) ∧
    (∀ v : StoreError, decode? StoreError (toJson v).text = some v) ∧
    (∀ s : RuleSetStatus, (∀ t ∈ s.updateTime, 0 ≤ t.date.year ∧ t.date.year ≤ 9999) →
      decode? RuleSetStatus (toJson s).text = some s.atWholeSecond ∧
      s.atWholeSecond.equalButTime s = true) := by
  refine ⟨decode?_text, decode?_text, decode?_text, decode?_text, decode?_text, decode?_text,
    decode?_text, ?_⟩
  intro s hs
  have hread : decode? RuleSetStatus (toJson s).text = some s.atWholeSecond := by
    rw [decode?, parse?_text s.isPlain_toJson, Option.bind_some]
    exact RuleSetStatus.ofJson?_toJson hs
  exact ⟨hread, s.equalButTime_atWholeSecond⟩

/-- A status of the smallest generation, with escaped letters, a detail without rules, one rule
state with a message and one without, and a time between two seconds. -/
theorem status_read_back_to_the_second :
    let s : RuleSetStatus :=
      { targets := ["a\"\\b", "\u0001\u00fc"]
        observedGeneration := Int64.minValue
        details := [⟨"a", "", false, [], [⟨"r", "\n"⟩]⟩]
        ruleStates := [⟨"s", "r", none⟩, ⟨"s", "r", some ""⟩]
        updateTime := some ⟨1709210096, 123456789⟩ }
    decode? RuleSetStatus (toJson s).text =
        some { s with updateTime := some ⟨1709210096, 0⟩ } ∧
      RuleSetStatus.equalButTime { s with updateTime := some ⟨1709210096, 0⟩ } s = true := by
  obtain ⟨-, -, -, -, -, -, -, hstatus⟩ := rule_set_data_read_back
  intro s
  apply hstatus s
  intro t ht
  obtain rfl : Instant.mk 1709210096 123456789 = t := Option.some.inj ht
  decide

end PodRules
