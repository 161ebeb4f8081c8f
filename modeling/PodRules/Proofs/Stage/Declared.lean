import Mathlib.Data.List.Induction
import PodRules.Proofs.Stage.Tasks
import PodRules.Stage.Snapshot

/-!
Stages that pass every target on the rules declared for them. What the tally holds after any number
of such stages is told by the declarations alone (`Tally.Declares`), and with it the status of the
pass (`declared_rules_determine_status`).
-/

namespace PodRules

open StageResult (declaredRules)

def Pod.outcomeName (p : Pod) : String := p.metadata.name.getD ""

def lastDeclared? (rs : RuleSet) (stages : List String) : Option String :=
  (stages.filter fun stage => declaredRules rs stage ≠ []).getLast?

section LastDeclared

variable {rs : RuleSet} {stages : List String} {stage : String}

theorem lastDeclared?_eq_none_iff :
    lastDeclared? rs stages = none ↔ ∀ stage ∈ stages, declaredRules rs stage = [] := by
  simp [lastDeclared?]

theorem lastDeclared?_append_of_eq_nil (h : declaredRules rs stage = []) :
    lastDeclared? rs (stages ++ [stage]) = lastDeclared? rs stages := by
  simp [lastDeclared?, h]

theorem lastDeclared?_append_of_ne_nil (h : declaredRules rs stage ≠ []) :
    lastDeclared? rs (stages ++ [stage]) = some stage := by
  simp [lastDeclared?, h]

/-- The rules of a pipeline are the declared ones whose stage is one of its stages. -/
theorem exists_mem_declaredRules_iff {r : String} :
    (∃ stage ∈ stages, r ∈ declaredRules rs stage) ↔
      ∃ rule ∈ rs.spec.rules, rule.stage ∈ stages ∧ rule.name = r := by
  simp only [declaredRules, List.mem_map, List.mem_filter, decide_eq_true_eq]
  constructor
  · rintro ⟨stage, hstage, rule, ⟨hrule, rfl⟩, hname⟩
    exact ⟨rule, hrule, hstage, hname⟩
  · rintro ⟨rule, hrule, hstage, hname⟩
    exact ⟨rule.stage, hstage, rule, ⟨hrule, rfl⟩, hname⟩

end LastDeclared

/-! ## One stage -/

namespace StageResult

variable (stage : String) (rs : RuleSet) (targets : List Pod)

theorem interval_declared : (declared stage rs targets).interval = none := by
  unfold declared
  dsimp only
  split <;> rfl

theorem retry_declared : (declared stage rs targets).retry = false := by
  unfold declared
  dsimp only
  split <;> rfl

theorem ruleStates_declared : (declared stage rs targets).ruleStates =
    (declaredRules rs stage).map fun r => ⟨stage, r, none⟩ := by
  unfold declared
  dsimp only
  split
  next h => rw [List.isEmpty_iff.1 h]; rfl
  next => rfl

theorem get?_ofList_outcomeName (v : SortedSet String) (name : String) :
    (SortedMap.ofList (targets.map fun p => (p.outcomeName, v))).get? name =
      if name ∈ targets.map Pod.outcomeName then some v else none := by
  rw [SortedMap.get?_ofList]
  cases hfind : (targets.map fun p => (p.outcomeName, v)).reverse.find? (·.1 = name) with
  | none =>
    have hnot : name ∉ targets.map Pod.outcomeName := by
      intro hname
      obtain ⟨p, hp, rfl⟩ := List.mem_map.1 hname
      have hmem : (p.outcomeName, v) ∈ (targets.map fun p => (p.outcomeName, v)).reverse :=
        List.mem_reverse.2 (List.mem_map.2 ⟨p, hp, rfl⟩)
      exact List.find?_eq_none.1 hfind _ hmem (decide_eq_true rfl)
    rw [if_neg hnot, Option.map_none]
  | some e =>
    have hname : e.1 = name := by simpa using List.find?_some hfind
    obtain ⟨p, hp, rfl⟩ := List.mem_map.1 (List.mem_reverse.1 (List.mem_of_find?_eq_some hfind))
    have hmem : name ∈ targets.map Pod.outcomeName := List.mem_map.2 ⟨p, hp, hname⟩
    rw [if_pos hmem, Option.map_some]

/-- A stage names all targets if a rule is declared for it, and none otherwise. -/
theorem mention?_declared (position : Nat) (name : String) :
    (declared stage rs targets).mention? position stage name =
      if declaredRules rs stage ≠ [] ∧ name ∈ targets.map Pod.outcomeName then
        some ⟨position, stage, (SortedSet.ofList (declaredRules rs stage)).toList, none⟩
      else none := by
  by_cases hrules : declaredRules rs stage = []
  · have hempty : declared stage rs targets = empty := by simp [declared, hrules]
    rw [hempty, if_neg fun h => h.1 hrules]
    rfl
  · have hpassed : (declared stage rs targets).passRules.get? name =
        if name ∈ targets.map Pod.outcomeName then
          some (SortedSet.ofList (declaredRules rs stage)) else none := by
      rw [← get?_ofList_outcomeName]
      simp [declared, hrules, Pod.outcomeName]
    have hrejected : (declared stage rs targets).rejected.get? name = none := by
      simp [declared, hrules, empty]
      rfl
    unfold mention?
    rw [hpassed, hrejected]
    by_cases hname : name ∈ targets.map Pod.outcomeName
    · simp only [if_pos hname, if_pos (And.intro hrules hname)]
    · simp only [if_neg hname, if_neg fun h : _ ∧ _ => hname h.2]

end StageResult

/-! ## The tally -/

def declaredStates (rs : RuleSet) (stages : List String) : List RuleState :=
  stages.flatMap fun stage => (declaredRules rs stage).map fun r => ⟨stage, r, none⟩

structure Placed.Declared (rs : RuleSet) (stages : List String) (name last : String)
    (p : Placed) : Prop where
  position : p.position ≤ stages.length
  name : p.detail.name = name
  stage : p.detail.stage = last
  passedRules : ∀ r, r ∈ p.detail.passedRules ↔ ∃ stage ∈ stages, r ∈ declaredRules rs stage
  rejectInfo : p.detail.rejectInfo = []

structure Tally.Declares (rs : RuleSet) (targets : List Pod) (stages : List String) (a : Tally) :
    Prop where
  interval : a.interval = none
  retry : a.retry = false
  ruleStates : a.ruleStates = declaredStates rs stages
  unnamed : ∀ name, lastDeclared? rs stages = none ∨ name ∉ targets.map Pod.outcomeName →
    a.details.get? name = none
  named : ∀ name ∈ targets.map Pod.outcomeName, ∀ last, lastDeclared? rs stages = some last →
    ∃ p, a.details.get? name = some p ∧ p.Declared rs stages name last

namespace Tally

variable {rs : RuleSet} {targets : List Pod} {stages : List String} {stage : String} {a : Tally}

theorem declares_empty (rs : RuleSet) (targets : List Pod) : Declares rs targets [] empty where
  interval := rfl
  retry := rfl
  ruleStates := rfl
  unnamed _ _ := rfl
  named _ _ _ h := nomatch h

/-- The outcome that a stage finds of a target, where none is as good as a new one. -/
theorem Declares.exists_found (ha : Declares rs targets stages a) {name : String}
    (hname : name ∈ targets.map Pod.outcomeName) (m : Mention) :
    ∃ p last, Placed.touched name m (a.details.get? name) = Placed.touched name m (some p) ∧
      p.Declared rs stages name last := by
  cases hlast : lastDeclared? rs stages with
  | some last =>
    obtain ⟨p, hp, hdeclared⟩ := ha.named name hname last hlast
    exact ⟨p, last, by rw [hp], hdeclared⟩
  | none =>
    have hget : a.details.get? name = none := ha.unnamed name (.inl hlast)
    have hnil := lastDeclared?_eq_none_iff.1 hlast
    refine ⟨⟨0, .new name ""⟩, "", ?_, Nat.zero_le _, rfl, rfl, ?_, rfl⟩
    · rw [hget, Placed.touched_none]
    · intro r
      constructor
      · intro hr
        cases hr
      · rintro ⟨stage, hstage, hr⟩
        rw [hnil stage hstage] at hr
        cases hr

/-- One more stage of the pipeline. -/
theorem Declares.add (ha : Declares rs targets stages a) (stage : String) :
    Declares rs targets (stages ++ [stage])
      (a.add stages.length stage (StageResult.declared stage rs targets)) where
  interval := by
    show minInterval a.interval (StageResult.declared stage rs targets).interval = none
    rw [ha.interval, StageResult.interval_declared]
    rfl
  retry := by
    show (a.retry || (StageResult.declared stage rs targets).retry) = false
    rw [ha.retry, StageResult.retry_declared]
    rfl
  ruleStates := by
    show a.ruleStates ++ (StageResult.declared stage rs targets).ruleStates = _
    rw [ha.ruleStates, StageResult.ruleStates_declared]
    simp [declaredStates]
  unnamed := by
    intro name hname
    rw [get?_details_add, StageResult.mention?_declared]
    by_cases hrules : declaredRules rs stage = []
    · rw [if_neg fun h => h.1 hrules]
      rw [lastDeclared?_append_of_eq_nil hrules] at hname
      exact ha.unnamed name hname
    · rw [lastDeclared?_append_of_ne_nil hrules] at hname
      have hnot : name ∉ targets.map Pod.outcomeName := hname.resolve_left (Option.some_ne_none _)
      rw [if_neg fun h => hnot h.2]
      exact ha.unnamed name (.inr hnot)
  named := by
    intro name hname last hlast
    rw [get?_details_add, StageResult.mention?_declared]
    by_cases hrules : declaredRules rs stage = []
    · -- The stage says nothing, and adds no rule.
      rw [if_neg fun h => h.1 hrules]
      rw [lastDeclared?_append_of_eq_nil hrules] at hlast
      obtain ⟨p, hp, hdeclared⟩ := ha.named name hname last hlast
      refine ⟨p, hp, ?_, hdeclared.name, hdeclared.stage, ?_, hdeclared.rejectInfo⟩
      · have hposition := hdeclared.position
        rw [List.length_append]
        omega
      · intro r
        rw [hdeclared.passedRules]
        simp [hrules]
    · rw [lastDeclared?_append_of_ne_nil hrules] at hlast
      obtain rfl : stage = last := Option.some.inj hlast
      rw [if_pos ⟨hrules, hname⟩]
      obtain ⟨p, _, hfound, hdeclared⟩ := ha.exists_found hname
        ⟨stages.length, stage, (SortedSet.ofList (declaredRules rs stage)).toList, none⟩
      rw [Placed.visited, hfound]
      refine ⟨_, rfl, ?_, ?_, ?_, ?_, ?_⟩
      · have hposition := hdeclared.position
        rw [Placed.position_touched, List.length_append]
        show max p.position stages.length ≤ _
        omega
      · rw [Placed.name_touched, hdeclared.name]
      · rw [Placed.stage_touched, if_pos hdeclared.position]
      · intro r
        rw [Placed.passedRules_touched, List.mem_append, hdeclared.passedRules]
        simp [← SortedSet.mem_def, or_and_right, exists_or]
      · rw [Placed.rejectInfo_touched, hdeclared.rejectInfo]
        rfl

end Tally

/-! ## The pipeline -/

def declaredTasks (rs : RuleSet) (targets : List Pod) (stages : List String) : List Completion :=
  Completion.pipeline
    (stages.map fun stage => (stage, some (StageResult.declared stage rs targets)))

/-- Stage after stage, the tally declares what the stages so far do. -/
theorem declares_tasks (rs : RuleSet) (targets : List Pod) (stages : List String) :
    Tally.Declares rs targets stages
      ((declaredTasks rs targets stages).foldl Completion.addTo .empty) := by
  induction stages using List.reverseRecOn with
  | nil => exact Tally.declares_empty rs targets
  | append_singleton stages stage ih =>
    have htasks : declaredTasks rs targets (stages ++ [stage]) =
        declaredTasks rs targets stages ++
          [⟨stages.length, stage, some (StageResult.declared stage rs targets)⟩] := by
      simp [declaredTasks, Completion.pipeline, List.zipIdx_append]
    rw [htasks, List.foldl_append]
    exact ih.add stage

/-- In whatever order the tasks end, their total is the one of the order of the pipeline. -/
theorem combine_declaredTasks {rs : RuleSet} {targets : List Pod} {stages : List String}
    {cs : List Completion} (h : cs.Perm (declaredTasks rs targets stages)) :
    ∃ a, Tally.Declares rs targets stages a ∧ Completion.combine cs = a.total := by
  have hnodup : (cs.map (·.position)).Nodup :=
    (h.map _).nodup_iff.2 (nodup_positions_pipeline _)
  exact ⟨_, declares_tasks rs targets stages, Completion.combine_eq_of_perm h hnodup⟩

/-- Whatever the schedule, the result is that of the stages in their order. -/
theorem result_of_declaredTasks {rs : RuleSet} {targets : List Pod} {stages : List String}
    {s : StageRun} {m : PipelineResult}
    (hs : StageRun.Reachable (declaredTasks rs targets stages) s) (hm : s.result = some m) :
    ∃ a, Tally.Declares rs targets stages a ∧ m = a.total := by
  obtain ⟨finished, hperm, htally, -, hawaited, hresult⟩ := hs.consistent
  obtain ⟨hzero, rfl⟩ := hresult m hm
  have hrunning : s.running = [] := List.length_eq_zero_iff.1 (by omega)
  have hreporting : s.reporting = [] := List.length_eq_zero_iff.1 (by omega)
  rw [hrunning, hreporting, List.nil_append, List.nil_append] at hperm
  rw [htally]
  exact combine_declaredTasks hperm

/-! ## The status -/

/-- What the declarations make of a pass over some targets. -/
structure DeclaredOutcome (rs : RuleSet) (targets : List Pod) (stages : List String)
    (m : PipelineResult) (status : RuleSetStatus) : Prop where
  interval : m.interval = none
  retry : m.retry = false
  sorted : status.ruleStates.Pairwise fun a b => (compare a b).isLE = true
  ruleStates : status.ruleStates.Perm (declaredStates rs stages)
  noDetails : (∀ stage ∈ stages, declaredRules rs stage = []) → status.details = []
  ascending : status.details.Pairwise fun a b => compare a.name b.name = .lt
  names : (∃ stage ∈ stages, declaredRules rs stage ≠ []) →
    (status.details.map (·.name)).Perm (targets.map Pod.outcomeName)
  details : ∀ d ∈ status.details, d.passed = true ∧ d.rejectInfo = [] ∧
    lastDeclared? rs stages = some d.stage ∧
    d.passedRules.Pairwise (fun a b => compare a b = .lt) ∧
    ∀ r, r ∈ d.passedRules ↔ ∃ rule ∈ rs.spec.rules, rule.stage ∈ stages ∧ rule.name = r

namespace Tally

variable {rs : RuleSet} {targets : List Pod} {stages : List String} {a : Tally}

theorem exists_of_get?_total {name : String} {d : Detail}
    (h : a.total.details.get? name = some d) :
    ∃ p, a.details.get? name = some p ∧ canonicalDetail p.detail = d := by
  have hget : (a.details.get? name).map (fun p => canonicalDetail p.detail) = some d := by
    rw [← h]
    exact (SortedMap.get?_mapValues a.details (fun _ p => canonicalDetail p.detail) name).symm
  exact Option.map_eq_some_iff.1 hget

/-- Where a target has an outcome, it is the declared one. -/
theorem Declares.exists_of_get? (ha : Declares rs targets stages a) {name : String} {p : Placed}
    (h : a.details.get? name = some p) :
    ∃ last, lastDeclared? rs stages = some last ∧ name ∈ targets.map Pod.outcomeName ∧
      p.Declared rs stages name last := by
  by_cases hname : name ∈ targets.map Pod.outcomeName
  · cases hlast : lastDeclared? rs stages with
    | none => exact absurd (h.symm.trans (ha.unnamed name (.inl hlast))) (Option.some_ne_none p)
    | some last =>
      obtain ⟨q, hq, hdeclared⟩ := ha.named name hname last hlast
      obtain rfl : p = q := Option.some.inj (h.symm.trans hq)
      exact ⟨last, rfl, hname, hdeclared⟩
  · exact absurd (h.symm.trans (ha.unnamed name (.inr hname))) (Option.some_ne_none p)

/-- The outcomes are recorded under the names that they bear. -/
theorem Declares.map_name_values (ha : Declares rs targets stages a) :
    a.total.details.values.map (·.name) = a.total.details.keys := by
  rw [SortedMap.values, SortedMap.keys, List.map_map]
  apply List.map_congr_left
  intro e he
  obtain ⟨p, hp, hd⟩ := exists_of_get?_total (SortedMap.look_of_mem a.total.details.ascending he)
  obtain ⟨last, -, -, hdeclared⟩ := ha.exists_of_get? hp
  show e.2.name = e.1
  rw [← hd]
  exact hdeclared.name

/-- Every target has an outcome as soon as some stage declares a rule. -/
theorem Declares.mem_keys_iff (ha : Declares rs targets stages a) {name : String} :
    name ∈ a.total.details.keys ↔
      lastDeclared? rs stages ≠ none ∧ name ∈ targets.map Pod.outcomeName := by
  have hget : a.total.details.get? name = (a.details.get? name).map fun p =>
      canonicalDetail p.detail := SortedMap.get?_mapValues a.details _ name
  rw [SortedMap.mem_keys, hget]
  constructor
  · intro hsome
    cases hp : a.details.get? name with
    | none => exact absurd (by rw [hp]; rfl) hsome
    | some p =>
      obtain ⟨last, hlast, hname, -⟩ := ha.exists_of_get? hp
      exact ⟨by simp [hlast], hname⟩
  · intro h
    obtain ⟨last, hlast⟩ := Option.ne_none_iff_exists'.1 h.1
    obtain ⟨p, hp, -⟩ := ha.named name h.2 last hlast
    rw [hp]
    exact Option.some_ne_none _

/-- The outcomes are recorded in the order of their names already. -/
theorem Declares.ascending_values (ha : Declares rs targets stages a) :
    a.total.details.values.Pairwise fun a b => compare a.name b.name = .lt := by
  have hnames : (a.total.details.values.map (·.name)).Pairwise fun a b => compare a b = .lt := by
    rw [ha.map_name_values, SortedMap.keys, List.pairwise_map]
    exact a.total.details.ascending
  exact List.pairwise_map.1 hnames

theorem Declares.sortDetails_values (ha : Declares rs targets stages a) :
    sortDetails a.total.details.values = a.total.details.values := by
  apply sortBy_eq_self
  apply ha.ascending_values.imp
  intro d e hlt
  rw [hlt]
  rfl

/-- Each outcome is a pass by the declared rules, at the last stage that declares any. -/
theorem Declares.declared_of_mem_values (ha : Declares rs targets stages a) {d : Detail}
    (h : d ∈ a.total.details.values) : d.passed = true ∧ d.rejectInfo = [] ∧
      lastDeclared? rs stages = some d.stage ∧
      d.passedRules.Pairwise (fun a b => compare a b = .lt) ∧
      ∀ r, r ∈ d.passedRules ↔ ∃ rule ∈ rs.spec.rules, rule.stage ∈ stages ∧ rule.name = r := by
  obtain ⟨name, hget⟩ := SortedMap.mem_values.1 h
  obtain ⟨p, hp, rfl⟩ := exists_of_get?_total hget
  obtain ⟨last, hlast, -, hdeclared⟩ := ha.exists_of_get? hp
  refine ⟨?_, ?_, ?_, SortedSet.ascending _, ?_⟩
  · show p.detail.rejectInfo.isEmpty = true
    rw [hdeclared.rejectInfo]
    rfl
  · show sortBy _ p.detail.rejectInfo = []
    rw [hdeclared.rejectInfo]
    rfl
  · rw [hlast]
    exact congrArg some hdeclared.stage.symm
  · intro r
    show r ∈ (SortedSet.ofList p.detail.passedRules).toList ↔ _
    rw [← SortedSet.mem_def, SortedSet.mem_ofList, hdeclared.passedRules]
    exact exists_mem_declaredRules_iff

theorem Declares.outcome (ha : Declares rs targets stages a)
    (hd : (targets.map Pod.outcomeName).Nodup) (names : SortedSet String) (generation : Int64)
    (now : Instant) : DeclaredOutcome rs targets stages a.total
      (statusSnapshot names generation a.total.details.values a.total.ruleStates now) := by
  have hstates : a.total.ruleStates.Perm (declaredStates rs stages) := by
    rw [← ha.ruleStates]
    exact sortBy_perm a.ruleStates
  have hdetails : (statusSnapshot names generation a.total.details.values a.total.ruleStates
      now).details = a.total.details.values := ha.sortDetails_values
  refine ⟨ha.interval, ha.retry, ?_, hstates, ?_, ?_, ?_, ?_⟩
  · exact pairwise_sortBy_compare a.ruleStates
  · intro hnil
    rw [hdetails]
    apply List.eq_nil_iff_forall_not_mem.2
    intro d hmem
    obtain ⟨-, -, hlast, -⟩ := ha.declared_of_mem_values hmem
    rw [lastDeclared?_eq_none_iff.2 hnil] at hlast
    cases hlast
  · rw [hdetails]
    exact ha.ascending_values
  · intro hsome
    have hlast : lastDeclared? rs stages ≠ none := by
      intro hnone
      obtain ⟨stage, hstage, hrules⟩ := hsome
      exact hrules (lastDeclared?_eq_none_iff.1 hnone stage hstage)
    rw [hdetails, ha.map_name_values]
    apply (List.perm_ext_iff_of_nodup (SortedMap.nodup_keys _) hd).2
    intro name
    rw [ha.mem_keys_iff]
    exact and_iff_right hlast
  · rw [hdetails]
    intro d hmem
    exact ha.declared_of_mem_values hmem

end Tally

/-- The tasks of a pipeline of declared rules always come to an end. Whatever the order in which they
ended, what they return makes the status that the declarations tell. -/
theorem declared_rules_determine_status (rs : RuleSet) (targets : List Pod) (stages : List String)
    (hd : (targets.map Pod.outcomeName).Nodup) (names : SortedSet String) (generation : Int64)
    (now : Instant) :
    (∀ s, StageRun.Reachable (declaredTasks rs targets stages) s → s.result = none →
      ∃ t, StageRun.Step s t) ∧
    (∀ s t, StageRun.Step s t → t.remaining < s.remaining) ∧
    (∀ s m, StageRun.Reachable (declaredTasks rs targets stages) s → s.result = some m →
      DeclaredOutcome rs targets stages m
        (statusSnapshot names generation m.details.values m.ruleStates now)) ∧
    ∀ cs m, cs.Perm (declaredTasks rs targets stages) → Completion.combine cs = m →
      DeclaredOutcome rs targets stages m
        (statusSnapshot names generation m.details.values m.ruleStates now) := by
  refine ⟨?_, ?_, ?_, ?_⟩
  · intro s hs hr
    obtain ⟨finished, hconsistent⟩ := hs.consistent
    exact StageRun.exists_step hconsistent hr
  · intro s t hst
    exact hst.remaining_lt
  · intro s m hs hm
    obtain ⟨a, ha, rfl⟩ := result_of_declaredTasks hs hm
    exact ha.outcome hd names generation now
  · intro cs m hcs hm
    obtain ⟨a, ha, htotal⟩ := combine_declaredTasks hcs
    obtain rfl : a.total = m := htotal.symm.trans hm
    exact ha.outcome hd names generation now

def threeStageRules : RuleSet :=
  { (default : RuleSet) with
    spec := ⟨.everything, [⟨"r", "s"⟩, ⟨"q", "t"⟩, ⟨"r", "s"⟩, ⟨"p", "u"⟩]⟩ }

def twoTargets : List Pod :=
  ["b", "a"].map fun name =>
    { (default : Pod) with metadata := { (default : Metadata) with name := some name } }

/-- The tasks of three stages that end last to first. The second position of `s` counts for the
states of its rules, and the stage `v`, which no rule is declared for, for nothing. -/
theorem declared_rules_of_three_stages :
    let tasks := declaredTasks threeStageRules twoTargets ["s", "t", "s", "v"]
    let m := Completion.combine tasks.reverse
    let status := statusSnapshot ∅ 1 m.details.values m.ruleStates ⟨0, 0⟩
    DeclaredOutcome threeStageRules twoTargets ["s", "t", "s", "v"] m status ∧
      status.details = [⟨"a", "s", true, ["q", "r"], []⟩, ⟨"b", "s", true, ["q", "r"], []⟩] ∧
      status.ruleStates = [⟨"s", "r", none⟩, ⟨"s", "r", none⟩, ⟨"s", "r", none⟩,
        ⟨"s", "r", none⟩, ⟨"t", "q", none⟩] := by
  have hd : (twoTargets.map Pod.outcomeName).Nodup := by decide
  have hdetermined := declared_rules_determine_status threeStageRules twoTargets
    ["s", "t", "s", "v"] hd ∅ 1 ⟨0, 0⟩
  refine ⟨hdetermined.2.2.2 _ _ (List.reverse_perm _) rfl, ?_, ?_⟩
  · decide
  · decide

end PodRules
