import Mathlib.Data.List.Induction
import PodRules.Proofs.Stage.Tasks

/-!
What the reports of a pipeline say together, told without a tally: the shortest interval, whether any
stage asks to be repeated, all rule states, and for every target the last stage that named it with
its passed rules and rejections. Main statement: reports that are merged in the order of the pipeline
total to this and to nothing else (`eq_total_iff_aggregates`).
-/

namespace PodRules

structure StageReport where
  position : Nat
  stage : String
  result : StageResult

namespace StageReport

def addTo (a : Tally) (r : StageReport) : Tally := a.add r.position r.stage r.result

/-- Whether a report says anything about a target, be it that it passed no rule. -/
def names (r : StageReport) (target : String) : Bool :=
  r.result.passRules.contains target || r.result.rejected.contains target

def passed (r : StageReport) (target : String) : List String :=
  ((r.result.passRules.get? target).map SortedSet.toList).getD []

def rejection? (r : StageReport) (target : String) : Option RejectInfo :=
  r.result.rejected.get? target

end StageReport

def lastNaming? (reports : List StageReport) (target : String) : Option StageReport :=
  (reports.filter (·.names target)).getLast?

/-- What reports say together about a target that one of them names. -/
structure AggregateDetail (reports : List StageReport) (target : String) (d : Detail) : Prop where
  name : d.name = target
  stage : (lastNaming? reports target).map (·.stage) = some d.stage
  ascending : d.passedRules.Pairwise fun a b => compare a b = .lt
  passedRules : ∀ rule, rule ∈ d.passedRules ↔
    ∃ r ∈ reports, ∃ rules, r.result.passRules.get? target = some rules ∧ rule ∈ rules
  sorted : d.rejectInfo.Pairwise fun a b => (compare a b).isLE = true
  rejectInfo : d.rejectInfo.Perm (reports.filterMap (·.rejection? target))
  passed : d.passed = true ↔ d.rejectInfo = []

inductive Shortest (reports : List StageReport) : Option Duration → Prop
  | none (h : ∀ r ∈ reports, r.result.interval = none) : Shortest reports none
  | some (d : Duration) (hmem : ∃ r ∈ reports, r.result.interval = some d)
      (hle : ∀ r ∈ reports, ∀ e, r.result.interval = some e → d.nanos ≤ e.nanos) :
      Shortest reports (some d)

/-- What reports say together. -/
structure Aggregates (reports : List StageReport) (m : PipelineResult) : Prop where
  interval : Shortest reports m.interval
  retry : m.retry = reports.any (·.result.retry)
  sorted : m.ruleStates.Pairwise fun a b => (compare a b).isLE = true
  ruleStates : m.ruleStates.Perm (reports.flatMap (·.result.ruleStates))
  keys : ∀ target, target ∈ m.details.keys ↔ ∃ r ∈ reports, r.names target = true
  details : ∀ target d, m.details.get? target = some d → AggregateDetail reports target d

/-! ## One target -/

section OneTarget

variable {reports : List StageReport} {r : StageReport} {target : String}

theorem lastNaming?_append_of_names (h : r.names target = true) :
    lastNaming? (reports ++ [r]) target = some r := by
  simp [lastNaming?, h]

theorem lastNaming?_append_of_not_names (h : r.names target = false) :
    lastNaming? (reports ++ [r]) target = lastNaming? reports target := by
  simp [lastNaming?, h]

theorem lastNaming?_eq_none_iff :
    lastNaming? reports target = none ↔ ∀ r ∈ reports, r.names target = false := by
  simp [lastNaming?]

theorem StageReport.mem_passed {rule : String} :
    rule ∈ r.passed target ↔
      ∃ rules, r.result.passRules.get? target = some rules ∧ rule ∈ rules := by
  unfold passed
  cases r.result.passRules.get? target <;> simp [SortedSet.mem_def]

theorem StageReport.silent_of_not_names (h : r.names target = false) :
    r.passed target = [] ∧ r.rejection? target = none := by
  simp only [names, SortedMap.contains, Bool.or_eq_false_iff, Option.isSome_eq_false_iff,
    Option.isNone_iff_eq_none] at h
  simp [passed, rejection?, h.1, h.2]

theorem StageReport.mention?_eq :
    r.result.mention? r.position r.stage target =
      if r.names target = true then
        some ⟨r.position, r.stage, r.passed target, r.rejection? target⟩
      else none := by
  unfold StageResult.mention? names passed rejection? SortedMap.contains
  cases r.result.passRules.get? target <;> cases r.result.rejected.get? target <;> rfl

inductive Gathered (reports : List StageReport) (target : String) : Option Placed → Prop
  | unnamed (h : lastNaming? reports target = none) : Gathered reports target none
  | named {p : Placed} (last : StageReport) (h : lastNaming? reports target = some last)
      (position : p.position = last.position) (name : p.detail.name = target)
      (stage : p.detail.stage = last.stage)
      (passedRules : p.detail.passedRules = reports.flatMap (·.passed target))
      (rejectInfo : p.detail.rejectInfo = reports.filterMap (·.rejection? target)) :
      Gathered reports target (some p)

/-- The outcome that the next report finds, where none is as good as a new one. -/
theorem Gathered.exists_found {o : Option Placed} (h : Gathered reports target o)
    (hlow : ∀ s ∈ reports, s.position ≤ r.position) (m : Mention) :
    ∃ p, Placed.touched target m o = Placed.touched target m (some p) ∧
      p.position ≤ r.position ∧ p.detail.name = target ∧
      p.detail.passedRules = reports.flatMap (·.passed target) ∧
      p.detail.rejectInfo = reports.filterMap (·.rejection? target) := by
  cases h with
  | unnamed h =>
    have hsilent : ∀ s ∈ reports, s.passed target = [] ∧ s.rejection? target = none :=
      fun s hs => StageReport.silent_of_not_names (lastNaming?_eq_none_iff.1 h s hs)
    have hpassed : reports.flatMap (·.passed target) = [] :=
      List.flatMap_eq_nil_iff.2 fun s hs => (hsilent s hs).1
    have hrejected : reports.filterMap (·.rejection? target) = [] :=
      List.filterMap_eq_nil_iff.2 fun s hs => (hsilent s hs).2
    refine ⟨⟨0, .new target ""⟩, Placed.touched_none target m, Nat.zero_le _, rfl, ?_, ?_⟩
    · rw [hpassed]
      rfl
    · rw [hrejected]
      rfl
  | @named p last h position name stage passedRules rejectInfo =>
    have hlast : last ∈ reports := (List.mem_filter.1 (List.mem_of_getLast? h)).1
    refine ⟨p, rfl, ?_, name, passedRules, rejectInfo⟩
    rw [position]
    exact hlow last hlast

/-- One more report, from a later position. -/
theorem Gathered.add {o : Option Placed} (h : Gathered reports target o)
    (hlow : ∀ s ∈ reports, s.position ≤ r.position) :
    Gathered (reports ++ [r]) target
      (Placed.visited target (r.result.mention? r.position r.stage target) o) := by
  rw [StageReport.mention?_eq]
  cases hnames : r.names target with
  | false =>
    obtain ⟨hpassed, hrejected⟩ := StageReport.silent_of_not_names hnames
    have hlast := @lastNaming?_append_of_not_names reports r target hnames
    cases h with
    | unnamed h => exact .unnamed (hlast.trans h)
    | named last h position name stage passedRules rejectInfo =>
      refine .named last (hlast.trans h) position name stage ?_ ?_
      · simp [passedRules, hpassed]
      · simp [rejectInfo, hrejected]
  | true =>
    obtain ⟨p, hfound, position, name, passedRules, rejectInfo⟩ := h.exists_found hlow
      ⟨r.position, r.stage, r.passed target, r.rejection? target⟩
    rw [if_pos rfl, Placed.visited, hfound]
    refine .named r (lastNaming?_append_of_names hnames) ?_ ?_ ?_ ?_ ?_
    · rw [Placed.position_touched]
      exact Nat.max_eq_right position
    · rw [Placed.name_touched, name]
    · rw [Placed.stage_touched, if_pos position]
    · rw [Placed.passedRules_touched, passedRules]
      simp
    · rw [Placed.rejectInfo_touched, rejectInfo, List.filterMap_append]
      cases hrejected : r.rejection? target <;> simp [hrejected]

/-- What was gathered about a target becomes its detail by sorting. -/
theorem Gathered.aggregateDetail {p : Placed} (h : Gathered reports target (some p)) :
    AggregateDetail reports target (Tally.canonicalDetail p.detail) := by
  cases h with
  | named last h position name stage passedRules rejectInfo =>
    refine ⟨name, ?_, SortedSet.ascending _, ?_, pairwise_sortBy_compare _, ?_, ?_⟩
    · rw [h]
      exact congrArg some stage.symm
    · intro rule
      show rule ∈ SortedSet.ofList p.detail.passedRules ↔ _
      simp only [SortedSet.mem_ofList, passedRules, List.mem_flatMap, StageReport.mem_passed]
    · rw [← rejectInfo]
      exact sortBy_perm _
    · show p.detail.rejectInfo.isEmpty = true ↔ sortBy _ p.detail.rejectInfo = []
      rw [List.isEmpty_iff]
      constructor
      · intro hnil
        rw [hnil]
        rfl
      · intro hnil
        have hperm : (sortBy (fun a b => (compare a b).isLE) p.detail.rejectInfo).Perm _ :=
          sortBy_perm p.detail.rejectInfo
        rw [hnil] at hperm
        exact hperm.nil_eq.symm

end OneTarget

/-! ## The interval -/

theorem Duration.min_of_lt {d e : Duration} (h : e.nanos < d.nanos) : d.min e = e := if_pos h

theorem Duration.min_of_le {d e : Duration} (h : d.nanos ≤ e.nanos) : d.min e = d :=
  if_neg (Nat.not_lt.2 h)

namespace Shortest

variable {reports : List StageReport} {i j : Option Duration}

/-- A bound of the intervals of some reports and of one more. -/
theorem bound_append {r : StageReport} {d e : Duration} (hr : r.result.interval = Option.some e)
    (hle : ∀ s ∈ reports, ∀ f, s.result.interval = Option.some f → d.nanos ≤ f.nanos)
    (he : d.nanos ≤ e.nanos) :
    ∀ s ∈ reports ++ [r], ∀ f, s.result.interval = Option.some f → d.nanos ≤ f.nanos := by
  refine List.forall_mem_append.2 ⟨hle, List.forall_mem_singleton.2 fun f hf => ?_⟩
  cases hr.symm.trans hf
  exact he

theorem append (h : Shortest reports i) (r : StageReport) :
    Shortest (reports ++ [r]) (Tally.minInterval i r.result.interval) := by
  have hlast : r ∈ reports ++ [r] := List.mem_append_right _ (List.mem_singleton.2 rfl)
  cases h with
  | none hnone =>
    rw [Tally.minInterval]
    cases hr : r.result.interval with
    | none => exact .none (List.forall_mem_append.2 ⟨hnone, List.forall_mem_singleton.2 hr⟩)
    | some e =>
      refine .some e ⟨r, hlast, hr⟩ (bound_append hr (fun s hs f hf => ?_) (Nat.le_refl _))
      cases (hnone s hs).symm.trans hf
  | some d hmem hle =>
    obtain ⟨s, hs, hd⟩ := hmem
    have hs : s ∈ reports ++ [r] := List.mem_append_left _ hs
    cases hr : r.result.interval with
    | none =>
      refine .some d ⟨s, hs, hd⟩ (List.forall_mem_append.2 ⟨hle, List.forall_mem_singleton.2 ?_⟩)
      intro f hf
      cases hr.symm.trans hf
    | some e =>
      -- Either the new interval is shorter, or the shortest one stays.
      show Shortest _ (Option.some (d.min e))
      rcases Nat.lt_or_ge e.nanos d.nanos with hlt | hge
      · rw [Duration.min_of_lt hlt]
        refine .some e ⟨r, hlast, hr⟩ (bound_append hr (fun u hu f hf => ?_) (Nat.le_refl _))
        exact Nat.le_trans (Nat.le_of_lt hlt) (hle u hu f hf)
      · rw [Duration.min_of_le hge]
        exact .some d ⟨s, hs, hd⟩ (bound_append hr hle hge)

theorem unique (h : Shortest reports i) (h' : Shortest reports j) : i = j := by
  cases h with
  | none hnone =>
    cases h' with
    | none => rfl
    | some e hmem =>
      obtain ⟨s, hs, he⟩ := hmem
      cases (hnone s hs).symm.trans he
  | some d hmem hle =>
    obtain ⟨s, hs, hd⟩ := hmem
    cases h' with
    | none hnone => cases (hnone s hs).symm.trans hd
    | some e hmem' hle' =>
      obtain ⟨u, hu, he⟩ := hmem'
      have hnanos : d.nanos = e.nanos := Nat.le_antisymm (hle u hu e he) (hle' s hs d hd)
      cases d; cases e
      exact congrArg (fun n => Option.some (Duration.mk n)) hnanos

end Shortest

/-! ## The tally -/

namespace Tally

variable {reports : List StageReport} {r : StageReport} {a : Tally}

structure Gathers (reports : List StageReport) (a : Tally) : Prop where
  interval : Shortest reports a.interval
  retry : a.retry = reports.any (·.result.retry)
  ruleStates : a.ruleStates = reports.flatMap (·.result.ruleStates)
  details : ∀ target, Gathered reports target (a.details.get? target)

theorem gathers_empty : Gathers [] empty :=
  ⟨.none (by simp), rfl, rfl, fun _ => .unnamed rfl⟩

/-- A report that comes at no lower position is gathered with the others. -/
theorem Gathers.add (h : Gathers reports a) (hlow : ∀ s ∈ reports, s.position ≤ r.position) :
    Gathers (reports ++ [r]) (r.addTo a) where
  interval := h.interval.append r
  retry := by
    show (a.retry || r.result.retry) = _
    rw [h.retry]
    simp
  ruleStates := by
    show a.ruleStates ++ r.result.ruleStates = _
    rw [h.ruleStates]
    simp
  details := by
    intro target
    show Gathered _ target ((a.add r.position r.stage r.result).details.get? target)
    rw [get?_details_add]
    exact (h.details target).add hlow

/-- Reports in ascending order are gathered one by one. -/
theorem gathers_foldl (h : reports.Pairwise fun r s => r.position < s.position) :
    Gathers reports (reports.foldl StageReport.addTo .empty) := by
  -- On the reports from their end: the last one has the highest position.
  induction reports using List.reverseRecOn with
  | nil => exact gathers_empty
  | append_singleton reports r ih =>
    obtain ⟨hreports, -, hlow⟩ := List.pairwise_append.1 h
    rw [List.foldl_append]
    exact (ih hreports).add fun s hs => Nat.le_of_lt (hlow s hs r (List.mem_singleton.2 rfl))

theorem Gathers.aggregates (h : Gathers reports a) : Aggregates reports a.total where
  interval := h.interval
  retry := h.retry
  sorted := pairwise_sortBy_compare a.ruleStates
  ruleStates := by
    rw [← h.ruleStates]
    exact sortBy_perm a.ruleStates
  keys := by
    intro target
    have hget : a.total.details.get? target = _ :=
      SortedMap.get?_mapValues a.details (fun _ p => canonicalDetail p.detail) target
    rw [SortedMap.mem_keys, hget]
    have hgathered := h.details target
    generalize a.details.get? target = o at hgathered ⊢
    cases hgathered with
    | unnamed hlast =>
      have hnames := lastNaming?_eq_none_iff.1 hlast
      simp +contextual [hnames]
    | named last hlast =>
      obtain ⟨hmem, hnames⟩ := List.mem_filter.1 (List.mem_of_getLast? hlast)
      exact ⟨fun _ => ⟨last, hmem, hnames⟩, fun _ => Option.some_ne_none _⟩
  details := by
    intro target d hd
    have hget : a.total.details.get? target = _ :=
      SortedMap.get?_mapValues a.details (fun _ p => canonicalDetail p.detail) target
    obtain ⟨p, hp, rfl⟩ := Option.map_eq_some_iff.1 (hget.symm.trans hd)
    exact (hp ▸ h.details target).aggregateDetail

end Tally

/-! ## Nothing else is said -/

/-- The reports determine the detail of a target, since sorted lists of the same elements are
equal. -/
theorem AggregateDetail.unique {reports : List StageReport} {target : String} {d e : Detail}
    (h : AggregateDetail reports target d) (h' : AggregateDetail reports target e) : d = e := by
  have hname : d.name = e.name := h.name.trans h'.name.symm
  have hstage : d.stage = e.stage := Option.some.inj (h.stage.symm.trans h'.stage)
  have hrules : d.passedRules = e.passedRules :=
    SortedSet.eq_of_mem_iff h.ascending h'.ascending fun rule =>
      (h.passedRules rule).trans (h'.passedRules rule).symm
  have hrejected : d.rejectInfo = e.rejectInfo :=
    eq_of_perm_of_sorted (h.rejectInfo.trans h'.rejectInfo.symm) h.sorted h'.sorted
  have hpassed : d.passed = e.passed := by
    rw [Bool.eq_iff_iff, h.passed, h'.passed, hrejected]
  cases d; cases e
  simp only [Detail.mk.injEq]
  exact ⟨hname, hstage, hpassed, hrules, hrejected⟩

theorem Aggregates.unique {reports : List StageReport} {m n : PipelineResult}
    (h : Aggregates reports m) (h' : Aggregates reports n) : m = n := by
  have hretry : m.retry = n.retry := h.retry.trans h'.retry.symm
  have hstates : m.ruleStates = n.ruleStates :=
    eq_of_perm_of_sorted (h.ruleStates.trans h'.ruleStates.symm) h.sorted h'.sorted
  have hdetails : m.details = n.details := by
    refine SortedMap.ext fun target => ?_
    have hkeys : m.details.get? target ≠ none ↔ n.details.get? target ≠ none := by
      rw [← SortedMap.mem_keys, ← SortedMap.mem_keys, h.keys, h'.keys]
    cases hm : m.details.get? target with
    | none =>
      by_contra hne
      exact hkeys.2 (Ne.symm hne) hm
    | some d =>
      obtain ⟨e, hn⟩ := Option.ne_none_iff_exists'.1 (hkeys.1 (by simp [hm]))
      rw [hn, (h.details target d hm).unique (h'.details target e hn)]
  cases m; cases n
  simp only [PipelineResult.mk.injEq]
  exact ⟨h.interval.unique h'.interval, hretry, hstates, hdetails⟩

/-- The reports of a pipeline, merged in its order, total to what they say together. -/
theorem eq_total_iff_aggregates (reports : List StageReport)
    (h : reports.Pairwise fun r s => r.position < s.position) (m : PipelineResult) :
    m = (reports.foldl StageReport.addTo .empty).total ↔ Aggregates reports m := by
  have haggregates := (Tally.gathers_foldl h).aggregates
  constructor
  · rintro rfl
    exact haggregates
  · intro hm
    exact hm.unique haggregates

namespace Aggregation

def reports : List StageReport :=
  [⟨0, "build", { StageResult.empty with
      interval := some ⟨5⟩
      ruleStates := [⟨"build", "r2", none⟩]
      passRules := .ofList [("p", .ofList ["r2", "r1"]), ("q", ∅)] }⟩,
    ⟨2, "lint", { StageResult.empty with
      retry := true
      ruleStates := [⟨"lint", "r4", some "busy"⟩, ⟨"build", "r2", none⟩]
      passRules := .ofList [("p", .ofList ["r3", "r1"])]
      rejected := .ofList [("p", ⟨"r4", "late"⟩), ("s", ⟨"r4", "late"⟩)] }⟩,
    ⟨5, "ship", { StageResult.empty with
      interval := some ⟨3⟩
      rejected := .ofList [("p", ⟨"r0", "open"⟩)] }⟩]

def total : PipelineResult where
  interval := some ⟨3⟩
  retry := true
  ruleStates := [⟨"build", "r2", none⟩, ⟨"build", "r2", none⟩, ⟨"lint", "r4", some "busy"⟩]
  details := .ofList
    [("p", ⟨"p", "ship", false, ["r1", "r2", "r3"], [⟨"r0", "open"⟩, ⟨"r4", "late"⟩]⟩),
      ("q", ⟨"q", "build", true, [], []⟩),
      ("s", ⟨"s", "lint", false, [], [⟨"r4", "late"⟩]⟩)]

theorem ascending_reports : reports.Pairwise fun r s => r.position < s.position := by
  simp [reports]

end Aggregation

open Aggregation in
theorem aggregates_three_reports : Aggregates reports total :=
  (eq_total_iff_aggregates reports ascending_reports total).1 (by decide)

end PodRules
