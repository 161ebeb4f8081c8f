import PodRules.Proofs.Order.SortedMap
import PodRules.Proofs.Order.Sorting
import PodRules.Stage.Tally

namespace PodRules

/-! ## The orders of the sorted lists -/

theorem RejectInfo.compare_def (a b : RejectInfo) :
    compare a b = (compare a.ruleName b.ruleName).then (compare a.reason b.reason) := rfl

instance : Std.LawfulEqOrd RejectInfo where
  compare_self {a} := by simp [RejectInfo.compare_def, Std.ReflCmp.compare_self]
  eq_of_compare {a b} h := by
    rw [RejectInfo.compare_def, Ordering.then_eq_eq] at h
    cases a; cases b
    simp only [RejectInfo.mk.injEq]
    exact ⟨Std.LawfulEqOrd.eq_of_compare h.1, Std.LawfulEqOrd.eq_of_compare h.2⟩

instance : Std.TransOrd RejectInfo :=
  inferInstanceAs (Std.TransCmp (compareLex (compareOn RejectInfo.ruleName)
    (compareOn RejectInfo.reason)))

theorem RuleState.compare_def (a b : RuleState) :
    compare a b = (compare a.stage b.stage).then
      ((compare a.name b.name).then (compare a.message b.message)) := rfl

instance : Std.LawfulEqOrd RuleState where
  compare_self {a} := by simp [RuleState.compare_def, Std.ReflCmp.compare_self]
  eq_of_compare {a b} h := by
    rw [RuleState.compare_def, Ordering.then_eq_eq, Ordering.then_eq_eq] at h
    cases a; cases b
    simp only [RuleState.mk.injEq]
    exact ⟨Std.LawfulEqOrd.eq_of_compare h.1, Std.LawfulEqOrd.eq_of_compare h.2.1,
      Std.LawfulEqOrd.eq_of_compare h.2.2⟩

instance : Std.TransOrd RuleState :=
  inferInstanceAs (Std.TransCmp (compareLex (compareOn RuleState.stage)
    (compareLex (compareOn RuleState.name) (compareOn RuleState.message))))

/-! ## What a stage says about one target -/

structure Mention where
  position : Nat
  stage : String
  passed : List String
  reject : Option RejectInfo

def StageResult.mention? (r : StageResult) (position : Nat) (stage target : String) :
    Option Mention :=
  match r.passRules.get? target, r.rejected.get? target with
  | some rules, reject => some ⟨position, stage, rules.toList, reject⟩
  | none, some reject => some ⟨position, stage, [], some reject⟩
  | none, none => none

namespace Placed

def touched (target : String) (m : Mention) (old : Option Placed) : Placed :=
  let old := old.getD ⟨m.position, .new target m.stage⟩
  let placed :=
    if old.position ≤ m.position then ⟨m.position, { old.detail with stage := m.stage }⟩ else old
  let detail := placed.detail.addPassed m.passed
  let detail := match m.reject with
    | some r => detail.addRejection r
    | none => detail
  { placed with detail }

def visited (target : String) : Option Mention → Option Placed → Option Placed
  | none, old => old
  | some m, old => some (touched target m old)

section Fields

variable (target : String) (m : Mention) (o : Placed)

theorem position_touched : (touched target m (some o)).position = max o.position m.position := by
  unfold touched
  by_cases h : o.position ≤ m.position
  · simp [h]
  · simp only [Option.getD_some, h, if_false]
    omega

theorem name_touched : (touched target m (some o)).detail.name = o.detail.name := by
  obtain ⟨position, stage, passed, reject⟩ := m
  by_cases h : o.position ≤ position <;> cases reject <;>
    simp [touched, h, Detail.addPassed, Detail.addRejection]

theorem stage_touched : (touched target m (some o)).detail.stage =
    if o.position ≤ m.position then m.stage else o.detail.stage := by
  obtain ⟨position, stage, passed, reject⟩ := m
  by_cases h : o.position ≤ position <;> cases reject <;>
    simp [touched, h, Detail.addPassed, Detail.addRejection]

theorem passedRules_touched : (touched target m (some o)).detail.passedRules =
    o.detail.passedRules ++ m.passed := by
  obtain ⟨position, stage, passed, reject⟩ := m
  by_cases h : o.position ≤ position <;> cases reject <;>
    simp [touched, h, Detail.addPassed, Detail.addRejection]

theorem rejectInfo_touched : (touched target m (some o)).detail.rejectInfo =
    o.detail.rejectInfo ++ m.reject.toList := by
  obtain ⟨position, stage, passed, reject⟩ := m
  by_cases h : o.position ≤ position <;> cases reject <;>
    simp [touched, h, Detail.addPassed, Detail.addRejection]

/-- A target that nobody named before is as good as one named at the lowest position. -/
theorem touched_none :
    touched target m none = touched target m (some ⟨0, .new target ""⟩) := by
  simp [touched, Detail.new]

end Fields

structure Similar (p q : Placed) : Prop where
  position : p.position = q.position
  name : p.detail.name = q.detail.name
  stage : p.detail.stage = q.detail.stage
  passedRules : p.detail.passedRules.Perm q.detail.passedRules
  rejectInfo : p.detail.rejectInfo.Perm q.detail.rejectInfo

theorem Similar.refl (p : Placed) : Similar p p := ⟨rfl, rfl, rfl, .refl _, .refl _⟩

theorem Similar.trans {p q r : Placed} (h : Similar p q) (h' : Similar q r) : Similar p r :=
  ⟨h.position.trans h'.position, h.name.trans h'.name, h.stage.trans h'.stage,
    h.passedRules.trans h'.passedRules, h.rejectInfo.trans h'.rejectInfo⟩

inductive SimilarAt : Option Placed → Option Placed → Prop
  | none : SimilarAt none none
  | some {p q : Placed} (h : Similar p q) : SimilarAt (some p) (some q)

theorem SimilarAt.refl (o : Option Placed) : SimilarAt o o := by
  cases o with
  | none => exact .none
  | some p => exact .some (.refl p)

theorem SimilarAt.trans {a b c : Option Placed} (h : SimilarAt a b) (h' : SimilarAt b c) :
    SimilarAt a c := by
  cases h with
  | none => exact h'
  | some h =>
    cases h' with
    | some h' => exact .some (h.trans h')

/-- What is alike but for the order of rules and rejections stays so after one more mention. -/
theorem Similar.touched {p q : Placed} (h : Similar p q) (target : String) (m : Mention) :
    Similar (touched target m (some p)) (touched target m (some q)) := by
  refine ⟨?_, ?_, ?_, ?_, ?_⟩
  · rw [position_touched, position_touched, h.position]
  · rw [name_touched, name_touched, h.name]
  · rw [stage_touched, stage_touched, h.position, h.stage]
  · rw [passedRules_touched, passedRules_touched]
    exact h.passedRules.append_right _
  · rw [rejectInfo_touched, rejectInfo_touched]
    exact h.rejectInfo.append_right _

theorem SimilarAt.visited {a b : Option Placed} (h : SimilarAt a b) (target : String)
    (m : Option Mention) : SimilarAt (visited target m a) (visited target m b) := by
  cases m with
  | none => exact h
  | some m =>
    cases h with
    | none => exact .refl _
    | some h => exact .some (h.touched target m)

/-- Two stages may name a target in either order: the one of the higher position stays. -/
theorem similar_touched_comm {m n : Mention} (hne : m.position ≠ n.position) (target : String)
    (o : Placed) :
    Similar (touched target n (some (touched target m (some o))))
      (touched target m (some (touched target n (some o)))) := by
  refine ⟨?_, ?_, ?_, ?_, ?_⟩
  · simp only [position_touched]
    omega
  · simp only [name_touched]
  · simp only [stage_touched, position_touched]
    -- The stage is the one of the highest position, which is the same in both orders.
    rcases Nat.lt_or_gt_of_ne hne with h | h
    · have hlow : ¬ max o.position n.position ≤ m.position := by omega
      rw [if_neg hlow]
      by_cases hn : o.position ≤ n.position
      · rw [if_pos hn, if_pos (by omega)]
      · rw [if_neg hn, if_neg (by omega), if_neg (by omega)]
    · have hlow : ¬ max o.position m.position ≤ n.position := by omega
      rw [if_neg hlow]
      by_cases hm : o.position ≤ m.position
      · rw [if_pos hm, if_pos (by omega)]
      · rw [if_neg hm, if_neg (by omega), if_neg (by omega)]
  · simp only [passedRules_touched, List.append_assoc]
    exact List.perm_append_comm.append_left _
  · simp only [rejectInfo_touched, List.append_assoc]
    exact List.perm_append_comm.append_left _

/-- Two mentions at different positions may come in either order. -/
theorem similarAt_visited_comm {m n : Option Mention}
    (hne : ∀ a ∈ m, ∀ b ∈ n, a.position ≠ b.position) (target : String) (o : Option Placed) :
    SimilarAt (visited target n (visited target m o)) (visited target m (visited target n o)) := by
  cases m with
  | none => exact .refl _
  | some m =>
    cases n with
    | none => exact .refl _
    | some n =>
      have hmn : m.position ≠ n.position := hne m rfl n rfl
      cases o with
      | some o => exact .some (similar_touched_comm hmn target o)
      | none =>
        -- Whoever comes first creates the outcome, which is overwritten from position zero on.
        have hcomm := similar_touched_comm hmn target ⟨0, .new target ""⟩
        rw [← touched_none, ← touched_none] at hcomm
        exact .some hcomm

end Placed

/-! ## What a report does to the outcomes -/

namespace Tally

theorem touch_eq (position : Nat) (stage target : String) (passed : List String)
    (reject : Option RejectInfo) (details : SortedMap String Placed) :
    touch position stage target passed reject details =
      details.insert target
        (Placed.touched target ⟨position, stage, passed, reject⟩ (details.get? target)) := rfl

/-- Adding a report visits each target with what the report mentions of it. -/
theorem get?_details_add (position : Nat) (stage : String) (r : StageResult) (a : Tally)
    (target : String) :
    (a.add position stage r).details.get? target =
      Placed.visited target (r.mention? position stage target) (a.details.get? target) := by
  simp only [add, touch_eq]
  -- First come the targets with passed rules, then the others that were rejected.
  rw [SortedMap.get?_foldl_insert
    (fun k v old => Placed.touched k ⟨position, stage, [], some v⟩ old)
    (r.rejected.filter fun target _ => !r.passRules.contains target).ascending]
  rw [SortedMap.get?_foldl_insert
    (fun k v old => Placed.touched k ⟨position, stage, v.toList, r.rejected.get? k⟩ old)
    r.passRules.ascending]
  have hrejected : SortedMap.look target
      (r.rejected.filter fun target _ => !r.passRules.contains target).entries =
        (r.rejected.get? target).filter fun _ => !r.passRules.contains target :=
    SortedMap.get?_filter r.rejected _ target
  have hpassed : SortedMap.look target r.passRules.entries = r.passRules.get? target := rfl
  rw [hrejected, hpassed]
  unfold StageResult.mention?
  cases hp : r.passRules.get? target with
  | some rules =>
    cases hr : r.rejected.get? target <;>
      simp [SortedMap.contains, hp, Placed.visited, Option.filter]
  | none =>
    cases hr : r.rejected.get? target <;>
      simp [SortedMap.contains, hp, Placed.visited, Option.filter]

/-! ## Similar tallies -/

structure Similar (a b : Tally) : Prop where
  interval : a.interval = b.interval
  retry : a.retry = b.retry
  ruleStates : a.ruleStates.Perm b.ruleStates
  details : ∀ target, Placed.SimilarAt (a.details.get? target) (b.details.get? target)

theorem Similar.refl (a : Tally) : Similar a a :=
  ⟨rfl, rfl, .refl _, fun _ => .refl _⟩

theorem Similar.trans {a b c : Tally} (h : Similar a b) (h' : Similar b c) : Similar a c :=
  ⟨h.interval.trans h'.interval, h.retry.trans h'.retry, h.ruleStates.trans h'.ruleStates,
    fun target => (h.details target).trans (h'.details target)⟩

theorem Similar.add {a b : Tally} (h : Similar a b) (position : Nat) (stage : String)
    (r : StageResult) : Similar (a.add position stage r) (b.add position stage r) := by
  refine ⟨?_, ?_, ?_, fun target => ?_⟩
  · show minInterval a.interval r.interval = minInterval b.interval r.interval
    rw [h.interval]
  · show (a.retry || r.retry) = (b.retry || r.retry)
    rw [h.retry]
  · exact h.ruleStates.append_right r.ruleStates
  · rw [get?_details_add, get?_details_add]
    exact (h.details target).visited target _

theorem minInterval_right_comm (a b c : Option Duration) :
    minInterval (minInterval a b) c = minInterval (minInterval a c) b := by
  have hmin : ∀ x y : Duration, x.min y = ⟨min x.nanos y.nanos⟩ := by
    intro x y
    unfold Duration.min
    split
    · rw [Nat.min_eq_right (by omega)]
    · rw [Nat.min_eq_left (by omega)]
  cases a <;> cases b <;> cases c <;>
    simp only [minInterval, hmin, Option.some.injEq, Duration.mk.injEq] <;> omega

theorem position_of_mention {r : StageResult} {position : Nat} {stage target : String}
    {m : Mention} (h : m ∈ r.mention? position stage target) : m.position = position := by
  unfold StageResult.mention? at h
  split at h <;> cases h <;> rfl

/-- Reports from different positions may be merged in either order. -/
theorem similar_add_comm {i j : Nat} (hij : i ≠ j) (s t : String) (q r : StageResult) (a : Tally) :
    Similar ((a.add i s q).add j t r) ((a.add j t r).add i s q) := by
  refine ⟨minInterval_right_comm _ _ _, ?_, ?_, fun target => ?_⟩
  · show (a.retry || q.retry || r.retry) = (a.retry || r.retry || q.retry)
    rw [Bool.or_right_comm]
  · show (a.ruleStates ++ q.ruleStates ++ r.ruleStates).Perm
      (a.ruleStates ++ r.ruleStates ++ q.ruleStates)
    rw [List.append_assoc, List.append_assoc]
    exact List.perm_append_comm.append_left _
  · simp only [get?_details_add]
    refine Placed.similarAt_visited_comm (fun x hx y hy => ?_) target _
    rw [position_of_mention hx, position_of_mention hy]
    exact hij

/-- Details that are alike but for order are sorted to one detail. -/
theorem canonicalDetail_eq {p q : Placed} (h : p.Similar q) :
    canonicalDetail p.detail = canonicalDetail q.detail := by
  -- Passed rules become a set and rejections are sorted; the verdict asks only whether there are any.
  have hrules : SortedSet.ofList p.detail.passedRules = SortedSet.ofList q.detail.passedRules := by
    ext x
    rw [SortedSet.mem_ofList, SortedSet.mem_ofList]
    exact h.passedRules.mem_iff
  have hempty : p.detail.rejectInfo.isEmpty = q.detail.rejectInfo.isEmpty :=
    h.rejectInfo.isEmpty_eq
  unfold canonicalDetail
  rw [h.name, h.stage, hrules, hempty, sortBy_eq_of_perm h.rejectInfo]

/-- Similar tallies have the same total: its lists are sorted. -/
theorem Similar.total_eq {a b : Tally} (h : Similar a b) : a.total = b.total := by
  have hdetails : (a.details.mapValues fun _ p => canonicalDetail p.detail) =
      b.details.mapValues fun _ p => canonicalDetail p.detail := by
    refine SortedMap.ext fun target => ?_
    rw [SortedMap.get?_mapValues, SortedMap.get?_mapValues]
    have hat := h.details target
    generalize a.details.get? target = o at hat ⊢
    generalize b.details.get? target = o' at hat ⊢
    cases hat with
    | none => rfl
    | some hs => exact congrArg some (canonicalDetail_eq hs)
  unfold total
  rw [h.interval, h.retry, sortBy_eq_of_perm h.ruleStates, hdetails]

end Tally

namespace Completion

open Tally

theorem similar_addTo {a b : Tally} (h : Similar a b) (c : Completion) :
    Similar (addTo a c) (addTo b c) := by
  unfold addTo
  cases c.report with
  | some r => exact h.add c.position c.stage r
  | none => exact h

/-- Completions at different positions may be added in either order. -/
theorem similar_addTo_comm {c d : Completion} (hcd : c.position ≠ d.position) (a : Tally) :
    Similar (addTo (addTo a c) d) (addTo (addTo a d) c) := by
  unfold addTo
  cases c.report with
  | none => exact .refl _
  | some q =>
    cases d.report with
    | none => exact .refl _
    | some r => exact similar_add_comm hcd _ _ q r a

theorem similar_foldl {a b : Tally} (h : Similar a b) (cs : List Completion) :
    Similar (cs.foldl addTo a) (cs.foldl addTo b) := by
  induction cs generalizing a b with
  | nil => exact h
  | cons c cs ih => exact ih (similar_addTo h c)

/-- The order in which completions arrive shows only in the order of what was gathered. -/
theorem similar_foldl_of_perm {cs ds : List Completion} (hp : cs.Perm ds)
    (hd : (cs.map (·.position)).Nodup) (a : Tally) :
    Similar (cs.foldl addTo a) (ds.foldl addTo a) := by
  -- On the permutation: a swap is two merges from different positions, and the tail is folded over
  -- tallies that are only similar from there on.
  induction hp generalizing a with
  | nil => exact .refl _
  | cons c _ ih => exact ih (List.nodup_cons.1 hd).2 (addTo a c)
  | swap c d cs =>
    have hne : d.position ≠ c.position := by
      intro he
      simp [he] at hd
    exact similar_foldl (similar_addTo_comm hne a) cs
  | trans hp _ ih₁ ih₂ =>
    exact (ih₁ hd a).trans (ih₂ ((hp.map _).nodup_iff.1 hd) a)

/-- It does not show in the merged result. -/
theorem combine_eq_of_perm {cs ds : List Completion} (hp : cs.Perm ds)
    (hd : (cs.map (·.position)).Nodup) : combine cs = combine ds :=
  (similar_foldl_of_perm hp hd .empty).total_eq

end Completion

end PodRules
