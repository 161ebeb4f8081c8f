import PodRules.Proofs.Pass.Parts

/-!
The plan of a pass, carried out task by task: each release and each claim is a task of its own, and
a task is a loop of attempts that meets some conflicts and then is done or fails. Main statement:
all tasks are done, or those up to the first one that fails, and nothing is begun after that
(`planRun_of_carryOut`).
-/

namespace PodRules

inductive OwnershipTask
  | release (name : String)
  | claim (name : String)
  deriving DecidableEq, Repr

namespace OwnershipTask

def name : OwnershipTask → String
  | release name => name
  | claim name => name

def edit (ruleSet : String) : OwnershipTask → Pod → Pod × Bool
  | release _, p => p.removeOwner ruleSet
  | claim _, p => p.addOwner ruleSet

def aftermath (ns : String) : OwnershipTask → TargetEdit → List Exchange
  | claim name, .written base _ => [⟨.arm ⟨ns, name⟩ base, ()⟩]
  | _, _ => []

end OwnershipTask

def ClaimPlan.tasks (plan : ClaimPlan) : List OwnershipTask :=
  plan.release.map .release ++ plan.claim.map .claim

def OwnershipTask.attempt (ns ruleSet : String) (task : OwnershipTask) :
    Pass (Except StoreError TargetEdit) :=
  editOnce ⟨ns, task.name⟩ (task.edit ruleSet)

/-- A task that was done. An attempt after fewer conflicts than there are attempts found the target
gone, or with its owners as they should be, or wrote it. -/
inductive TaskDone (b : RetryBackoff) (ns ruleSet : String) (task : OwnershipTask) :
    List Exchange → TargetEdit → Prop
  | mk {count : Nat} {before last : List Exchange} {w : TargetEdit}
      (hwaits : Pass.Waits b (task.attempt ns ruleSet) 1 count before)
      (hcount : count < b.attempts)
      (hlast : EditAttempt ⟨ns, task.name⟩ (task.edit ruleSet) last (.ok w)) :
      TaskDone b ns ruleSet task (before ++ last ++ task.aftermath ns w) w

/-- A task that failed: an attempt met an error that is neither an absence nor a conflict, or the
last attempt that there is met a conflict. -/
inductive TaskFailed (b : RetryBackoff) (ns ruleSet : String) (task : OwnershipTask) :
    List Exchange → Failure → Prop
  | refused {count : Nat} {before last : List Exchange} {e : StoreError}
      (hwaits : Pass.Waits b (task.attempt ns ruleSet) 1 count before)
      (hcount : count < b.attempts)
      (hlast : EditAttempt ⟨ns, task.name⟩ (task.edit ruleSet) last (.error e))
      (hconflict : e.isConflict = false) (habsent : e.isNotFound = false) :
      TaskFailed b ns ruleSet task (before ++ last) (.store e)
  | exhausted {count : Nat} {before last : List Exchange} {m : String}
      (hwaits : Pass.Waits b (task.attempt ns ruleSet) 1 count before)
      (hcount : count + 1 = b.attempts)
      (hlast : EditAttempt ⟨ns, task.name⟩ (task.edit ruleSet) last (.error (.conflict m))) :
      TaskFailed b ns ruleSet task (before ++ last)
        (.retryExhausted ⟨ns, task.name⟩ b.attempts)

inductive CarriedOut (b : RetryBackoff) (ns ruleSet : String) :
    List OwnershipTask → List Exchange → List (OwnershipTask × TargetEdit) → Prop
  | nil : CarriedOut b ns ruleSet [] [] []
  | cons {task : OwnershipTask} {tasks : List OwnershipTask} {τ σ : List Exchange}
      {w : TargetEdit} {edits : List (OwnershipTask × TargetEdit)}
      (h : TaskDone b ns ruleSet task τ w) (hr : CarriedOut b ns ruleSet tasks σ edits) :
      CarriedOut b ns ruleSet (task :: tasks) (τ ++ σ) ((task, w) :: edits)

def claimedTargets (edits : List (OwnershipTask × TargetEdit)) : List (String × Pod) :=
  edits.filterMap fun e =>
    match e.1 with
    | .claim name => e.2.pod?.map fun pod => (name, pod)
    | .release _ => none

/-- How a list of tasks comes to its end. -/
inductive PlanRun (b : RetryBackoff) (ns ruleSet : String) (tasks : List OwnershipTask) :
    List Exchange → Except Failure (List (OwnershipTask × TargetEdit)) → Prop
  | completed {τ : List Exchange} {edits : List (OwnershipTask × TargetEdit)}
      (hdone : CarriedOut b ns ruleSet tasks τ edits) : PlanRun b ns ruleSet tasks τ (.ok edits)
  | stopped {before after : List OwnershipTask} {task : OwnershipTask} {τ σ : List Exchange}
      {edits : List (OwnershipTask × TargetEdit)} {e : Failure}
      (htasks : tasks = before ++ task :: after) (hdone : CarriedOut b ns ruleSet before τ edits)
      (hfailed : TaskFailed b ns ruleSet task σ e) :
      PlanRun b ns ruleSet tasks (τ ++ σ) (.error e)

variable {b : RetryBackoff} {ns ruleSet : String} {task : OwnershipTask}
  {tasks more : List OwnershipTask} {τ σ : List Exchange}
  {edits rest : List (OwnershipTask × TargetEdit)}

/-! ## One task -/

/-- An edit never reports its target as missing, which counts as an outcome of its own. -/
theorem EditAttempt.isNotFound_eq_false {key : ObjectKey} {edit : Pod → Pod × Bool}
    {e : StoreError} (h : EditAttempt key edit τ (.error e)) : e.isNotFound = false := by
  cases h with
  | unread e he => exact he
  | unwritten pod e _ he => exact he

/-- The loop of a task ends with an edit, to which the aftermath is still to come, or fails. -/
theorem ends_editTarget_of_task (task : OwnershipTask) {res : Except Failure TargetEdit}
    (h : (editTarget b ⟨ns, task.name⟩ (task.edit ruleSet)).Ends τ res) :
    (∃ w, res = .ok w ∧ TaskDone b ns ruleSet task (τ ++ task.aftermath ns w) w) ∨
      ∃ e, res = .error e ∧ TaskFailed b ns ruleSet task τ e := by
  obtain ⟨count, before, last, rfl, hwaits, hcount, hlast, hexhausted⟩ := h.retry_counted
  cases hlast with
  | value w hw =>
    obtain ⟨o, ho, ha⟩ := ends_editOnce hw
    cases ho
    exact .inl ⟨w, rfl, .mk hwaits hcount ha⟩
  | refused e hconflict he =>
    obtain ⟨o, ho, ha⟩ := ends_editOnce he
    cases ho
    exact .inr ⟨_, rfl, .refused hwaits hcount ha hconflict ha.isNotFound_eq_false⟩
  | exhausted m hm =>
    obtain ⟨o, ho, ha⟩ := ends_editOnce hm
    cases ho
    exact .inr ⟨_, rfl, .exhausted hwaits (hexhausted m hm) ha⟩
  | broken e he =>
    obtain ⟨o, ho, -⟩ := ends_editOnce he
    cases ho

/-! ## Tasks one after the other -/

theorem CarriedOut.append (h : CarriedOut b ns ruleSet tasks τ edits)
    (h' : CarriedOut b ns ruleSet more σ rest) :
    CarriedOut b ns ruleSet (tasks ++ more) (τ ++ σ) (edits ++ rest) := by
  induction h with
  | nil => exact h'
  | cons hd _ ih =>
    rw [List.append_assoc]
    exact .cons hd ih

theorem CarriedOut.map_fst (h : CarriedOut b ns ruleSet tasks τ edits) :
    edits.map (·.1) = tasks := by
  induction h with
  | nil => rfl
  | cons _ _ ih => exact congrArg (_ :: ·) ih

/-- Tasks that were done can be put in front. -/
theorem PlanRun.prepend {res : Except Failure (List (OwnershipTask × TargetEdit))}
    (h : CarriedOut b ns ruleSet tasks τ edits) (h' : PlanRun b ns ruleSet more σ res) :
    PlanRun b ns ruleSet (tasks ++ more) (τ ++ σ) (res.map (edits ++ ·)) := by
  cases h' with
  | completed hdone => exact .completed (h.append hdone)
  | stopped htasks hdone hfailed =>
    rw [← List.append_assoc]
    exact .stopped (by rw [htasks, List.append_assoc]) (h.append hdone) hfailed

/-- A task that was done comes before the run of those after it. -/
theorem PlanRun.cons {res : Except Failure (List (OwnershipTask × TargetEdit))} {w : TargetEdit}
    (h : TaskDone b ns ruleSet task τ w) (h' : PlanRun b ns ruleSet tasks σ res) :
    PlanRun b ns ruleSet (task :: tasks) (τ ++ σ) (res.map ((task, w) :: ·)) := by
  have hone : CarriedOut b ns ruleSet [task] (τ ++ []) [(task, w)] := .cons h .nil
  rw [List.append_nil] at hone
  exact .prepend hone h'

/-- What stops before its end does so whatever was still to come. -/
theorem PlanRun.extend {e : Failure} (h : PlanRun b ns ruleSet tasks τ (.error e))
    (more : List OwnershipTask) : PlanRun b ns ruleSet (tasks ++ more) τ (.error e) := by
  cases h with
  | @stopped before after task _ _ _ _ htasks hdone hfailed =>
    have hmore : tasks ++ more = before ++ task :: (after ++ more) := by
      rw [htasks, List.append_assoc]
      rfl
    exact .stopped hmore hdone hfailed

/-- After a task that failed nothing is begun. -/
theorem PlanRun.of_failed {e : Failure} (h : TaskFailed b ns ruleSet task τ e) :
    PlanRun b ns ruleSet (task :: tasks) τ (.error e) :=
  .stopped (List.nil_append (task :: tasks)).symm .nil h

theorem claimedTargets_append (edits rest : List (OwnershipTask × TargetEdit)) :
    claimedTargets (edits ++ rest) = claimedTargets edits ++ claimedTargets rest :=
  List.filterMap_append

/-- Releases claim nothing. -/
theorem claimedTargets_of_releases {names : List String}
    (h : edits.map (·.1) = names.map .release) : claimedTargets edits = [] := by
  refine List.filterMap_eq_nil_iff.2 fun e he => ?_
  have hmem : e.1 ∈ names.map OwnershipTask.release := h ▸ List.mem_map_of_mem he
  obtain ⟨name, -, hname⟩ := List.mem_map.1 hmem
  rw [← hname]

/-- Releasing names one after the other is a run of the tasks to release them. -/
theorem planRun_of_releaseTargets {names : List String} {res : Except Failure Unit}
    (h : (releaseTargets b ns ruleSet names).Ends τ res) :
    ∃ run, PlanRun b ns ruleSet (names.map .release) τ run ∧ res = run.map fun _ => () := by
  -- On the names, for any trace: the first release takes its part of it or fails.
  induction names generalizing τ with
  | nil =>
    obtain ⟨rfl, rfl⟩ := Pass.ends_done_iff.1 h
    exact ⟨_, .completed .nil, rfl⟩
  | cons name names ih =>
    rcases Pass.ends_bind_iff.1 h with ⟨e, he, rfl⟩ | ⟨w, τ₁, τ₂, rfl, h₁, h₂⟩
    · rcases ends_editTarget_of_task (.release name) he with ⟨w, hw, -⟩ | ⟨e', he', hf⟩
      · cases hw
      · cases he'
        exact ⟨_, .of_failed hf, rfl⟩
    · rcases ends_editTarget_of_task (.release name) h₁ with ⟨w', hw, hd⟩ | ⟨e, he, -⟩
      · cases hw
        obtain ⟨run, hrun, rfl⟩ := ih h₂
        rw [show OwnershipTask.aftermath ns (.release name) w = [] from rfl,
          List.append_nil] at hd
        exact ⟨_, .cons hd hrun, by cases run <;> rfl⟩
      · cases he

/-- A claim is the loop of its task and its aftermath. -/
theorem taskDone_of_claimTarget {name : String} {res : Except Failure (Option Pod)}
    (h : (claimTarget b ns ruleSet name).Ends τ res) :
    (∃ w, res = .ok w.pod? ∧ TaskDone b ns ruleSet (.claim name) τ w) ∨
      ∃ e, res = .error e ∧ TaskFailed b ns ruleSet (.claim name) τ e := by
  rcases Pass.ends_bind_iff.1 h with ⟨e, he, rfl⟩ | ⟨w, τ₁, τ₂, rfl, h₁, h₂⟩
  · rcases ends_editTarget_of_task (.claim name) he with ⟨w, hw, -⟩ | ⟨e', he', hf⟩
    · cases hw
    · cases he'
      exact .inr ⟨_, rfl, hf⟩
  · rcases ends_editTarget_of_task (.claim name) h₁ with ⟨w', hw, hd⟩ | ⟨e, he, -⟩
    · cases hw
      refine .inl ⟨w, ?_⟩
      cases w with
      | written base pod =>
        obtain ⟨_, rest, rfl, h₃⟩ := Pass.ends_ask_iff.1 h₂
        obtain ⟨rfl, rfl⟩ := Pass.ends_done_iff.1 h₃
        exact ⟨rfl, hd⟩
      | unchanged pod | gone =>
        obtain ⟨rfl, rfl⟩ := Pass.ends_done_iff.1 h₂
        exact ⟨rfl, hd⟩
    · cases he

/-- Claiming names one after the other is a run of the tasks to claim them, and what it returns are
the pods of the claims. -/
theorem planRun_of_claimTargets {names : List String} {res : Except Failure (List Pod)}
    (h : (claimTargets b ns ruleSet names).Ends τ res) :
    ∃ run, PlanRun b ns ruleSet (names.map .claim) τ run ∧
      res = run.map fun edits => (claimedTargets edits).map (·.2) := by
  induction names generalizing τ res with
  | nil =>
    obtain ⟨rfl, rfl⟩ := Pass.ends_done_iff.1 h
    exact ⟨_, .completed .nil, rfl⟩
  | cons name names ih =>
    rcases Pass.ends_bind_iff.1 h with ⟨e, he, rfl⟩ | ⟨pod, τ₁, τ₂, rfl, h₁, h₂⟩
    · rcases taskDone_of_claimTarget he with ⟨w, hw, -⟩ | ⟨e', he', hf⟩
      · cases hw
      · cases he'
        exact ⟨_, .of_failed hf, rfl⟩
    -- The claimed pod is put in front of the others only when these have been claimed as well, so
    -- an error of theirs comes first.
    rcases taskDone_of_claimTarget h₁ with ⟨w, hw, hd⟩ | ⟨e, he, -⟩
    · cases hw
      rcases Pass.ends_bind_iff.1 h₂ with ⟨e, he, rfl⟩ | ⟨pods, σ₁, σ₂, rfl, h₃, h₄⟩
      · obtain ⟨run, hrun, hres⟩ := ih he
        cases run with
        | error e' =>
          cases hres
          exact ⟨_, .cons hd hrun, rfl⟩
        | ok edits => cases hres
      · obtain ⟨rfl, rfl⟩ := Pass.ends_done_iff.1 h₄
        obtain ⟨run, hrun, hres⟩ := ih h₃
        cases run with
        | error e => cases hres
        | ok edits =>
          cases hres
          rw [List.append_nil]
          refine ⟨_, .cons hd hrun, congrArg Except.ok ?_⟩
          cases w <;> rfl
    · cases he

/-- A plan is carried out to its end, or up to a task that fails. -/
theorem planRun_of_carryOut {plan : ClaimPlan} {res : Except Failure (List Pod)}
    (h : (carryOut b ns ruleSet plan).Ends τ res) :
    ∃ run, PlanRun b ns ruleSet plan.tasks τ run ∧
      res = run.map fun edits => (claimedTargets edits).map (·.2) := by
  rcases Pass.ends_bind_iff.1 h with ⟨e, he, rfl⟩ | ⟨u, τ₁, τ₂, rfl, h₁, h₂⟩
  · obtain ⟨run, hrun, hres⟩ := planRun_of_releaseTargets he
    cases run with
    | ok edits => cases hres
    | error e' =>
      cases hres
      exact ⟨_, hrun.extend _, rfl⟩
  · obtain ⟨run, hrun, hres⟩ := planRun_of_releaseTargets h₁
    obtain ⟨run', hrun', rfl⟩ := planRun_of_claimTargets h₂
    cases hrun with
    | stopped => cases hres
    | completed hdone =>
      refine ⟨_, .prepend hdone hrun', ?_⟩
      cases run' with
      | error e => rfl
      | ok edits =>
        refine congrArg (fun pods => Except.ok (List.map Prod.snd pods)) ?_
        rw [claimedTargets_append, claimedTargets_of_releases hdone.map_fst, List.nil_append]

end PodRules
