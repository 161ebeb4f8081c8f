import PodRules.Proofs.Pass.Parts

namespace PodRules

def Call.forgets : Call → Bool
  | .store (.updateStatus _) => true
  | .store (.updateRuleSet rs) => !rs.isHeld
  | _ => false

/-- The rule set that a pass works on: the one that it read first, unless the cleanup finalizer had
to be put on that one; then it is the one that came back with the finalizer, the last one. -/
def workedOn? (τ : List Exchange) : Option RuleSet :=
  match τ.filterMap Exchange.ruleSet? with
  | [] => none
  | rs :: rest => if rs.isTerminating || rs.isHeld then some rs else (rs :: rest).getLast?

/-- How a release of a target from a rule set comes to a good end: the target is not there, or its
fetched copy does not name the rule set, or the fetched copy is written without it, unless the
target has gone by then. -/
inductive ReleaseEnd (target : ObjectKey) (ruleSet : String) : List Exchange → Prop
  | absent (m : String) :
      ReleaseEnd target ruleSet [⟨.store (.getTarget target), .error (.notFound m)⟩]
  | unowned (pod : Pod) (ho : ¬ ruleSet ∈ pod.owners) :
      ReleaseEnd target ruleSet [⟨.store (.getTarget target), .ok pod⟩]
  | written (pod : Pod) (reply : Except StoreError Pod)
      (hr : (∃ stored, reply = .ok stored) ∨ ∃ m, reply = .error (.notFound m)) :
      ReleaseEnd target ruleSet
        [⟨.store (.getTarget target), .ok pod⟩,
          ⟨.store (.updateTarget (pod.withOwners (pod.owners.erase ruleSet))), reply⟩]

def Released (target : ObjectKey) (ruleSet : String) (τ : List Exchange) : Prop :=
  ∃ before last after, τ = before ++ last ++ after ∧ ReleaseEnd target ruleSet last ∧
    ∀ x ∈ after, x.call.fetched? ≠ some target

/-- What holds of an exchange and those before it: a status that lacks recorded targets, or a rule
set without its finalizer, is written only after the release of those targets, and no target is
looked at after such a write. -/
structure KeepsRecord (key : ObjectKey) (past : List Exchange) (x : Exchange) : Prop where
  status : ∀ u reply, x = ⟨.store (.updateStatus u), reply⟩ →
    ∃ rs, workedOn? past = some rs ∧ u = { rs with status := u.status } ∧
      ∀ n ∈ rs.recordedStatus.targets, n ∉ u.recordedStatus.targets →
        Released ⟨key.namespaceName, n⟩ key.name past
  finalizer : ∀ u reply, x = ⟨.store (.updateRuleSet u), reply⟩ → u.isHeld = false →
    ∃ rs, workedOn? past = some rs ∧
      ∀ n ∈ rs.recordedStatus.targets, Released ⟨rs.key.namespaceName, n⟩ rs.key.name past
  fetch : ∀ target, x.call.fetched? = some target → ∀ y ∈ past, y.call.forgets = false

theorem KeepsRecord.of_quiet {key : ObjectKey} {past : List Exchange} {x : Exchange}
    (h : x.call.forgets = false) (hf : x.call.fetched? = none) : KeepsRecord key past x := by
  refine ⟨?_, ?_, by simp [hf]⟩
  · rintro u reply rfl
    cases h
  · rintro u reply rfl hu
    simp [Call.forgets, hu] at h

/-! ## The releases of a pass -/

variable {target : ObjectKey} {ruleSet : String}

theorem Released.prepend {τ : List Exchange} (h : Released target ruleSet τ)
    (σ : List Exchange) : Released target ruleSet (σ ++ τ) := by
  obtain ⟨before, last, after, rfl, hl, ha⟩ := h
  exact ⟨σ ++ before, last, after, by simp, hl, ha⟩

/-- A target stays released as long as it is not fetched again. -/
theorem Released.append {τ σ : List Exchange} (h : Released target ruleSet τ)
    (hσ : ∀ x ∈ σ, x.call.fetched? ≠ some target) : Released target ruleSet (τ ++ σ) := by
  obtain ⟨before, last, after, rfl, hl, ha⟩ := h
  refine ⟨before, last, after ++ σ, by simp, hl, fun x hx => ?_⟩
  rcases List.mem_append.1 hx with hx | hx
  · exact ha x hx
  · exact hσ x hx

/-- An edit starts by fetching its target. -/
theorem editTarget_eq_ask (b : RetryBackoff) (key : ObjectKey) (edit : Pod → Pod × Bool) :
    ∃ next, editTarget b key edit = .ask (.store (.getTarget key)) next := by
  obtain ⟨left, hleft⟩ := Pass.exists_attempts_eq b
  rw [editTarget, Pass.retry, retryConflicts, hleft]
  exact ⟨_, rfl⟩

/-- A release that succeeded has released its target. -/
theorem released_of_editTarget {b : RetryBackoff} {τ : List Exchange} {w : TargetEdit}
    (h : (editTarget b target (·.removeOwner ruleSet)).Ends τ (.ok w)) :
    Released target ruleSet τ := by
  obtain ⟨before, last, rfl, -, hl⟩ := h.retry_ok
  obtain ⟨o, ho, ha⟩ := ends_editOnce hl
  cases ho
  refine ⟨before, last, [], by simp, ?_, by simp⟩
  -- A release that changes a pod writes the pod without that owner.
  have hedit {pod : Pod} (hc : (pod.removeOwner ruleSet).2 = true) :
      (pod.removeOwner ruleSet).1 = pod.withOwners (pod.owners.erase ruleSet) := by
    rw [Pod.removeOwner, if_pos (Pod.removeOwner_changes.1 hc)]
  cases ha with
  | absent m => exact .absent m
  | unchanged pod hc =>
    exact .unowned pod fun ho => by simp [Pod.removeOwner_changes.2 ho] at hc
  | written pod stored hc =>
    rw [hedit hc]
    exact .written pod (.ok stored) (Or.inl ⟨stored, rfl⟩)
  | vanished pod m hc =>
    rw [hedit hc]
    exact .written pod (.error (.notFound m)) (Or.inr ⟨m, rfl⟩)

/-- Releases that succeeded have released all the named targets. -/
theorem released_of_releaseTargets {b : RetryBackoff} {ns : String} {names : List String}
    {τ : List Exchange} (h : (releaseTargets b ns ruleSet names).Ends τ (.ok ())) :
    ∀ n ∈ names, Released ⟨ns, n⟩ ruleSet τ := by
  -- On the names; the names may repeat, so a later release may look at the same target again.
  induction names generalizing τ with
  | nil => simp
  | cons name names ih =>
    rcases Pass.ends_bind_iff.1 h with ⟨e, -, he⟩ | ⟨w, τ₁, τ₂, rfl, h₁, h₂⟩
    · cases he
    intro n hn
    -- Of several releases of one target the last one counts.
    by_cases hlater : n ∈ names
    · exact (ih h₂ n hlater).prepend τ₁
    obtain rfl : n = name := (List.mem_cons.1 hn).resolve_right hlater
    refine (released_of_editTarget h₁).append fun x hx hf => ?_
    obtain ⟨m, hm, hkey⟩ := (Pass.asks_releaseTargets b ns ruleSet names _ _ h₂ x hx).2 _ hf
    cases hkey
    exact hlater hm

/-! ## The rule set that a pass works on -/

theorem workedOn?_append {past τ : List Exchange} (h : ∀ x ∈ τ, x.ruleSet? = none) :
    workedOn? (past ++ τ) = workedOn? past := by
  have hτ : τ.filterMap Exchange.ruleSet? = [] := List.filterMap_eq_nil_iff.2 h
  rw [workedOn?, workedOn?, List.filterMap_append, hτ, List.append_nil]

theorem Exchange.ruleSet?_eq_none {x : Exchange} (h : x.call.concernsTargets = true) :
    x.ruleSet? = none := by
  obtain ⟨c, r⟩ := x
  cases c with
  | store c => cases c <;> first | rfl | cases h
  | _ => rfl

theorem ruleSet?_getLast?_of_holdRuleSet {b : RetryBackoff} {rs held : RuleSet}
    {τ : List Exchange} (hh : rs.isHeld = false) (h : (holdRuleSet b rs).Ends τ (.ok held)) :
    (τ.filterMap Exchange.ruleSet?).getLast? = some held := by
  rw [holdRuleSet, hh] at h
  obtain ⟨before, last, rfl, -, hl⟩ := h.retry_ok
  obtain ⟨o, ho, ha⟩ := ends_holdOnce hl
  cases ho
  -- What came before the last attempt does not matter for the last answer.
  cases ha with
  | held stored _ => simp [Exchange.ruleSet?]
  | answered stored _ _ => simp [Exchange.ruleSet?]

/-- A rule set that is being deleted is worked on as it was read, whatever is read later. -/
theorem workedOn?_of_isTerminating {rs : RuleSet} {past τ : List Exchange}
    (hp : past.filterMap Exchange.ruleSet? = [rs]) (ht : rs.isTerminating = true) :
    workedOn? (past ++ τ) = some rs := by
  simp [workedOn?, List.filterMap_append, hp, ht]

/-- After the finalizer was made sure of, the pass works on the rule set that came back. -/
theorem workedOn?_holdRuleSet {b : RetryBackoff} {rs held : RuleSet} {past τ : List Exchange}
    (hp : past.filterMap Exchange.ruleSet? = [rs]) (ht : rs.isTerminating = false)
    (h : (holdRuleSet b rs).Ends τ (.ok held)) : workedOn? (past ++ τ) = some held := by
  rw [workedOn?, List.filterMap_append, hp, List.singleton_append]
  by_cases hh : rs.isHeld = true
  · rw [holdRuleSet, if_pos hh] at h
    obtain ⟨rfl, he⟩ := Pass.ends_done_iff.1 h
    cases he
    simp [hh]
  · have hlast := ruleSet?_getLast?_of_holdRuleSet (by simpa using hh) h
    simp only [ht, Bool.not_eq_true _ ▸ hh, Bool.or_self, Bool.false_eq_true, if_false]
    rw [List.getLast?_cons, hlast]
    rfl

/-! ## Part by part -/

theorem Call.forgets_of_concernsTargets {c : Call} (h : c.concernsTargets = true) :
    c.forgets = false := by
  cases c with
  | store c => cases c <;> first | rfl | cases h
  | _ => rfl

theorem Call.quiet_of_holdsRuleSet {c : Call} (h : c.holdsRuleSet = true) :
    c.forgets = false ∧ c.fetched? = none := by
  cases c with
  | store c =>
    cases c with
    | updateRuleSet u => exact ⟨by simpa [Call.holdsRuleSet, Call.forgets] using h, rfl⟩
    | getRuleSet key => exact ⟨rfl, rfl⟩
    | _ => cases h
  | sleep d => exact ⟨rfl, rfl⟩
  | _ => cases h

theorem Call.fetched?_of_letsRuleSetGo {c : Call} (h : c.letsRuleSetGo = true) :
    c.fetched? = none := by
  cases c with
  | store c => cases c <;> first | rfl | cases h
  | _ => rfl

/-- The plan releases what was recorded and is not selected any more. -/
theorem ClaimPlan.mem_release {recorded : List String} {selected : SortedSet String} {n : String} :
    n ∈ (ClaimPlan.ofSelection recorded selected).release ↔ n ∈ recorded ∧ ¬ n ∈ selected := by
  have h : n ∈ SortedSet.ofList (recorded.filter (· ∉ selected)) ↔ _ := SortedSet.mem_ofList
  rw [SortedSet.mem_def] at h
  simpa [ClaimPlan.ofSelection] using h

namespace Pass

variable {s : Settings} {b : RetryBackoff} {key : ObjectKey} {past : List Exchange} {rs : RuleSet}

theorem AsksTargets.keepsRecord {α : Type} {p : Pass α} {keys : ObjectKey → Prop}
    (h : p.AsksTargets keys) (hp : ∀ y ∈ past, y.call.forgets = false) :
    p.Guarded (KeepsRecord key) past := by
  rintro τ res ht τ₁ x τ₂ rfl
  have hc : ∀ y ∈ τ₁ ++ x :: τ₂, y.call.forgets = false := fun y hy =>
    Call.forgets_of_concernsTargets (h _ res ht y hy).1
  have hx := hc x (by simp)
  refine ⟨?_, ?_, fun target _ y hy => ?_⟩
  · rintro u reply rfl
    cases hx
  · rintro u reply rfl hu
    simp [Call.forgets, hu] at hx
  · rcases List.mem_append.1 hy with hy | hy
    · exact hp y hy
    · exact hc y (by simp [hy])

/-- The status is written when all that it forgets has been released. -/
theorem guarded_recordOutcome {names : SortedSet String} (merged : PipelineResult)
    (hw : workedOn? past = some rs)
    (hr : ∀ n ∈ rs.recordedStatus.targets, ¬ n ∈ names →
      Released ⟨key.namespaceName, n⟩ key.name past) :
    (recordOutcome key.namespaceName rs names merged).Guarded (KeepsRecord key) past := by
  refine guarded_ask (fun _ => .of_quiet rfl rfl) fun now => ?_
  refine Guarded.bind ?_ fun _ _ _ =>
    guarded_ask (fun _ => .of_quiet rfl rfl) fun _ => guarded_done _
  unfold recordStatus
  split
  · exact guarded_done _
  refine guarded_ask (fun _ => .of_quiet rfl rfl) fun armed => guarded_ask (fun reply => ?_) ?_
  · -- The write of the status: nothing since the releases looked at a target.
    rw [List.append_assoc]
    constructor
    · rintro u reply' hx
      cases hx
      refine ⟨rs, ?_, rfl, fun n hn hu => ?_⟩
      · rw [workedOn?_append (by simp [Exchange.ruleSet?]), hw]
      · exact (hr n hn hu).append (by simp [Call.fetched?])
    · rintro u reply' hx
      cases hx
    · rintro target ⟨⟩
  · rintro (e | stored)
    · exact guarded_ask (fun _ => .of_quiet rfl rfl) fun _ => guarded_failed _
    · exact guarded_done _

/-- What is carried out releases every recorded target that is not selected, and looks at it no
more. -/
theorem released_of_carryOut {recorded : List String} {names : SortedSet String} {ns : String}
    {τ : List Exchange} {targets : List Pod}
    (h : (carryOut b ns key.name (.ofSelection recorded names)).Ends τ (.ok targets)) :
    ∀ n ∈ recorded, ¬ n ∈ names → Released ⟨ns, n⟩ key.name τ := by
  intro n hn hs
  rcases ends_bind_iff.1 h with ⟨e, -, he⟩ | ⟨⟨⟩, τ₁, τ₂, rfl, h₁, h₂⟩
  · cases he
  refine (released_of_releaseTargets h₁ n (ClaimPlan.mem_release.2 ⟨hn, hs⟩)).append ?_
  intro x hx hf
  obtain ⟨m, hm, hkey⟩ := (asks_claimTargets b ns key.name _ _ _ h₂ x hx).2 _ hf
  cases hkey
  exact hs hm

theorem asks_carryOut (b : RetryBackoff) (ns name : String) (plan : ClaimPlan) :
    (carryOut b ns name plan).AsksTargets fun _ => True :=
  Asks.bind ((asks_releaseTargets b ns name _).mono fun _ _ => trivial) fun _ =>
    (asks_claimTargets b ns name _).mono fun _ _ => trivial

/-- The targets' part of a pass forgets nothing that it has not released. -/
theorem guarded_processTargets (selected : List Pod) (hw : workedOn? past = some rs)
    (hp : ∀ y ∈ past, y.call.forgets = false) :
    (processTargets s key rs selected).Guarded (KeepsRecord key) past := by
  refine Guarded.bind ?_ fun trusted τ₁ h₁ => ?_
  · refine (asks_trustedNames selected ∅).guarded fun _ x ⟨k, v, hx⟩ => ?_
    exact .of_quiet (by rw [hx]; rfl) (by rw [hx]; rfl)
  have trusts : ∀ x ∈ τ₁, x.ruleSet? = none ∧ x.call.forgets = false := by
    intro x hx
    obtain ⟨k, v, hc⟩ := asks_trustedNames selected ∅ _ _ h₁ x hx
    obtain ⟨c, r⟩ := x
    cases hc
    exact ⟨rfl, rfl⟩
  rcases trusted with _ | names
  · exact guarded_done _
  have hp₁ : ∀ y ∈ past ++ τ₁, y.call.forgets = false := by
    intro y hy
    rcases List.mem_append.1 hy with hy | hy
    · exact hp y hy
    · exact (trusts y hy).2
  have hasks := asks_carryOut s.retry key.namespaceName key.name
    (.ofSelection rs.recordedStatus.targets names)
  refine Guarded.bind (hasks.keepsRecord hp₁) fun targets τ₂ h₂ => ?_
  -- The stages neither look at a target nor answer a rule set.
  refine guarded_ask (fun _ => .of_quiet rfl rfl) fun stages =>
    guarded_ask (fun _ => .of_quiet rfl rfl) fun completions => ?_
  refine guarded_recordOutcome _ ?_ fun n hn hs => ?_
  · simp only [List.append_assoc]
    rw [workedOn?_append, hw]
    intro x hx
    simp only [List.mem_append, List.mem_singleton] at hx
    rcases hx with hx | hx | rfl | rfl
    · exact (trusts x hx).1
    · exact Exchange.ruleSet?_eq_none (hasks _ _ h₂ x hx).1
    · rfl
    · rfl
  · have hr := (released_of_carryOut h₂ n hn hs).prepend (past ++ τ₁)
    exact (hr.append (by simp [Call.fetched?])).append (by simp [Call.fetched?])

/-- The finalizer is dropped when all that was recorded has been released. -/
theorem guarded_finishDeletion (hr : past.filterMap Exchange.ruleSet? = [rs])
    (ht : rs.isTerminating = true) (hp : ∀ y ∈ past, y.call.forgets = false) :
    (finishDeletion b rs).Guarded (KeepsRecord key) past := by
  refine Guarded.bind ((asks_releaseTargets b _ _ _).keepsRecord hp) fun v τ h => ?_
  -- All recorded targets are released once the finalizer is looked at.
  have hreleased := released_of_releaseTargets h
  rintro σ res hσ σ₁ x σ₂ rfl
  have hgo : ∀ y ∈ σ₁ ++ x :: σ₂, y.call.letsRuleSetGo = true := asks_letGo b rs _ _ hσ
  have hx := hgo x (by simp)
  constructor
  · rintro u reply rfl
    cases hx
  · rintro u reply rfl -
    refine ⟨rs, ?_, fun n hn => ?_⟩
    · rw [List.append_assoc]
      exact workedOn?_of_isTerminating hr ht
    · refine ((hreleased n hn).prepend past).append fun y hy hf => ?_
      rw [Call.fetched?_of_letsRuleSetGo (hgo y (by simp [hy]))] at hf
      cases hf
  · intro target hf
    rw [Call.fetched?_of_letsRuleSetGo hx] at hf
    cases hf

theorem guarded_afterListing (selected : List Pod) (hr : past.filterMap Exchange.ruleSet? = [rs])
    (hp : ∀ y ∈ past, y.call.forgets = false) :
    (afterListing s key rs selected).Guarded (KeepsRecord key) past := by
  unfold afterListing RuleSet.deletionVerdict
  by_cases ht : rs.isTerminating = true
  · simp only [ht, if_true]
    split
    next h => split at h <;> cases h
    next =>
      split
      · exact (guarded_finishDeletion hr ht hp).bind fun _ _ _ => guarded_done _
      · exact guarded_done _
    next =>
      split
      · exact guarded_ask (fun _ => .of_quiet rfl rfl) fun _ => guarded_done _
      · exact guarded_done _
  · simp only [ht, Bool.false_eq_true, if_false]
    have hasks := asks_holdRuleSet s.retry rs
    refine Guarded.bind ?_ fun held τ h => ?_
    · refine hasks.guarded fun _ x hx => ?_
      have hq := Call.quiet_of_holdsRuleSet hx
      exact .of_quiet hq.1 hq.2
    · refine guarded_processTargets selected (workedOn?_holdRuleSet hr (by simpa using ht) h) ?_
      intro y hy
      rcases List.mem_append.1 hy with hy | hy
      · exact hp y hy
      · exact (Call.quiet_of_holdsRuleSet (hasks _ _ h y hy)).1

/-- No pass forgets a target that it has not released. -/
theorem guarded_reconcile (s : Settings) (key : ObjectKey) :
    (reconcile s key).Guarded (KeepsRecord key) [] := by
  refine guarded_ask (fun _ => .of_quiet rfl rfl) fun r => ?_
  rcases r with (m | m | m) | rs
  · exact guarded_done _
  · exact guarded_failed _
  · exact guarded_failed _
  refine guarded_ask (fun _ => .of_quiet rfl rfl) fun trusted => ?_
  cases trusted with
  | false => exact guarded_done _
  | true =>
    simp only [if_true]
    split
    · exact guarded_failed _
    refine guarded_ask (fun _ => .of_quiet rfl rfl) fun r => ?_
    rcases r with e | selected
    · exact guarded_failed _
    · exact guarded_afterListing selected rfl (by simp [Call.forgets])

end Pass

/-- A recorded target is forgotten only after it was released, and a release that fails ends the
pass with that failure, before anything is forgotten. -/
theorem recorded_target_released_before_forgotten (s : Settings) (key : ObjectKey) :
    (∀ τ res, (reconcile s key).Ends τ res → ∀ past x future, τ = past ++ x :: future →
      KeepsRecord key past x) ∧
    ∀ (pre seg post : List Exchange) (target : ObjectKey) (ruleSet : String) (e : Failure)
      (k : TargetEdit → Pass Outcome) (res : Except Failure Outcome),
      (reconcile s key).Reaches pre
        ((editTarget s.retry target (·.removeOwner ruleSet)).bind k) →
      (editTarget s.retry target (·.removeOwner ruleSet)).Ends seg (.error e) →
      (reconcile s key).Ends (pre ++ seg ++ post) res →
      post = [] ∧ res = .error e ∧ ∀ x ∈ pre ++ seg ++ post, x.call.forgets = false := by
  refine ⟨fun τ res h past x future hτ => ?_, ?_⟩
  · simpa using Pass.guarded_reconcile s key τ res h past x future hτ
  intro pre seg post target ruleSet e k res hreach hseg hend
  have hfail : (reconcile s key).Ends (pre ++ seg) (.error e) :=
    hreach.ends_append_iff.2 (Pass.ends_bind_iff.2 (Or.inl ⟨e, hseg, rfl⟩))
  obtain ⟨rfl, rfl⟩ := hfail.eq_of_append hend
  refine ⟨rfl, rfl, fun x hmem => ?_⟩
  rw [List.append_nil] at hmem
  rcases List.mem_append.1 hmem with hx | hx
  · -- The release begins with a look at its target, behind which nothing was forgotten.
    obtain ⟨next, hedit⟩ := editTarget_eq_ask s.retry target (·.removeOwner ruleSet)
    rw [hedit] at hseg
    obtain ⟨r, rest, rfl, -⟩ := Pass.ends_ask_iff.1 hseg
    exact (Pass.guarded_reconcile s key _ _ hfail pre _ rest rfl).fetch target rfl x
      (by simpa using hx)
  · exact Call.forgets_of_concernsTargets (Pass.asks_editTarget _ _ _ _ _ hseg x hx).1

def deselecting : RuleSet where
  metadata := { (default : Metadata) with
    name := some "r", namespaceName := some "ns", finalizers := some [cleanupFinalizer] }
  spec := default
  status := some { RuleSetStatus.initial with targets := ["p"] }

def emptied (now : Instant) : RuleSet :=
  { deselecting with status := some (statusSnapshot ∅ 0 [] [] now) }

def deselectingStart : List Exchange :=
  [⟨.store (.getRuleSet ⟨"ns", "r"⟩), .ok deselecting⟩, ⟨.trust ⟨"ns", "r"⟩ "", true⟩,
    ⟨.store (.listTargets "ns" default), .ok []⟩]

def refusedRelease : Exchange := ⟨.store (.getTarget ⟨"ns", "p"⟩), .error (.transient "")⟩

def beforeForgetting (now : Instant) : List Exchange :=
  deselectingStart ++ [⟨.store (.getTarget ⟨"ns", "p"⟩), .error (.notFound "")⟩,
    ⟨.stages, []⟩, ⟨.evaluate [] deselecting [], []⟩, ⟨.now, now⟩, ⟨.arm ⟨"ns", "r"⟩ "", ()⟩]

theorem deselected_target_released_before_forgotten :
    KeepsRecord ⟨"ns", "r"⟩ (beforeForgetting default)
        ⟨.store (.updateStatus (emptied default)), .ok (emptied default)⟩ ∧
      ∀ x ∈ deselectingStart ++ [refusedRelease], x.call.forgets = false := by
  have hends : (reconcile .standard ⟨"ns", "r"⟩).Ends
      (beforeForgetting default ++
        [⟨.store (.updateStatus (emptied default)), .ok (emptied default)⟩,
          ⟨.notify "ns" [] [], ()⟩]) (.ok .done) :=
    .ask _ (.ask _ (.ask _ (.ask _ (.ask _ (.ask _ (.ask _ (.ask _ (.ask _ (.ask _
      (.done _))))))))))
  have hrefused : (reconcile .standard ⟨"ns", "r"⟩).Ends (deselectingStart ++ [refusedRelease])
      (.error (.store (.transient ""))) :=
    .ask _ (.ask _ (.ask _ (.ask _ (.failed _))))
  obtain ⟨k, hreach⟩ : ∃ k, (reconcile .standard ⟨"ns", "r"⟩).Reaches deselectingStart
      ((editTarget .standard ⟨"ns", "p"⟩ (·.removeOwner "r")).bind k) := by
    refine ⟨?k, .ask _ (.ask _ (.ask _ ?_))⟩
    rotate_left
    · change Pass.Reaches ((((editTarget _ _ _).bind _).bind _).bind _) [] _
      rw [Pass.bind_assoc, Pass.bind_assoc]
      exact .here _
  constructor
  · exact (recorded_target_released_before_forgotten .standard ⟨"ns", "r"⟩).1 _ _ hends _ _ _ rfl
  · have h := (recorded_target_released_before_forgotten .standard ⟨"ns", "r"⟩).2 deselectingStart
      [refusedRelease] [] ⟨"ns", "p"⟩ "r" _ _ _ hreach (.ask _ (.failed _)) hrefused
    exact h.2.2

end PodRules
