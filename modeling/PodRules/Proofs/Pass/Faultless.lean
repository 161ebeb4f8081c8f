import PodRules.Proofs.Pass.Accounts
import PodRules.Proofs.Pass.Frame

namespace PodRules

def noFailure (_ : StoreError) : Prop := False

namespace Cluster

variable {s t u : Cluster} {τ : List Exchange} {key : ObjectKey} {rs : RuleSet}

theorem isNotFound_of_noFailure (e : StoreError) (h : noFailure e) : e.isNotFound = false :=
  h.elim

/-- Without a reason to fail, a retried attempt is made once and has its effect. -/
theorem ends_once_of_retry {α : Type} {mayFail : StoreError → Prop} {b : RetryBackoff}
    {attempt : Pass (Except StoreError α)}
    {effect : Cluster → List StoreCall → Cluster → α → Prop} {reason : Cluster → Prop}
    {res : Except Failure α}
    (hattempt : ∀ s τ t res, s.WellKeyed → attempt.Ends τ res → Serves mayFail s τ t →
      ∃ o, res = .ok o ∧ Atomic (effect s) (reason s) s (writes τ) t o)
    (hreason : ¬ reason s) (hw : s.WellKeyed) (h : (Pass.retry b key attempt).Ends τ res)
    (hs : Serves mayFail s τ t) :
    ∃ v, res = .ok v ∧ attempt.Ends τ (.ok (.ok v)) ∧ effect s (writes τ) t v := by
  -- An attempt that comes to an error has a reason for it.
  have hok {σ : List Exchange} {u : Cluster} {e : StoreError}
      (h : attempt.Ends σ (.ok (.error e))) (hs : Serves mayFail s σ u) : False := by
    obtain ⟨o, ho, ha⟩ := hattempt _ _ _ _ hw h hs
    cases ho
    rcases ha with ⟨v, hv, -⟩ | ⟨-, -, -, hr⟩
    · cases hv
    · exact hreason hr
  obtain ⟨before, last, rfl, hb, hl⟩ := h.retry
  cases hb with
  | wait span hc hrest =>
    rw [List.append_assoc] at hs
    obtain ⟨u, hs₁, -⟩ := serves_append_iff.1 hs
    exact (hok hc hs₁).elim
  | nil =>
    rw [List.nil_append] at hs ⊢
    cases hl with
    | value v hv =>
      obtain ⟨o, ho, ha⟩ := hattempt _ _ _ _ hw hv hs
      cases ho
      rcases ha with ⟨w, hvw, heff⟩ | ⟨⟨e, he⟩, -⟩
      · cases hvw
        exact ⟨v, rfl, hv, heff⟩
      · cases he
    | refused e _ he => exact (hok he hs).elim
    | exhausted m he => exact (hok he hs).elim
    | broken e he =>
      obtain ⟨o, ho, -⟩ := hattempt _ _ _ _ hw he hs
      cases ho

/-! ## Releases and claims -/

theorem editTarget_of_served {b : RetryBackoff} {edit : Pod → Pod × Bool}
    (hedit : KeepsIdentity edit) {res : Except Failure TargetEdit} (hw : s.WellKeyed)
    (h : (editTarget b key edit).Ends τ res) (hs : Serves noFailure s τ t) :
    ∃ w, res = .ok w ∧ EditAttempt key edit τ (.ok w) ∧
      EditEffect key edit s (writes τ) t w := by
  obtain ⟨w, rfl, hends, heff⟩ := ends_once_of_retry
    (fun _ _ _ _ hw h hs => atomic_editOnce isNotFound_of_noFailure hedit hw h hs)
    (fun hr => hr.elim fun _ he => he) hw h hs
  obtain ⟨o, ho, ha⟩ := ends_editOnce hends
  cases ho
  exact ⟨w, rfl, ha, heff⟩

theorem ok_of_releaseTargets {b : RetryBackoff} {ns owner : String} {names : List String}
    {res : Except Failure Unit} (hw : s.WellKeyed)
    (h : (releaseTargets b ns owner names).Ends τ res) (hs : Serves noFailure s τ t) :
    res = .ok () := by
  induction names generalizing s τ with
  | nil => exact (Pass.ends_done_iff.1 h).2
  | cons name names ih =>
    rcases serves_bind h hs with ⟨e, he, -⟩ | ⟨w, τ₁, τ₂, u, rfl, h₁, hs₁, h₂, hs₂⟩
    · obtain ⟨w, hw', -⟩ := editTarget_of_served (keepsIdentity_removeOwner owner) hw he hs
      cases hw'
    · exact ih (hs₁.wellKeyed hw) h₂ hs₂

/-- Releases take one name from some pods and no other name from any. -/
theorem owns_releaseTargets {b : RetryBackoff} {ns owner : String} {names : List String}
    {res : Except Failure Unit} (hw : s.WellKeyed)
    (h : (releaseTargets b ns owner names).Ends τ res) (hs : Serves noFailure s τ t)
    (r : String) (k : ObjectKey) :
    t.Owns r k ↔ s.Owns r k ∧ ¬ (r = owner ∧ ∃ n ∈ names, k = ⟨ns, n⟩) := by
  obtain ⟨hrel, hno⟩ := releases_of_releaseTargets isNotFound_of_noFailure hw h hs
  have hres := ok_of_releaseTargets hw h hs
  constructor
  · intro ho
    refine ⟨hrel.owns_of_owns r k ho, ?_⟩
    rintro ⟨rfl, n, hn, rfl⟩
    exact hno hres n hn ho
  · rintro ⟨ho, hnot⟩
    exact (hrel.owns_or r k ho).resolve_right hnot

/-- What a claim of one pod does: the pod names the owner if it is there. -/
theorem owns_of_editEffect {owner : String} {ws : List StoreCall} {w : TargetEdit}
    (hw : s.WellKeyed) (h : EditEffect key (·.addOwner owner) s ws t w) (r : String)
    (k : ObjectKey) :
    t.Owns r k ↔ s.Owns r k ∨ (r = owner ∧ k = key ∧ (s.pods.get? k).isSome = true) := by
  cases h with
  | absent hp =>
    refine (or_iff_left ?_).symm
    rintro ⟨-, rfl, hsome⟩
    rw [hp] at hsome
    cases hsome
  | unchanged p hp hc =>
    refine (or_iff_left_of_imp ?_).symm
    rintro ⟨rfl, rfl, -⟩
    exact (owns_of_get? hp r).2 (Pod.addOwner_unchanged hc).2
  | written p hp hc =>
    rw [owns_replacePod, Pod.key_addOwner, hw.pod key p hp]
    split
    next hk =>
      rw [hk, owns_of_get? hp, Pod.mem_owners_addOwner, hp, or_comm]
      simp
    next hk => exact (or_iff_left fun hright => hk hright.2.1).symm

/-- On a store without faults a claim succeeds, and adds the owner to the pod if that is there. -/
theorem claimTarget_of_served {b : RetryBackoff} {name : String}
    {res : Except Failure (Option Pod)} (hw : s.WellKeyed)
    (h : (claimTarget b key.namespaceName key.name name).Ends τ res)
    (hs : Serves noFailure s τ t) :
    (∃ pod, res = .ok pod) ∧ ∀ r k, t.Owns r k ↔
      s.Owns r k ∨ (r = key.name ∧ k = ⟨key.namespaceName, name⟩ ∧
        (s.pods.get? k).isSome = true) := by
  rcases serves_bind h hs with ⟨e, he, -⟩ | ⟨w, τ₁, τ₂, u, rfl, h₁, hs₁, h₂, hs₂⟩
  · obtain ⟨w, hw', -⟩ := editTarget_of_served (keepsIdentity_addOwner key.name) hw he hs
    cases hw'
  obtain ⟨w', he, -, heff⟩ := editTarget_of_served (keepsIdentity_addOwner key.name) hw h₁ hs₁
  cases he
  -- Arming the expectation is no call of the store.
  suffices hrest : (∃ pod, res = .ok pod) ∧ t = u by
    rw [hrest.2]
    exact ⟨hrest.1, owns_of_editEffect hw heff⟩
  cases w with
  | written base pod =>
    obtain ⟨r, rest, rfl, hd⟩ := Pass.ends_ask_iff.1 h₂
    obtain ⟨rfl, rfl⟩ := Pass.ends_done_iff.1 hd
    rw [serves_aside_iff (by rintro c ⟨⟩)] at hs₂
    exact ⟨⟨_, rfl⟩, serves_nil_iff.1 hs₂⟩
  | unchanged pod =>
    obtain ⟨rfl, rfl⟩ := Pass.ends_done_iff.1 h₂
    exact ⟨⟨_, rfl⟩, serves_nil_iff.1 hs₂⟩
  | gone =>
    obtain ⟨rfl, rfl⟩ := Pass.ends_done_iff.1 h₂
    exact ⟨⟨_, rfl⟩, serves_nil_iff.1 hs₂⟩

/-- Claims add one name to those of some pods that are there, and no other name to any. -/
theorem claimTargets_of_served {b : RetryBackoff} {names : List String}
    {res : Except Failure (List Pod)} (hw : s.WellKeyed)
    (h : (claimTargets b key.namespaceName key.name names).Ends τ res)
    (hs : Serves noFailure s τ t) :
    (∃ pods, res = .ok pods) ∧ ∀ r k, t.Owns r k ↔
      s.Owns r k ∨ (r = key.name ∧ (∃ n ∈ names, k = ⟨key.namespaceName, n⟩) ∧
        (s.pods.get? k).isSome = true) := by
  -- On the names, from any state: no claim removes a pod, so each is there at its turn.
  induction names generalizing s τ res with
  | nil =>
    obtain ⟨rfl, rfl⟩ := Pass.ends_done_iff.1 h
    obtain rfl := serves_nil_iff.1 hs
    exact ⟨⟨_, rfl⟩, by simp⟩
  | cons name names ih =>
    rcases serves_bind h hs with ⟨e, he, -⟩ | ⟨w, τ₁, τ₂, u, rfl, h₁, hs₁, h₂, hs₂⟩
    · obtain ⟨⟨pod, hpod⟩, -⟩ := claimTarget_of_served hw he hs
      cases hpod
    have hw' := hs₁.wellKeyed hw
    have hhead := (claimTarget_of_served hw h₁ hs₁).2
    have hpods := (frames_claimTarget isNotFound_of_noFailure b name s τ₁ u _ hw h₁ hs₁).samePods
    have hsome (k : ObjectKey) : (u.pods.get? k).isSome = (s.pods.get? k).isSome := by
      rw [← Option.isSome_map (f := Pod.bare), hpods k, Option.isSome_map]
    rcases serves_bind h₂ hs₂ with ⟨e, he, -⟩ | ⟨pods, σ₁, σ₂, v, rfl, h₃, hs₃, h₄, hs₄⟩
    · obtain ⟨⟨pods, hpods⟩, -⟩ := ih hw' he hs₂
      cases hpods
    obtain ⟨rfl, rfl⟩ := Pass.ends_done_iff.1 h₄
    obtain rfl := serves_nil_iff.1 hs₄
    refine ⟨⟨_, rfl⟩, fun r k => ?_⟩
    rw [(ih hw' h₃ hs₃).2, hhead, hsome]
    simp only [List.mem_cons, or_and_right, and_or_left, exists_or, exists_eq_left, or_assoc]

/-- Carrying out the plan of a selection: every selected pod that is there names the owner, and so
does every other one that named it without being recorded. -/
theorem carryOut_of_served {b : RetryBackoff} {record : List String}
    {selected : SortedSet String} {res : Except Failure (List Pod)} (hw : s.WellKeyed)
    (h : (carryOut b key.namespaceName key.name (.ofSelection record selected)).Ends τ res)
    (hs : Serves noFailure s τ t) :
    (∃ targets, res = .ok targets) ∧ t.ruleSets = s.ruleSets ∧ SamePods s t ∧
      ∀ n, t.Owns key.name ⟨key.namespaceName, n⟩ ↔
        (n ∈ selected ∧ (s.pods.get? ⟨key.namespaceName, n⟩).isSome = true) ∨
          (s.Owns key.name ⟨key.namespaceName, n⟩ ∧ (n ∈ record → n ∈ selected)) := by
  rcases serves_bind h hs with ⟨e, he, -⟩ | ⟨⟨⟩, τ₁, τ₂, u, rfl, h₁, hs₁, h₂, hs₂⟩
  · cases ok_of_releaseTargets hw he hs
  have hw' := hs₁.wellKeyed hw
  obtain ⟨hrel, -⟩ := releases_of_releaseTargets isNotFound_of_noFailure hw h₁ hs₁
  have hreleased := owns_releaseTargets hw h₁ hs₁ key.name
  have hpods₁ :=
    (frames_releaseTargets isNotFound_of_noFailure b _ s τ₁ u _ hw h₁ hs₁).samePods
  have hadds := adds_of_claimTargets isNotFound_of_noFailure hw' h₂ hs₂
  have hpods₂ :=
    (frames_claimTargets isNotFound_of_noFailure b _ u τ₂ t _ hw' h₂ hs₂).samePods
  obtain ⟨hok, hclaimed⟩ := claimTargets_of_served hw' h₂ hs₂
  refine ⟨hok, hadds.ruleSets.trans hrel.ruleSets, hpods₁.trans hpods₂, fun n => ?_⟩
  have hsome : (u.pods.get? ⟨key.namespaceName, n⟩).isSome =
      (s.pods.get? ⟨key.namespaceName, n⟩).isSome := by
    rw [← Option.isSome_map (f := Pod.bare), hpods₁, Option.isSome_map]
  -- A recorded pod is released unless it is selected, and every selected one is claimed.
  have hrelease : (∃ m ∈ (ClaimPlan.ofSelection record selected).release,
      (⟨key.namespaceName, n⟩ : ObjectKey) = ⟨key.namespaceName, m⟩) ↔
        ¬ (n ∈ record → n ∈ selected) := by
    rw [Classical.not_imp]
    constructor
    · rintro ⟨m, hm, hkey⟩
      cases hkey
      exact ClaimPlan.mem_release.1 hm
    · exact fun hn => ⟨n, ClaimPlan.mem_release.2 hn, rfl⟩
  have hclaim : (∃ m ∈ (ClaimPlan.ofSelection record selected).claim,
      (⟨key.namespaceName, n⟩ : ObjectKey) = ⟨key.namespaceName, m⟩) ↔ n ∈ selected := by
    constructor
    · rintro ⟨m, hm, hkey⟩
      cases hkey
      exact hm
    · exact fun hn => ⟨n, hn, rfl⟩
  rw [hclaimed, hreleased, hclaim, hrelease, hsome, or_comm, Classical.not_and_iff_not_or_not]
  simp

/-! ## The writes of the rule set -/

/-- Holding a rule set that is stored gives it back as it is stored afterwards, with the finalizer
added if it lacked it. -/
theorem holdRuleSet_of_served {b : RetryBackoff} {res : Except Failure RuleSet}
    (hw : s.WellKeyed) (hrs : s.ruleSets.get? rs.key = some rs)
    (h : (holdRuleSet b rs).Ends τ res) (hs : Serves noFailure s τ t) :
    ∃ held, res = .ok held ∧ t.ruleSets.get? rs.key = some held ∧ t.pods = s.pods ∧
      held.isHeld = true ∧ (held = rs ∨ ∃ v, held = rs.addFinalizer.atVersion v) := by
  have hholds := holds_of_holdRuleSet hw hrs h hs
  by_cases hh : rs.isHeld = true
  · rw [holdRuleSet, if_pos hh] at h
    obtain ⟨rfl, rfl⟩ := Pass.ends_done_iff.1 h
    obtain rfl := serves_nil_iff.1 hs
    exact ⟨rs, rfl, hrs, rfl, hh, Or.inl rfl⟩
  · rw [holdRuleSet, if_neg hh] at h
    have hstays : ¬ (s.ruleSets.get? rs.key = none ∨ ∃ e, noFailure e) := by
      rintro (hnone | ⟨e, he⟩)
      · cases hrs.symm.trans hnone
      · exact he
    obtain ⟨held, rfl, -, heff⟩ := ends_once_of_retry
      (fun _ _ _ _ hw h hs => atomic_holdOnce hw h hs) hstays hw h hs
    obtain ⟨hstored, -, hheld, -⟩ := hholds.stored held rfl
    refine ⟨held, rfl, hstored, hholds.pods, hheld, Or.inr ⟨s.nextVersion, ?_⟩⟩
    generalize writes τ = ws at heff
    cases heff with
    | held _ hv hhas =>
      cases hrs.symm.trans hv
      exact absurd hhas hh
    | written _ hv _ =>
      cases hrs.symm.trans hv
      exact (get?_replaceRuleSet_of_isHeld s rs rs.isHeld_addFinalizer).2

/-- Letting a stored rule set go takes the finalizer, and removes the rule set if that was the last
one of a deletion. -/
theorem letGo_of_served {b : RetryBackoff} {res : Except Failure Unit} (hw : s.WellKeyed)
    (hrs : s.ruleSets.get? rs.key = some rs) (hh : rs.isHeld = true)
    (h : (letGo b rs).Ends τ res) (hs : Serves noFailure s τ t) :
    res = .ok () ∧ t = (s.replaceRuleSet rs rs.dropFinalizer).2 := by
  obtain ⟨⟨⟩, rfl, -, heff⟩ := ends_once_of_retry
    (fun _ _ _ _ hw h hs => atomic_letGoOnce isNotFound_of_noFailure hw h hs)
    (fun hr => hr.elim fun _ he => he) hw h hs
  refine ⟨rfl, ?_⟩
  generalize writes τ = ws at heff
  cases heff with
  | free hfree =>
    rw [hfree rs hrs] at hh
    cases hh
  | written stored hv _ =>
    cases hrs.symm.trans hv
    rfl

/-- On a store without faults the status is recorded, or was the same but for its time. -/
theorem recordStatus_of_served {next : RuleSetStatus} {res : Except Failure StatusRecord}
    (hrs : s.ruleSets.get? rs.key = some rs) (h : (recordStatus rs next).Ends τ res)
    (hs : Serves noFailure s τ t) :
    (∃ w, res = .ok w) ∧ t.pods = s.pods ∧
      ∃ stored, t.ruleSets.get? rs.key = some stored ∧
        stored.recordedStatus.equalButTime next = true ∧
        (stored = rs ∨ ∃ v, stored = { rs with status := some next }.atVersion v) := by
  unfold recordStatus at h
  split at h
  next heq =>
    obtain ⟨rfl, rfl⟩ := Pass.ends_done_iff.1 h
    obtain rfl := serves_nil_iff.1 hs
    exact ⟨⟨_, rfl⟩, rfl, rs, hrs, heq, Or.inl rfl⟩
  next =>
    obtain ⟨armed, rest, rfl, h₁⟩ := Pass.ends_ask_iff.1 h
    rw [serves_aside_iff (by rintro c ⟨⟩)] at hs
    obtain ⟨r, rest, rfl, h₂⟩ := Pass.ends_ask_iff.1 h₁
    have hkey : s.ruleSets.get? ({ rs with status := some next } : RuleSet).key = some rs := hrs
    rcases serves_updateStatus hkey rfl hs with ⟨rfl, hs'⟩ | ⟨e, he, -, -⟩
    · obtain ⟨rfl, rfl⟩ := Pass.ends_done_iff.1 h₂
      obtain rfl := serves_nil_iff.1 hs'
      have hget := get?_replaceStatus s rs { rs with status := some next }
      exact ⟨⟨_, rfl⟩, rfl, _, hget, RuleSetStatus.equalButTime_iff.2 rfl, Or.inr ⟨_, rfl⟩⟩
    · exact he.elim

theorem recordOutcome_of_served {ns : String} {names : SortedSet String}
    {merged : PipelineResult} {res : Except Failure Outcome}
    (hrs : s.ruleSets.get? rs.key = some rs)
    (h : (recordOutcome ns rs names merged).Ends τ res) (hs : Serves noFailure s τ t) :
    (∃ o, res = .ok o) ∧ t.pods = s.pods ∧
      ∃ stored now, t.ruleSets.get? rs.key = some stored ∧
        stored.recordedStatus.equalButTime (statusSnapshot names
          (rs.metadata.generation.getD 0) merged.details.values merged.ruleStates now) = true ∧
        stored.spec = rs.spec ∧ stored.metadata.atVersion "" = rs.metadata.atVersion "" := by
  obtain ⟨now, rest, rfl, h₁⟩ := Pass.ends_ask_iff.1 h
  rw [serves_aside_iff (by rintro c ⟨⟩)] at hs
  rcases serves_bind h₁ hs with ⟨e, he, -⟩ | ⟨w, τ₁, τ₂, u, rfl, h₂, hs₂, h₃, hs₃⟩
  · obtain ⟨⟨w, hw⟩, -⟩ := recordStatus_of_served hrs he hs
    cases hw
  obtain ⟨-, hpods, stored, hget, heq, hstored⟩ := recordStatus_of_served hrs h₂ hs₂
  obtain ⟨told, rest, rfl, h₄⟩ := Pass.ends_ask_iff.1 h₃
  obtain ⟨rfl, rfl⟩ := Pass.ends_done_iff.1 h₄
  rw [serves_aside_iff (by rintro c ⟨⟩)] at hs₃
  obtain rfl := serves_nil_iff.1 hs₃
  refine ⟨⟨_, rfl⟩, hpods, stored, now, hget, heq, ?_⟩
  rcases hstored with rfl | ⟨v, rfl⟩
  · exact ⟨rfl, rfl⟩
  · exact ⟨rfl, rfl⟩

/-! ## The whole pass -/

/-- The stored rule set is what a pass with these outcomes leaves: its targets are the selected
pods, all of which name it, and its status says so. -/
structure UpToDate (key : ObjectKey) (merged : PipelineResult) (s : Cluster) (rs : RuleSet) :
    Prop where
  stored : s.ruleSets.get? key = some rs
  held : rs.isHeld = true
  active : rs.isTerminating = false
  owned : ∀ n, s.Selects key.namespaceName rs.spec.selector n →
    s.Owns key.name ⟨key.namespaceName, n⟩
  status : ∃ names now, (∀ n, n ∈ names ↔ s.Selects key.namespaceName rs.spec.selector n) ∧
    rs.recordedStatus.equalButTime (statusSnapshot names (rs.metadata.generation.getD 0)
      merged.details.values merged.ruleStates now) = true

/-- The recorded targets of a rule set are released and its finalizer is taken; it is gone if that
was the last thing that held it. -/
structure DeletionDone (key : ObjectKey) (rs : RuleSet) (s t : Cluster) : Prop where
  samePods : SamePods s t
  owns_iff : ∀ r k, t.Owns r k ↔ s.Owns r k ∧
    ¬ (r = key.name ∧ ∃ n ∈ rs.recordedStatus.targets, k = ⟨key.namespaceName, n⟩)
  ruleSet : ∃ v, t.ruleSets.get? key =
    if rs.dropFinalizer.metadata.isFinished then none else some (rs.dropFinalizer.atVersion v)

inductive Idle (key : ObjectKey) (s : Cluster) (τ : List Exchange) :
    Except Failure Outcome → Prop
  | absent (h : s.ruleSets.get? key = none) : Idle key s τ (.ok .done)
  | stale (v : String) (hτ : ⟨.trust key v, false⟩ ∈ τ) : Idle key s τ (.ok .done)
  | invalid (rs : RuleSet) (h : s.ruleSets.get? key = some rs) (e : SelectorError)
      (he : rs.spec.selector.query? = .error e) :
      Idle key s τ (.error (.invalidSelector key e))
  | waiting (rs : RuleSet) (h : s.ruleSets.get? key = some rs) (running : Nat)
      (hv : rs.deletionVerdict (s.list key.namespaceName rs.spec.selector) = .blocked running)
      (o : Outcome) : Idle key s τ (.ok o)
  | free (rs : RuleSet) (h : s.ruleSets.get? key = some rs) (ht : rs.isTerminating = true)
      (hh : rs.isHeld = false) : Idle key s τ (.ok .done)

/-- All that a pass does that a store serves without a failure. -/
inductive FaultlessPass (key : ObjectKey) (s : Cluster) :
    List Exchange → Cluster → Except Failure Outcome → Prop
  | idle {τ : List Exchange} {res : Except Failure Outcome} (why : Idle key s τ res)
      (hn : ∀ x ∈ τ, x.call.evaluates = false) : FaultlessPass key s τ s res
  /-- The view of a target is stale; until then the rule set was made sure of. -/
  | staleTarget {τ : List Exchange} {t : Cluster} (rs held : RuleSet)
      (h : s.ruleSets.get? key = some rs) (ha : rs.isTerminating = false)
      (ht : t.ruleSets.get? key = some held) (hh : held.isHeld = true)
      (hr : held.recordedStatus = rs.recordedStatus) (hp : t.pods = s.pods)
      (hτ : ∃ k v, ⟨.trust k v, false⟩ ∈ τ) (hn : ∀ x ∈ τ, x.call.evaluates = false) :
      FaultlessPass key s τ t (.ok .done)
  | deleted {τ : List Exchange} {t : Cluster} (rs : RuleSet)
      (h : s.ruleSets.get? key = some rs) (ht : rs.isTerminating = true)
      (hh : rs.isHeld = true) (hd : DeletionDone key rs s t)
      (hn : ∀ x ∈ τ, x.call.evaluates = false) : FaultlessPass key s τ t (.ok .done)
  | recorded {τ : List Exchange} {t : Cluster} (rs stored evaluated : RuleSet)
      (stages : List String) (targets : List Pod) (completions : List Completion) (o : Outcome)
      (h : s.ruleSets.get? key = some rs) (ha : rs.isTerminating = false)
      (he : ⟨.evaluate stages evaluated targets, completions⟩ ∈ τ)
      (hu : UpToDate key (Completion.combine completions) t stored)
      (ho : ∀ n, t.Owns key.name ⟨key.namespaceName, n⟩ →
        t.Selects key.namespaceName stored.spec.selector n ∨ s.Unrecorded key n) :
      FaultlessPass key s τ t (.ok o)

/-- On a store without faults, working through the selected targets brings the rule set up to
date. -/
theorem upToDate_of_served {settings : Settings} {held : RuleSet}
    {selection : SortedSet String} {res : Except Failure Outcome} (hw : s.WellKeyed)
    (hrs : s.ruleSets.get? key = some held) (hkey : held.key = key) (hh : held.isHeld = true)
    (ha : held.isTerminating = false)
    (hnames : ∀ n, n ∈ selection ↔ s.Selects key.namespaceName held.spec.selector n)
    (h : ((carryOut settings.retry key.namespaceName key.name
        (.ofSelection held.recordedStatus.targets selection)).bind fun targets =>
      (evaluateStages held targets).bind fun merged =>
      recordOutcome key.namespaceName held selection merged).Ends τ res)
    (hs : Serves noFailure s τ t) :
    ∃ stored stages targets completions o, res = .ok o ∧
      ⟨.evaluate stages held targets, completions⟩ ∈ τ ∧
      UpToDate key (Completion.combine completions) t stored ∧
      ∀ n, t.Owns key.name ⟨key.namespaceName, n⟩ →
        t.Selects key.namespaceName stored.spec.selector n ∨ s.Unrecorded key n := by
  rcases serves_bind h hs with ⟨e, he, -⟩ | ⟨targets, τ₁, τ₂, u, rfl, h₁, hs₁, h₂, hs₂⟩
  · obtain ⟨⟨targets, htargets⟩, -⟩ := carryOut_of_served hw he hs
    cases htargets
  obtain ⟨-, hruleSets, hpods₁, howns⟩ := carryOut_of_served hw h₁ hs₁
  obtain ⟨stages, rest, rfl, h₃⟩ := Pass.ends_ask_iff.1 h₂
  obtain ⟨completions, rest, rfl, h₄⟩ := Pass.ends_ask_iff.1 h₃
  rw [serves_aside_iff (by rintro c ⟨⟩), serves_aside_iff (by rintro c ⟨⟩)] at hs₂
  have hstored : u.ruleSets.get? held.key = some held := by rwa [hruleSets, hkey]
  obtain ⟨⟨o, rfl⟩, hpods₂, stored, now, hget, hstatus, hspec, hmeta⟩ :=
    recordOutcome_of_served hstored h₄ hs₂
  rw [hkey] at hget
  -- All but the status and the version of the rule set is as it was held.
  have hfinalizers : stored.metadata.finalizers = held.metadata.finalizers :=
    (congrArg Metadata.finalizers hmeta : _)
  have hdeletion : stored.metadata.deletionTimestamp = held.metadata.deletionTimestamp :=
    (congrArg Metadata.deletionTimestamp hmeta : _)
  have hgeneration : stored.metadata.generation = held.metadata.generation :=
    (congrArg Metadata.generation hmeta : _)
  have hpods : SamePods s t := hpods₁.trans (.of_eq hpods₂)
  have hselects (n : String) : t.Selects key.namespaceName stored.spec.selector n ↔
      n ∈ selection := by
    rw [hspec, hpods.selects_iff, hnames]
  refine ⟨stored, stages, targets, completions, o, rfl, by simp, ⟨hget, ?_, ?_, ?_, ?_⟩, ?_⟩
  · rw [RuleSet.isHeld, RuleSet.carries, Metadata.finalizerList, hfinalizers]
    exact hh
  · rw [RuleSet.isTerminating, Metadata.isTerminating, hdeletion]
    exact ha
  · intro n hn
    have hsel := (hselects n).1 hn
    obtain ⟨p, hp, -⟩ := (hnames n).1 hsel
    rw [owns_congr hpods₂, howns]
    exact Or.inl ⟨hsel, by rw [hp]; rfl⟩
  · refine ⟨selection, now, fun n => (hselects n).symm, ?_⟩
    rw [hgeneration]
    exact hstatus
  · intro n hn
    rw [owns_congr hpods₂, howns] at hn
    rcases hn with ⟨hsel, -⟩ | ⟨ho, hkept⟩
    · exact Or.inl ((hselects n).2 hsel)
    · -- A pod that kept its owner is selected, or it was not recorded.
      by_cases hsel : n ∈ selection
      · exact Or.inl ((hselects n).2 hsel)
      · refine Or.inr ⟨ho, fun hrec => hsel (hkept ?_)⟩
        rwa [recorded_of_get? hrs] at hrec

/-- On a store without faults the deletion is finished. -/
theorem deletionDone_of_served {b : RetryBackoff} {res : Except Failure Unit} (hw : s.WellKeyed)
    (hrs : s.ruleSets.get? key = some rs) (hkey : rs.key = key) (hh : rs.isHeld = true)
    (h : (finishDeletion b rs).Ends τ res) (hs : Serves noFailure s τ t) :
    res = .ok () ∧ DeletionDone key rs s t := by
  rw [finishDeletion, hkey] at h
  rcases serves_bind h hs with ⟨e, he, -⟩ | ⟨⟨⟩, τ₁, τ₂, u, rfl, h₁, hs₁, h₂, hs₂⟩
  · cases ok_of_releaseTargets hw he hs
  obtain ⟨hrel, -⟩ := releases_of_releaseTargets isNotFound_of_noFailure hw h₁ hs₁
  have hstored : u.ruleSets.get? rs.key = some rs := by rwa [hrel.ruleSets, hkey]
  obtain ⟨rfl, rfl⟩ := letGo_of_served (hs₁.wellKeyed hw) hstored hh h₂ hs₂
  have hpods := pods_replaceRuleSet u rs rs.dropFinalizer
  refine ⟨rfl, ?_, fun r k => ?_, u.nextVersion, ?_⟩
  · have hframe :=
      frames_releaseTargets isNotFound_of_noFailure b _ s τ₁ u _ hw h₁ hs₁
    exact hframe.samePods.trans (.of_eq hpods)
  · rw [owns_congr hpods, owns_releaseTargets hw h₁ hs₁]
  · rw [← hkey]
    exact get?_replaceRuleSet u rs rs.dropFinalizer

/-- The looks at the targets end with all names, or at the first view that is refused. -/
theorem trusts_of_trustedNames {pods : List Pod} {names : SortedSet String}
    {res : Except Failure (Option (SortedSet String))} (h : (trustedNames pods names).Ends τ res) :
    (∃ all, res = .ok (some all)) ∨ (res = .ok none ∧ ∃ k v, ⟨.trust k v, false⟩ ∈ τ) := by
  rcases ends_trustedNames h with ⟨all, hres, -⟩ | ⟨hres, before, pod, after, -, rfl⟩
  · exact Or.inl ⟨all, hres⟩
  · exact Or.inr ⟨hres, pod.key, pod.version, by simp⟩

theorem faultlessPass_of_active {settings : Settings} {res : Except Failure Outcome}
    (hw : s.WellKeyed) (hrs : s.ruleSets.get? key = some rs) (ha : rs.isTerminating = false)
    (h : ((holdRuleSet settings.retry rs).bind fun held => processTargets settings key held
      (s.list key.namespaceName rs.spec.selector)).Ends τ res)
    (hs : Serves noFailure s τ t) : FaultlessPass key s τ t res := by
  have hkey := hw.ruleSet _ _ hrs
  have hrs' : s.ruleSets.get? rs.key = some rs := by rwa [hkey]
  rcases serves_bind h hs with ⟨e, he, -⟩ | ⟨held, τ₁, τ₂, u, rfl, h₁, hs₁, h₂, hs₂⟩
  · obtain ⟨held, hheld, -⟩ := holdRuleSet_of_served hw hrs' he hs
    cases hheld
  obtain ⟨held', he, hget, hpods, hh, hsame⟩ := holdRuleSet_of_served hw hrs' h₁ hs₁
  cases he
  rw [hkey] at hget
  have hw' := hs₁.wellKeyed hw
  -- But for its finalizers and its version the held rule set is the one that was read.
  have hspec : held.spec = rs.spec := by rcases hsame with rfl | ⟨v, rfl⟩ <;> rfl
  have hstatus : held.status = rs.status := by rcases hsame with rfl | ⟨v, rfl⟩ <;> rfl
  have hactive : held.isTerminating = false := by rcases hsame with rfl | ⟨v, rfl⟩ <;> exact ha
  rcases serves_bind h₂ hs₂ with ⟨e, he, -⟩ | ⟨trusted, σ₁, σ₂, v, rfl, h₃, hs₃, h₄, hs₄⟩
  · rcases trusts_of_trustedNames he with ⟨all, hall⟩ | ⟨hnone, -⟩
    · cases hall
    · cases hnone
  obtain ⟨haside, -, hquiet⟩ := quiet_of_trusts h₃
  obtain rfl := hs₃.eq_of_aside haside
  cases trusted with
  | none =>
    obtain ⟨rfl, rfl⟩ := Pass.ends_done_iff.1 h₄
    obtain rfl := serves_nil_iff.1 hs₄
    obtain ⟨all, hall⟩ | ⟨-, k, ver, hkv⟩ := trusts_of_trustedNames h₃
    · cases hall
    refine .staleTarget rs held hrs ha hget hh (by simp [RuleSet.recordedStatus, hstatus]) hpods
      ⟨k, ver, by simp [hkv]⟩ fun x hx => ?_
    rcases List.mem_append.1 hx with hx | hx
    · exact evaluates_of_holdRuleSet h₁ x hx
    · exact hquiet x (by simpa using hx)
  | some names =>
    have hnames (n : String) :
        n ∈ names ↔ v.Selects key.namespaceName held.spec.selector n := by
      rw [mem_of_trustedNames h₃, names_list hw, hspec, (SamePods.of_eq hpods).selects_iff]
      exact or_iff_right SortedSet.not_mem_empty
    obtain ⟨stored, stages, targets, completions, o, rfl, hev, hup, howns⟩ :=
      upToDate_of_served hw' hget (hw'.ruleSet _ _ hget) hh hactive hnames h₄ hs₄
    refine .recorded rs stored held stages targets completions o hrs ha (by simp [hev]) hup
      fun n hn => (howns n hn).imp_right ?_
    -- Until the targets were worked on neither the pods nor the record had changed.
    refine (unrecorded_congr hpods ?_ n).1
    rw [recorded_of_get? hget, recorded_of_get? hrs, RuleSet.recordedStatus, hstatus]
    rfl

theorem faultlessPass_of_afterListing {settings : Settings} {res : Except Failure Outcome}
    (hw : s.WellKeyed) (hrs : s.ruleSets.get? key = some rs)
    (h : (afterListing settings key rs (s.list key.namespaceName rs.spec.selector)).Ends τ res)
    (hs : Serves noFailure s τ t) : FaultlessPass key s τ t res := by
  cases ends_afterListing h with
  | active ha h => exact faultlessPass_of_active hw hrs ha h hs
  | free ht hh =>
    obtain rfl := serves_nil_iff.1 hs
    exact .idle (.free rs hrs ht hh) (by simp)
  | deleting ht hh _ h =>
    have hkey := hw.ruleSet _ _ hrs
    rcases serves_bind h hs with ⟨e, he, -⟩ | ⟨⟨⟩, τ₁, τ₂, u, rfl, h₁, hs₁, h₂, hs₂⟩
    · cases (deletionDone_of_served hw hrs hkey hh he hs).1
    obtain ⟨rfl, rfl⟩ := Pass.ends_done_iff.1 h₂
    obtain rfl := serves_nil_iff.1 hs₂
    obtain ⟨-, hdone⟩ := deletionDone_of_served hw hrs hkey hh h₁ hs₁
    rw [List.append_nil]
    exact .deleted rs hrs ht hh hdone (evaluates_of_finishDeletion h₁)
  | waiting running _ hv =>
    rw [serves_aside_iff (by rintro c ⟨⟩)] at hs
    obtain rfl := serves_nil_iff.1 hs
    exact .idle (.waiting rs hrs running hv _) (by simp [Call.evaluates])

/-- Calls before the stages are run change nothing about what a pass comes to. -/
theorem FaultlessPass.prepend {σ : List Exchange} {res : Except Failure Outcome}
    (h : FaultlessPass key s τ t res) (hn : ∀ x ∈ σ, x.call.evaluates = false) :
    FaultlessPass key s (σ ++ τ) t res := by
  have hboth (hτ : ∀ x ∈ τ, x.call.evaluates = false) :
      ∀ x ∈ σ ++ τ, x.call.evaluates = false := by
    intro x hx
    exact (List.mem_append.1 hx).elim (hn x) (hτ x)
  cases h with
  | idle why hτ =>
    refine .idle ?_ (hboth hτ)
    cases why with
    | absent h => exact .absent h
    | stale v hv => exact .stale v (List.mem_append_right _ hv)
    | invalid rs h e he => exact .invalid rs h e he
    | waiting rs h running hv o => exact .waiting rs h running hv o
    | free rs h ht hh => exact .free rs h ht hh
  | staleTarget rs held h ha ht hh hr hp hkv hτ =>
    obtain ⟨k, v, hkv⟩ := hkv
    exact .staleTarget rs held h ha ht hh hr hp ⟨k, v, List.mem_append_right _ hkv⟩ (hboth hτ)
  | deleted rs h ht hh hd hτ => exact .deleted rs h ht hh hd (hboth hτ)
  | recorded rs stored evaluated stages targets completions o h ha he hu ho =>
    exact .recorded rs stored evaluated stages targets completions o h ha
      (List.mem_append_right _ he) hu ho

/-- Every pass on a store without faults is idle, meets a stale view of a target, finishes the
deletion or brings the rule set up to date. -/
theorem faultlessPass_of_served {settings : Settings} {res : Except Failure Outcome}
    (hw : s.WellKeyed) (h : (reconcile settings key).Ends τ res) (hs : Serves noFailure s τ t) :
    FaultlessPass key s τ t res := by
  have hread {e : StoreError} {rest : List Exchange} (hs : Serves noFailure s
      (⟨.store (.getRuleSet key), .error e⟩ :: rest) t) :
      s.ruleSets.get? key = none ∧ e.isNotFound = true ∧ Serves noFailure s rest t := by
    obtain ⟨⟨hnone, hnf⟩ | he, hrest⟩ := serves_getRuleSet_error hs
    · exact ⟨hnone, hnf, hrest⟩
    · exact he.elim
  have htrust {b : Bool} {v : String} {rest : List Exchange}
      (hs : Serves noFailure s (⟨.trust key v, b⟩ :: rest) t) : Serves noFailure s rest t :=
    (serves_aside_iff (by rintro c ⟨⟩)).1 hs
  cases ends_reconcile h with
  | absent m =>
    obtain ⟨hnone, -, hrest⟩ := hread hs
    obtain rfl := serves_nil_iff.1 hrest
    exact .idle (.absent hnone) (by simp [Call.evaluates])
  | unread e he =>
    -- Without a failure the only error of a reading is that there is nothing to read.
    rw [(hread hs).2.1] at he
    cases he
  | stale rs =>
    obtain rfl := serves_nil_iff.1 (htrust (serves_getRuleSet_ok hs).2)
    exact .idle (.stale rs.version (by simp)) (by simp [Call.evaluates])
  | invalid rs e he =>
    obtain ⟨hrs, hs₁⟩ := serves_getRuleSet_ok hs
    obtain rfl := serves_nil_iff.1 (htrust hs₁)
    exact .idle (.invalid rs hrs e he) (by simp [Call.evaluates])
  | unlisted rs e =>
    obtain ⟨hr | ⟨e', he, -⟩, -⟩ := serves_listTargets (htrust (serves_getRuleSet_ok hs).2)
    · cases hr
    · exact he.elim
  | @listed rs selected rest _ h =>
    obtain ⟨hrs, hs₁⟩ := serves_getRuleSet_ok hs
    obtain ⟨hr | ⟨e, he, -⟩, hs₂⟩ := serves_listTargets (htrust hs₁)
    · cases hr
      change FaultlessPass key s ([⟨.store (.getRuleSet key), .ok rs⟩,
        ⟨.trust key rs.version, true⟩, ⟨.store (.listTargets key.namespaceName
          rs.spec.selector), .ok (s.list key.namespaceName rs.spec.selector)⟩] ++ rest) t res
      exact (faultlessPass_of_afterListing hw hrs h hs₂).prepend (by simp [Call.evaluates])
    · exact he.elim

end Cluster

end PodRules
