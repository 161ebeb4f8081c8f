import PodRules.Proofs.Run.Convergence
import PodRules.Proofs.Stage.Tasks

/-!
A pass right after another one, with nothing changed in between. What a pass without failures and
without a stale view leaves is settled (`settled_of_faultlessPass`), and a pass over a settled store
asks for no change and tells the sinks nothing (`silent_of_settled`). Main statement: if the stages
report the same, in whatever order they end, the second pass is silent
(`second_pass_is_silent`).
-/

namespace PodRules

/-- A call that asks for no change of the store and adds no key to any sink. -/
def Call.Silent : Call → Prop
  | .store c => c.isWrite = false
  | .notify ns old new => ∀ sinks, (notifyChanges sinks ns old new).1 = sinks
  | _ => True

/-- Whenever the stages were run their reports were these, whichever came first. -/
def ReportsAre (outcomes : List (String × Option StageResult)) (τ : List Exchange) : Prop :=
  ∀ stages rs targets completions, ⟨.evaluate stages rs targets, completions⟩ ∈ τ →
    completions.Perm (Completion.pipeline outcomes)

theorem changedOutcomes_self (ds : List Detail) : changedOutcomes ds ds = ∅ := by
  have hnone : ((detailMap ds).keys ++ (detailMap ds).keys).filter
      (fun n => (detailMap ds).get? n ≠ (detailMap ds).get? n) = [] := by simp
  simp only [changedOutcomes, hnone]
  rfl

theorem notifyChanges_self (sinks : List KeyQueue) (ns : String) (ds : List Detail) :
    (notifyChanges sinks ns ds ds).1 = sinks := by
  unfold notifyChanges
  split
  · rfl
  · rw [changedOutcomes_self]
    rfl

namespace Cluster

variable {s t u : Cluster} {τ : List Exchange} {key : ObjectKey} {merged : PipelineResult}
  {rs : RuleSet} {settings : Settings}

/-- A trace without writes leaves the store as it was. -/
theorem Serves.eq_of_silent {mayFail : StoreError → Prop} (h : Serves mayFail s τ t)
    (hτ : ∀ x ∈ τ, x.call.Silent) : t = s := by
  induction h with
  | nil s => rfl
  | answered _ ih =>
    obtain ⟨hc, hrest⟩ := List.forall_mem_cons.1 hτ
    rw [ih hrest]
    exact answer_snd_of_not_isWrite hc
  | failed e he _ ih => exact ih (List.forall_mem_cons.1 hτ).2
  | aside hx _ ih => exact ih (List.forall_mem_cons.1 hτ).2

/-- A store in which a pass over a rule set has nothing to do. -/
inductive Settled (key : ObjectKey) (merged : PipelineResult) (s : Cluster) : Prop
  | absent (h : s.ruleSets.get? key = none)
  | free (rs : RuleSet) (h : s.ruleSets.get? key = some rs) (ht : rs.isTerminating = true)
      (hh : rs.isHeld = false)
  | waiting (rs : RuleSet) (h : s.ruleSets.get? key = some rs) (running : Nat)
      (hv : rs.deletionVerdict (s.list key.namespaceName rs.spec.selector) = .blocked running)
  | recorded (rs : RuleSet) (hu : UpToDate key merged s rs)

/-- A faultless pass that met no stale view leaves everything settled. -/
theorem settled_of_faultlessPass {o : Outcome} (h : FaultlessPass key s τ t (.ok o))
    (hfresh : ∀ k v, ⟨.trust k v, false⟩ ∉ τ)
    (hmerged : ∀ stages rs targets completions,
      ⟨.evaluate stages rs targets, completions⟩ ∈ τ → Completion.combine completions = merged) :
    Settled key merged t := by
  cases h with
  | idle why hn =>
    cases why with
    | absent h => exact .absent h
    | stale v hv => exact absurd hv (hfresh key v)
    | waiting rs h running hv o => exact .waiting rs h running hv
    | free rs h ht hh => exact .free rs h ht hh
  | staleTarget rs held h ha ht hh hr hp hτ hn =>
    obtain ⟨k, v, hkv⟩ := hτ
    exact absurd hkv (hfresh k v)
  | deleted rs h ht hh hd hn =>
    -- Either the rule set went with its finalizer, or others still hold it.
    obtain ⟨v, hv⟩ := hd.ruleSet
    split at hv
    · exact .absent hv
    · exact .free _ hv ht rs.isHeld_dropFinalizer
  | recorded rs stored evaluated stages targets completions o h ha he hu ho =>
    rw [hmerged _ _ _ _ he] at hu
    exact .recorded stored hu

/-! ## A pass over a settled store -/

/-- An edit that would change nothing writes nothing. -/
theorem silent_editTarget {b : RetryBackoff} {k : ObjectKey} {edit : Pod → Pod × Bool}
    (hedit : KeepsIdentity edit) {res : Except Failure TargetEdit} (hw : s.WellKeyed)
    (hsame : ∀ p, s.pods.get? k = some p → (edit p).2 = false)
    (h : (editTarget b k edit).Ends τ res) (hs : Serves noFailure s τ t) :
    ∀ x ∈ τ, x.call.Silent := by
  obtain ⟨w, -, ha, -⟩ := editTarget_of_served hedit hw h hs
  -- A write would be of a stored pod that the edit changes.
  have hunwritten {p : Pod} {σ : List Exchange} (hc : (edit p).2 = true)
      (hs : Serves noFailure s (⟨.store (.getTarget k), .ok p⟩ :: σ) t) : False := by
    rw [hsame p (serves_getTarget_ok hs).1] at hc
    cases hc
  cases ha with
  | absent m => simp [Call.Silent, StoreCall.isWrite]
  | unchanged p hc => simp [Call.Silent, StoreCall.isWrite]
  | written p stored hc => exact (hunwritten hc hs).elim
  | vanished p m hc => exact (hunwritten hc hs).elim

theorem silent_claimTargets {b : RetryBackoff} {names : List String}
    {res : Except Failure (List Pod)} (hw : s.WellKeyed)
    (howned : ∀ n ∈ names, ∀ p, s.pods.get? ⟨key.namespaceName, n⟩ = some p →
      key.name ∈ p.owners)
    (h : (claimTargets b key.namespaceName key.name names).Ends τ res)
    (hs : Serves noFailure s τ t) : ∀ x ∈ τ, x.call.Silent := by
  -- On the names. Every claim leaves the store as it is, so the next one meets it unchanged.
  induction names generalizing τ t res with
  | nil =>
    obtain ⟨rfl, -⟩ := Pass.ends_done_iff.1 h
    simp
  | cons name names ih =>
    obtain ⟨hname, hnames⟩ := List.forall_mem_cons.1 howned
    have hsame (p : Pod) (hp : s.pods.get? ⟨key.namespaceName, name⟩ = some p) :
        (p.addOwner key.name).2 = false := by
      simp [Pod.addOwner, hname p hp]
    have hedit {σ : List Exchange} {u : Cluster} {r : Except Failure TargetEdit}
        (h : (editTarget b ⟨key.namespaceName, name⟩ (·.addOwner key.name)).Ends σ r)
        (hs : Serves noFailure s σ u) : ∀ x ∈ σ, x.call.Silent :=
      silent_editTarget (keepsIdentity_addOwner key.name) hw hsame h hs
    have hclaim {σ : List Exchange} {u : Cluster} {r : Except Failure (Option Pod)}
        (h : (claimTarget b key.namespaceName key.name name).Ends σ r)
        (hs : Serves noFailure s σ u) : ∀ x ∈ σ, x.call.Silent := by
      rcases serves_bind h hs with ⟨e, he, -⟩ | ⟨w, σ₁, σ₂, v, rfl, h₁, hs₁, h₂, -⟩
      · exact hedit he hs
      refine List.forall_mem_append.2 ⟨hedit h₁ hs₁, ?_⟩
      cases w with
      | written base pod =>
        obtain ⟨r, rest, rfl, hd⟩ := Pass.ends_ask_iff.1 h₂
        obtain ⟨rfl, -⟩ := Pass.ends_done_iff.1 hd
        simp [Call.Silent]
      | unchanged pod =>
        obtain ⟨rfl, -⟩ := Pass.ends_done_iff.1 h₂
        simp
      | gone =>
        obtain ⟨rfl, -⟩ := Pass.ends_done_iff.1 h₂
        simp
    rcases serves_bind h hs with ⟨e, he, -⟩ | ⟨w, τ₁, τ₂, v, rfl, h₁, hs₁, h₂, hs₂⟩
    · exact hclaim he hs
    have hfirst := hclaim h₁ hs₁
    obtain rfl := hs₁.eq_of_silent hfirst
    refine List.forall_mem_append.2 ⟨hfirst, ?_⟩
    rcases serves_bind h₂ hs₂ with ⟨e, he, -⟩ | ⟨pods, σ₁, σ₂, v', rfl, h₃, hs₃, h₄, hs₄⟩
    · exact ih hnames he hs₂
    · obtain ⟨rfl, -⟩ := Pass.ends_done_iff.1 h₄
      rw [List.append_nil]
      exact ih hnames h₃ hs₃

/-- A status that equals the recorded one but for its time is not written, and the sinks are told
nothing. -/
theorem silent_recordOutcome {ns : String} {names : SortedSet String} {now : Instant}
    {res : Except Failure Outcome}
    (hstatus : rs.recordedStatus.equalButTime (statusSnapshot names
      (rs.metadata.generation.getD 0) merged.details.values merged.ruleStates now) = true)
    (h : (recordOutcome ns rs names merged).Ends τ res) : ∀ x ∈ τ, x.call.Silent := by
  obtain ⟨later, rest, rfl, h₁⟩ := Pass.ends_ask_iff.1 h
  have hsame := RuleSetStatus.equalButTime_iff.1 hstatus
  -- At a later time the same is recorded, but for the time.
  have hlater : rs.recordedStatus.equalButTime (statusSnapshot names
      (rs.metadata.generation.getD 0) merged.details.values merged.ruleStates later) = true :=
    RuleSetStatus.equalButTime_iff.2 hsame
  have hdetails : rs.recordedStatus.details = sortDetails merged.details.values :=
    congrArg RuleSetStatus.details hsame
  simp only [recordStatus, hlater, if_true] at h₁
  obtain ⟨told, rest, rfl, h₂⟩ := Pass.ends_ask_iff.1 h₁
  obtain ⟨rfl, -⟩ := Pass.ends_done_iff.1 h₂
  refine List.forall_mem_cons.2 ⟨trivial, List.forall_mem_cons.2 ⟨fun sinks => ?_, by simp⟩⟩
  rw [hdetails]
  exact notifyChanges_self sinks ns _

/-- The targets of an up-to-date rule set are neither released nor claimed again, and recording them
changes nothing. -/
theorem silent_processTargets {res : Except Failure Outcome} (hw : s.WellKeyed)
    (hu : UpToDate key merged s rs)
    (hmerged : ∀ stages evaluated targets completions,
      ⟨.evaluate stages evaluated targets, completions⟩ ∈ τ →
        Completion.combine completions = merged)
    (h : (processTargets settings key rs
      (s.list key.namespaceName rs.spec.selector)).Ends τ res)
    (hs : Serves noFailure s τ t) : ∀ x ∈ τ, x.call.Silent := by
  have htrusts {σ : List Exchange} {r : Except Failure (Option (SortedSet String))}
      (h : (trustedNames (s.list key.namespaceName rs.spec.selector) ∅).Ends σ r) :
      ∀ x ∈ σ, x.call.Silent := by
    intro x hx
    obtain ⟨k, v, hc⟩ := Pass.asks_trustedNames _ _ σ r h x hx
    rw [hc]
    trivial
  rcases serves_bind h hs with ⟨e, he, -⟩ | ⟨trusted, τ₁, τ₂, u, rfl, h₁, hs₁, h₂, hs₂⟩
  · exact htrusts he
  obtain rfl := hs₁.eq_of_silent (htrusts h₁)
  refine List.forall_mem_append.2 ⟨htrusts h₁, ?_⟩
  cases trusted with
  | none =>
    obtain ⟨rfl, -⟩ := Pass.ends_done_iff.1 h₂
    simp
  | some names =>
    obtain ⟨recorded, now, hrecorded, hstatus⟩ := hu.status
    -- The names of the listing are the recorded targets.
    have hnames : names = recorded := by
      ext n
      rw [mem_of_trustedNames h₁, names_list hw, hrecorded]
      exact or_iff_right SortedSet.not_mem_empty
    subst hnames
    have htargets : rs.recordedStatus.targets = names.toList :=
      congrArg RuleSetStatus.targets (RuleSetStatus.equalButTime_iff.1 hstatus)
    have hrelease : (ClaimPlan.ofSelection rs.recordedStatus.targets names).release = [] := by
      refine List.eq_nil_iff_forall_not_mem.2 fun n hn => ?_
      obtain ⟨hin, hout⟩ := ClaimPlan.mem_release.1 hn
      rw [htargets] at hin
      exact hout hin
    have hcarry : carryOut settings.retry key.namespaceName key.name
        (.ofSelection rs.recordedStatus.targets names) =
          claimTargets settings.retry key.namespaceName key.name names.toList := by
      rw [carryOut, hrelease]
      rfl
    have howned (n : String) (hn : n ∈ names.toList) (p : Pod)
        (hp : u.pods.get? ⟨key.namespaceName, n⟩ = some p) : key.name ∈ p.owners :=
      (owns_of_get? hp key.name).1 (hu.owned n ((hrecorded n).1 hn))
    dsimp only at h₂
    rw [hcarry] at h₂
    rcases serves_bind h₂ hs₂ with ⟨e, he, -⟩ | ⟨targets, σ₁, σ₂, v, rfl, h₃, hs₃, h₄, -⟩
    · exact silent_claimTargets hw howned he hs₂
    refine List.forall_mem_append.2 ⟨silent_claimTargets hw howned h₃ hs₃, ?_⟩
    obtain ⟨stages, rest, rfl, h₅⟩ := Pass.ends_ask_iff.1 h₄
    obtain ⟨completions, rest, rfl, h₆⟩ := Pass.ends_ask_iff.1 h₅
    have hcombined : Completion.combine completions = merged :=
      hmerged stages rs targets completions (by simp)
    dsimp only [Pass.bind] at h₆
    rw [hcombined] at h₆
    have hrest := silent_recordOutcome hstatus h₆
    exact List.forall_mem_cons.2 ⟨trivial, List.forall_mem_cons.2 ⟨trivial, hrest⟩⟩

/-- From the listing of a settled state on, a pass is silent. -/
theorem silent_afterListing {res : Except Failure Outcome} (hw : s.WellKeyed)
    (hset : Settled key merged s) (hrs : s.ruleSets.get? key = some rs)
    (hmerged : ∀ stages evaluated targets completions,
      ⟨.evaluate stages evaluated targets, completions⟩ ∈ τ →
        Completion.combine completions = merged)
    (h : (afterListing settings key rs
      (s.list key.namespaceName rs.spec.selector)).Ends τ res)
    (hs : Serves noFailure s τ t) : ∀ x ∈ τ, x.call.Silent := by
  cases ends_afterListing h with
  | free _ _ => simp
  | waiting running _ _ => simp [Call.Silent]
  | active ha h =>
    -- Only an up-to-date rule set is active in a settled store.
    cases hset with
    | absent hnone => cases hnone.symm.trans hrs
    | free rs' h' ht _ =>
      cases hrs.symm.trans h'
      cases ha.symm.trans ht
    | waiting rs' h' running hv =>
      cases hrs.symm.trans h'
      cases hv.symm.trans (RuleSet.deletionVerdict_eq_active.2 ha)
    | recorded rs' hu =>
      cases hrs.symm.trans hu.stored
      rw [holdRuleSet, if_pos hu.held] at h
      exact silent_processTargets hw hu hmerged h hs
  | deleting ht hh hv h =>
    -- No deletion is left to be done in a settled store.
    cases hset with
    | absent hnone => cases hnone.symm.trans hrs
    | free rs' h' _ hfree =>
      cases hrs.symm.trans h'
      cases hh.symm.trans hfree
    | waiting rs' h' running hblocked =>
      cases hrs.symm.trans h'
      cases hv.symm.trans hblocked
    | recorded rs' hu =>
      cases hrs.symm.trans hu.stored
      cases ht.symm.trans hu.active

/-- A pass on a settled state is silent. -/
theorem silent_of_settled {res : Except Failure Outcome} (hw : s.WellKeyed)
    (hset : Settled key merged s)
    (hmerged : ∀ stages evaluated targets completions,
      ⟨.evaluate stages evaluated targets, completions⟩ ∈ τ →
        Completion.combine completions = merged)
    (h : (reconcile settings key).Ends τ res) (hs : Serves noFailure s τ t) :
    ∀ x ∈ τ, x.call.Silent := by
  cases ends_reconcile h with
  | absent m => simp [Call.Silent, StoreCall.isWrite]
  | unread e _ => simp [Call.Silent, StoreCall.isWrite]
  | stale rs => simp [Call.Silent, StoreCall.isWrite]
  | invalid rs e _ => simp [Call.Silent, StoreCall.isWrite]
  | unlisted rs e => simp [Call.Silent, StoreCall.isWrite]
  | listed rs selected h =>
    obtain ⟨hrs, hs₁⟩ := serves_getRuleSet_ok hs
    rw [serves_aside_iff (by rintro c ⟨⟩)] at hs₁
    obtain ⟨hr | ⟨e, he, -⟩, hs₂⟩ := serves_listTargets hs₁
    · cases hr
      refine List.forall_mem_cons.2 ⟨rfl, List.forall_mem_cons.2 ⟨trivial,
        List.forall_mem_cons.2 ⟨rfl, silent_afterListing hw hset hrs ?_ h hs₂⟩⟩⟩
      exact fun stages evaluated targets completions hin =>
        hmerged stages evaluated targets completions (by simp [hin])
    · exact he.elim

end Cluster

/-- A pass that ended well without meeting a stale view is followed by one over the same rule set.
Nothing fails, nobody else writes, and the stages report the same in both, in whatever order they
end. Then the second pass asks for no change of the store and adds no key to any sink. -/
theorem second_pass_is_silent {settings : Settings} {key : ObjectKey} {s t u : Cluster}
    {τ₁ τ₂ : List Exchange} {o : Outcome} {res : Except Failure Outcome}
    {outcomes : List (String × Option StageResult)} (hw : s.WellKeyed)
    (h₁ : (reconcile settings key).Ends τ₁ (.ok o)) (hs₁ : Cluster.Serves noFailure s τ₁ t)
    (hfresh : ∀ k v, ⟨.trust k v, false⟩ ∉ τ₁) (hr₁ : ReportsAre outcomes τ₁)
    (h₂ : (reconcile settings key).Ends τ₂ res) (hs₂ : Cluster.Serves noFailure t τ₂ u)
    (hr₂ : ReportsAre outcomes τ₂) : (∀ x ∈ τ₂, x.call.Silent) ∧ u = t := by
  have hmerged {τ : List Exchange} (hr : ReportsAre outcomes τ) (stages : List String)
      (rs : RuleSet) (targets : List Pod) (completions : List Completion)
      (h : ⟨.evaluate stages rs targets, completions⟩ ∈ τ) :
      Completion.combine completions = mergeInOrder outcomes :=
    combine_of_perm_pipeline (hr stages rs targets completions h)
  have hfirst := Cluster.faultlessPass_of_served hw h₁ hs₁
  have hsettled := Cluster.settled_of_faultlessPass hfirst hfresh (hmerged hr₁)
  have hsilent := Cluster.silent_of_settled (hs₁.wellKeyed hw) hsettled (hmerged hr₂) h₂ hs₂
  exact ⟨hsilent, hs₂.eq_of_silent hsilent⟩

open Converging Orphaning in
theorem claimed_pod_is_not_claimed_again :
    Cluster.Serves noFailure afterRecord repeatingPass afterRecord ∧
      ∀ x ∈ repeatingPass, x.call.Silent := by
  have hreports {τ : List Exchange}
      (h : ∀ x ∈ τ, x.call.evaluates = true → ∃ rs targets,
        x = ⟨.evaluate ["a"] rs targets, reports⟩) :
      ReportsAre [("a", some .empty)] τ := by
    intro stages rs targets completions hin
    obtain ⟨rs', targets', he⟩ := h _ hin rfl
    cases he
    exact .refl _
  refine ⟨serves_repeatingPass, (second_pass_is_silent wellKeyed_start ends_claimingPass
    serves_claimingPass ?_ (hreports ?_) ends_repeatingPass serves_repeatingPass (hreports ?_)).1⟩
  · simp [claimingPass]
  · simp [claimingPass, Call.evaluates]
  · simp [repeatingPass, Call.evaluates]

end PodRules
