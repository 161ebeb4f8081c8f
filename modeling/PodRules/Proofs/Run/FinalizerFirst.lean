import PodRules.Proofs.Run.DeletionPass

namespace PodRules

/-- The work on targets: their fetches and writes, the stages, and the record of the outcome. -/
def Call.isTargetWork : Call → Bool
  | .store (.getTarget _) => true
  | .store (.updateTarget _) => true
  | .store (.updateStatus _) => true
  | .evaluate _ _ _ => true
  | .notify _ _ _ => true
  | _ => false

namespace Exchange

/-- The rule set that an exchange shows to be stored: the answer of a read, or an update that was
accepted. -/
def shown? : Exchange → Option RuleSet
  | ⟨.store (.getRuleSet _), .ok rs⟩ => some rs
  | ⟨.store (.updateRuleSet rs), .ok _⟩ => some rs
  | _ => none

def AnswersKey : Exchange → Prop
  | ⟨.store (.getRuleSet key), .ok rs⟩ => rs.key = key
  | _ => True

def failure? : Exchange → Option StoreError
  | ⟨.store _, .error e⟩ => some e
  | _ => none

end Exchange

def ShowsFinalizer (key : ObjectKey) (τ : List Exchange) : Prop :=
  ∃ x ∈ τ, ∃ rs, x.shown? = some rs ∧ rs.isHeld = true ∧
    ((∀ y ∈ τ, y.AnswersKey) → rs.key = key)

theorem Call.isTargetWork_of_holdsRuleSet {c : Call} (h : c.holdsRuleSet = true) :
    c.isTargetWork = false := by
  cases c with
  | store c => cases c <;> first | rfl | cases h
  | evaluate stages rs targets => cases h
  | notify ns old new => cases h
  | _ => rfl

section

variable {settings : Settings} {b : RetryBackoff} {key : ObjectKey} {rs held : RuleSet}
  {selected : List Pod} {past τ σ : List Exchange} {e : Failure} {res : Except Failure Outcome}

/-- A finalizer that was shown has been shown whatever follows. -/
theorem ShowsFinalizer.append (h : ShowsFinalizer key past) (τ : List Exchange) :
    ShowsFinalizer key (past ++ τ) := by
  obtain ⟨x, hx, rs, hshown, hheld, hkey⟩ := h
  refine ⟨x, List.mem_append_left τ hx, rs, hshown, hheld, ?_⟩
  intro hanswers
  apply hkey
  intro y hy
  exact hanswers y (List.mem_append_left τ hy)

/-- The finalizer is shown at first sight. -/
theorem showsFinalizer_of_first (hh : rs.isHeld = true) :
    ShowsFinalizer key (openingOf key rs selected) := by
  have hfirst : (⟨.store (.getRuleSet key), .ok rs⟩ : Exchange) ∈ openingOf key rs selected :=
    List.mem_cons_self ..
  refine ⟨_, hfirst, rs, rfl, hh, ?_⟩
  intro hanswers
  exact hanswers _ hfirst

/-! ## The loop that puts the finalizer on -/

theorem holdRuleSet_of_not_isHeld (hh : rs.isHeld = false) :
    holdRuleSet b rs = .retry b rs.key (holdOnce rs.key) := by
  rw [holdRuleSet, hh]
  rfl

/-- The loop ends well with a read that shows the finalizer, whoever put it on, or with an accepted
update that has it. -/
theorem showsFinalizer_of_holdRuleSet (hh : rs.isHeld = false)
    (h : (holdRuleSet b rs).Ends σ (.ok held)) : ShowsFinalizer rs.key σ := by
  rw [holdRuleSet_of_not_isHeld hh] at h
  obtain ⟨before, last, rfl, -, hlast⟩ := h.retry_ok
  obtain ⟨o, ho, hattempt⟩ := ends_holdOnce hlast
  cases ho
  cases hattempt with
  | held stored hstored =>
    have hread : (⟨.store (.getRuleSet rs.key), .ok held⟩ : Exchange) ∈
        before ++ [⟨.store (.getRuleSet rs.key), .ok held⟩] := by simp
    refine ⟨_, hread, held, rfl, hstored, ?_⟩
    intro hanswers
    exact hanswers _ hread
  | answered stored reply hstored =>
    refine ⟨⟨.store (.updateRuleSet stored.addFinalizer), .ok held⟩, by simp,
      stored.addFinalizer, rfl, RuleSet.isHeld_addFinalizer stored, ?_⟩
    intro hanswers
    have hread : stored.key = rs.key :=
      hanswers ⟨.store (.getRuleSet rs.key), .ok stored⟩ (by simp)
    rwa [RuleSet.key_addFinalizer]

/-- The loop fails with the error of a call that is no conflict, or after a last conflict. -/
theorem failed_of_holdRuleSet (h : (holdRuleSet b rs).Ends σ (.error e)) :
    ∃ x ∈ σ, ∃ err, x.failure? = some err ∧
      ((err.isConflict = false ∧ e = .store err) ∨
        (err.isConflict = true ∧ e = .retryExhausted rs.key b.attempts)) := by
  have hfailure {τ : List Exchange} {err : StoreError}
      (ha : HoldAttempt rs.key τ (.error err)) : ∃ x ∈ τ, x.failure? = some err := by
    cases ha with
    | unread => exact ⟨_, List.mem_singleton.2 rfl, rfl⟩
    | answered stored _ hstored => exact ⟨_, List.mem_cons_of_mem _ (List.mem_singleton.2 rfl), rfl⟩
  have hh : rs.isHeld = false := by
    cases hh : rs.isHeld with
    | false => rfl
    | true =>
      rw [holdRuleSet, if_pos hh] at h
      cases h
  rw [holdRuleSet_of_not_isHeld hh] at h
  obtain ⟨before, last, rfl, -, hconcludes⟩ := h.retry
  cases hconcludes with
  | refused err hc hlast =>
    obtain ⟨o, ho, hattempt⟩ := ends_holdOnce hlast
    cases ho
    obtain ⟨x, hx, herr⟩ := hfailure hattempt
    exact ⟨x, List.mem_append_right _ hx, err, herr, .inl ⟨hc, rfl⟩⟩
  | exhausted m hlast =>
    obtain ⟨o, ho, hattempt⟩ := ends_holdOnce hlast
    cases ho
    obtain ⟨x, hx, herr⟩ := hfailure hattempt
    exact ⟨x, List.mem_append_right _ hx, _, herr, .inr ⟨rfl, rfl⟩⟩
  | broken _ hlast =>
    obtain ⟨o, ho, -⟩ := ends_holdOnce hlast
    cases ho

/-! ## Up to the work on targets -/

/-- What no call has at the beginning of a trace, the calls behind it have that beginning before
them. -/
theorem preceded_of_append {P : Exchange → Prop} {Q : List Exchange → Prop}
    (hpast : ∀ x ∈ past, ¬ P x) (hQ : ∀ τ, Q (past ++ τ)) {before after : List Exchange}
    {x : Exchange} (hτ : past ++ τ = before ++ x :: after) (hx : P x) : Q before := by
  rcases Pass.split_append hτ with ⟨mid, rfl, -⟩ | ⟨mid, rfl, -⟩
  · exact absurd hx (hpast x (by simp))
  · exact hQ mid

theorem not_isTargetWork_of_mem_openingOf {x : Exchange} (hx : x ∈ openingOf key rs selected) :
    x.call.isTargetWork = false := by
  simp only [openingOf, List.mem_cons, List.not_mem_nil, or_false] at hx
  rcases hx with rfl | rfl | rfl <;> rfl

theorem not_isTargetWork_of_holdRuleSet {res : Except Failure RuleSet}
    (h : (holdRuleSet b rs).Ends σ res) {x : Exchange}
    (hx : x ∈ openingOf key rs selected ++ σ) : x.call.isTargetWork = false := by
  rcases List.mem_append.1 hx with hx | hx
  · exact not_isTargetWork_of_mem_openingOf hx
  · exact Call.isTargetWork_of_holdsRuleSet (Pass.asks_holdRuleSet b rs σ _ h x hx)

/-- Once the finalizer is on, the pass has seen it. -/
theorem showsFinalizer_of_opening (h : (holdRuleSet b rs).Ends σ (.ok held)) :
    ShowsFinalizer key (openingOf key rs selected ++ σ) := by
  cases hh : rs.isHeld with
  | true => exact (showsFinalizer_of_first hh).append σ
  | false =>
    obtain ⟨x, hx, shown, hshown, hheld, hkey⟩ := showsFinalizer_of_holdRuleSet hh h
    refine ⟨x, List.mem_append_right _ hx, shown, hshown, hheld, ?_⟩
    intro hanswers
    have hfirst : rs.key = key :=
      hanswers ⟨.store (.getRuleSet key), .ok rs⟩ (by simp [openingOf])
    have hloop : shown.key = rs.key := by
      apply hkey
      intro y hy
      exact hanswers y (List.mem_append_right _ hy)
    exact hloop.trans hfirst

/-- Whatever a pass does to targets comes after an exchange that shows the finalizer. -/
theorem showsFinalizer_before_target_work (h : (reconcile settings key).Ends τ res)
    {before after : List Exchange} {x : Exchange} (hτ : τ = before ++ x :: after)
    (hx : x.call.isTargetWork = true) : ShowsFinalizer key before := by
  have hnone (hquiet : ∀ y ∈ τ, y.call.isTargetWork = false) : ShowsFinalizer key before := by
    have hx' := hquiet x (by simp [hτ])
    rw [hx] at hx'
    cases hx'
  cases ends_reconcile h with
  | absent m => exact hnone (by simp [Call.isTargetWork])
  | unread err herr => exact hnone (by simp [Call.isTargetWork])
  | stale rs => exact hnone (by simp [Call.isTargetWork])
  | invalid rs err herr => exact hnone (by simp [Call.isTargetWork])
  | unlisted rs err => exact hnone (by simp [Call.isTargetWork])
  | @listed rs selected rest _ h₁ =>
    have hopening : ∀ y ∈ openingOf key rs selected, ¬ y.call.isTargetWork = true := by
      intro y hy hwork
      rw [not_isTargetWork_of_mem_openingOf hy] at hwork
      cases hwork
    have hsplit : openingOf key rs selected ++ rest = before ++ x :: after := hτ
    cases ends_afterListing h₁ with
    | active ha h₂ =>
      rcases Pass.ends_bind_iff.1 h₂ with ⟨err, h₃, -⟩ | ⟨held, σ, work, rfl, h₃, h₄⟩
      · -- Without the finalizer the pass ends.
        apply hnone
        intro y hy
        exact not_isTargetWork_of_holdRuleSet h₃ hy
      · have hquiet : ∀ y ∈ openingOf key rs selected ++ σ, ¬ y.call.isTargetWork = true := by
          intro y hy hwork
          rw [not_isTargetWork_of_holdRuleSet h₃ hy] at hwork
          cases hwork
        rw [← List.append_assoc] at hsplit
        exact preceded_of_append hquiet (showsFinalizer_of_opening h₃).append hsplit hx
    | free ht hh => exact hnone (by simp [Call.isTargetWork])
    | deleting ht hh hv h₂ =>
      exact preceded_of_append hopening (showsFinalizer_of_first hh).append hsplit hx
    | waiting running hh hv => exact hnone (by simp [Call.isTargetWork])

/-- Behind its opening a pass goes on with what follows the listing. -/
theorem afterListing_of_opening
    (h : (reconcile settings key).Ends (openingOf key rs selected ++ τ) res) :
    (afterListing settings key rs selected).Ends τ res := by
  unfold openingOf at h
  cases ends_reconcile h with
  | listed _ _ h₁ => exact h₁

/-- A finalizer that cannot be made sure of ends the pass with that error. -/
theorem ends_of_failed_holdRuleSet (ha : rs.isTerminating = false)
    (hhold : (holdRuleSet settings.retry rs).Ends σ (.error e))
    (h : (reconcile settings key).Ends (openingOf key rs selected ++ σ ++ τ) res) :
    τ = [] ∧ res = .error e := by
  rw [List.append_assoc] at h
  have hlisted := afterListing_of_opening h
  have hends : (afterListing settings key rs selected).Ends σ (.error e) := by
    unfold afterListing
    rw [RuleSet.deletionVerdict_eq_active.2 ha]
    exact Pass.ends_bind_iff.2 (.inl ⟨e, hhold, rfl⟩)
  exact hends.eq_of_append hlisted

end

/-- Every call of the work on targets has behind it an exchange of the same pass that shows the
finalizer on the rule set. If the finalizer cannot be put on, the pass fails for the error or for the
conflicts that kept it from being put on, and does nothing of that work. -/
theorem finalizer_before_target_work (settings : Settings) (key : ObjectKey)
    (τ : List Exchange) (res : Except Failure Outcome) (h : (reconcile settings key).Ends τ res) :
    (∀ before x after, τ = before ++ x :: after → x.call.isTargetWork = true →
      ShowsFinalizer key before) ∧
    ∀ rs selected σ rest e, τ = openingOf key rs selected ++ σ ++ rest →
      rs.isTerminating = false → (holdRuleSet settings.retry rs).Ends σ (.error e) →
      rest = [] ∧ res = .error e ∧ (∀ x ∈ τ, x.call.isTargetWork = false) ∧
        ∃ x ∈ σ, ∃ err, x.failure? = some err ∧
          ((err.isConflict = false ∧ e = .store err) ∨
            (err.isConflict = true ∧ e = .retryExhausted rs.key settings.retry.attempts)) := by
  constructor
  · intro before x after hτ hx
    exact showsFinalizer_before_target_work h hτ hx
  · intro rs selected σ rest e hτ ha hhold
    rw [hτ] at h
    obtain ⟨rfl, rfl⟩ := ends_of_failed_holdRuleSet ha hhold h
    refine ⟨rfl, rfl, ?_, failed_of_holdRuleSet hhold⟩
    intro x hx
    rw [hτ, List.append_nil] at hx
    exact not_isTargetWork_of_holdRuleSet hhold hx

namespace Holding

open Orphaning (ruleSet pod held claimed)

def overtakenPass : List Exchange :=
  openingOf ⟨"ns", "r"⟩ ruleSet [pod] ++
    [⟨.store (.getRuleSet ⟨"ns", "r"⟩), .ok ruleSet⟩,
      ⟨.store (.updateRuleSet ruleSet.addFinalizer), .error (.conflict "")⟩,
      ⟨.sleep (RetryBackoff.standard.delay 1), ()⟩,
      ⟨.store (.getRuleSet ⟨"ns", "r"⟩), .ok held⟩, ⟨.trust ⟨"ns", "p"⟩ "", true⟩,
      ⟨.store (.getTarget ⟨"ns", "p"⟩), .ok pod⟩,
      ⟨.store (.updateTarget claimed), .error (.transient "")⟩]

theorem ends_overtakenPass :
    (reconcile .standard ⟨"ns", "r"⟩).Ends overtakenPass (.error (.store (.transient ""))) :=
  .ask _ (.ask _ (.ask _ (.ask _ (.ask _ (.ask _ (.ask _ (.ask _ (.ask _ (.ask _
    (.failed _))))))))))

def unreadPass : List Exchange :=
  openingOf ⟨"ns", "r"⟩ ruleSet [pod] ++
    [⟨.store (.getRuleSet ⟨"ns", "r"⟩), .error (.transient "")⟩]

theorem ends_unreadPass :
    (reconcile .standard ⟨"ns", "r"⟩).Ends unreadPass (.error (.store (.transient ""))) :=
  .ask _ (.ask _ (.ask _ (.ask _ (.failed _))))

end Holding

open Holding in
theorem foreign_finalizer_suffices :
    ShowsFinalizer ⟨"ns", "r"⟩ (overtakenPass.take 9) ∧
      ∀ x ∈ unreadPass, x.call.isTargetWork = false := by
  have hclaims := finalizer_before_target_work .standard ⟨"ns", "r"⟩ _ _ ends_overtakenPass
  have hfails := finalizer_before_target_work .standard ⟨"ns", "r"⟩ _ _ ends_unreadPass
  have hloop : (holdRuleSet .standard Orphaning.ruleSet).Ends
      [⟨.store (.getRuleSet ⟨"ns", "r"⟩), .error (.transient "")⟩]
      (.error (.store (.transient ""))) := .ask _ (.failed _)
  refine ⟨hclaims.1 _ _ [] rfl rfl, ?_⟩
  exact (hfails.2 _ [Orphaning.pod] _ [] _ rfl rfl hloop).2.2.1

end PodRules
