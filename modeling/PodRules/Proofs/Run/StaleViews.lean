import PodRules.Proofs.Run.Expectations
import PodRules.Proofs.Run.FinalizerFirst
import PodRules.Proofs.Store.History

/-!
Passes that meet a stale view. Several passes share a table of pending writes, their calls in any
order; one of them asks it about the view of its rule set and about the views of the listed pods.
Main statement: a refusal is the last call of a pass and leaves the table as it is, and a pass that
is refused has worked on no target and has written nothing but the finalizer
(`stale_view_ends_pass`).
-/

namespace PodRules

namespace Expectations

def AnswersEach (t : Expectations) (log : List LogEntry) : Prop :=
  ∀ before e after, log = before ++ e :: after →
    e.exchange.answer = (e.exchange.call.onTable e.now (t.after before)).1

/-- Whenever a pass that has some exchanges behind it asks about a view, the table refuses it. -/
def RefusesView (t : Expectations) (log : List LogEntry) (pass : Nat) (past : List Exchange)
    (key : ObjectKey) (version : String) : Prop :=
  ∀ before e after, log = before ++ e :: after → e.pass = pass → past <+: traceOf pass before →
    e.exchange.call = .trust key version → ((t.after before).trust e.now key version).1 = false

end Expectations

structure KeepsOff (rs : RuleSet) (τ : List Exchange) (res : Except Failure Outcome) : Prop where
  idle : ∀ x ∈ τ, x.call.isTargetWork = false
  writes : ∀ before x after, τ = before ++ x :: after → (WriteLoop.hold rs).IsPrepared before x
  ends : res = .ok .done ∨ ∃ x ∈ τ, ∃ err e, x.failure? = some err ∧ res = .error e

structure StaysPending (t : Expectations) (log : List LogEntry) (e : LogEntry) (key : ObjectKey)
    (version : String) : Prop where
  call : e.exchange.call = .trust key version
  table : t.after (log ++ [e]) = t.after log
  pending : ∃ p, (t.after (log ++ [e])).blocking e.now key = some p ∧ isNewer p.base version = false

section

variable {settings : Settings} {key : ObjectKey} {rs : RuleSet} {selected : List Pod}
  {past τ σ : List Exchange} {res : Except Failure Outcome} {t : Expectations}
  {log : List LogEntry} {pass : Nat}

/-! ## What a pass is told -/

/-- Where the table refuses a view, the pass is told so. -/
theorem eq_false_of_refusesView (htable : t.AnswersEach log) {version : String} {k : ObjectKey}
    (hrefuses : t.RefusesView log pass past k version) (htrace : traceOf pass log = past ++ τ)
    {trusted : Bool} (hx : (⟨.trust k version, trusted⟩ : Exchange) ∈ τ) : trusted = false := by
  obtain ⟨before, after, rfl⟩ := List.append_of_mem hx
  rw [← List.append_assoc] at htrace
  obtain ⟨first, e, last, hlog, hpass, hexchange, hfirst, -⟩ := exists_split_of_traceOf htrace
  have hprefix : past <+: traceOf pass first := ⟨before, hfirst.symm⟩
  have hcall : e.exchange.call = .trust k version := by rw [hexchange]
  have hrefused := hrefuses first e last hlog hpass hprefix hcall
  have hanswer := htable first e last hlog
  rw [hexchange] at hanswer
  exact hanswer.trans hrefused

/-! ## Refusals in a pass -/

def RefusalEnds (τ : List Exchange) (res : Except Failure Outcome) : Prop :=
  ∀ before x after, τ = before ++ x :: after → x.answer = false → after = [] ∧ res = .ok .done

theorem Exchange.answer_of_not_isTrust {x : Exchange} (h : x.call.isTrust = false) :
    x.answer = true := by
  obtain ⟨c, r⟩ := x
  cases c with
  | trust key version => cases h
  | _ => rfl

theorem RefusalEnds.of_answer (h : ∀ x ∈ τ, x.answer = true) : RefusalEnds τ res := by
  rintro before x after rfl hx
  rw [h x (by simp)] at hx
  cases hx

theorem RefusalEnds.prepend (hpast : ∀ x ∈ past, x.answer = true) (h : RefusalEnds τ res) :
    RefusalEnds (past ++ τ) res := by
  intro before x after hτ hx
  rcases Pass.split_append hτ with ⟨mid, rfl, -⟩ | ⟨mid, -, hmid⟩
  · rw [hpast x (by simp)] at hx
    cases hx
  · exact h mid x after hmid hx

theorem RefusalEnds.of_last (hpast : ∀ x ∈ past, x.answer = true) (x : Exchange) :
    RefusalEnds (past ++ [x]) (.ok .done) := by
  apply RefusalEnds.prepend hpast
  intro before y after hτ _
  cases before with
  | nil =>
    obtain ⟨-, hafter⟩ := List.cons.inj hτ
    exact ⟨hafter.symm, rfl⟩
  | cons z before =>
    obtain ⟨-, hrest⟩ := List.cons.inj hτ
    simp at hrest

theorem Call.isTrust_eq_false {c : Call}
    (h : c.concernsTargets = true ∨ c.holdsRuleSet = true ∨ c.letsRuleSetGo = true) :
    c.isTrust = false := by
  cases c with
  | trust key version => simp [concernsTargets, holdsRuleSet, letsRuleSetGo] at h
  | _ => rfl

/-- Once all views are trusted the work on targets asks about none any more. -/
theorem Pass.asks_work_isTrust (key : ObjectKey) (rs : RuleSet) (names : SortedSet String) :
    ((carryOut settings.retry key.namespaceName key.name
        (.ofSelection rs.recordedStatus.targets names)).bind fun targets =>
      (evaluateStages rs targets).bind fun merged =>
        recordOutcome key.namespaceName rs names merged).Asks fun c => c.isTrust = false := by
  have hcarry := Asks.mono (asks_carryOut settings.retry key.namespaceName key.name
    (.ofSelection rs.recordedStatus.targets names)) fun _ hc => Call.isTrust_eq_false (.inl hc.1)
  refine hcarry.bind fun targets => ?_
  refine asks_ask rfl fun stages => asks_ask rfl fun completions => asks_ask rfl fun now => ?_
  refine Asks.bind ?_ fun _ => asks_ask rfl fun _ => asks_done _
  exact asks_recordStatus rfl rfl rfl

/-- The work on targets trusts the views of all of them, or it ends with a refusal. -/
theorem ends_processTargets (h : (processTargets settings key rs selected).Ends τ res) :
    (∃ work, τ = trustsOf selected ++ work ∧ ∀ x ∈ work, x.call.isTrust = false) ∨
      ((trustedNames selected ∅).Ends τ (.ok none) ∧ res = .ok .done) := by
  rcases Pass.ends_bind_iff.1 h with ⟨e, hviews, -⟩ | ⟨found, views, work, rfl, hviews, hwork⟩
  · -- The loop over the views does not fail.
    rcases ends_trustedNames hviews with ⟨names, hnames, -⟩ | ⟨hnone, -⟩
    · cases hnames
    · cases hnone
  cases found with
  | none =>
    obtain ⟨rfl, rfl⟩ := Pass.ends_done_iff.1 hwork
    rw [List.append_nil]
    exact .inr ⟨hviews, rfl⟩
  | some names =>
    rcases ends_trustedNames hviews with ⟨_, -, rfl, -⟩ | ⟨hnone, -⟩
    · exact .inl ⟨work, rfl, Pass.asks_work_isTrust key rs names work res hwork⟩
    · cases hnone

theorem answer_of_mem_trustsOf {pods : List Pod} {x : Exchange} (hx : x ∈ trustsOf pods) :
    x.answer = true := by
  obtain ⟨pod, -, rfl⟩ := List.mem_map.1 hx
  rfl

/-- In the targets' part, the first refusal ends the pass. -/
theorem refusalEnds_of_processTargets (h : (processTargets settings key rs selected).Ends τ res) :
    RefusalEnds τ res := by
  rcases ends_processTargets h with ⟨work, rfl, hwork⟩ | ⟨hviews, rfl⟩
  · apply RefusalEnds.of_answer
    intro x hx
    rcases List.mem_append.1 hx with hx | hx
    · exact answer_of_mem_trustsOf hx
    · exact Exchange.answer_of_not_isTrust (hwork x hx)
  · rcases ends_trustedNames hviews with ⟨names, hnames, -⟩ | ⟨-, before, pod, after, -, rfl⟩
    · cases hnames
    · exact RefusalEnds.of_last (fun x hx => answer_of_mem_trustsOf hx) _

/-- From the listing on, the first refusal ends the pass. -/
theorem refusalEnds_of_afterListing (h : (afterListing settings key rs selected).Ends τ res) :
    RefusalEnds τ res := by
  cases ends_afterListing h with
  | active ha h₁ =>
    have hhold {σ : List Exchange} {held : Except Failure RuleSet}
        (hσ : (holdRuleSet settings.retry rs).Ends σ held) : ∀ x ∈ σ, x.answer = true := by
      intro x hx
      have hholds := Pass.asks_holdRuleSet settings.retry rs σ held hσ x hx
      exact Exchange.answer_of_not_isTrust (Call.isTrust_eq_false (.inr (.inl hholds)))
    rcases Pass.ends_bind_iff.1 h₁ with ⟨e, h₂, -⟩ | ⟨held, σ, work, rfl, h₂, h₃⟩
    · exact RefusalEnds.of_answer (hhold h₂)
    · exact (refusalEnds_of_processTargets h₃).prepend (hhold h₂)
  | free ht hh => exact RefusalEnds.of_answer (by simp)
  | deleting ht hh hv h₁ =>
    apply RefusalEnds.of_answer
    intro x hx
    have hasks := (Pass.asks_finishDeletion settings.retry rs).bind fun _ =>
      Pass.asks_done Outcome.done
    apply Exchange.answer_of_not_isTrust
    exact Call.isTrust_eq_false ((hasks τ res h₁ x hx).imp_right .inr)
  | waiting running hh hv => exact RefusalEnds.of_answer (by simp [Exchange.answer])

/-- A pass makes no call after a refusal. -/
theorem refusalEnds_of_reconcile (h : (reconcile settings key).Ends τ res) :
    RefusalEnds τ res := by
  cases ends_reconcile h with
  | absent m => exact RefusalEnds.of_answer (by simp [Exchange.answer])
  | unread e he => exact RefusalEnds.of_answer (by simp [Exchange.answer])
  | stale rs =>
    have hread : ∀ x ∈ [(⟨.store (.getRuleSet key), .ok rs⟩ : Exchange)], x.answer = true := by
      simp [Exchange.answer]
    exact RefusalEnds.of_last hread _
  | invalid rs e he => exact RefusalEnds.of_answer (by simp [Exchange.answer])
  | unlisted rs e => exact RefusalEnds.of_answer (by simp [Exchange.answer])
  | @listed rs selected rest _ h₁ =>
    have hopening : ∀ x ∈ openingOf key rs selected, x.answer = true := by
      simp [openingOf, Exchange.answer]
    exact (refusalEnds_of_afterListing h₁).prepend hopening

/-! ## A refused target -/

/-- The loop over the views works on no target, and neither does the one before it. -/
theorem Pass.asks_lookOver_isTargetWork (b : RetryBackoff) (rs : RuleSet) (selected : List Pod) :
    ((holdRuleSet b rs).bind fun _ => trustedNames selected ∅).Asks
      fun c => c.isTargetWork = false := by
  have hhold := Asks.mono (asks_holdRuleSet b rs) fun _ hc => Call.isTargetWork_of_holdsRuleSet hc
  refine hhold.bind fun _ => Asks.mono (asks_trustedNames selected ∅) ?_
  rintro c ⟨k, v, rfl⟩
  rfl

/-- Up to the looks at the targets, the only write is the finalizer's. -/
theorem WriteLoop.isPrepared_lookOver (b : RetryBackoff) (rs : RuleSet) (selected : List Pod) :
    ((holdRuleSet b rs).bind fun _ => trustedNames selected ∅).Guarded
      (WriteLoop.hold rs).IsPrepared past := by
  refine Pass.Guarded.bind (isPrepared_holdRuleSet b rs) fun _ _ _ => ?_
  refine (Pass.asks_trustedNames selected ∅).guarded ?_
  rintro past x ⟨k, v, hcall⟩
  apply isPrepared_of_not_isWrite
  intro c hc
  rw [hcall] at hc
  cases hc

/-- A pass that comes no further than its loop over the views writes nothing but the finalizer. -/
theorem keepsOff_of_lookOver {b : RetryBackoff} {found : Except Failure (Option (SortedSet String))}
    (h : ((holdRuleSet b rs).bind fun _ => trustedNames selected ∅).Ends σ found)
    (hends : res = .ok .done ∨ ∃ x ∈ σ, ∃ err e, x.failure? = some err ∧ res = .error e) :
    KeepsOff rs (openingOf key rs selected ++ σ) res := by
  refine ⟨?_, ?_, ?_⟩
  · intro x hx
    rcases List.mem_append.1 hx with hx | hx
    · exact not_isTargetWork_of_mem_openingOf hx
    · exact Pass.asks_lookOver_isTargetWork b rs selected σ found h x hx
  · refine (WriteLoop.isPrepared_lookOver b rs selected).all ?_ h
    intro before x after hopening
    have hx : x ∈ openingOf key rs selected := by simp [hopening]
    apply WriteLoop.isPrepared_of_not_isWrite
    have hidle : x.call.isIdle rs.key.name := isIdle_of_mem_openingOf hx
    intro c hc
    have hread := hidle.1
    rwa [hc] at hread
  · refine hends.imp_right ?_
    rintro ⟨x, hx, hfailed⟩
    exact ⟨x, List.mem_append_right _ hx, hfailed⟩

/-- If the view of some listed target cannot be trusted, a pass keeps off all of them. -/
theorem keepsOff_of_refused
    (h : (reconcile settings key).Ends (openingOf key rs selected ++ τ) res)
    (ha : rs.isTerminating = false) {pod : Pod} (hpod : pod ∈ selected)
    (hrefused : (⟨.trust pod.key pod.version, true⟩ : Exchange) ∉ τ) :
    KeepsOff rs (openingOf key rs selected ++ τ) res := by
  have hlisted := afterListing_of_opening h
  unfold afterListing at hlisted
  rw [RuleSet.deletionVerdict_eq_active.2 ha] at hlisted
  rcases Pass.ends_bind_iff.1 hlisted with ⟨e, hhold, rfl⟩ | ⟨held, σ, work, rfl, hhold, hwork⟩
  · -- The finalizer could not be put on.
    obtain ⟨x, hx, err, herr, -⟩ := failed_of_holdRuleSet hhold
    have hloop : ((holdRuleSet settings.retry rs).bind fun _ => trustedNames selected ∅).Ends τ
        (.error e) := Pass.ends_bind_iff.2 (.inl ⟨e, hhold, rfl⟩)
    exact keepsOff_of_lookOver hloop (.inr ⟨x, hx, err, e, herr, rfl⟩)
  rcases ends_processTargets hwork with ⟨rest, rfl, -⟩ | ⟨hviews, rfl⟩
  · -- All views were trusted, that of the refused target with them.
    have htrusted : (⟨.trust pod.key pod.version, true⟩ : Exchange) ∈ trustsOf selected :=
      List.mem_map.2 ⟨pod, hpod, rfl⟩
    exact absurd (List.mem_append_right _ (List.mem_append_left _ htrusted)) hrefused
  · have hloop : ((holdRuleSet settings.retry rs).bind fun _ => trustedNames selected ∅).Ends
        (σ ++ work) (.ok none) := Pass.ends_bind_iff.2 (.inr ⟨held, σ, work, rfl, hhold, hviews⟩)
    exact keepsOff_of_lookOver hloop (.inl rfl)

/-! ## Refusals in a log -/

/-- A refusal leaves the table as it is, so that the entry which blocks goes on to block. -/
theorem staysPending_of_refused {e : LogEntry}
    (hanswer : e.exchange.answer = (e.exchange.call.onTable e.now (t.after log)).1)
    (hrefused : e.exchange.answer = false) : ∃ k version, StaysPending t log e k version := by
  obtain ⟨p, now, c, r⟩ := e
  cases c with
  | trust k version =>
    have hfalse : ((t.after log).trust now k version).1 = false := hanswer.symm.trans hrefused
    have htable : t.after (log ++ [⟨p, now, ⟨.trust k version, r⟩⟩]) = t.after log := by
      rw [Expectations.after_append]
      exact Expectations.trust_snd_of_refused hfalse
    refine ⟨k, version, rfl, htable, ?_⟩
    rw [htable]
    exact (Expectations.trust_eq_false_iff _ _ _ _).1 hfalse
  | _ => cases hrefused

/-- In a table that answers a log, a view is refused whenever a pass asks about it if each of its
questions about it was answered so. -/
theorem refusesView_of_answersEach (htable : t.AnswersEach log) {k : ObjectKey} {version : String}
    (hrefused : ∀ e ∈ log, e.pass = pass → e.exchange.call = .trust k version →
      e.exchange.answer = false) : t.RefusesView log pass past k version := by
  intro before e after hlog hpass _ hcall
  have hanswer := htable before e after hlog
  rw [hrefused e (by simp [hlog]) hpass hcall, hcall] at hanswer
  exact hanswer.symm

theorem answersEach_nil (t : Expectations) : t.AnswersEach [] := by
  intro before e after hlog
  simp at hlog

theorem answersEach_cons {e : LogEntry}
    (hanswer : e.exchange.answer = (e.exchange.call.onTable e.now t).1)
    (h : (e.exchange.call.onTable e.now t).2.AnswersEach log) : t.AnswersEach (e :: log) := by
  intro before d after hlog
  cases before with
  | nil =>
    obtain ⟨rfl, -⟩ := List.cons.inj hlog
    exact hanswer
  | cons c before =>
    obtain ⟨rfl, hrest⟩ := List.cons.inj hlog
    exact h before d after hrest

end

/-- Passes share a table of pending writes, which answers all of their calls. A pass for which the
table refuses the view of its rule set makes no other call than the read and is done. One that
listed its targets, of a rule set that is not being deleted, and for which the table refuses the
view of any of them keeps off all targets and writes nothing but the finalizer, and is done unless a
call failed. Whatever was refused stays pending, and is the last that the pass asked for. -/
theorem stale_view_ends_pass (settings : Settings) (key : ObjectKey) (pass : Nat)
    (log : List LogEntry) (t : Expectations) (res : Except Failure Outcome)
    (hends : (reconcile settings key).Ends (traceOf pass log) res) (htable : t.AnswersEach log) :
    (∀ rs rest, traceOf pass log = ⟨.store (.getRuleSet key), .ok rs⟩ :: rest →
      t.RefusesView log pass [⟨.store (.getRuleSet key), .ok rs⟩] key rs.version →
        rest = [⟨.trust key rs.version, false⟩] ∧ res = .ok .done) ∧
    (∀ rs selected rest pod, traceOf pass log = openingOf key rs selected ++ rest →
      rs.isTerminating = false → pod ∈ selected →
      t.RefusesView log pass (openingOf key rs selected) pod.key pod.version →
        KeepsOff rs (traceOf pass log) res) ∧
    ∀ before e after, log = before ++ e :: after → e.pass = pass → e.exchange.answer = false →
      traceOf pass after = [] ∧ res = .ok .done ∧
        ∃ k version, StaysPending t before e k version := by
  refine ⟨?_, ?_, ?_⟩
  · intro rs rest htrace hrefuses
    have hread : traceOf pass log = [⟨.store (.getRuleSet key), .ok rs⟩] ++ rest := htrace
    have hview {trusted : Bool} (hx : (⟨.trust key rs.version, trusted⟩ : Exchange) ∈ rest) :
        trusted = false :=
      eq_false_of_refusesView htable hrefuses hread hx
    rw [htrace] at hends
    cases ends_reconcile hends with
    | stale _ => exact ⟨rfl, rfl⟩
    | invalid _ e he => cases hview (List.mem_cons_self ..)
    | unlisted _ e => cases hview (List.mem_cons_self ..)
    | listed _ selected h₁ => cases hview (List.mem_cons_self ..)
  · intro rs selected rest pod htrace ha hpod hrefuses
    rw [htrace] at hends ⊢
    apply keepsOff_of_refused hends ha hpod
    intro htrusted
    cases eq_false_of_refusesView htable hrefuses htrace htrusted
  · intro before e after hlog hpass hrefused
    have hsplit : traceOf pass log =
        traceOf pass before ++ e.exchange :: traceOf pass after := by
      rw [hlog, traceOf_append]
      simp [traceOf, hpass]
    obtain ⟨hafter, hres⟩ := refusalEnds_of_reconcile hends _ _ _ hsplit hrefused
    exact ⟨hafter, hres, staysPending_of_refused (htable before e after hlog) hrefused⟩

namespace Refusing

open Orphaning (ruleSet pod held)

def other : Pod where
  metadata := { (default : Metadata) with name := some "q", namespaceName := some "ns" }
  others := []

def log : List LogEntry :=
  (openingOf ⟨"ns", "r"⟩ ruleSet [pod, other]).map (⟨0, 1, ·⟩) ++
    [⟨1, 2, ⟨.arm ⟨"ns", "q"⟩ "", ()⟩⟩,
      ⟨0, 3, ⟨.store (.getRuleSet ⟨"ns", "r"⟩), .ok ruleSet⟩⟩,
      ⟨0, 4, ⟨.store (.updateRuleSet ruleSet.addFinalizer), .ok held⟩⟩,
      ⟨0, 5, ⟨.trust ⟨"ns", "p"⟩ "", true⟩⟩, ⟨0, 6, ⟨.trust ⟨"ns", "q"⟩ "", false⟩⟩]

theorem ends_log : (reconcile .standard ⟨"ns", "r"⟩).Ends (traceOf 0 log) (.ok .done) :=
  .ask _ (.ask _ (.ask _ (.ask _ (.ask _ (.ask _ (.ask _ (.done _)))))))

theorem answersEach_log : (Expectations.fresh ⟨10⟩).AnswersEach log := by
  refine answersEach_cons rfl (answersEach_cons rfl (answersEach_cons rfl (answersEach_cons rfl
    (answersEach_cons rfl (answersEach_cons rfl (answersEach_cons rfl (answersEach_cons ?_
      (answersEach_nil _))))))))
  decide

def ownLog : List LogEntry :=
  [⟨0, 1, ⟨.store (.getRuleSet ⟨"ns", "r"⟩), .ok ruleSet⟩⟩, ⟨1, 2, ⟨.arm ⟨"ns", "r"⟩ "", ()⟩⟩,
    ⟨0, 3, ⟨.trust ⟨"ns", "r"⟩ "", false⟩⟩]

theorem ends_ownLog : (reconcile .standard ⟨"ns", "r"⟩).Ends (traceOf 0 ownLog) (.ok .done) :=
  .ask _ (.ask _ (.done _))

theorem answersEach_ownLog : (Expectations.fresh ⟨10⟩).AnswersEach ownLog := by
  refine answersEach_cons rfl (answersEach_cons rfl (answersEach_cons ?_ (answersEach_nil _)))
  decide

end Refusing

open Refusing in
theorem unseen_writes_end_pass :
    (traceOf 0 ownLog).tail = [⟨.trust ⟨"ns", "r"⟩ "", false⟩] ∧
      KeepsOff Orphaning.ruleSet (traceOf 0 log) (.ok .done) ∧
      ∃ k version, StaysPending (.fresh ⟨10⟩) (log.take 7)
        ⟨0, 6, ⟨.trust ⟨"ns", "q"⟩ "", false⟩⟩ k version := by
  have hown := stale_view_ends_pass .standard ⟨"ns", "r"⟩ 0 ownLog _ _ ends_ownLog
    answersEach_ownLog
  have hlisted := stale_view_ends_pass .standard ⟨"ns", "r"⟩ 0 log _ _ ends_log answersEach_log
  refine ⟨?_, ?_, (hlisted.2.2 _ _ [] rfl rfl rfl).2.2⟩
  · apply (hown.1 Orphaning.ruleSet _ rfl _).1
    apply refusesView_of_answersEach answersEach_ownLog
    intro e he _ hcall
    simp only [ownLog, List.mem_cons, List.not_mem_nil, or_false] at he
    rcases he with rfl | rfl | rfl
    · cases hcall
    · cases hcall
    · rfl
  · apply hlisted.2.1 Orphaning.ruleSet [Orphaning.pod, other] _ other rfl rfl (by simp)
    apply refusesView_of_answersEach answersEach_log
    intro e he _ hcall
    simp only [log, openingOf, List.map_cons, List.map_nil, List.cons_append, List.nil_append,
      List.mem_cons, List.not_mem_nil, or_false] at he
    rcases he with rfl | rfl | rfl | rfl | rfl | rfl | rfl | rfl
    -- Only the last one asks about the other pod.
    all_goals first
      | rfl
      | exact absurd (Call.trust.inj hcall).1 (by decide)
      | cases hcall

end PodRules
