import PodRules.Proofs.Run.LateDeletion

/-!
Objects that vanish while a pass runs. A target may be gone at any call about it without harm, and
so may the rule set at the first read and in the deletion. The loop that puts the finalizer on and
the write of the status take the absence of the rule set for a failure. Main statement: a pass fails
for an absence exactly when a rule set that it read as not being deleted is missing behind that read
(`absence_fails_pass_iff`).
-/

namespace PodRules

def Exchange.missing? : Exchange → Option String
  | ⟨.store (.getRuleSet _), .error (.notFound m)⟩ => some m
  | ⟨.store (.updateRuleSet _), .error (.notFound m)⟩ => some m
  | ⟨.store (.updateStatus _), .error (.notFound m)⟩ => some m
  | _ => none

theorem Exchange.missing?_of_concernsTargets {x : Exchange} (h : x.call.concernsTargets = true) :
    x.missing? = none := by
  obtain ⟨c, r⟩ := x
  cases c with
  | store c => cases c <;> first | rfl | cases h
  | _ => rfl

namespace Pass

variable {α β : Type} {shows : Exchange → Option String}

/-- A pass fails for an absence exactly when one of its exchanges shows it. -/
def Reports (shows : Exchange → Option String) (p : Pass α) : Prop :=
  ∀ τ res, p.Ends τ res → ∀ m, res = .error (.store (.notFound m)) ↔ ∃ x ∈ τ, shows x = some m

theorem reports_done (v : α) : Reports shows (.done v) := by
  intro τ res h m
  obtain ⟨rfl, rfl⟩ := ends_done_iff.1 h
  simp

theorem reports_ask {c : Call} {k : c.Reply → Pass α} (hc : ∀ r, shows ⟨c, r⟩ = none)
    (hk : ∀ r, (k r).Reports shows) : Reports shows (.ask c k) := by
  intro τ res h m
  obtain ⟨r, rest, rfl, hr⟩ := ends_ask_iff.1 h
  rw [hk r rest res hr m]
  simp [hc r]

/-- A missing object is reported by whichever part of a pass it shows in. -/
theorem Reports.bind {p : Pass α} {f : α → Pass β} (hp : p.Reports shows)
    (hf : ∀ v, (f v).Reports shows) : (p.bind f).Reports shows := by
  intro τ res h m
  rcases ends_bind_iff.1 h with ⟨e, he, rfl⟩ | ⟨v, τ₁, τ₂, rfl, h₁, h₂⟩
  · rw [← hp τ _ he m]
    simp
  · -- A first part that comes to its end shows no absence.
    have hnone : ¬ ∃ x ∈ τ₁, shows x = some m := by
      rw [← hp τ₁ _ h₁ m]
      simp
    rw [hf v τ₂ res h₂ m]
    simp only [List.mem_append, or_and_right, exists_or]
    exact (or_iff_right hnone).symm

def ReportsOnce (shows : Exchange → Option String) (attempt : Pass (Except StoreError α)) : Prop :=
  ∀ τ res, attempt.Ends τ res →
    ∃ o, res = .ok o ∧ ∀ m, o = .error (.notFound m) ↔ ∃ x ∈ τ, shows x = some m

theorem ReportsOnce.conflicts {attempt : Pass (Except StoreError α)} {τ : List Exchange}
    (h : attempt.ReportsOnce shows) (hs : ∀ d, shows ⟨.sleep d, ()⟩ = none)
    (hτ : Conflicts attempt τ) (m : String) : ¬ ∃ x ∈ τ, shows x = some m := by
  induction hτ with
  | nil => simp
  | @wait τ rest c span ht _ ih =>
    -- A conflict is no absence.
    obtain ⟨o, ho, hshows⟩ := h τ _ ht
    cases ho
    have hnone := (not_congr (hshows m)).1 (by simp)
    rintro ⟨x, hx, hm⟩
    rcases List.mem_append.1 hx with hx | hx
    · exact hnone ⟨x, hx, hm⟩
    · rcases List.mem_cons.1 hx with rfl | hx
      · cases (hs span).symm.trans hm
      · exact ih ⟨x, hx, hm⟩

/-- With retries, a missing object is reported by the last attempt. -/
theorem ReportsOnce.retry {b : RetryBackoff} {key : ObjectKey}
    {attempt : Pass (Except StoreError α)} (h : attempt.ReportsOnce shows)
    (hs : ∀ d, shows ⟨.sleep d, ()⟩ = none) : (Pass.retry b key attempt).Reports shows := by
  intro τ res ht m
  obtain ⟨before, last, rfl, hb, hl⟩ := ht.retry
  have hbefore := h.conflicts hs hb m
  simp only [List.mem_append, or_and_right, exists_or, or_iff_right hbefore]
  cases hl with
  | value v hv =>
    obtain ⟨o, ho, hshows⟩ := h last _ hv
    cases ho
    simpa using hshows m
  | refused e hc hv =>
    obtain ⟨o, ho, hshows⟩ := h last _ hv
    cases ho
    simpa using hshows m
  | exhausted c hv =>
    obtain ⟨o, ho, hshows⟩ := h last _ hv
    cases ho
    simpa using hshows m
  | broken e hv =>
    obtain ⟨o, ho, -⟩ := h last _ hv
    cases ho

/-! ## The parts of a pass -/

section

variable (hshows : ∀ x : Exchange, x.call.concernsTargets = true → shows x = none)
include hshows

/-- A target that is gone is no failure at any call. -/
theorem reports_editTarget (b : RetryBackoff) (key : ObjectKey) (edit : Pod → Pod × Bool) :
    (editTarget b key edit).Reports shows := by
  refine ReportsOnce.retry (fun τ res h => ?_) fun d => hshows _ rfl
  obtain ⟨o, rfl, ha⟩ := ends_editOnce h
  have hread (r : StoreCall.Answer (.getTarget key)) : shows ⟨.store (.getTarget key), r⟩ = none :=
    hshows _ rfl
  have hwrite (pod : Pod) (r : StoreCall.Answer (.updateTarget pod)) :
      shows ⟨.store (.updateTarget pod), r⟩ = none := hshows _ rfl
  refine ⟨o, rfl, fun m => ?_⟩
  cases ha with
  | absent _ => simp [hread]
  | unread e he => cases e <;> simp_all [StoreError.isNotFound]
  | unchanged pod hc => simp [hread]
  | written pod stored hc => simp [hread, hwrite]
  | vanished pod _ hc => simp [hread, hwrite]
  | unwritten pod e hc he => cases e <;> simp_all [StoreError.isNotFound]

theorem reports_releaseTargets (b : RetryBackoff) (ns ruleSet : String) (names : List String) :
    (releaseTargets b ns ruleSet names).Reports shows := by
  induction names with
  | nil => exact reports_done ()
  | cons name names ih => exact (reports_editTarget hshows b _ _).bind fun _ => ih

theorem reports_claimTargets (b : RetryBackoff) (ns ruleSet : String) (names : List String) :
    (claimTargets b ns ruleSet names).Reports shows := by
  induction names with
  | nil => exact reports_done []
  | cons name names ih =>
    have hclaim : (claimTarget b ns ruleSet name).Reports shows := by
      refine (reports_editTarget hshows b _ _).bind fun w => ?_
      cases w with
      | written base pod => exact reports_ask (fun _ => hshows _ rfl) fun _ => reports_done _
      | unchanged pod => exact reports_done _
      | gone => exact reports_done _
    exact hclaim.bind fun _ => ih.bind fun _ => reports_done _

/-- Claims and releases report no missing target: it counts as gone. -/
theorem reports_carryOut (b : RetryBackoff) (ns ruleSet : String) (plan : ClaimPlan) :
    (carryOut b ns ruleSet plan).Reports shows :=
  (reports_releaseTargets hshows b ns ruleSet _).bind fun _ =>
    reports_claimTargets hshows b ns ruleSet _

end

/-- The deletion takes the absence of the rule set for its success. -/
theorem reports_finishDeletion (b : RetryBackoff) (rs : RuleSet) :
    (finishDeletion b rs).Reports fun _ => none := by
  refine (reports_releaseTargets (fun _ _ => rfl) b _ _ _).bind fun _ => ?_
  refine ReportsOnce.retry (fun τ res h => ?_) fun _ => rfl
  obtain ⟨o, rfl, ha⟩ := ends_letGoOnce h
  refine ⟨o, rfl, fun m => ?_⟩
  cases ha with
  | unread e he => cases e <;> simp_all [StoreError.isNotFound]
  | unwritten stored e hh he => cases e <;> simp_all [StoreError.isNotFound]
  | _ => simp

/-- Making sure of the finalizer takes it for a failure. -/
theorem reports_holdRuleSet (b : RetryBackoff) (rs : RuleSet) :
    (holdRuleSet b rs).Reports Exchange.missing? := by
  unfold holdRuleSet
  split
  · exact reports_done rs
  · refine ReportsOnce.retry (fun τ res h => ?_) fun _ => rfl
    obtain ⟨o, rfl, ha⟩ := ends_holdOnce h
    refine ⟨o, rfl, fun m => ?_⟩
    cases ha with
    | unread e => cases e <;> simp [Exchange.missing?]
    | held stored hh => simp [Exchange.missing?]
    | answered stored _ hh => rcases o with (c | c | c) | next <;> simp [Exchange.missing?]

/-- So does the write of the status. -/
theorem reports_recordStatus (rs : RuleSet) (next : RuleSetStatus) :
    (recordStatus rs next).Reports Exchange.missing? := by
  unfold recordStatus
  split
  · exact reports_done _
  · refine reports_ask (fun _ => rfl) fun _ τ res h m => ?_
    obtain ⟨r, rest, rfl, h₁⟩ := ends_ask_iff.1 h
    rcases r with e | stored
    · obtain ⟨_, rest, rfl, h₂⟩ := ends_ask_iff.1 h₁
      obtain ⟨rfl, rfl⟩ := ends_failed_iff.1 h₂
      cases e <;> simp [Exchange.missing?]
    · obtain ⟨rfl, rfl⟩ := ends_done_iff.1 h₁
      simp [Exchange.missing?]

theorem reports_trustedNames (pods : List Pod) (names : SortedSet String) :
    (trustedNames pods names).Reports Exchange.missing? := by
  induction pods generalizing names with
  | nil => exact reports_done _
  | cons pod pods ih =>
    refine reports_ask (fun _ => rfl) fun trusted => ?_
    cases trusted with
    | true => exact ih _
    | false => exact reports_done _

/-- The targets' part of a pass reports a missing rule set only. -/
theorem reports_processTargets (settings : Settings) (key : ObjectKey) (rs : RuleSet)
    (selected : List Pod) :
    (processTargets settings key rs selected).Reports Exchange.missing? := by
  refine (reports_trustedNames selected ∅).bind fun names => ?_
  cases names with
  | none => exact reports_done _
  | some names =>
    refine (reports_carryOut (fun _ => Exchange.missing?_of_concernsTargets) _ _ _ _).bind
      fun targets => ?_
    refine reports_ask (fun _ => rfl) fun stages => reports_ask (fun _ => rfl) fun completions => ?_
    refine reports_ask (fun _ => rfl) fun now => (reports_recordStatus rs _).bind fun _ => ?_
    exact reports_ask (fun _ => rfl) fun _ => reports_done _

end Pass

/-- Behind the listing an absence counts unless the rule set is being deleted. -/
theorem absence_fails_listedPass_iff {settings : Settings} {key : ObjectKey} {rs : RuleSet}
    {selected : List Pod} {τ : List Exchange} {res : Except Failure Outcome}
    (h : ListedPass settings key rs selected τ res) (m : String) :
    res = .error (.store (.notFound m)) ↔
      rs.isTerminating = false ∧ ∃ x ∈ τ, x.missing? = some m := by
  cases h with
  | active ha h =>
    have hparts : ((holdRuleSet settings.retry rs).bind fun held =>
        processTargets settings key held selected).Reports Exchange.missing? :=
      (Pass.reports_holdRuleSet _ rs).bind fun held => Pass.reports_processTargets _ _ held _
    rw [hparts τ res h m]
    simp [ha]
  | free ht hh => simp
  | deleting ht hh hv h =>
    have hparts : ((finishDeletion settings.retry rs).bind fun _ =>
        Pass.done Outcome.done).Reports fun _ => none :=
      (Pass.reports_finishDeletion _ rs).bind fun _ => Pass.reports_done _
    rw [hparts τ res h m]
    simp [ht]
  | waiting running hh hv => simp [Exchange.missing?]

/-- A pass in which no listing finds an absence fails for one exactly when a rule set that it read
as not being deleted is missing at a later call. -/
theorem absence_fails_pass_iff {settings : Settings} {key : ObjectKey} {τ : List Exchange}
    {res : Except Failure Outcome} (h : (reconcile settings key).Ends τ res)
    (hlist : ∀ ns selector m, ⟨.store (.listTargets ns selector), .error (.notFound m)⟩ ∉ τ)
    (m : String) :
    res = .error (.store (.notFound m)) ↔
      ∃ rs rest, τ = ⟨.store (.getRuleSet key), .ok rs⟩ :: rest ∧ rs.isTerminating = false ∧
        ∃ x ∈ rest, x.missing? = some m := by
  cases ends_reconcile h with
  | absent _ => simp
  | unread e he => cases e <;> simp_all [StoreError.isNotFound]
  | stale rs => simp [Exchange.missing?]
  | invalid rs e he => simp [Exchange.missing?]
  | unlisted rs e =>
    cases e with
    | notFound c => exact absurd (by simp) (hlist key.namespaceName rs.spec.selector c)
    | conflict c => simp [Exchange.missing?]
    | transient c => simp [Exchange.missing?]
  | @listed rs selected rest _ h₁ =>
    rw [absence_fails_listedPass_iff (ends_afterListing h₁) m]
    constructor
    · rintro ⟨ha, x, hx, hm⟩
      exact ⟨rs, _, rfl, ha, x, by simp [hx], hm⟩
    · rintro ⟨rs', rest', hτ, ha, x, hx, hm⟩
      obtain ⟨he, rfl⟩ := List.cons.inj hτ
      cases he
      -- Neither the trust in the view nor a listing shows that the rule set is missing.
      simp only [List.mem_cons] at hx
      obtain rfl | rfl | hx := hx
      · cases hm
      · cases hm
      · exact ⟨ha, x, hx, hm⟩

namespace Vanishing

open Editing (key ruleSet)

def held : RuleSet := ruleSet.addFinalizer.atVersion "1"

def start (rs : RuleSet) : Cluster := Cluster.empty.keepRuleSet rs

def afterDeletion (rs : RuleSet) : Cluster := (start rs).deleteRuleSet key

def gone : StoreError := Cluster.missing key

def opening (rs : RuleSet) : List Event :=
  [⟨start rs, start rs, some (0, ⟨.store (.getRuleSet key), .ok rs⟩)⟩,
    ⟨start rs, start rs, some (0, ⟨.trust key rs.version, true⟩)⟩,
    ⟨start rs, start rs, some (0, ⟨.store (.listTargets "ns" rs.spec.selector), .ok []⟩)⟩]

def unread : List Event :=
  opening ruleSet ++
    [⟨start ruleSet, afterDeletion ruleSet, none⟩,
      ⟨afterDeletion ruleSet, afterDeletion ruleSet,
        some (0, ⟨.store (.getRuleSet key), .error gone⟩)⟩]

def unrecorded : List Event :=
  opening held ++
    [⟨start held, start held, some (0, ⟨.stages, []⟩)⟩,
      ⟨start held, start held, some (0, ⟨.evaluate [] held [], []⟩)⟩,
      ⟨start held, start held, some (0, ⟨.now, default⟩)⟩,
      ⟨start held, start held, some (0, ⟨.arm key held.version, ()⟩)⟩,
      ⟨start held, afterDeletion held, none⟩,
      ⟨afterDeletion held, afterDeletion held, some (0, ⟨.store (.updateStatus
        { held with status := some (statusSnapshot ∅ 1 [] [] default) }), .error gone⟩)⟩,
      ⟨afterDeletion held, afterDeletion held, some (0, ⟨.disarm key, ()⟩)⟩]

theorem wellKeyed_start (rs : RuleSet) : (start rs).WellKeyed :=
  Cluster.wellKeyed_empty.keepRuleSet rs

theorem leads_opening {rs : RuleSet} (hrs : (start rs).ruleSets.get? key = some rs) :
    Leads (start rs) (opening rs) (start rs) := by
  have hlist : (start rs).answer (.listTargets "ns" rs.spec.selector) = (.ok [], start rs) := rfl
  exact .cons (.served (Cluster.answer_getRuleSet hrs)) <| .cons (.aside (by rintro c ⟨⟩)) <|
    .cons (.served hlist) (.nil _)

theorem sharedPass_unread : SharedPass .standard key ruleSet (start ruleSet) unread
    (afterDeletion ruleSet) (.error (.store gone)) := by
  have hread : (afterDeletion ruleSet).answer (.getRuleSet key) =
      (.error gone, afterDeletion ruleSet) := rfl
  refine ⟨(leads_opening rfl).append ?_, ?_, rfl⟩
  · exact .cons (.edit (Cluster.advances_deleteRuleSet _ _)) <| .cons (.served hread) (.nil _)
  · exact .ask _ (.ask _ (.ask _ (.ask _ (.failed _))))

theorem sharedPass_unrecorded : SharedPass .standard key held (start held) unrecorded
    (afterDeletion held) (.error (.store gone)) := by
  have hwrite : (afterDeletion held).answer (.updateStatus
      { held with status := some (statusSnapshot ∅ 1 [] [] default) }) =
        (.error gone, afterDeletion held) := rfl
  refine ⟨(leads_opening rfl).append ?_, ?_, rfl⟩
  · refine .cons (.aside ?_) <| .cons (.aside ?_) <| .cons (.aside ?_) <| .cons (.aside ?_) <|
      .cons (.edit (Cluster.advances_deleteRuleSet _ _)) <| .cons (.served hwrite) <|
      .cons (.aside ?_) (.nil _)
    all_goals
      rintro c ⟨⟩
  · exact .ask _ (.ask _ (.ask _ (.ask _ (.ask _ (.ask _ (.ask _ (.ask _ (.ask _
      (.failed _)))))))))

end Vanishing

open Vanishing in
/-- Somebody deletes the rule set between the first two reads of a pass, which fails for that. -/
theorem deleted_rule_set_fails_pass :
    (start Editing.ruleSet).WellKeyed ∧
      SharedPass .standard Editing.key Editing.ruleSet (start Editing.ruleSet) unread
        (afterDeletion Editing.ruleSet) (.error (.store (.notFound "ns/r"))) ∧
      exchangesOf 0 unread =
        [⟨.store (.getRuleSet Editing.key), .ok Editing.ruleSet⟩,
          ⟨.trust Editing.key Editing.ruleSet.version, true⟩,
          ⟨.store (.listTargets "ns" Editing.ruleSet.spec.selector), .ok []⟩,
          ⟨.store (.getRuleSet Editing.key), .error (.notFound "ns/r")⟩] :=
  ⟨wellKeyed_start _, sharedPass_unread, rfl⟩

open Vanishing in
/-- The rule set has its finalizer already, and is deleted before its status is written. -/
theorem rule_set_missing_at_its_record :
    SharedPass .standard Editing.key held (start held) unrecorded (afterDeletion held)
        (.error (.store (.notFound "ns/r"))) ∧
      ∃ rs rest, exchangesOf 0 unrecorded = ⟨.store (.getRuleSet Editing.key), .ok rs⟩ :: rest ∧
        rs.isTerminating = false ∧ ∃ x ∈ rest, x.missing? = some "ns/r" := by
  have hlist (ns : String) (selector : LabelSelector) (m : String) :
      ⟨.store (.listTargets ns selector), .error (.notFound m)⟩ ∉ exchangesOf 0 unrecorded := by
    simp [exchangesOf, unrecorded, opening]
  exact ⟨sharedPass_unrecorded,
    (absence_fails_pass_iff sharedPass_unrecorded.ends hlist "ns/r").1 rfl⟩

end PodRules
