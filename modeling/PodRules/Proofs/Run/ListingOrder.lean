import PodRules.Proofs.Cluster.Selection
import PodRules.Proofs.Run.Surroundings
import PodRules.Proofs.Stage.Tasks

/-!
A pass over the same pods listed in two orders. The gate of a deletion counts the pods, the loop
over their views consumes the expectations of all of them or ends the pass, and behind it only the
set of their names is left. Main statement: in surroundings that list otherwise a pass has the same
effects and the same end, unless an entry of the table of pending writes has expired when one of
the passes finds it and not when the other one does (`listing_order_does_not_show`). Where the
entry of a listed pod expires between two questions, the order shows
(`expiring_entry_shows_listing_order`).
-/

namespace PodRules

/-- Calls that are replied to in one way: all but those that list the targets, run the stages, take
the time, write a status or ask whether a view may be trusted. -/
def Call.isShared : Call → Bool
  | .store (.listTargets _ _) => false
  | .store (.updateStatus _) => false
  | .trust _ _ => false
  | .evaluate _ _ _ => false
  | .now => false
  | _ => true

inductive SameListing : Except StoreError (List Pod) → Except StoreError (List Pod) → Prop
  | listed {pods pods' : List Pod} (hperm : pods.Perm pods') (hkeys : (pods.map Pod.key).Nodup) :
      SameListing (.ok pods) (.ok pods')
  | failed (e : StoreError) : SameListing (.error e) (.error e)

inductive SameAcceptance : Except StoreError RuleSet → Except StoreError RuleSet → Prop
  | accepted (stored stored' : RuleSet) : SameAcceptance (.ok stored) (.ok stored')
  | refused (e : StoreError) : SameAcceptance (.error e) (.error e)

/-- Surroundings in related states differ in no more than the order of the listed pods, the order in
which the stages end and the time, and the clocks that the tables read are of their own. -/
structure ListsOtherwise {σ σ' : Type} (R : σ → σ' → Prop) (a : Surroundings σ)
    (b : Surroundings σ') : Prop where
  shared : ∀ s s', R s s' → ∀ c, c.isShared = true →
    (a.reply c s).1 = (b.reply c s').1 ∧ R (a.after c s) (b.after c s')
  asked : ∀ s s', R s s' → ∀ key version key' version',
    R (a.after (.trust key version) s) (b.after (.trust key' version') s')
  listing : ∀ s s', R s s' → ∀ ns selector,
    SameListing (a.reply (.store (.listTargets ns selector)) s).1
        (b.reply (.store (.listTargets ns selector)) s').1 ∧
      R (a.after (.store (.listTargets ns selector)) s)
        (b.after (.store (.listTargets ns selector)) s')
  stages : ∀ s s', R s s' → ∀ names rs targets,
    (∃ outcomes,
        (a.reply (.evaluate names rs targets) s).1.Perm (Completion.pipeline outcomes) ∧
        (b.reply (.evaluate names rs targets) s').1.Perm (Completion.pipeline outcomes)) ∧
      R (a.after (.evaluate names rs targets) s) (b.after (.evaluate names rs targets) s')
  time : ∀ s s', R s s' → R (a.after .now s) (b.after .now s')
  status : ∀ s s', R s s' → ∀ rs rs', rs.timeless = rs'.timeless →
    SameAcceptance (a.reply (.store (.updateStatus rs)) s).1
      (b.reply (.store (.updateStatus rs')) s').1

/-! ## What shows in no order -/

/-- The deletion verdict counts running pods, in whichever order they were listed. -/
theorem RuleSet.deletionVerdict_of_perm (rs : RuleSet) {pods pods' : List Pod}
    (hperm : pods.Perm pods') : rs.deletionVerdict pods = rs.deletionVerdict pods' := by
  unfold deletionVerdict
  rw [hperm.countP_eq]

theorem Call.isShared_of_concerns {c : Call}
    (h : c.concernsTargets = true ∨ c.holdsRuleSet = true ∨ c.letsRuleSetGo = true) :
    c.isShared = true := by
  cases c with
  | store c => cases c <;> simp_all [concernsTargets, holdsRuleSet, letsRuleSetGo, isShared]
  | _ => simp_all [concernsTargets, holdsRuleSet, letsRuleSetGo, isShared]

theorem Call.expectation?_eq_none_of_holdsRuleSet {c : Call} (h : c.holdsRuleSet = true) :
    c.expectation? = none := by
  unfold holdsRuleSet at h
  split at h
  · rfl
  · rfl
  · rfl
  · cases h

/-! ## The loop over the views -/

def Expectations.Judges (t : Expectations) (looks : List Look) (pod : Pod) (trusted : Bool) :
    Prop :=
  ∃ now, (t.trust now pod.key pod.version).1 = trusted ∧ t.found now pod.key ⊆ looks

namespace Expectations

variable {t u : Expectations} {looks looks' : List Look} {pod : Pod} {trusted trusted' : Bool}

theorem Judges.mono (h : t.Judges looks pod trusted) (hl : looks ⊆ looks') :
    t.Judges looks' pod trusted := by
  obtain ⟨now, hanswer, hfound⟩ := h
  exact ⟨now, hanswer, List.Subset.trans hfound hl⟩

/-- Unless the entry has expired for one of two questions only, both have one answer. -/
theorem Judges.unique (h : t.Judges looks pod trusted) (h' : t.Judges looks' pod trusted')
    (hexpiry : SameExpiry looks looks') : trusted = trusted' := by
  obtain ⟨now, rfl, hfound⟩ := h
  obtain ⟨now', rfl, hfound'⟩ := h'
  have hsame : SameExpiry (t.found now pod.key) (t.found now' pod.key) :=
    hexpiry.mono hfound hfound'
  rw [hsame.trust_eq]

/-- What the table answers about other keys does not hang on the entry that was set. -/
theorem Sets.judges {key : ObjectKey} {x : Option Pending} (h : Sets key x t u)
    (hk : pod.key ≠ key) (hu : u.Judges looks pod trusted) : t.Judges looks pod trusted := by
  obtain ⟨now, hanswer, hfound⟩ := hu
  rw [h.trust_fst_of_ne hk] at hanswer
  rw [h.found_of_ne hk] at hfound
  exact ⟨now, hanswer, hfound⟩

end Expectations

def Surroundings.afterViews {σ : Type} (w : Surroundings σ) (pods : List Pod) (s : σ) : σ :=
  pods.foldl (fun s pod => w.after (.trust pod.key pod.version) s) s

section

variable {σ : Type} {w : Surroundings σ} {pod : Pod} {m : Moment σ}

def Surroundings.asked (w : Surroundings σ) (pod : Pod) (m : Moment σ) : Moment σ :=
  (w.handle (.trust pod.key pod.version) m).2

/-- The guard's answer is the table's verdict on that pod at the clock of the call. -/
theorem Surroundings.judges_asked (w : Surroundings σ) (pod : Pod) (m : Moment σ) :
    m.table.Judges (w.asked pod m).looks pod
      (m.table.trust (w.clock m.outer) pod.key pod.version).1 :=
  ⟨w.clock m.outer, rfl, List.subset_append_right ..⟩

theorem follow_trustedNames_of_trusted
    (h : (m.table.trust (w.clock m.outer) pod.key pod.version).1 = true) (pods : List Pod)
    (start : SortedSet String) :
    w.follow (trustedNames (pod :: pods) start) m =
      w.follow (trustedNames pods (start.insert pod.metadata.anyName)) (w.asked pod m) := by
  show w.follow (if (m.table.trust (w.clock m.outer) pod.key pod.version).1 = true then
    trustedNames pods (start.insert pod.metadata.anyName) else .done none) _ = _
  rw [if_pos h]
  rfl

theorem follow_trustedNames_of_refused
    (h : (m.table.trust (w.clock m.outer) pod.key pod.version).1 = false) (pods : List Pod)
    (start : SortedSet String) :
    w.follow (trustedNames (pod :: pods) start) m = (.ok none, w.asked pod m) := by
  show w.follow (if (m.table.trust (w.clock m.outer) pod.key pod.version).1 = true then
    trustedNames pods (start.insert pod.metadata.anyName) else .done none) _ = _
  rw [h, if_neg Bool.false_ne_true]
  rfl

/-- How the loop over the views of pods with keys of their own ends: the table it began with trusts
all of them, each at the reading of its own question, or it does not trust one of them. -/
inductive LooksOver (w : Surroundings σ) (pods : List Pod) (start : SortedSet String)
    (m : Moment σ) : Except Failure (Option (SortedSet String)) × Moment σ → Prop
  | trusted (names : SortedSet String) (n : Moment σ)
      (hall : ∀ pod ∈ pods, m.table.Judges n.looks pod true)
      (hnames : ∀ x, x ∈ names ↔ x ∈ start ∨ x ∈ pods.map (·.metadata.anyName))
      (houter : n.outer = w.afterViews pods m.outer) (heffects : n.effects = m.effects) :
      LooksOver w pods start m (.ok (some names), n)
  | refused (n : Moment σ) (pod : Pod) (hpod : pod ∈ pods)
      (hrefused : m.table.Judges n.looks pod false) (heffects : n.effects = m.effects) :
      LooksOver w pods start m (.ok none, n)

theorem LooksOver.effects {pods : List Pod} {start : SortedSet String}
    {found : Except Failure (Option (SortedSet String)) × Moment σ}
    (h : LooksOver w pods start m found) : found.2.effects = m.effects := by
  cases h with
  | trusted names n hall hnames houter heffects => exact heffects
  | refused n pod hpod hrefused heffects => exact heffects

/-- Behind a trusted pod, the others have keys of their own, so that what its question changed in
the table does not show in theirs. -/
theorem LooksOver.cons {pods : List Pod} {start : SortedSet String}
    {found : Except Failure (Option (SortedSet String)) × Moment σ}
    (hkey : pod.key ∉ pods.map Pod.key)
    (htrust : (m.table.trust (w.clock m.outer) pod.key pod.version).1 = true)
    (hkept : (w.asked pod m).looks ⊆ found.2.looks)
    (h : LooksOver w pods (start.insert pod.metadata.anyName) (w.asked pod m) found) :
    LooksOver w (pod :: pods) start m found := by
  have hsets := Expectations.sets_trust m.table (w.clock m.outer) pod.key pod.version
  have hearlier {q : Pod} {looks : List Look} {trusted : Bool} (hq : q ∈ pods)
      (hjudged : (w.asked pod m).table.Judges looks q trusted) :
      m.table.Judges looks q trusted := by
    have hother : q.key ≠ pod.key := by
      intro heq
      exact hkey (heq ▸ List.mem_map_of_mem hq)
    exact hsets.judges hother hjudged
  cases h with
  | trusted names n hall hnames houter heffects =>
    have hfirst : m.table.Judges (w.asked pod m).looks pod true := htrust ▸ w.judges_asked pod m
    refine .trusted names n ?_ ?_ houter heffects
    · intro q hq
      rcases List.mem_cons.1 hq with rfl | hq
      · exact hfirst.mono hkept
      · exact hearlier hq (hall q hq)
    · intro x
      rw [hnames, SortedSet.mem_insert, List.map_cons, List.mem_cons, or_assoc, or_left_comm]
  | refused n q hq hrefused heffects =>
    exact .refused n q (List.mem_cons_of_mem _ hq) (hearlier hq hrefused) heffects

/-- Looking over a listing, by induction on it: each pod is judged by the entry that its key had at
the start, as the keys are distinct and a look at one key leaves the others alone. -/
theorem looksOver_trustedNames (w : Surroundings σ) {pods : List Pod}
    (hkeys : (pods.map Pod.key).Nodup) (start : SortedSet String) (m : Moment σ) :
    LooksOver w pods start m (w.follow (trustedNames pods start) m) := by
  induction pods generalizing start m with
  | nil =>
    refine .trusted start m ?_ ?_ rfl rfl
    · intro pod hpod
      cases hpod
    · intro x
      simp
  | cons pod pods ih =>
    rw [List.map_cons, List.nodup_cons] at hkeys
    obtain ⟨hkey, hkeys⟩ := hkeys
    cases htrust : (m.table.trust (w.clock m.outer) pod.key pod.version).1 with
    | true =>
      rw [follow_trustedNames_of_trusted htrust]
      exact .cons hkey htrust (w.looks_follow _ _) (ih hkeys _ _)
    | false =>
      rw [follow_trustedNames_of_refused htrust]
      exact .refused _ pod (List.mem_cons_self ..) (htrust ▸ w.judges_asked pod m) rfl

end

/-! ## The parts of a pass -/

section

variable {σ σ' α α' : Type} {R : σ → σ' → Prop} {a : Surroundings σ} {b : Surroundings σ'}
  {m : Moment σ} {m' : Moment σ'} {pods pods' : List Pod} (h : ListsOtherwise R a b)
include h

/-- A shared call is replied to in one way and leaves the moments alike. -/
theorem ListsOtherwise.repliedAlike {c : Call} (hc : c.isShared = true) :
    RepliedAlike a b (Alike R) c := by
  intro m m' hm
  obtain ⟨hreply, houter⟩ := h.shared m.outer m'.outer hm.outer c hc
  rw [← a.outer_handle, ← b.outer_handle] at houter
  refine ⟨?_, houter, hm.effects.handle rfl⟩
  cases c with
  | trust key version => cases hc
  | arm key base => rfl
  | disarm key => rfl
  | _ => exact hreply

/-- One that is not on the table leaves one table as well. -/
theorem ListsOtherwise.repliedAlike_abreast {c : Call} (hc : c.isShared = true)
    (hkey : c.expectation? = none) : RepliedAlike a b (Abreast R) c := by
  intro m m' hm
  obtain ⟨hreply, halike⟩ := h.repliedAlike hc m m' hm.toAlike
  refine ⟨hreply, halike, ?_⟩
  rw [a.handle_of_expectation?_eq_none hkey, b.handle_of_expectation?_eq_none hkey]
  exact hm.table

/-- Calls that both surroundings answer alike keep them alike. -/
theorem ListsOtherwise.coupled_shared {p : Pass α} (hp : p.Asks fun c => c.isShared = true) :
    Coupled a b (Alike R) p p (SameValue (Alike R)) := by
  apply coupled_of_asks
  · exact hp.mono fun c hc => h.repliedAlike hc
  · exact fun m m' hm => hm.effects

/-- A listing turned around has as many looks, and the surroundings stay related over them. -/
theorem ListsOtherwise.afterViews (hlength : pods.length = pods'.length) {s : σ} {s' : σ'}
    (hs : R s s') : R (a.afterViews pods s) (b.afterViews pods' s') := by
  induction pods generalizing pods' s s' with
  | nil =>
    obtain rfl : pods' = [] := List.eq_nil_of_length_eq_zero hlength.symm
    exact hs
  | cons pod pods ih =>
    cases pods' with
    | nil => cases hlength
    | cons pod' pods' =>
      have hfirst := h.asked s s' hs pod.key pod.version pod'.key pod'.version
      exact ih (Nat.succ.inj hlength) hfirst

inductive SameViews (R : σ → σ' → Prop) : Option (SortedSet String) → Option (SortedSet String) →
    Moment σ → Moment σ' → Prop
  | trusted (names : SortedSet String) {m : Moment σ} {m' : Moment σ'} (hm : Alike R m m') :
      SameViews R (some names) (some names) m m'
  | stale {m : Moment σ} {m' : Moment σ'} (heffects : SameEffects m m') :
      SameViews R none none m m'

/-- If no entry expires in one order and not in the other, both orders are trusted alike, with the
same names. -/
theorem coupled_trustedNames (hperm : pods.Perm pods') (hkeys : (pods.map Pod.key).Nodup) :
    Coupled a b (Abreast R) (trustedNames pods ∅) (trustedNames pods' ∅) (SameViews R) := by
  intro m m' hm hexpiry
  have hkeys' : (pods'.map Pod.key).Nodup := (hperm.map Pod.key).nodup_iff.1 hkeys
  have hviews := looksOver_trustedNames a hkeys ∅ m
  have hviews' := looksOver_trustedNames b hkeys' ∅ m'
  generalize a.follow (trustedNames pods ∅) m = found at hviews hexpiry ⊢
  generalize b.follow (trustedNames pods' ∅) m' = found' at hviews' hexpiry ⊢
  have hends : SameEffects found.2 found'.2 := by
    rw [SameEffects, hviews.effects, hviews'.effects]
    exact hm.effects
  -- A view that only one of the loops trusts was asked about in both of them.
  cases hviews with
  | trusted names n hall hnames houter _ =>
    cases hviews' with
    | trusted names' n' _ hnames' houter' _ =>
      have hsame : names = names' := by
        ext x
        rw [hnames, hnames', (hperm.map _).mem_iff]
      have hafter : R n.outer n'.outer := by
        rw [houter, houter']
        exact h.afterViews hperm.length_eq hm.outer
      subst hsame
      exact .done (.trusted names ⟨hafter, hends⟩)
    | refused n' pod hpod hrefused _ =>
      rw [← hm.table] at hrefused
      have hanswer := (hall pod (hperm.mem_iff.2 hpod)).unique hrefused hexpiry
      cases hanswer
  | refused n pod hpod hrefused _ =>
    cases hviews' with
    | trusted names' n' hall _ _ _ =>
      rw [← hm.table] at hall
      have hanswer := hrefused.unique (hall pod (hperm.mem_iff.1 hpod)) hexpiry
      cases hanswer
    | refused n' _ _ _ _ => exact .done (.stale hends)

theorem coupled_carryOut (backoff : RetryBackoff) (ns name : String) (plan : ClaimPlan) :
    Coupled a b (Alike R) (carryOut backoff ns name plan) (carryOut backoff ns name plan)
      (SameValue (Alike R)) := by
  apply h.coupled_shared
  refine Pass.Asks.mono (Pass.asks_carryOut backoff ns name plan) ?_
  exact fun c hc => Call.isShared_of_concerns (.inl hc.1)

theorem coupled_evaluateStages (rs : RuleSet) (targets : List Pod) :
    Coupled a b (Alike R) (evaluateStages rs targets) (evaluateStages rs targets)
      (SameValue (Alike R)) := by
  apply coupled_ask_replied (h.repliedAlike rfl)
  intro names
  apply coupled_ask (Alike R)
  intro m m' hm _
  obtain ⟨⟨outcomes, hperm, hperm'⟩, houter⟩ := h.stages _ _ hm.outer names rs targets
  -- The order in which the stages ended is lost in their merge.
  have hmerge : Completion.combine (a.reply (.evaluate names rs targets) m.outer).1 =
      Completion.combine (b.reply (.evaluate names rs targets) m'.outer).1 := by
    rw [combine_of_perm_pipeline hperm, combine_of_perm_pipeline hperm']
  refine ⟨⟨houter, hm.effects.handle rfl⟩, ?_⟩
  apply coupled_done
  exact fun n n' hn => ⟨hmerge, hn⟩

/-- Of two statuses that differ in their time both are written, or neither is. -/
theorem coupled_recordStatus (rs : RuleSet) {next next' : RuleSetStatus}
    (hnext : { next with updateTime := none } = { next' with updateTime := none }) :
    Coupled a b (Alike R) (recordStatus rs next) (recordStatus rs next')
      fun _ _ m m' => SameEffects m m' := by
  have hsame : rs.recordedStatus.equalButTime next = rs.recordedStatus.equalButTime next' := by
    rw [Bool.eq_iff_iff, RuleSetStatus.equalButTime_iff, RuleSetStatus.equalButTime_iff, hnext]
  have hwrites : { rs with status := some next }.timeless =
      { rs with status := some next' }.timeless := by
    simp only [RuleSet.timeless, Option.map_some, hnext]
  have heffects : (Call.store (.updateStatus { rs with status := some next })).effects =
      (Call.store (.updateStatus { rs with status := some next' })).effects := by
    simp only [Call.effects, StoreCall.timeless, hwrites]
    rfl
  unfold recordStatus
  rw [hsame]
  apply coupled_ite
  · exact coupled_done fun m m' hm => hm.effects
  · apply coupled_ask_replied (h.repliedAlike rfl)
    intro _
    apply coupled_ask SameEffects
    intro m m' hm _
    refine ⟨hm.effects.handle heffects, ?_⟩
    have hreply := h.status m.outer m'.outer hm.outer _ _ hwrites
    rw [a.handle_of_expectation?_eq_none rfl, b.handle_of_expectation?_eq_none rfl]
    generalize (a.reply (.store (.updateStatus { rs with status := some next })) m.outer).1 = reply
      at hreply
    generalize (b.reply (.store (.updateStatus { rs with status := some next' })) m'.outer).1 =
      reply' at hreply
    cases hreply with
    | accepted stored stored' => exact coupled_done fun n n' hn => hn
    | refused e =>
      apply coupled_ask SameEffects
      intro n n' hn _
      exact ⟨hn.handle rfl, coupled_failed _ fun _ _ hl => hl⟩

theorem coupled_recordOutcome (ns : String) (rs : RuleSet) (names : SortedSet String)
    (merged : PipelineResult) :
    Coupled a b (Alike R) (recordOutcome ns rs names merged) (recordOutcome ns rs names merged)
      SameEnd := by
  let next (now : Instant) := statusSnapshot names (rs.metadata.generation.getD 0)
    merged.details.values merged.ruleStates now
  -- The times may differ, and nothing else of the two statuses does.
  have hrecord (now now' : Instant) := coupled_recordStatus h rs
    (show { next now with updateTime := none } = { next now' with updateTime := none } from rfl)
  apply coupled_ask (Alike R)
  intro m m' hm _
  refine ⟨⟨h.time m.outer m'.outer hm.outer, hm.effects.handle rfl⟩, ?_⟩
  apply (hrecord _ _).bind
  intro _ _
  apply coupled_ask SameEffects
  intro n n' hn _
  exact ⟨hn.handle rfl, coupled_done fun _ _ hl => ⟨rfl, hl⟩⟩

/-- The targets' part of a pass does not show the order of the listing. -/
theorem coupled_processTargets (hperm : pods.Perm pods') (hkeys : (pods.map Pod.key).Nodup)
    (settings : Settings) (key : ObjectKey) (rs : RuleSet) :
    Coupled a b (Abreast R) (processTargets settings key rs pods)
      (processTargets settings key rs pods') SameEnd := by
  apply (coupled_trustedNames h hperm hkeys).bind
  intro found found' m m' hviews hexpiry
  cases hviews with
  | stale heffects => exact .done ⟨rfl, heffects⟩
  | trusted names hm =>
    -- Behind the loop the pods are no more than the set of their names.
    have hwork := (coupled_carryOut h settings.retry key.namespaceName key.name
      (.ofSelection rs.recordedStatus.targets names)).bind_value fun targets =>
        (coupled_evaluateStages h rs targets).bind_value fun merged =>
          coupled_recordOutcome h key.namespaceName rs names merged
    exact hwork m m' hm hexpiry

/-! ## The whole pass -/

theorem coupled_afterListing (hperm : pods.Perm pods') (hkeys : (pods.map Pod.key).Nodup)
    (settings : Settings) (key : ObjectKey) (rs : RuleSet) :
    Coupled a b (Abreast R) (afterListing settings key rs pods)
      (afterListing settings key rs pods') SameEnd := by
  have hdone (o : Outcome) : Coupled a b (Alike R) (.done o) (.done o) SameEnd :=
    coupled_done fun m m' hm => ⟨rfl, hm.effects⟩
  have halike : ∀ m m', Abreast R m m' → Alike R m m' := fun m m' hm => hm.toAlike
  unfold afterListing
  rw [rs.deletionVerdict_of_perm hperm]
  cases rs.deletionVerdict pods' with
  | active =>
    -- Holding the rule set leaves one table for the questions that follow.
    have hhold : (holdRuleSet settings.retry rs).Asks (RepliedAlike a b (Abreast R)) := by
      refine Pass.Asks.mono (Pass.asks_holdRuleSet settings.retry rs) ?_
      intro c hc
      exact h.repliedAlike_abreast (Call.isShared_of_concerns (.inr (.inl hc)))
        (Call.expectation?_eq_none_of_holdsRuleSet hc)
    apply (coupled_of_asks hhold fun m m' hm => hm.effects).bind_value
    intro held
    exact coupled_processTargets h hperm hkeys settings key held
  | ready =>
    have hfinish := Pass.Asks.mono (Pass.asks_finishDeletion settings.retry rs) fun c hc =>
      Call.isShared_of_concerns (hc.imp_right .inr)
    apply Coupled.of_imp _ halike
    apply coupled_ite
    · apply (h.coupled_shared hfinish).bind_value
      exact fun _ => hdone .done
    · exact hdone .done
  | blocked running =>
    apply Coupled.of_imp _ halike
    apply coupled_ite
    · apply coupled_ask_replied (h.repliedAlike rfl)
      exact fun _ => hdone _
    · exact hdone .done

/-- The view of the rule set is trusted in both passes, or in neither. -/
theorem coupled_ask_trust (key : ObjectKey) (version : String) {k : Bool → Pass α}
    {k' : Bool → Pass α'} {Q : α → α' → Moment σ → Moment σ' → Prop}
    (hk : ∀ trusted, Coupled a b (Abreast R) (k trusted) (k' trusted) Q) :
    Coupled a b (Abreast R) (.ask (.trust key version) k) (.ask (.trust key version) k') Q := by
  apply coupled_ask (Abreast R)
  intro m m' hm hexpiry
  have hfound : SameExpiry (m.table.found (a.clock m.outer) key)
      (m.table.found (b.clock m'.outer) key) := by
    rw [show b.handle (.trust key version) m' = b.handle (.trust key version)
      { m' with table := m.table } from by rw [hm.table]] at hexpiry
    exact hexpiry.mono (List.subset_append_right ..) (List.subset_append_right ..)
  have htrust := hfound.trust_eq version
  have hreply : (a.handle (.trust key version) m).1 = (b.handle (.trust key version) m').1 := by
    show (m.table.trust _ key version).1 = (m'.table.trust _ key version).1
    rw [htrust, hm.table]
  have htable : (a.handle (.trust key version) m).2.table =
      (b.handle (.trust key version) m').2.table := by
    show (m.table.trust _ key version).2 = (m'.table.trust _ key version).2
    rw [htrust, hm.table]
  have houter := h.asked m.outer m'.outer hm.outer key version key version
  rw [← hreply]
  exact ⟨⟨⟨houter, hm.effects.handle rfl⟩, htable⟩, hk _⟩

/-- A whole pass in surroundings that list in another order ends alike. -/
theorem coupled_reconcile (settings : Settings) (key : ObjectKey) :
    Coupled a b (Abreast R) (reconcile settings key) (reconcile settings key) SameEnd := by
  have hdone (o : Outcome) : Coupled a b (Abreast R) (.done o) (.done o) SameEnd :=
    coupled_done fun m m' hm => ⟨rfl, hm.effects⟩
  apply coupled_ask_replied (h.repliedAlike_abreast rfl rfl)
  intro reply
  rcases reply with (m | m | m) | rs
  · exact hdone .done
  · exact coupled_failed _ fun m m' hm => hm.effects
  · exact coupled_failed _ fun m m' hm => hm.effects
  apply coupled_ask_trust h
  intro trusted
  apply coupled_ite
  · cases rs.spec.selector.query? with
    | error e => exact coupled_failed _ fun m m' hm => hm.effects
    | ok query =>
      apply coupled_ask (Abreast R)
      intro m m' hm _
      obtain ⟨hlisting, houter⟩ := h.listing m.outer m'.outer hm.outer key.namespaceName
        rs.spec.selector
      refine ⟨⟨⟨houter, hm.effects.handle rfl⟩, hm.table⟩, ?_⟩
      rw [a.handle_of_expectation?_eq_none rfl, b.handle_of_expectation?_eq_none rfl]
      generalize (a.reply (.store (.listTargets key.namespaceName rs.spec.selector)) m.outer).1 =
        listing at hlisting
      generalize (b.reply (.store (.listTargets key.namespaceName rs.spec.selector)) m'.outer).1 =
        listing' at hlisting
      cases hlisting with
      | listed hperm hkeys => exact coupled_afterListing h hperm hkeys settings key rs
      | failed e => exact coupled_failed _ fun _ _ hn => hn.effects
  · exact hdone .done

/-- Two surroundings differ in no more than the order of the listed pods, the order in which the
stages end and the time, and every call on the table reads a clock anew. Unless an entry of the
table had expired when one of the passes found it and not when the other one did, a pass over a rule
set with the same table of pending writes asks for the same writes but for the time in a status,
hands the stages the same targets in the same order, tells the sinks the same keys in the same
order, all this in one sequence, and ends with the same outcome or failure. -/
theorem listing_order_does_not_show (settings : Settings) (key : ObjectKey) (t : Expectations)
    (s : σ) (s' : σ') (hs : R s s')
    (hexpiry : SameExpiry (a.follow (reconcile settings key) ⟨s, t, [], []⟩).2.looks
      (b.follow (reconcile settings key) ⟨s', t, [], []⟩).2.looks) :
    (a.follow (reconcile settings key) ⟨s, t, [], []⟩).1 =
        (b.follow (reconcile settings key) ⟨s', t, [], []⟩).1 ∧
      (a.follow (reconcile settings key) ⟨s, t, [], []⟩).2.effects =
        (b.follow (reconcile settings key) ⟨s', t, [], []⟩).2.effects := by
  have hstart : Abreast R ⟨s, t, [], []⟩ ⟨s', t, [], []⟩ := ⟨⟨hs, rfl⟩, rfl⟩
  have hends := coupled_reconcile h settings key _ _ hstart hexpiry
  generalize a.follow (reconcile settings key) ⟨s, t, [], []⟩ = ends at hends ⊢
  generalize b.follow (reconcile settings key) ⟨s', t, [], []⟩ = ends' at hends ⊢
  cases hends with
  | done hsame => exact ⟨congrArg Except.ok hsame.1, hsame.2⟩
  | failed e heffects => exact ⟨rfl, heffects⟩

end

namespace Reordering

def turned {α : Type} (reversed : Bool) (xs : List α) : List α :=
  if reversed then xs.reverse else xs

theorem turned_perm {α : Type} (reversed : Bool) (xs : List α) : (turned reversed xs).Perm xs := by
  cases reversed with
  | false => exact .refl xs
  | true => exact xs.reverse_perm

def answer (reversed : Bool) (today : Instant) : (c : Call) → Cluster → c.Reply × Cluster
  | .store (.listTargets ns selector), s => (.ok (turned reversed (s.list ns selector)), s)
  | .store c, s => s.answer c
  | .stages, s => (["S", "T"], s)
  | .evaluate names rs targets, s =>
    (turned reversed (Completion.pipeline
      (names.map fun n => (n, some (StageResult.declared n rs targets)))), s)
  | .now, s => (today, s)
  | .trust _ _, s => (true, s)
  | .arm _ _, s => ((), s)
  | .disarm _, s => ((), s)
  | .sleep _, s => ((), s)
  | .warn _ _ _, s => ((), s)
  | .notify _ _ _, s => ((), s)

def surroundings (reversed : Bool) (today : Instant) : Surroundings (Cluster × Nat) where
  reply c s := ((answer reversed today c s.1).1, (answer reversed today c s.1).2, s.2 + 1)
  clock s := s.2

def Together (s s' : Cluster × Nat) : Prop := s = s' ∧ s.1.WellKeyed

theorem Together.after {s s' : Cluster × Nat} (h : Together s s') (today today' : Instant)
    (c : Call) :
    Together ((surroundings false today).after c s) ((surroundings true today').after c s') := by
  obtain ⟨rfl, hw⟩ := h
  cases c with
  | store c =>
    cases c with
    | listTargets ns selector => exact ⟨rfl, hw⟩
    | _ => exact ⟨rfl, hw.answer _⟩
  | _ => exact ⟨rfl, hw⟩

theorem sameAcceptance_updateStatus (s : Cluster) {rs rs' : RuleSet}
    (h : rs.metadata = rs'.metadata) :
    SameAcceptance (s.answer (.updateStatus rs)).1 (s.answer (.updateStatus rs')).1 := by
  have hkey : rs.key = rs'.key := congrArg Metadata.key h
  simp only [Cluster.answer, hkey, h]
  cases s.ruleSets.get? rs'.key with
  | none => exact .refused _
  | some stored =>
    by_cases hv : rs'.metadata.mayReplace stored.metadata = true
    · simp only [hv, if_true]
      exact .accepted _ _
    · simp only [hv]
      exact .refused _

theorem listsOtherwise (today today' : Instant) :
    ListsOtherwise Together (surroundings false today) (surroundings true today') where
  shared := by
    intro s s' h c hc
    refine ⟨?_, h.after today today' c⟩
    obtain ⟨rfl, -⟩ := h
    cases c with
    | store c =>
      cases c with
      | listTargets ns selector => cases hc
      | _ => rfl
    | evaluate names rs targets => cases hc
    | now => cases hc
    | _ => rfl
  asked := fun _ _ h key version _ _ => h.after today today' (.trust key version)
  listing := by
    intro s s' h ns selector
    refine ⟨?_, h.after today today' _⟩
    obtain ⟨rfl, hw⟩ := h
    exact .listed (turned_perm true _).symm (Cluster.nodup_keys_list hw ns selector)
  stages := by
    intro s s' h names rs targets
    refine ⟨⟨_, turned_perm false _, turned_perm true _⟩, h.after today today' _⟩
  time := fun _ _ h => h.after today today' .now
  status := by
    rintro s _ ⟨rfl, -⟩ rs rs' htime
    exact sameAcceptance_updateStatus s.1 (RuleSet.mk.inj htime).1

def key : ObjectKey := ⟨"ns", "r"⟩

def ruleSet : RuleSet where
  metadata := { (default : Metadata) with name := some "r", namespaceName := some "ns" }
  spec := ⟨.everything, [⟨"R", "S"⟩]⟩
  status := none

def pod (name : String) : Pod where
  metadata := { (default : Metadata) with name := some name, namespaceName := some "ns" }
  others := []

def start : Cluster :=
  ((Cluster.empty.keepRuleSet ruleSet).keepPod (pod "p")).keepPod (pod "q")

theorem wellKeyed_start : start.WellKeyed :=
  ((Cluster.wellKeyed_empty.keepRuleSet ruleSet).keepPod (pod "p")).keepPod (pod "q")

def fresh : Expectations := .fresh (.ofSeconds 300)

def pending : Expectations := (fresh.arm 0 (pod "p").key "0").arm 0 (pod "q").key ""

def expiring : Expectations := (Expectations.fresh ⟨6⟩).arm 0 (pod "q").key ""

def ended (reversed : Bool) (t : Expectations) (now : Nat) :
    Except Failure Outcome × Moment (Cluster × Nat) :=
  (surroundings reversed ⟨if reversed then 2 else 1, 0⟩).follow (reconcile .standard key)
    ⟨(start, now), t, [], []⟩

end Reordering

open Reordering in
/-- With a fresh table both passes go through, and so they do once the entry of the second pod has
expired; behind a stale view they only put the finalizer on, although one of them came to consume an
expectation and the other one did not. -/
theorem turned_listing_same_effects :
    (turned true (start.list "ns" .everything) = [pod "q", pod "p"] ∧
        turned false (start.list "ns" .everything) = [pod "p", pod "q"]) ∧
      (SameExpiry (ended false expiring 1).2.looks (ended true expiring 1).2.looks ∧
        (ended false expiring 1).1 = (ended true expiring 1).1 ∧
        (ended false expiring 1).2.effects = (ended true expiring 1).2.effects ∧
        (ended true expiring 1).2.effects.length = 7) ∧
      SameExpiry (ended false pending 0).2.looks (ended true pending 0).2.looks ∧
      (ended false pending 0).2.effects = (ended true pending 0).2.effects ∧
      (ended true pending 0).2.effects = [.wrote (.updateRuleSet ruleSet.addFinalizer)] ∧
      (ended false pending 0).2.table.size = 1 ∧ (ended true pending 0).2.table.size = 2 := by
  have hsame (t : Expectations) (now : Nat) :=
    listing_order_does_not_show (listsOtherwise ⟨1, 0⟩ ⟨2, 0⟩) .standard key t (start, now)
      (start, now) ⟨rfl, wellKeyed_start⟩
  have hexpired : SameExpiry (ended false expiring 1).2.looks (ended true expiring 1).2.looks := by
    decide +kernel
  have hpending : SameExpiry (ended false pending 0).2.looks (ended true pending 0).2.looks := by
    decide +kernel
  refine ⟨⟨by decide +kernel, by decide +kernel⟩,
    ⟨hexpired, (hsame expiring 1 hexpired).1, (hsame expiring 1 hexpired).2, ?_⟩,
    hpending, (hsame pending 0 hpending).2, ?_, ?_, ?_⟩
  · decide +kernel
  · decide +kernel
  · decide +kernel
  · decide +kernel

open Reordering in
/-- The two stores and their clocks differ in nothing but the order of a listing and the day, and
the entry of the second pod expires after the fifth call: asked about as the first one its view is
stale, asked about as the second one it is trusted. -/
theorem expiring_entry_shows_listing_order :
    ListsOtherwise Together (surroundings false ⟨1, 0⟩) (surroundings true ⟨2, 0⟩) ∧
      (surroundings false ⟨1, 0⟩).clock = (surroundings true ⟨2, 0⟩).clock ∧
      (ended false expiring 0).2.effects ≠ (ended true expiring 0).2.effects ∧
      (ended false expiring 0).2.effects.length = 7 ∧
      (ended true expiring 0).2.effects = [.wrote (.updateRuleSet ruleSet.addFinalizer)] := by
  refine ⟨listsOtherwise ⟨1, 0⟩ ⟨2, 0⟩, rfl, ?_, ?_, ?_⟩
  · decide +kernel
  · decide +kernel
  · decide +kernel

end PodRules
