import PodRules.Proofs.Cluster.Selection
import PodRules.Proofs.Pass.Ownership

namespace PodRules

namespace Pass

variable {α β : Type} {mayFail : StoreError → Prop} {R : Cluster → Cluster → Prop}

def Carries (mayFail : StoreError → Prop) (R : Cluster → Cluster → Prop) (p : Pass α) : Prop :=
  ∀ s τ t res, s.WellKeyed → p.Ends τ res → Cluster.Serves mayFail s τ t → R s t

section

variable (hrefl : ∀ s, R s s)
include hrefl

theorem carries_done (v : α) : Carries mayFail R (.done v) := by
  intro s τ t res _ h hs
  obtain ⟨rfl, -⟩ := ends_done_iff.1 h
  obtain rfl := Cluster.serves_nil_iff.1 hs
  exact hrefl t

theorem carries_failed (e : Failure) : Carries mayFail R (.failed e : Pass α) := by
  intro s τ t res _ h hs
  obtain ⟨rfl, -⟩ := ends_failed_iff.1 h
  obtain rfl := Cluster.serves_nil_iff.1 hs
  exact hrefl t

/-- A retried attempt has its effect once or not at all. -/
theorem carries_retry {b : RetryBackoff} {key : ObjectKey} {attempt : Pass (Except StoreError α)}
    {effect : Cluster → List StoreCall → Cluster → α → Prop} {reason : Cluster → Prop}
    (hattempt : ∀ s τ t res, s.WellKeyed → attempt.Ends τ res → Cluster.Serves mayFail s τ t →
      ∃ o, res = .ok o ∧ Cluster.Atomic (effect s) (reason s) s (writes τ) t o)
    (heffect : ∀ s ws t v, s.WellKeyed → effect s ws t v → R s t) :
    Carries mayFail R (Pass.retry b key attempt) := by
  intro s τ t res hw h hs
  rcases Cluster.atomic_retry hattempt hw h hs with ⟨v, -, hv⟩ | ⟨-, -, rfl, -⟩
  · exact heffect s _ t v hw hv
  · exact hrefl t

end

/-- A call that is none of the store carries every relation that the rest carries. -/
theorem carries_ask {c : Call} {k : c.Reply → Pass α} (hc : ∀ d, c ≠ .store d)
    (hk : ∀ r, Carries mayFail R (k r)) : Carries mayFail R (.ask c k) := by
  intro s τ t res hw h hs
  obtain ⟨r, rest, rfl, hr⟩ := ends_ask_iff.1 h
  rw [Cluster.serves_aside_iff hc] at hs
  exact hk r s rest t res hw hr hs

/-- A call of the store carries a relation that its answer carries; what follows may rely on the
reply being the answer or a failure. -/
theorem carries_store {c : StoreCall} {k : c.Answer → Pass α}
    (htrans : ∀ s u t, R s u → R u t → R s t)
    (hc : ∀ s : Cluster, s.WellKeyed → R s (s.answer c).2)
    (hk : ∀ (s : Cluster) r, s.WellKeyed → (r = (s.answer c).1 ∨ ∃ e, r = .error e) →
      Carries mayFail R (k r)) : Carries mayFail R (.ask (.store c) k) := by
  intro s τ t res hw h hs
  obtain ⟨r, rest, rfl, hr⟩ := ends_ask_iff.1 h
  rcases Cluster.serves_store_iff.1 hs with ⟨rfl, hs'⟩ | ⟨e, -, rfl, hs'⟩
  · have hrest := hk s _ hw (Or.inl rfl) _ rest t res (hw.answer c) hr hs'
    exact htrans s _ t (hc s hw) hrest
  · exact hk s _ hw (Or.inr ⟨e, rfl⟩) s rest t res hw hr hs'

/-- The second part of a sequence may rely on what a served first part came to. -/
theorem Carries.bind {p : Pass α} {f : α → Pass β}
    (htrans : ∀ s u t, R s u → R u t → R s t) (hp : Carries mayFail R p)
    (hf : ∀ v, (∃ s τ t, s.WellKeyed ∧ p.Ends τ (.ok v) ∧ Cluster.Serves mayFail s τ t) →
      Carries mayFail R (f v)) :
    Carries mayFail R (p.bind f) := by
  intro s τ t res hw h hs
  rcases Cluster.serves_bind h hs with ⟨e, he, -⟩ | ⟨v, τ₁, τ₂, u, rfl, h₁, hs₁, h₂, hs₂⟩
  · exact hp s τ t _ hw he hs
  · have hfirst := hp s τ₁ u _ hw h₁ hs₁
    have hsecond := hf v ⟨s, τ₁, u, hw, h₁, hs₁⟩ u τ₂ t res (hs₁.wellKeyed hw) h₂ hs₂
    exact htrans s u t hfirst hsecond

end Pass

namespace Cluster

variable {mayFail : StoreError → Prop} {s t u : Cluster} {τ : List Exchange} {key : ObjectKey}
  {rs : RuleSet}

structure EditsOwner (owner : String) (edit : Pod → Pod × Bool) : Prop extends
    KeepsIdentity edit where
  bare : ∀ p, (edit p).1.bare = p.bare
  mem_owners : ∀ p r, r ≠ owner → (r ∈ (edit p).1.owners ↔ r ∈ p.owners)

theorem editsOwner_addOwner (owner : String) : EditsOwner owner (·.addOwner owner) := by
  refine ⟨keepsIdentity_addOwner owner, fun p => Pod.bare_addOwner p owner, fun p r hr => ?_⟩
  rw [Pod.mem_owners_addOwner, or_iff_right hr]

theorem editsOwner_removeOwner (owner : String) : EditsOwner owner (·.removeOwner owner) := by
  refine ⟨keepsIdentity_removeOwner owner, fun p => Pod.bare_removeOwner p owner, fun p r hr => ?_⟩
  rw [Pod.mem_owners_removeOwner, and_iff_left hr]

structure Frames (key : ObjectKey) (s t : Cluster) : Prop where
  samePods : SamePods s t
  owns_iff : ∀ r k, (r ≠ key.name ∨ k.namespaceName ≠ key.namespaceName) →
    (t.Owns r k ↔ s.Owns r k)
  get?_ruleSets : ∀ k, k ≠ key → t.ruleSets.get? k = s.ruleSets.get? k

theorem Frames.refl (key : ObjectKey) (s : Cluster) : Frames key s s :=
  ⟨.refl s, fun _ _ _ => Iff.rfl, fun _ _ => rfl⟩

theorem Frames.trans (h₁ : Frames key s u) (h₂ : Frames key u t) : Frames key s t := by
  refine ⟨h₁.samePods.trans h₂.samePods, fun r k h => ?_, fun k h => ?_⟩
  · rw [h₂.owns_iff r k h, h₁.owns_iff r k h]
  · rw [h₂.get?_ruleSets k h, h₁.get?_ruleSets k h]

/-- A write of the rule set alone leaves the pods and the other rule sets as they were. -/
theorem Frames.of_pods (hp : t.pods = s.pods)
    (hr : ∀ k, k ≠ key → t.ruleSets.get? k = s.ruleSets.get? k) : Frames key s t :=
  ⟨.of_eq hp, fun r k _ => owns_congr hp r k, hr⟩

/-- Of the pods an edit of an owner changes no more than their owners. -/
theorem samePods_of_editEffect {k : ObjectKey} {edit : Pod → Pod × Bool} {ws : List StoreCall}
    {w : TargetEdit} {owner : String} (hedit : EditsOwner owner edit) (hw : s.WellKeyed)
    (h : EditEffect k edit s ws t w) : SamePods s t := by
  cases h with
  | absent _ => exact .refl s
  | unchanged _ _ _ => exact .refl s
  | written p hp _ =>
    intro j
    rw [get?_pods_replacePod, hedit.key, hw.pod k p hp]
    split
    next hj => rw [hj, hp, Option.map_some, Option.map_some, Pod.bare_atVersion, hedit.bare]
    next => rfl

/-- An edit of one owner leaves the other owners alone, and all other objects. -/
theorem frames_of_editEffect {n : String} {edit : Pod → Pod × Bool} {ws : List StoreCall}
    {w : TargetEdit} (hedit : EditsOwner key.name edit) (hw : s.WellKeyed)
    (h : EditEffect ⟨key.namespaceName, n⟩ edit s ws t w) : Frames key s t := by
  refine ⟨samePods_of_editEffect hedit hw h, fun r k hrk => ?_, fun k _ => ?_⟩
  · cases h with
    | absent _ => rfl
    | unchanged _ _ _ => rfl
    | written p hp _ =>
      rw [owns_replacePod, hedit.key, hw.pod _ p hp]
      split
      next hk =>
        -- The pod is in the namespace, so the owner is another one.
        have hr : r ≠ key.name := hrk.resolve_right fun hns => hns (by rw [hk])
        rw [hk, owns_of_get? hp, hedit.mem_owners p r hr]
      next => rfl
  · cases h <;> rfl

theorem get?_ruleSets_replaceRuleSet (s : Cluster) (stored rs : RuleSet) {k : ObjectKey}
    (h : k ≠ rs.key) : (s.replaceRuleSet stored rs).2.ruleSets.get? k = s.ruleSets.get? k := by
  simp only [replaceRuleSet]
  split
  · show (s.ruleSets.erase rs.key).get? k = _
    rw [SortedMap.get?_erase, if_neg h]
  · show (s.ruleSets.insert rs.key _).get? k = _
    rw [SortedMap.get?_insert, if_neg h]

/-- An update that leaves nothing to wait for completes the deletion of the rule set. -/
theorem get?_replaceRuleSet (s : Cluster) (stored rs : RuleSet) :
    (s.replaceRuleSet stored rs).2.ruleSets.get? rs.key =
      if rs.metadata.isFinished then none
      else some ({ rs with status := stored.status }.atVersion s.nextVersion) := by
  have hnext : ({ rs with status := stored.status }.atVersion s.nextVersion).metadata.isFinished =
      rs.metadata.isFinished := rfl
  simp only [replaceRuleSet, hnext]
  split
  · show (s.ruleSets.erase rs.key).get? rs.key = none
    rw [SortedMap.get?_erase, if_pos rfl]
  · show (s.ruleSets.insert rs.key _).get? rs.key = _
    rw [SortedMap.get?_insert, if_pos rfl]

theorem frames_replaceRuleSet (s : Cluster) (stored rs : RuleSet) :
    Frames rs.key s (s.replaceRuleSet stored rs).2 :=
  .of_pods (pods_replaceRuleSet s stored rs) fun _ h => get?_ruleSets_replaceRuleSet s stored rs h

theorem frames_answer_updateStatus (hw : s.WellKeyed) (rs : RuleSet) :
    Frames rs.key s (s.answer (.updateStatus rs)).2 := by
  simp only [answer]
  split
  · exact .refl _ s
  next stored hstored =>
    split
    · refine .of_pods rfl fun k hk => ?_
      show (s.ruleSets.insert stored.key _).get? k = _
      rw [SortedMap.get?_insert, hw.ruleSet _ _ hstored, if_neg hk]
    · exact .refl _ s

/-- Whatever is stored under the key of a rule set, what comes back from holding it has that key. -/
theorem key_of_holdRuleSet {b : RetryBackoff} {held : RuleSet} (hw : s.WellKeyed)
    (h : (holdRuleSet b rs).Ends τ (.ok held)) (hs : Serves mayFail s τ t) :
    held.key = rs.key := by
  unfold holdRuleSet at h
  split at h
  · obtain ⟨-, he⟩ := Pass.ends_done_iff.1 h
    cases he
    rfl
  · have hat := atomic_retry (fun _ _ _ _ hw h hs => atomic_holdOnce hw h hs) hw h hs
    rcases hat with ⟨v, he, heff⟩ | ⟨⟨e, he⟩, -⟩
    · cases he
      generalize writes τ = ws at heff
      cases heff with
      | held _ hstored _ => exact hw.ruleSet _ _ hstored
      | written stored hstored _ =>
        have hval := (get?_replaceRuleSet_of_isHeld s stored stored.isHeld_addFinalizer).2
        rw [hval]
        exact hw.ruleSet _ stored hstored
    · cases he

section Parts

variable (hne : ∀ e, mayFail e → e.isNotFound = false)
include hne

/-- An edit of a target stays within what belongs to its rule set. -/
theorem frames_editTarget (b : RetryBackoff) (n : String) {edit : Pod → Pod × Bool}
    (hedit : EditsOwner key.name edit) :
    (editTarget b ⟨key.namespaceName, n⟩ edit).Carries mayFail (Frames key) :=
  Pass.carries_retry (Frames.refl key)
    (fun _ _ _ _ hw h hs => atomic_editOnce hne hedit.toKeepsIdentity hw h hs)
    fun _ _ _ _ hw heff => frames_of_editEffect hedit hw heff

theorem frames_releaseTargets (b : RetryBackoff) (names : List String) :
    (releaseTargets b key.namespaceName key.name names).Carries mayFail (Frames key) := by
  induction names with
  | nil => exact Pass.carries_done (Frames.refl key) ()
  | cons name names ih =>
    have hhead := frames_editTarget hne b name (editsOwner_removeOwner key.name)
    exact hhead.bind (fun _ _ _ => Frames.trans) fun _ _ => ih

theorem frames_claimTarget (b : RetryBackoff) (name : String) :
    (claimTarget b key.namespaceName key.name name).Carries mayFail (Frames key) := by
  have hedit := frames_editTarget hne b name (editsOwner_addOwner key.name)
  refine hedit.bind (fun _ _ _ => Frames.trans) fun w _ => ?_
  cases w with
  | written _ _ => exact Pass.carries_ask (by rintro d ⟨⟩) fun _ => Pass.carries_done (Frames.refl key) _
  | unchanged _ => exact Pass.carries_done (Frames.refl key) _
  | gone => exact Pass.carries_done (Frames.refl key) _

theorem frames_claimTargets (b : RetryBackoff) (names : List String) :
    (claimTargets b key.namespaceName key.name names).Carries mayFail (Frames key) := by
  induction names with
  | nil => exact Pass.carries_done (Frames.refl key) _
  | cons name names ih =>
    have hhead : (claimTarget b key.namespaceName key.name name).Carries mayFail (Frames key) :=
      frames_claimTarget hne b name
    refine hhead.bind (fun _ _ _ => Frames.trans) fun _ _ => ?_
    exact ih.bind (fun _ _ _ => Frames.trans) fun _ _ => Pass.carries_done (Frames.refl key) _

omit hne in
/-- Looking at the views changes nothing in the store. -/
theorem frames_trustedNames (pods : List Pod) (names : SortedSet String) :
    (trustedNames pods names).Carries mayFail (Frames key) := by
  induction pods generalizing names with
  | nil => exact Pass.carries_done (Frames.refl key) _
  | cons pod pods ih =>
    refine Pass.carries_ask (by rintro d ⟨⟩) fun trusted => ?_
    cases trusted with
    | true => exact ih _
    | false => exact Pass.carries_done (Frames.refl key) _

omit hne in
/-- Adding the finalizer changes one rule set and no pod. -/
theorem frames_holdRuleSet (b : RetryBackoff) (rs : RuleSet) :
    (holdRuleSet b rs).Carries mayFail (Frames rs.key) := by
  unfold holdRuleSet
  split
  · exact Pass.carries_done (Frames.refl rs.key) rs
  · refine Pass.carries_retry (Frames.refl rs.key)
      (fun _ _ _ _ hw h hs => atomic_holdOnce hw h hs) fun s ws t v hw heff => ?_
    cases heff with
    | held _ _ _ => exact .refl _ s
    | written stored hstored _ =>
      have hframe := frames_replaceRuleSet s stored stored.addFinalizer
      rwa [RuleSet.key_addFinalizer, hw.ruleSet _ _ hstored] at hframe

theorem frames_letGo (b : RetryBackoff) (rs : RuleSet) :
    (letGo b rs).Carries mayFail (Frames rs.key) := by
  refine Pass.carries_retry (Frames.refl rs.key)
    (fun _ _ _ _ hw h hs => atomic_letGoOnce hne hw h hs) fun s ws t v hw heff => ?_
  cases heff with
  | free _ => exact .refl _ s
  | written stored hstored _ =>
    have hframe := frames_replaceRuleSet s stored stored.dropFinalizer
    rwa [RuleSet.key_dropFinalizer, hw.ruleSet _ _ hstored] at hframe

omit hne in
theorem frames_recordStatus (rs : RuleSet) (next : RuleSetStatus) :
    (recordStatus rs next).Carries mayFail (Frames rs.key) := by
  unfold recordStatus
  split
  · exact Pass.carries_done (Frames.refl rs.key) _
  · refine Pass.carries_ask (by rintro d ⟨⟩) fun _ => ?_
    refine Pass.carries_store (fun _ _ _ => Frames.trans) (fun s hw => ?_) fun _ r _ _ => ?_
    · have hframe := frames_answer_updateStatus hw { rs with status := some next }
      exact hframe
    · cases r with
      | ok stored => exact Pass.carries_done (Frames.refl rs.key) _
      | error e => exact Pass.carries_ask (by rintro d ⟨⟩) fun _ => Pass.carries_failed (Frames.refl rs.key) _

/-- The targets' part of a pass stays within what belongs to its rule set. -/
theorem frames_processTargets (settings : Settings) (hkey : rs.key = key) (selected : List Pod) :
    (processTargets settings key rs selected).Carries mayFail (Frames key) := by
  refine (frames_trustedNames selected ∅).bind (fun _ _ _ => Frames.trans) fun trusted _ => ?_
  cases trusted with
  | none => exact Pass.carries_done (Frames.refl key) _
  | some names =>
    have hcarry : (carryOut settings.retry key.namespaceName key.name
        (.ofSelection rs.recordedStatus.targets names)).Carries mayFail (Frames key) :=
      (frames_releaseTargets hne _ _).bind (fun _ _ _ => Frames.trans) fun _ _ =>
        frames_claimTargets hne _ _
    refine hcarry.bind (fun _ _ _ => Frames.trans) fun targets _ => ?_
    -- Neither the stages nor the clock nor the sinks touch the store.
    refine Pass.Carries.bind (fun _ _ _ => Frames.trans) ?_ fun merged _ => ?_
    · exact Pass.carries_ask (by rintro d ⟨⟩) fun _ => Pass.carries_ask (by rintro d ⟨⟩) fun _ =>
        Pass.carries_done (Frames.refl key) _
    · refine Pass.carries_ask (by rintro d ⟨⟩) fun now => ?_
      refine Pass.Carries.bind (fun _ _ _ => Frames.trans) (hkey ▸ frames_recordStatus rs _) ?_
      exact fun _ _ => Pass.carries_ask (by rintro d ⟨⟩) fun _ => Pass.carries_done (Frames.refl key) _

theorem frames_afterListing (settings : Settings) (hkey : rs.key = key) (selected : List Pod) :
    (afterListing settings key rs selected).Carries mayFail (Frames key) := by
  unfold afterListing
  split
  · refine (hkey ▸ frames_holdRuleSet settings.retry rs).bind (fun _ _ _ => Frames.trans) ?_
    rintro held ⟨s, τ, t, hw, h, hs⟩
    have hheld : held.key = key := (key_of_holdRuleSet hw h hs).trans hkey
    exact frames_processTargets hne settings hheld selected
  · split
    · have hfinish : (finishDeletion settings.retry rs).Carries mayFail (Frames key) := by
        unfold finishDeletion
        rw [hkey]
        exact (frames_releaseTargets hne _ _).bind (fun _ _ _ => Frames.trans) fun _ _ =>
          hkey ▸ frames_letGo hne _ rs
      exact hfinish.bind (fun _ _ _ => Frames.trans) fun _ _ =>
        Pass.carries_done (Frames.refl key) _
    · exact Pass.carries_done (Frames.refl key) _
  · split
    · exact Pass.carries_ask (by rintro d ⟨⟩) fun _ => Pass.carries_done (Frames.refl key) _
    · exact Pass.carries_done (Frames.refl key) _

/-- A pass changes no rule set but its own, no owner but its own and that only in its own
namespace, and nothing else about the pods. -/
theorem frames_reconcile (settings : Settings) (key : ObjectKey) :
    (reconcile settings key).Carries mayFail (Frames key) := by
  have hread (c : StoreCall) (hc : c.isWrite = false) (s : Cluster) :
      Frames key s (s.answer c).2 := by
    rw [answer_snd_of_not_isWrite hc]
    exact .refl key s
  refine Pass.carries_store (fun _ _ _ => Frames.trans) (fun s _ => hread _ rfl s) ?_
  intro s r hw hr
  cases r with
  | error e =>
    cases e with
    | notFound m => exact Pass.carries_done (Frames.refl key) _
    | conflict m => exact Pass.carries_failed (Frames.refl key) _
    | transient m => exact Pass.carries_failed (Frames.refl key) _
  | ok rs =>
    have hkey : rs.key = key := by
      rcases hr with hr | ⟨e, he⟩
      · exact key_of_answer_getRuleSet hw hr.symm
      · cases he
    refine Pass.carries_ask (by rintro d ⟨⟩) fun trusted => ?_
    cases trusted with
    | false => exact Pass.carries_done (Frames.refl key) _
    | true =>
      simp only [if_true]
      split
      · exact Pass.carries_failed (Frames.refl key) _
      · refine Pass.carries_store (fun _ _ _ => Frames.trans) (fun s _ => hread _ rfl s) ?_
        intro _ r _ _
        cases r with
        | error e => exact Pass.carries_failed (Frames.refl key) _
        | ok selected => exact frames_afterListing hne settings hkey selected

end Parts

end Cluster

end PodRules
