import PodRules.Proofs.Pass.Effects

namespace PodRules

namespace Cluster

def Owns (s : Cluster) (ruleSet : String) (pod : ObjectKey) : Prop :=
  ∃ p, s.pods.get? pod = some p ∧ ruleSet ∈ p.owners

def recorded (s : Cluster) (key : ObjectKey) : List String :=
  ((s.ruleSets.get? key).map fun rs => rs.recordedStatus.targets).getD []

def Claims (ruleSet : String) (ws : List StoreCall) (pod : ObjectKey) : Prop :=
  ∃ p, .updateTarget p ∈ ws ∧ p.key = pod ∧ ruleSet ∈ p.owners

@[simp] theorem not_claims_nil {ruleSet : String} {pod : ObjectKey} : ¬ Claims ruleSet [] pod := by
  rintro ⟨p, hp, -⟩
  cases hp

theorem claims_append {ruleSet : String} {ws vs : List StoreCall} {pod : ObjectKey} :
    Claims ruleSet (ws ++ vs) pod ↔ Claims ruleSet ws pod ∨ Claims ruleSet vs pod := by
  constructor
  · rintro ⟨p, hp, hk⟩
    exact (List.mem_append.1 hp).imp (fun h => ⟨p, h, hk⟩) fun h => ⟨p, h, hk⟩
  · rintro (⟨p, hp, hk⟩ | ⟨p, hp, hk⟩)
    · exact ⟨p, List.mem_append_left _ hp, hk⟩
    · exact ⟨p, List.mem_append_right _ hp, hk⟩

variable {mayFail : StoreError → Prop} {s t : Cluster} {τ : List Exchange} {ws : List StoreCall}
  {owner ns : String} {key : ObjectKey}

theorem get?_pods_replacePod (s : Cluster) (p : Pod) (k : ObjectKey) :
    (s.replacePod p).2.pods.get? k =
      if k = p.key then some (p.atVersion s.nextVersion) else s.pods.get? k :=
  SortedMap.get?_insert s.pods p.key k _

/-- A replaced pod has the owners that were written, and the others keep theirs. -/
theorem owns_replacePod {p : Pod} {ruleSet : String} {k : ObjectKey} :
    (s.replacePod p).2.Owns ruleSet k ↔
      if k = p.key then ruleSet ∈ p.owners else s.Owns ruleSet k := by
  unfold Owns
  rw [get?_pods_replacePod]
  split <;> simp

theorem owns_of_get? {p : Pod} (h : s.pods.get? key = some p) (ruleSet : String) :
    s.Owns ruleSet key ↔ ruleSet ∈ p.owners := by
  simp [Owns, h]

/-- A pass served by a store either fails in its first part, or its second part goes on from the
state that the first one left. -/
theorem serves_bind {α β : Type} {p : Pass α} {f : α → Pass β} {res : Except Failure β}
    (h : (p.bind f).Ends τ res) (hs : Serves mayFail s τ t) :
    (∃ e, p.Ends τ (.error e) ∧ res = .error e) ∨
      ∃ v τ₁ τ₂ u, τ = τ₁ ++ τ₂ ∧ p.Ends τ₁ (.ok v) ∧ Serves mayFail s τ₁ u ∧
        (f v).Ends τ₂ res ∧ Serves mayFail u τ₂ t := by
  rcases Pass.ends_bind_iff.1 h with he | ⟨v, τ₁, τ₂, rfl, h₁, h₂⟩
  · exact Or.inl he
  · obtain ⟨u, hs₁, hs₂⟩ := serves_append_iff.1 hs
    exact Or.inr ⟨v, τ₁, τ₂, u, rfl, h₁, hs₁, h₂, hs₂⟩

/-! ## Releases -/

structure Releases (owner : String) (pods : ObjectKey → Prop) (s : Cluster) (ws : List StoreCall)
    (t : Cluster) : Prop where
  ruleSets : t.ruleSets = s.ruleSets
  owns_of_owns : ∀ r k, t.Owns r k → s.Owns r k
  owns_or : ∀ r k, s.Owns r k → t.Owns r k ∨ (r = owner ∧ pods k)
  not_claims : ∀ k, ¬ Claims owner ws k

theorem Releases.refl (owner : String) (pods : ObjectKey → Prop) (s : Cluster) :
    Releases owner pods s [] s :=
  ⟨rfl, fun _ _ h => h, fun _ _ h => Or.inl h, fun _ => not_claims_nil⟩

theorem Releases.trans {pods : ObjectKey → Prop} {u : Cluster} {vs : List StoreCall}
    (h₁ : Releases owner pods s ws u) (h₂ : Releases owner pods u vs t) :
    Releases owner pods s (ws ++ vs) t := by
  refine ⟨h₂.ruleSets.trans h₁.ruleSets, fun r k h => h₁.owns_of_owns r k (h₂.owns_of_owns r k h),
    fun r k h => ?_, fun k h => ?_⟩
  · rcases h₁.owns_or r k h with h | h
    · exact h₂.owns_or r k h
    · exact Or.inr h
  · rcases claims_append.1 h with h | h
    · exact h₁.not_claims k h
    · exact h₂.not_claims k h

theorem Releases.mono {pods pods' : ObjectKey → Prop} (h : Releases owner pods s ws t)
    (hp : ∀ k, pods k → pods' k) : Releases owner pods' s ws t :=
  ⟨h.ruleSets, h.owns_of_owns, fun r k hk => (h.owns_or r k hk).imp id fun hk => ⟨hk.1, hp k hk.2⟩,
    h.not_claims⟩

/-- Removing an owner releases that one pod, and it is free of the owner then. -/
theorem releases_of_editEffect {w : TargetEdit} (hw : s.WellKeyed)
    (h : EditEffect key (·.removeOwner owner) s ws t w) :
    Releases owner (· = key) s ws t ∧ ¬ t.Owns owner key := by
  cases h with
  | absent hp =>
    refine ⟨.refl owner _ s, ?_⟩
    rintro ⟨p, hk, -⟩
    cases hp.symm.trans hk
  | unchanged p hp hc =>
    -- An edit that changes nothing found no such owner.
    refine ⟨.refl owner _ s, fun ho => ?_⟩
    rw [owns_of_get? hp] at ho
    simp [Pod.removeOwner_changes.2 ho] at hc
  | written p hp hc =>
    have hkey : (p.removeOwner owner).1.key = key := by rw [Pod.key_removeOwner, hw.pod key p hp]
    -- Only the owners of the written pod differ, and only by the released name.
    refine ⟨⟨rfl, fun r k h => ?_, fun r k h => ?_, fun k => ?_⟩, fun h => ?_⟩
    · rw [owns_replacePod, hkey] at h
      split at h
      next he =>
        rw [he, owns_of_get? hp]
        exact ((Pod.mem_owners_removeOwner p owner r).1 h).1
      next => exact h
    · rw [owns_replacePod, hkey]
      split
      next he =>
        rw [he, owns_of_get? hp] at h
        by_cases hr : r = owner
        · exact Or.inr ⟨hr, he⟩
        · exact Or.inl ((Pod.mem_owners_removeOwner p owner r).2 ⟨h, hr⟩)
      next => exact Or.inl h
    · rintro ⟨q, hq, -, ho⟩
      cases List.mem_singleton.1 hq
      exact ((Pod.mem_owners_removeOwner p owner owner).1 ho).2 rfl
    · rw [owns_replacePod, hkey, if_pos rfl] at h
      exact ((Pod.mem_owners_removeOwner p owner owner).1 h).2 rfl

section Served

variable (hne : ∀ e, mayFail e → e.isNotFound = false)
include hne

/-- Whether it succeeds or not, a release takes away nothing but this owner of this pod. -/
theorem releases_of_editTarget {b : RetryBackoff} {res : Except Failure TargetEdit}
    (hw : s.WellKeyed) (h : (editTarget b key (·.removeOwner owner)).Ends τ res)
    (hs : Serves mayFail s τ t) :
    Releases owner (· = key) s (writes τ) t ∧ ∀ w, res = .ok w → ¬ t.Owns owner key := by
  rcases atomic_editTarget hne (keepsIdentity_removeOwner owner) hw h hs with
    ⟨w, -, heff⟩ | ⟨⟨e, rfl⟩, hnone, rfl, -⟩
  · have hr := releases_of_editEffect hw heff
    exact ⟨hr.1, fun _ _ => hr.2⟩
  · rw [hnone]
    exact ⟨.refl owner _ _, by rintro w ⟨⟩⟩

/-- Releases take away nothing but the owner of the named pods, and all of it when they succeed. -/
theorem releases_of_releaseTargets {b : RetryBackoff} {names : List String}
    {res : Except Failure Unit} (hw : s.WellKeyed)
    (h : (releaseTargets b ns owner names).Ends τ res) (hs : Serves mayFail s τ t) :
    Releases owner (fun k => ∃ n ∈ names, k = ⟨ns, n⟩) s (writes τ) t ∧
      (res = .ok () → ∀ n ∈ names, ¬ t.Owns owner ⟨ns, n⟩) := by
  -- On the names, from any state: later releases give nobody an owner back.
  induction names generalizing s τ with
  | nil =>
    obtain ⟨rfl, rfl⟩ := Pass.ends_done_iff.1 h
    obtain rfl := serves_nil_iff.1 hs
    exact ⟨.refl owner _ _, by simp⟩
  | cons name names ih =>
    have hhead : ∀ k, k = ⟨ns, name⟩ → ∃ n ∈ name :: names, k = (⟨ns, n⟩ : ObjectKey) :=
      fun k hk => ⟨name, by simp, hk⟩
    rcases serves_bind h hs with ⟨e, he, rfl⟩ | ⟨w, τ₁, τ₂, u, rfl, h₁, hs₁, h₂, hs₂⟩
    · exact ⟨(releases_of_editTarget hne hw he hs).1.mono hhead, by rintro ⟨⟩⟩
    obtain ⟨hr₁, hno₁⟩ := releases_of_editTarget hne hw h₁ hs₁
    obtain ⟨hr₂, hno₂⟩ := ih (hs₁.wellKeyed hw) h₂ hs₂
    rw [writes_append]
    refine ⟨(hr₁.mono hhead).trans (hr₂.mono ?_), fun hres n hn ho => ?_⟩
    · rintro k ⟨n, hn, hk⟩
      exact ⟨n, List.mem_cons_of_mem _ hn, hk⟩
    · rcases List.mem_cons.1 hn with rfl | hn
      · exact hno₁ w rfl (hr₂.owns_of_owns _ _ ho)
      · exact hno₂ hres n hn ho

end Served

/-! ## Claims -/

structure Adds (owner : String) (pods : ObjectKey → Prop) (s : Cluster) (ws : List StoreCall)
    (t : Cluster) : Prop where
  ruleSets : t.ruleSets = s.ruleSets
  owns_iff : ∀ r k, t.Owns r k ↔ s.Owns r k ∨ Claims r ws k
  claims : ∀ k, Claims owner ws k → pods k

theorem Adds.refl (owner : String) (pods : ObjectKey → Prop) (s : Cluster) :
    Adds owner pods s [] s :=
  ⟨rfl, by simp, by simp⟩

theorem Adds.trans {pods : ObjectKey → Prop} {u : Cluster} {vs : List StoreCall}
    (h₁ : Adds owner pods s ws u) (h₂ : Adds owner pods u vs t) :
    Adds owner pods s (ws ++ vs) t := by
  refine ⟨h₂.ruleSets.trans h₁.ruleSets, fun r k => ?_, fun k h => ?_⟩
  · rw [h₂.owns_iff, h₁.owns_iff, claims_append, or_assoc]
  · rcases claims_append.1 h with h | h
    · exact h₁.claims k h
    · exact h₂.claims k h

theorem Adds.mono {pods pods' : ObjectKey → Prop} (h : Adds owner pods s ws t)
    (hp : ∀ k, pods k → pods' k) : Adds owner pods' s ws t :=
  ⟨h.ruleSets, h.owns_iff, fun k hk => hp k (h.claims k hk)⟩

theorem adds_of_editEffect {w : TargetEdit} (hw : s.WellKeyed)
    (h : EditEffect key (·.addOwner owner) s ws t w) : Adds owner (· = key) s ws t := by
  cases h with
  | absent hp => exact .refl owner _ s
  | unchanged p hp hc => exact .refl owner _ s
  | written p hp hc =>
    have hkey : (p.addOwner owner).1.key = key := by rw [Pod.key_addOwner, hw.pod key p hp]
    refine ⟨rfl, fun r k => ?_, ?_⟩
    · have hclaims : Claims r [.updateTarget (p.addOwner owner).1] k ↔
          k = key ∧ r ∈ (p.addOwner owner).1.owners := by
        simp [Claims, hkey, eq_comm]
      rw [owns_replacePod, hkey, hclaims]
      split
      next he =>
        -- The owners that were there are among the written ones.
        rw [he, owns_of_get? hp, Pod.mem_owners_addOwner]
        constructor
        · exact fun h => Or.inr ⟨rfl, h⟩
        · rintro (h | ⟨-, h⟩)
          · exact Or.inr h
          · exact h
      next he => simp [he]
    · rintro k ⟨q, hq, rfl, -⟩
      cases List.mem_singleton.1 hq
      exact hkey

section Served

variable (hne : ∀ e, mayFail e → e.isNotFound = false)
include hne

/-- Whether it succeeds or not, a claim adds nothing but this owner to this pod. -/
theorem adds_of_claimTarget {b : RetryBackoff} {name : String}
    {res : Except Failure (Option Pod)} (hw : s.WellKeyed)
    (h : (claimTarget b ns owner name).Ends τ res) (hs : Serves mayFail s τ t) :
    Adds owner (· = ⟨ns, name⟩) s (writes τ) t := by
  have hedit {σ : List Exchange} {u : Cluster} {r : Except Failure TargetEdit}
      (h : (editTarget b ⟨ns, name⟩ (·.addOwner owner)).Ends σ r) (hs : Serves mayFail s σ u) :
      Adds owner (· = ⟨ns, name⟩) s (writes σ) u := by
    rcases atomic_editTarget hne (keepsIdentity_addOwner owner) hw h hs with
      ⟨w, -, heff⟩ | ⟨-, hnone, rfl, -⟩
    · exact adds_of_editEffect hw heff
    · rw [hnone]
      exact .refl owner _ _
  rcases serves_bind h hs with ⟨e, he, -⟩ | ⟨w, τ₁, τ₂, u, rfl, h₁, hs₁, h₂, hs₂⟩
  · exact hedit he hs
  -- Arming the expectation is no call of the store.
  suffices hrest : t = u ∧ writes τ₂ = [] by
    rw [writes_append, hrest.2, List.append_nil, hrest.1]
    exact hedit h₁ hs₁
  cases w with
  | written base pod =>
    obtain ⟨r, rest, rfl, hd⟩ := Pass.ends_ask_iff.1 h₂
    obtain ⟨rfl, -⟩ := Pass.ends_done_iff.1 hd
    rw [serves_aside_iff (by rintro c ⟨⟩)] at hs₂
    exact ⟨serves_nil_iff.1 hs₂, rfl⟩
  | unchanged pod =>
    obtain ⟨rfl, -⟩ := Pass.ends_done_iff.1 h₂
    exact ⟨serves_nil_iff.1 hs₂, rfl⟩
  | gone =>
    obtain ⟨rfl, -⟩ := Pass.ends_done_iff.1 h₂
    exact ⟨serves_nil_iff.1 hs₂, rfl⟩

theorem adds_of_claimTargets {b : RetryBackoff} {names : List String}
    {res : Except Failure (List Pod)} (hw : s.WellKeyed)
    (h : (claimTargets b ns owner names).Ends τ res) (hs : Serves mayFail s τ t) :
    Adds owner (fun k => ∃ n ∈ names, k = ⟨ns, n⟩) s (writes τ) t := by
  -- On the names, from any state. The part may fail at a claim or behind it; what was claimed until
  -- then stays claimed either way.
  induction names generalizing s τ res with
  | nil =>
    obtain ⟨rfl, rfl⟩ := Pass.ends_done_iff.1 h
    obtain rfl := serves_nil_iff.1 hs
    exact .refl owner _ _
  | cons name names ih =>
    have hhead : ∀ k, k = ⟨ns, name⟩ → ∃ n ∈ name :: names, k = (⟨ns, n⟩ : ObjectKey) :=
      fun k hk => ⟨name, by simp, hk⟩
    have htail : ∀ k : ObjectKey, (∃ n ∈ names, k = ⟨ns, n⟩) →
        ∃ n ∈ name :: names, k = (⟨ns, n⟩ : ObjectKey) := by
      rintro k ⟨n, hn, hk⟩
      exact ⟨n, List.mem_cons_of_mem _ hn, hk⟩
    rcases serves_bind h hs with ⟨e, he, -⟩ | ⟨w, τ₁, τ₂, u, rfl, h₁, hs₁, h₂, hs₂⟩
    · exact (adds_of_claimTarget hne hw he hs).mono hhead
    have hadd₁ := (adds_of_claimTarget hne hw h₁ hs₁).mono hhead
    have hw' := hs₁.wellKeyed hw
    rw [writes_append]
    rcases serves_bind h₂ hs₂ with ⟨e, he, -⟩ | ⟨pods, σ₁, σ₂, v, rfl, h₃, hs₃, h₄, hs₄⟩
    · exact hadd₁.trans ((ih hw' he hs₂).mono htail)
    · obtain ⟨rfl, -⟩ := Pass.ends_done_iff.1 h₄
      obtain rfl := serves_nil_iff.1 hs₄
      rw [List.append_nil]
      exact hadd₁.trans ((ih hw' h₃ hs₃).mono htail)

end Served

/-! ## The writes of the rule set -/

/-- Who owns what depends on the pods alone. -/
theorem owns_congr (h : t.pods = s.pods) (r : String) (k : ObjectKey) :
    t.Owns r k ↔ s.Owns r k := by
  rw [Owns, Owns, h]

theorem pods_replaceRuleSet (s : Cluster) (stored rs : RuleSet) :
    (s.replaceRuleSet stored rs).2.pods = s.pods := by
  unfold replaceRuleSet
  dsimp only
  split <;> rfl

theorem recorded_of_get? {rs : RuleSet} (h : s.ruleSets.get? key = some rs) :
    s.recorded key = rs.recordedStatus.targets := by
  simp [recorded, h]

/-- A rule set that carries the finalizer is not finished, so it stays when it is replaced. -/
theorem get?_replaceRuleSet_of_isHeld (s : Cluster) (stored : RuleSet) {rs : RuleSet}
    (hh : rs.isHeld = true) :
    (s.replaceRuleSet stored rs).2.ruleSets.get? rs.key =
        some ((s.replaceRuleSet stored rs).1) ∧
      (s.replaceRuleSet stored rs).1 =
        { rs with status := stored.status }.atVersion s.nextVersion := by
  have hf : ({ rs with status := stored.status }.atVersion s.nextVersion).metadata.isFinished =
      false := by
    have hne : rs.metadata.finalizerList ≠ [] := by
      intro h
      simp [RuleSet.isHeld, RuleSet.carries, h] at hh
    have hempty : rs.metadata.finalizerList.isEmpty = false := by simpa using hne
    show (rs.metadata.isTerminating && rs.metadata.finalizerList.isEmpty) = false
    rw [hempty, Bool.and_false]
  simp only [replaceRuleSet, hf, Bool.false_eq_true, if_false, and_true]
  show (s.ruleSets.insert rs.key _).get? rs.key = _
  rw [SortedMap.get?_insert, if_pos rfl]

structure Holds (rs : RuleSet) (s : Cluster) (ws : List StoreCall) (t : Cluster)
    (res : Except Failure RuleSet) : Prop where
  pods : t.pods = s.pods
  recorded : t.recorded rs.key = s.recorded rs.key
  not_claims : ∀ r k, ¬ Claims r ws k
  held : ∀ c ∈ ws, ∃ u, c = .updateRuleSet u ∧ u.isHeld = true
  stored : ∀ h, res = .ok h → t.ruleSets.get? rs.key = some h ∧ h.key = rs.key ∧ h.isHeld = true ∧
    h.recordedStatus = rs.recordedStatus

/-- Making sure of the finalizer claims nothing, and what it returns is stored and held. -/
theorem holds_of_holdRuleSet {b : RetryBackoff} {rs : RuleSet} {res : Except Failure RuleSet}
    (hw : s.WellKeyed) (hrs : s.ruleSets.get? rs.key = some rs)
    (h : (holdRuleSet b rs).Ends τ res) (hs : Serves mayFail s τ t) :
    Holds rs s (writes τ) t res := by
  by_cases hh : rs.isHeld = true
  · rw [holdRuleSet, if_pos hh] at h
    obtain ⟨rfl, rfl⟩ := Pass.ends_done_iff.1 h
    obtain rfl := serves_nil_iff.1 hs
    refine ⟨rfl, rfl, by simp, by simp, ?_⟩
    rintro held ⟨⟩
    exact ⟨hrs, rfl, hh, rfl⟩
  -- Without the finalizer all but the last attempt are without effect.
  rw [holdRuleSet, if_neg hh] at h
  have hat := atomic_retry (fun _ _ _ _ hw h hs => atomic_holdOnce hw h hs) hw h hs
  rcases hat with ⟨v, rfl, heff⟩ | ⟨⟨e, rfl⟩, hnone, rfl, -⟩
  · generalize writes τ = ws at heff
    cases heff with
    | held _ hv hheld =>
      cases hrs.symm.trans hv
      exact absurd hheld hh
    | written stored hv _ =>
      cases hrs.symm.trans hv
      obtain ⟨hget, hval⟩ := get?_replaceRuleSet_of_isHeld s rs rs.isHeld_addFinalizer
      rw [RuleSet.key_addFinalizer] at hget
      have hrec : (s.replaceRuleSet rs rs.addFinalizer).1.recordedStatus = rs.recordedStatus := by
        rw [hval]
        rfl
      refine ⟨pods_replaceRuleSet .., ?_, ?_, ?_, ?_⟩
      · rw [recorded_of_get? hget, recorded_of_get? hrs, hrec]
      · rintro r k ⟨p, hp, -⟩
        cases List.mem_singleton.1 hp
      · intro c hc
        exact ⟨_, List.mem_singleton.1 hc, rs.isHeld_addFinalizer⟩
      · rintro held ⟨⟩
        refine ⟨hget, ?_, ?_, hrec⟩
        · rw [hval]
          rfl
        · rw [hval]
          exact rs.isHeld_addFinalizer
  · rw [hnone]
    exact ⟨rfl, rfl, by simp, by simp, by rintro held ⟨⟩⟩

/-- The recorded targets stay as they are, or go with the rule set. -/
theorem recorded_replaceRuleSet (s : Cluster) {stored rs : RuleSet}
    (h : s.ruleSets.get? rs.key = some stored) :
    (s.replaceRuleSet stored rs).2.recorded rs.key = s.recorded rs.key ∨
      (s.replaceRuleSet stored rs).2.recorded rs.key = [] := by
  simp only [replaceRuleSet]
  split
  · -- The deletion is finished and the rule set goes.
    right
    show ((SortedMap.get? (s.ruleSets.erase rs.key) rs.key).map _).getD [] = []
    rw [SortedMap.get?_erase, if_pos rfl]
    rfl
  · left
    have hget : (s.bump.keepRuleSet ({ rs with status := stored.status }.atVersion
        s.nextVersion)).ruleSets.get? rs.key =
          some ({ rs with status := stored.status }.atVersion s.nextVersion) := by
      show (s.ruleSets.insert rs.key _).get? rs.key = _
      rw [SortedMap.get?_insert, if_pos rfl]
    rw [recorded_of_get? h, recorded_of_get? hget]
    rfl

/-- Letting go of a rule set leaves the pods alone; its record stays, or goes with it. -/
theorem letGo_effect (hne : ∀ e, mayFail e → e.isNotFound = false) {b : RetryBackoff}
    {rs : RuleSet} {res : Except Failure Unit} (hw : s.WellKeyed)
    (h : (letGo b rs).Ends τ res) (hs : Serves mayFail s τ t) :
    t.pods = s.pods ∧ (∀ r k, ¬ Claims r (writes τ) k) ∧
      (t.recorded rs.key = s.recorded rs.key ∨ t.recorded rs.key = []) := by
  have hat := atomic_retry (fun _ _ _ _ hw h hs => atomic_letGoOnce hne hw h hs) hw h hs
  rcases hat with ⟨v, -, heff⟩ | ⟨-, hnone, rfl, -⟩
  · generalize writes τ = ws at heff
    cases heff with
    | free _ => exact ⟨rfl, by simp, Or.inl rfl⟩
    | written stored hv _ =>
      have hkey := hw.ruleSet _ _ hv
      refine ⟨pods_replaceRuleSet .., ?_, ?_⟩
      · rintro r k ⟨p, hp, -⟩
        cases List.mem_singleton.1 hp
      · have hstored : s.ruleSets.get? stored.dropFinalizer.key = some stored := by
          rwa [RuleSet.key_dropFinalizer, hkey]
        have hrec := recorded_replaceRuleSet s hstored
        rwa [RuleSet.key_dropFinalizer, hkey] at hrec
  · rw [hnone]
    exact ⟨rfl, by simp, Or.inl rfl⟩

theorem get?_replaceStatus (s : Cluster) (stored rs : RuleSet) :
    (s.replaceStatus stored rs).2.ruleSets.get? stored.key =
      some ({ stored with status := rs.status }.atVersion s.nextVersion) := by
  show (s.ruleSets.insert stored.key _).get? stored.key = _
  rw [SortedMap.get?_insert, if_pos rfl]

structure Records (key : ObjectKey) (names : List String) (s : Cluster) (ws : List StoreCall)
    (t : Cluster) {α : Type} (res : Except Failure α) : Prop where
  pods : t.pods = s.pods
  statuses : ∀ c ∈ ws, ∃ u, c = .updateStatus u
  ok : ∀ v, res = .ok v → t.recorded key = names
  error : ∀ e, res = .error e → t = s

theorem Records.not_claims {α : Type} {res : Except Failure α} {record : List String}
    (h : Records key record s ws t res) (r : String) (k : ObjectKey) : ¬ Claims r ws k := by
  rintro ⟨p, hp, -⟩
  obtain ⟨u, hu⟩ := h.statuses _ hp
  cases hu

theorem records_of_recordStatus {rs : RuleSet} {next : RuleSetStatus}
    {res : Except Failure StatusRecord} (hrs : s.ruleSets.get? rs.key = some rs)
    (h : (recordStatus rs next).Ends τ res) (hs : Serves mayFail s τ t) :
    Records rs.key next.targets s (writes τ) t res := by
  unfold recordStatus at h
  split at h
  next heq =>
    -- Nothing is written, but then the targets are recorded already.
    obtain ⟨rfl, rfl⟩ := Pass.ends_done_iff.1 h
    obtain rfl := serves_nil_iff.1 hs
    refine ⟨rfl, by simp, fun v _ => ?_, by rintro e ⟨⟩⟩
    rw [recorded_of_get? hrs]
    simp only [RuleSetStatus.equalButTime, Bool.and_eq_true, decide_eq_true_eq] at heq
    exact heq.1.1.1
  next =>
    obtain ⟨armed, rest, rfl, h₁⟩ := Pass.ends_ask_iff.1 h
    rw [serves_aside_iff (by rintro c ⟨⟩)] at hs
    rw [writes_aside (by rintro c ⟨⟩)]
    obtain ⟨r, rest, rfl, h₂⟩ := Pass.ends_ask_iff.1 h₁
    have hkey : s.ruleSets.get? ({ rs with status := some next } : RuleSet).key = some rs := hrs
    rcases serves_updateStatus hkey rfl hs with ⟨rfl, hs'⟩ | ⟨e, -, rfl, hs'⟩
    · obtain ⟨rfl, rfl⟩ := Pass.ends_done_iff.1 h₂
      obtain rfl := serves_nil_iff.1 hs'
      refine ⟨rfl, ?_, fun v _ => ?_, by rintro e ⟨⟩⟩
      · intro c hc
        exact ⟨_, List.mem_singleton.1 hc⟩
      · have hget := get?_replaceStatus s rs { rs with status := some next }
        rw [recorded_of_get? hget]
        rfl
    · -- A write that fails has no effect; the expectation is no part of the store.
      obtain ⟨cleared, rest, rfl, h₃⟩ := Pass.ends_ask_iff.1 h₂
      obtain ⟨rfl, rfl⟩ := Pass.ends_failed_iff.1 h₃
      rw [serves_aside_iff (by rintro c ⟨⟩)] at hs'
      obtain rfl := serves_nil_iff.1 hs'
      exact ⟨rfl, by simp [writes, Exchange.write?], by rintro v ⟨⟩, fun _ _ => rfl⟩

/-- Recording the outcome records the names, or fails and leaves the store as it was. -/
theorem records_of_recordOutcome {ns : String} {rs : RuleSet} {names : SortedSet String}
    {merged : PipelineResult} {res : Except Failure Outcome}
    (hrs : s.ruleSets.get? rs.key = some rs)
    (h : (recordOutcome ns rs names merged).Ends τ res) (hs : Serves mayFail s τ t) :
    Records rs.key names.toList s (writes τ) t res := by
  obtain ⟨now, rest, rfl, h₁⟩ := Pass.ends_ask_iff.1 h
  rw [serves_aside_iff (by rintro c ⟨⟩)] at hs
  rw [writes_aside (by rintro c ⟨⟩)]
  rcases serves_bind h₁ hs with ⟨e, he, rfl⟩ | ⟨v, τ₁, τ₂, u, rfl, h₂, hs₂, h₃, hs₃⟩
  · have hrec := records_of_recordStatus hrs he hs
    exact ⟨hrec.pods, hrec.statuses, by rintro v ⟨⟩, fun _ _ => hrec.error e rfl⟩
  have hrec := records_of_recordStatus hrs h₂ hs₂
  obtain ⟨told, rest, rfl, h₄⟩ := Pass.ends_ask_iff.1 h₃
  obtain ⟨rfl, rfl⟩ := Pass.ends_done_iff.1 h₄
  rw [serves_aside_iff (by rintro c ⟨⟩)] at hs₃
  obtain rfl := serves_nil_iff.1 hs₃
  refine ⟨hrec.pods, ?_, fun _ _ => hrec.ok v rfl, by rintro e ⟨⟩⟩
  simpa [writes, Exchange.write?] using hrec.statuses

end Cluster

end PodRules
