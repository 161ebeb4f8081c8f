import PodRules.Proofs.Cluster.Service
import PodRules.Proofs.Pass.Parts

namespace PodRules

def Exchange.write? : Exchange → Option StoreCall
  | ⟨.store (.updateRuleSet rs), .ok _⟩ => some (.updateRuleSet rs)
  | ⟨.store (.updateStatus rs), .ok _⟩ => some (.updateStatus rs)
  | ⟨.store (.updateTarget p), .ok _⟩ => some (.updateTarget p)
  | _ => none

def writes (τ : List Exchange) : List StoreCall := τ.filterMap Exchange.write?

@[simp] theorem writes_nil : writes [] = [] := rfl

@[simp] theorem writes_append (σ τ : List Exchange) : writes (σ ++ τ) = writes σ ++ writes τ :=
  List.filterMap_append

theorem writes_aside {x : Exchange} {τ : List Exchange} (hx : ∀ c, x.call ≠ .store c) :
    writes (x :: τ) = writes τ := by
  obtain ⟨c, r⟩ := x
  cases c with
  | store c => exact absurd rfl (hx c)
  | _ => rfl

theorem Exchange.write?_ok {c : StoreCall} {v : c.Value} (hc : c.isWrite = true) :
    (⟨.store c, .ok v⟩ : Exchange).write? = some c := by
  cases c with
  | updateRuleSet _ => rfl
  | updateStatus _ => rfl
  | updateTarget _ => rfl
  | _ => cases hc

theorem Exchange.write?_eq_some {x : Exchange} {c : StoreCall} (h : x.write? = some c) :
    ∃ v, x = ⟨.store c, .ok v⟩ ∧ c.isWrite = true := by
  unfold write? at h
  split at h
  · cases h
    exact ⟨_, rfl, rfl⟩
  · cases h
    exact ⟨_, rfl, rfl⟩
  · cases h
    exact ⟨_, rfl, rfl⟩
  · cases h

namespace Cluster

variable {mayFail : StoreError → Prop} {s t : Cluster} {τ : List Exchange}

/-! ## Single calls -/

theorem serves_getTarget_ok {k : ObjectKey} {p : Pod}
    (h : Serves mayFail s (⟨.store (.getTarget k), .ok p⟩ :: τ) t) :
    s.pods.get? k = some p ∧ Serves mayFail s τ t := by
  rcases serves_store_iff.1 h with ⟨hr, hs⟩ | ⟨e, -, hr, -⟩
  · cases hp : s.pods.get? k with
    | none => simp [answer, hp] at hr
    | some q =>
      rw [answer_getTarget hp] at hr hs
      cases hr
      exact ⟨rfl, hs⟩
  · cases hr

theorem serves_getRuleSet_ok {k : ObjectKey} {rs : RuleSet}
    (h : Serves mayFail s (⟨.store (.getRuleSet k), .ok rs⟩ :: τ) t) :
    s.ruleSets.get? k = some rs ∧ Serves mayFail s τ t := by
  rcases serves_store_iff.1 h with ⟨hr, hs⟩ | ⟨e, -, hr, -⟩
  · cases hp : s.ruleSets.get? k with
    | none => simp [answer, hp] at hr
    | some q =>
      rw [answer_getRuleSet hp] at hr hs
      cases hr
      exact ⟨rfl, hs⟩
  · cases hr

/-- A failed read of a target shows that it is absent, or is one of the failures that may happen. -/
theorem serves_getTarget_error {k : ObjectKey} {e : StoreError}
    (h : Serves mayFail s (⟨.store (.getTarget k), .error e⟩ :: τ) t) :
    ((s.pods.get? k = none ∧ e.isNotFound = true) ∨ mayFail e) ∧ Serves mayFail s τ t := by
  rcases serves_store_iff.1 h with ⟨hr, hs⟩ | ⟨e', he, hr, hs⟩
  · cases hp : s.pods.get? k with
    | some q => simp [answer, hp] at hr
    | none =>
      simp only [answer, hp] at hr hs
      cases hr
      exact ⟨Or.inl ⟨rfl, rfl⟩, hs⟩
  · cases hr
    exact ⟨Or.inr he, hs⟩

theorem serves_getRuleSet_error {k : ObjectKey} {e : StoreError}
    (h : Serves mayFail s (⟨.store (.getRuleSet k), .error e⟩ :: τ) t) :
    ((s.ruleSets.get? k = none ∧ e.isNotFound = true) ∨ mayFail e) ∧ Serves mayFail s τ t := by
  rcases serves_store_iff.1 h with ⟨hr, hs⟩ | ⟨e', he, hr, hs⟩
  · cases hp : s.ruleSets.get? k with
    | some q => simp [answer, hp] at hr
    | none =>
      simp only [answer, hp] at hr hs
      cases hr
      exact ⟨Or.inl ⟨rfl, rfl⟩, hs⟩
  · cases hr
    exact ⟨Or.inr he, hs⟩

/-- A listing is the one of the stored pods, and changes nothing. -/
theorem serves_listTargets {ns : String} {selector : LabelSelector}
    {r : Except StoreError (List Pod)}
    (h : Serves mayFail s (⟨.store (.listTargets ns selector), r⟩ :: τ) t) :
    (r = .ok (s.list ns selector) ∨ ∃ e, mayFail e ∧ r = .error e) ∧ Serves mayFail s τ t := by
  rcases serves_store_iff.1 h with ⟨hr, hs⟩ | ⟨e, he, hr, hs⟩
  · exact ⟨Or.inl hr, hs⟩
  · exact ⟨Or.inr ⟨e, he, hr⟩, hs⟩

/-- An update from a copy at the stored version is accepted, unless it fails without an effect. -/
theorem serves_updateTarget {p stored : Pod} {r : Except StoreError Pod}
    (hp : s.pods.get? p.key = some stored)
    (hv : p.metadata.resourceVersion = stored.metadata.resourceVersion)
    (h : Serves mayFail s (⟨.store (.updateTarget p), r⟩ :: τ) t) :
    (r = .ok (s.replacePod p).1 ∧ Serves mayFail (s.replacePod p).2 τ t) ∨
      ∃ e, mayFail e ∧ r = .error e ∧ Serves mayFail s τ t := by
  have h' := serves_store_iff.1 h
  rwa [answer_updateTarget hp hv] at h'

/-- An update of what is stored is accepted as it stands, or is refused without an effect. -/
theorem serves_updateRuleSet {rs stored : RuleSet} {r : Except StoreError RuleSet}
    (hrs : s.ruleSets.get? rs.key = some stored)
    (hv : rs.metadata.resourceVersion = stored.metadata.resourceVersion)
    (h : Serves mayFail s (⟨.store (.updateRuleSet rs), r⟩ :: τ) t) :
    (r = .ok (s.replaceRuleSet stored rs).1 ∧ Serves mayFail (s.replaceRuleSet stored rs).2 τ t) ∨
      ∃ e, mayFail e ∧ r = .error e ∧ Serves mayFail s τ t := by
  have h' := serves_store_iff.1 h
  rwa [answer_updateRuleSet hrs hv] at h'

/-- A status write on what is stored is accepted as it stands, or is refused without an effect. -/
theorem serves_updateStatus {rs stored : RuleSet} {r : Except StoreError RuleSet}
    (hrs : s.ruleSets.get? rs.key = some stored)
    (hv : rs.metadata.resourceVersion = stored.metadata.resourceVersion)
    (h : Serves mayFail s (⟨.store (.updateStatus rs), r⟩ :: τ) t) :
    (r = .ok (s.replaceStatus stored rs).1 ∧ Serves mayFail (s.replaceStatus stored rs).2 τ t) ∨
      ∃ e, mayFail e ∧ r = .error e ∧ Serves mayFail s τ t := by
  have h' := serves_store_iff.1 h
  rwa [answer_updateStatus hrs hv] at h'

/-- Only an accepted write changes the store. -/
theorem eq_of_serves_of_write?_eq_none {x : Exchange} (h : Serves mayFail s [x] t)
    (hx : x.write? = none) : t = s := by
  cases h with
  | failed e he h => exact serves_nil_iff.1 h
  | aside _ h => exact serves_nil_iff.1 h
  | @answered _ _ c _ h =>
    obtain rfl := serves_nil_iff.1 h
    by_cases hc : c.isWrite = true
    · cases ha : (s.answer c).1 with
      | error e => exact answer_snd_of_error ha
      | ok v =>
        rw [ha, Exchange.write?_ok hc] at hx
        cases hx
    · exact answer_snd_of_not_isWrite (by simpa using hc)

/-! ## Retried attempts -/

def Atomic {α ε : Type} (effect : List StoreCall → Cluster → α → Prop) (reason : Prop)
    (s : Cluster) (ws : List StoreCall) (t : Cluster) (res : Except ε α) : Prop :=
  (∃ v, res = .ok v ∧ effect ws t v) ∨ ((∃ e, res = .error e) ∧ ws = [] ∧ t = s ∧ reason)

variable {α : Type} {attempt : Pass (Except StoreError α)}
  {effect : Cluster → List StoreCall → Cluster → α → Prop} {reason : Cluster → Prop}

/-- Attempts that ended in a conflict have left the store as it was. -/
theorem eq_of_conflicts
    (hattempt : ∀ s τ t res, s.WellKeyed → attempt.Ends τ res → Serves mayFail s τ t →
      ∃ o, res = .ok o ∧ Atomic (effect s) (reason s) s (writes τ) t o)
    (hw : s.WellKeyed) (hc : Pass.Conflicts attempt τ) (hs : Serves mayFail s τ t) :
    t = s ∧ writes τ = [] := by
  -- On the attempts: one that ends in a conflict came to no value, so it left everything alone.
  induction hc with
  | nil => exact ⟨serves_nil_iff.1 hs, rfl⟩
  | wait span h _ ih =>
    obtain ⟨u, h₁, h₂⟩ := serves_append_iff.1 hs
    obtain ⟨o, ho, ha⟩ := hattempt _ _ _ _ hw h h₁
    cases ho
    rcases ha with ⟨v, hv, -⟩ | ⟨-, hnone, rfl, -⟩
    · cases hv
    have hsleep : ∀ c, (⟨.sleep span, ()⟩ : Exchange).call ≠ .store c := by
      intro c hc
      cases hc
    rw [serves_aside_iff hsleep] at h₂
    obtain ⟨rfl, hrest⟩ := ih h₂
    rw [writes_append, hnone, writes_aside hsleep, hrest]
    exact ⟨rfl, rfl⟩

/-- A retried attempt has its effect once, or none at all. -/
theorem atomic_retry {b : RetryBackoff} {key : ObjectKey} {res : Except Failure α}
    (hattempt : ∀ s τ t res, s.WellKeyed → attempt.Ends τ res → Serves mayFail s τ t →
      ∃ o, res = .ok o ∧ Atomic (effect s) (reason s) s (writes τ) t o)
    (hw : s.WellKeyed) (h : (Pass.retry b key attempt).Ends τ res) (hs : Serves mayFail s τ t) :
    Atomic (effect s) (reason s) s (writes τ) t res := by
  obtain ⟨before, last, rfl, hb, hl⟩ := h.retry
  obtain ⟨u, h₁, h₂⟩ := serves_append_iff.1 hs
  obtain ⟨rfl, hnone⟩ := eq_of_conflicts hattempt hw hb h₁
  rw [writes_append, hnone, List.nil_append]
  -- Whatever the last attempt ends in, it is atomic, and so is the whole.
  have hlast : ∀ o, attempt.Ends last (.ok o) →
      Atomic (effect u) (reason u) u (writes last) t o := by
    intro o ho
    obtain ⟨o', ho', ha⟩ := hattempt _ _ _ _ hw ho h₂
    cases ho'
    exact ha
  have hfailed : ∀ {e : StoreError} (f : Failure), attempt.Ends last (.ok (.error e)) →
      Atomic (effect u) (reason u) u (writes last) t (.error f : Except Failure α) := by
    intro e f he
    rcases hlast _ he with ⟨v, hv, -⟩ | ⟨-, hrest⟩
    · cases hv
    · exact Or.inr ⟨⟨f, rfl⟩, hrest⟩
  cases hl with
  | value v hv =>
    rcases hlast _ hv with ⟨w, hw', heff⟩ | ⟨⟨e, he⟩, -⟩
    · cases hw'
      exact Or.inl ⟨v, rfl, heff⟩
    · cases he
  | refused e _ he => exact hfailed _ he
  | exhausted m he => exact hfailed _ he
  | broken e he =>
    -- An attempt hands its failures over as values.
    obtain ⟨o, ho, -⟩ := hattempt _ _ _ _ hw he h₂
    cases ho

/-! ## The writes of one object -/

inductive EditEffect (key : ObjectKey) (edit : Pod → Pod × Bool) (s : Cluster) :
    List StoreCall → Cluster → TargetEdit → Prop
  | absent (h : s.pods.get? key = none) : EditEffect key edit s [] s .gone
  | unchanged (p : Pod) (h : s.pods.get? key = some p) (hc : (edit p).2 = false) :
      EditEffect key edit s [] s (.unchanged (edit p).1)
  | written (p : Pod) (h : s.pods.get? key = some p) (hc : (edit p).2 = true) :
      EditEffect key edit s [.updateTarget (edit p).1] (s.replacePod (edit p).1).2
        (.written p.version (s.replacePod (edit p).1).1)

inductive HoldEffect (key : ObjectKey) (s : Cluster) : List StoreCall → Cluster → RuleSet → Prop
  | held (rs : RuleSet) (h : s.ruleSets.get? key = some rs) (hh : rs.isHeld = true) :
      HoldEffect key s [] s rs
  | written (rs : RuleSet) (h : s.ruleSets.get? key = some rs) (hh : rs.isHeld = false) :
      HoldEffect key s [.updateRuleSet rs.addFinalizer] (s.replaceRuleSet rs rs.addFinalizer).2
        (s.replaceRuleSet rs rs.addFinalizer).1

inductive LetGoEffect (key : ObjectKey) (s : Cluster) : List StoreCall → Cluster → Unit → Prop
  | free (h : ∀ rs, s.ruleSets.get? key = some rs → rs.isHeld = false) : LetGoEffect key s [] s ()
  | written (rs : RuleSet) (h : s.ruleSets.get? key = some rs) (hh : rs.isHeld = true) :
      LetGoEffect key s [.updateRuleSet rs.dropFinalizer]
        (s.replaceRuleSet rs rs.dropFinalizer).2 ()

structure KeepsIdentity (edit : Pod → Pod × Bool) : Prop where
  key : ∀ p, (edit p).1.key = p.key
  version : ∀ p, (edit p).1.metadata.resourceVersion = p.metadata.resourceVersion

theorem keepsIdentity_addOwner (ruleSet : String) : KeepsIdentity (·.addOwner ruleSet) := by
  constructor
  · intro p
    exact Pod.key_addOwner p ruleSet
  · intro p
    unfold Pod.addOwner
    split <;> rfl

theorem keepsIdentity_removeOwner (ruleSet : String) : KeepsIdentity (·.removeOwner ruleSet) := by
  constructor
  · intro p
    exact Pod.key_removeOwner p ruleSet
  · intro p
    unfold Pod.removeOwner
    split <;> rfl

variable (hne : ∀ e, mayFail e → e.isNotFound = false)
include hne

/-- One attempt to edit a target does all of the edit or nothing. -/
theorem atomic_editOnce {key : ObjectKey} {edit : Pod → Pod × Bool} (hedit : KeepsIdentity edit)
    (hw : s.WellKeyed) {res : Except Failure (Except StoreError TargetEdit)}
    (h : (editOnce key edit).Ends τ res) (hs : Serves mayFail s τ t) :
    ∃ o, res = .ok o ∧ Atomic (EditEffect key edit s) (∃ e, mayFail e) s (writes τ) t o := by
  obtain ⟨o, rfl, ha⟩ := ends_editOnce h
  refine ⟨o, rfl, ?_⟩
  -- The fetched copy is the stored one, so a write of it is accepted or fails.
  have hupdate {p : Pod} {r : Except StoreError Pod}
      (hs : Serves mayFail s
        [⟨.store (.getTarget key), .ok p⟩, ⟨.store (.updateTarget (edit p).1), r⟩] t) :
      s.pods.get? key = some p ∧
        ((r = .ok (s.replacePod (edit p).1).1 ∧ t = (s.replacePod (edit p).1).2) ∨
          ∃ e, mayFail e ∧ r = .error e ∧ t = s) := by
    obtain ⟨hp, hrest⟩ := serves_getTarget_ok hs
    have hkey : s.pods.get? (edit p).1.key = some p := by
      rwa [hedit.key, hw.pod key p hp]
    refine ⟨hp, ?_⟩
    rcases serves_updateTarget hkey (hedit.version p) hrest with ⟨hr, hnil⟩ | ⟨e, he, hr, hnil⟩
    · exact Or.inl ⟨hr, serves_nil_iff.1 hnil⟩
    · exact Or.inr ⟨e, he, hr, serves_nil_iff.1 hnil⟩
  cases ha with
  | absent m =>
    -- An absence is never a failure of the call, so the target is not stored.
    obtain ⟨⟨hp, -⟩ | he, hrest⟩ := serves_getTarget_error hs
    · obtain rfl := serves_nil_iff.1 hrest
      exact Or.inl ⟨_, rfl, .absent hp⟩
    · cases hne _ he
  | unread e he =>
    obtain ⟨⟨-, hnf⟩ | hf, hrest⟩ := serves_getTarget_error hs
    · simp [he] at hnf
    · obtain rfl := serves_nil_iff.1 hrest
      exact Or.inr ⟨⟨e, rfl⟩, rfl, rfl, e, hf⟩
  | unchanged pod hc =>
    obtain ⟨hp, hrest⟩ := serves_getTarget_ok hs
    obtain rfl := serves_nil_iff.1 hrest
    exact Or.inl ⟨_, rfl, .unchanged pod hp hc⟩
  | written pod stored hc =>
    obtain ⟨hp, ⟨hr, rfl⟩ | ⟨e, -, hr, -⟩⟩ := hupdate hs
    · cases hr
      exact Or.inl ⟨_, rfl, .written pod hp hc⟩
    · cases hr
  | vanished pod m hc =>
    obtain ⟨hp, ⟨hr, rfl⟩ | ⟨e, he, hr, -⟩⟩ := hupdate hs
    · cases hr
    · cases hr
      cases hne _ he
  | unwritten pod e hc he =>
    obtain ⟨hp, ⟨hr, rfl⟩ | ⟨e', he', hr, rfl⟩⟩ := hupdate hs
    · cases hr
    · exact Or.inr ⟨⟨e, rfl⟩, rfl, rfl, e', he'⟩

theorem atomic_letGoOnce {key : ObjectKey} (hw : s.WellKeyed)
    {res : Except Failure (Except StoreError Unit)} (h : (letGoOnce key).Ends τ res)
    (hs : Serves mayFail s τ t) :
    ∃ o, res = .ok o ∧ Atomic (LetGoEffect key s) (∃ e, mayFail e) s (writes τ) t o := by
  obtain ⟨o, rfl, ha⟩ := ends_letGoOnce h
  refine ⟨o, rfl, ?_⟩
  -- As for a target: the copy that is written is the stored one but for the finalizer.
  have hupdate {rs : RuleSet} {r : Except StoreError RuleSet}
      (hs : Serves mayFail s
        [⟨.store (.getRuleSet key), .ok rs⟩, ⟨.store (.updateRuleSet rs.dropFinalizer), r⟩] t) :
      s.ruleSets.get? key = some rs ∧
        ((r = .ok (s.replaceRuleSet rs rs.dropFinalizer).1 ∧
            t = (s.replaceRuleSet rs rs.dropFinalizer).2) ∨
          ∃ e, mayFail e ∧ r = .error e ∧ t = s) := by
    obtain ⟨hrs, hrest⟩ := serves_getRuleSet_ok hs
    have hkey : s.ruleSets.get? rs.dropFinalizer.key = some rs := by
      rwa [RuleSet.key_dropFinalizer, hw.ruleSet key rs hrs]
    refine ⟨hrs, ?_⟩
    rcases serves_updateRuleSet hkey rfl hrest with ⟨hr, hnil⟩ | ⟨e, he, hr, hnil⟩
    · exact Or.inl ⟨hr, serves_nil_iff.1 hnil⟩
    · exact Or.inr ⟨e, he, hr, serves_nil_iff.1 hnil⟩
  cases ha with
  | absent m =>
    obtain ⟨⟨hrs, -⟩ | he, hrest⟩ := serves_getRuleSet_error hs
    · obtain rfl := serves_nil_iff.1 hrest
      exact Or.inl ⟨_, rfl, .free fun rs h => by simp [hrs] at h⟩
    · cases hne _ he
  | unread e he =>
    obtain ⟨⟨-, hnf⟩ | hf, hrest⟩ := serves_getRuleSet_error hs
    · simp [he] at hnf
    · obtain rfl := serves_nil_iff.1 hrest
      exact Or.inr ⟨⟨e, rfl⟩, rfl, rfl, e, hf⟩
  | free stored hh =>
    -- Somebody else took the finalizer, which is as good.
    obtain ⟨hrs, hrest⟩ := serves_getRuleSet_ok hs
    obtain rfl := serves_nil_iff.1 hrest
    refine Or.inl ⟨_, rfl, .free fun rs h => ?_⟩
    cases hrs.symm.trans h
    exact hh
  | written stored next hh =>
    obtain ⟨hrs, ⟨hr, rfl⟩ | ⟨e, -, hr, -⟩⟩ := hupdate hs
    · exact Or.inl ⟨_, rfl, .written stored hrs hh⟩
    · cases hr
  | vanished stored m hh =>
    obtain ⟨hrs, ⟨hr, rfl⟩ | ⟨e, he, hr, -⟩⟩ := hupdate hs
    · cases hr
    · cases hr
      cases hne _ he
  | unwritten stored e hh he =>
    obtain ⟨hrs, ⟨hr, rfl⟩ | ⟨e', he', hr, rfl⟩⟩ := hupdate hs
    · cases hr
    · exact Or.inr ⟨⟨e, rfl⟩, rfl, rfl, e', he'⟩

omit hne in
theorem atomic_holdOnce {key : ObjectKey} (hw : s.WellKeyed)
    {res : Except Failure (Except StoreError RuleSet)} (h : (holdOnce key).Ends τ res)
    (hs : Serves mayFail s τ t) :
    ∃ o, res = .ok o ∧ Atomic (HoldEffect key s)
      (s.ruleSets.get? key = none ∨ ∃ e, mayFail e) s (writes τ) t o := by
  obtain ⟨o, rfl, ha⟩ := ends_holdOnce h
  refine ⟨o, rfl, ?_⟩
  cases ha with
  | unread e =>
    obtain ⟨hp, hrest⟩ := serves_getRuleSet_error hs
    obtain rfl := serves_nil_iff.1 hrest
    exact Or.inr ⟨⟨e, rfl⟩, rfl, rfl, hp.imp And.left fun he => ⟨e, he⟩⟩
  | held stored hh =>
    obtain ⟨hrs, hrest⟩ := serves_getRuleSet_ok hs
    obtain rfl := serves_nil_iff.1 hrest
    exact Or.inl ⟨_, rfl, .held stored hrs hh⟩
  | answered stored reply hh =>
    obtain ⟨hrs, hrest⟩ := serves_getRuleSet_ok hs
    have hkey : s.ruleSets.get? stored.addFinalizer.key = some stored := by
      rwa [RuleSet.key_addFinalizer, hw.ruleSet key stored hrs]
    rcases serves_updateRuleSet hkey rfl hrest with ⟨rfl, hnil⟩ | ⟨e, he, rfl, hnil⟩
    · obtain rfl := serves_nil_iff.1 hnil
      exact Or.inl ⟨_, rfl, .written stored hrs hh⟩
    · obtain rfl := serves_nil_iff.1 hnil
      exact Or.inr ⟨⟨e, rfl⟩, rfl, rfl, Or.inr ⟨e, he⟩⟩

/-! ## The parts of a pass -/

/-- With its retries, an edit of a target still does all of the edit or nothing. -/
theorem atomic_editTarget {b : RetryBackoff} {key : ObjectKey} {edit : Pod → Pod × Bool}
    (hedit : KeepsIdentity edit) (hw : s.WellKeyed) {res : Except Failure TargetEdit}
    (h : (editTarget b key edit).Ends τ res) (hs : Serves mayFail s τ t) :
    Atomic (EditEffect key edit s) (∃ e, mayFail e) s (writes τ) t res :=
  atomic_retry (fun _ _ _ _ hw h hs => atomic_editOnce hne hedit hw h hs) hw h hs

end Cluster

end PodRules
