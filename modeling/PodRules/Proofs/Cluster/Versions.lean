import PodRules.Proofs.Cluster.Service
import PodRules.Text.Decimal

/-!
Versions tell states apart. Whatever a store does and whoever writes to it at fresh versions, an
object that has the version of an earlier state of its key is that state (`Advances.eq_pod`,
`Advances.eq_ruleSet`), as long as nothing was stored at a version that was yet to be given.
-/

namespace PodRules

theorem Decimal.eq_of_toString_eq {i j : Nat} (h : toString i = toString j) : i = j := by
  have hdigits : digits? (toString i).toList = digits? (toString j).toList := by rw [h]
  simpa [toString, Nat.repr, digits?_toDigits] using hdigits

variable {α : Type} {metadata : α → Metadata} {m m' m'' : SortedMap ObjectKey α}
  {low mid high : Nat} {k : ObjectKey} {x y : α}

def Renewed (metadata : α → Metadata) (low high : Nat) (m m' : SortedMap ObjectKey α) : Prop :=
  ∀ k x, m'.get? k = some x → m.get? k = some x ∨ ((metadata x).key = k ∧
    ∃ n, low < n ∧ n ≤ high ∧ (metadata x).resourceVersion = some (toString n))

def NoneBeyond (metadata : α → Metadata) (n : Nat) (m : SortedMap ObjectKey α) : Prop :=
  ∀ k x, m.get? k = some x → ∀ j, n < j → (metadata x).resourceVersion ≠ some (toString j)

namespace Renewed

theorem refl (metadata : α → Metadata) (low high : Nat) (m : SortedMap ObjectKey α) :
    Renewed metadata low high m m :=
  fun _ _ h => Or.inl h

theorem trans (h₁ : Renewed metadata low mid m m') (h₂ : Renewed metadata mid high m' m'')
    (hl : low ≤ mid) (hh : mid ≤ high) : Renewed metadata low high m m'' := by
  intro k x hx
  rcases h₂ k x hx with hx | ⟨hk, n, hn, hn', hv⟩
  · rcases h₁ k x hx with hx | ⟨hk, n, hn, hn', hv⟩
    · exact Or.inl hx
    · exact Or.inr ⟨hk, n, hn, Nat.le_trans hn' hh, hv⟩
  · exact Or.inr ⟨hk, n, Nat.lt_of_le_of_lt hl hn, hn', hv⟩

theorem insert (m : SortedMap ObjectKey α) (hk : (metadata x).key = k)
    (hv : (metadata x).resourceVersion = some (toString (low + 1))) :
    Renewed metadata low (low + 1) m (m.insert k x) := by
  intro j y hy
  rw [SortedMap.get?_insert] at hy
  split at hy
  next hj =>
    cases hy
    exact Or.inr ⟨hk.trans hj.symm, low + 1, Nat.lt_succ_self low, Nat.le_refl _, hv⟩
  next => exact Or.inl hy

theorem erase (metadata : α → Metadata) (low high : Nat) (m : SortedMap ObjectKey α)
    (k : ObjectKey) : Renewed metadata low high m (m.erase k) := by
  intro j y hy
  rw [SortedMap.get?_erase] at hy
  split at hy
  · cases hy
  · exact Or.inl hy

/-- What was not newer than the counter before is not newer than it after. -/
theorem noneBeyond (h : Renewed metadata low high m m') (hm : NoneBeyond metadata low m)
    (hl : low ≤ high) : NoneBeyond metadata high m' := by
  intro k x hx j hj hv
  rcases h k x hx with hx | ⟨-, n, -, hn, hv'⟩
  · exact hm k x hx j (Nat.lt_of_le_of_lt hl hj) hv
  · rw [hv] at hv'
    have hjn : j = n := Decimal.eq_of_toString_eq (Option.some.inj hv')
    omega

/-- An object at the version of the one that was there is that one. -/
theorem eq_of_version (h : Renewed metadata low high m m') (hm : NoneBeyond metadata low m)
    (hx : m.get? k = some x) (hy : m'.get? k = some y)
    (hv : (metadata x).resourceVersion = (metadata y).resourceVersion) : y = x := by
  rcases h k y hy with hy | ⟨-, n, hn, -, hn'⟩
  · exact Option.some.inj (hy.symm.trans hx)
  · exact absurd (hv.trans hn') (hm k x hx n hn)

end Renewed

/-- An object without a version has none that is yet to be given. -/
theorem NoneBeyond.insert {n : Nat} (hm : NoneBeyond metadata n m)
    (hx : (metadata x).resourceVersion = none) : NoneBeyond metadata n (m.insert k x) := by
  intro j y hy i hi hv
  rw [SortedMap.get?_insert] at hy
  split at hy
  · cases hy
    rw [hx] at hv
    cases hv
  · exact hm j y hy i hi hv

namespace Cluster

variable {s t u : Cluster}

/-- Every object was there before, or has a version that was given in between. -/
structure Advances (s t : Cluster) : Prop where
  counter : s.counter ≤ t.counter
  ruleSets : Renewed RuleSet.metadata s.counter t.counter s.ruleSets t.ruleSets
  pods : Renewed Pod.metadata s.counter t.counter s.pods t.pods

structure Dated (s : Cluster) : Prop where
  ruleSets : NoneBeyond RuleSet.metadata s.counter s.ruleSets
  pods : NoneBeyond Pod.metadata s.counter s.pods

theorem dated_empty : empty.Dated := by
  constructor
  · intro k rs h
    cases h
  · intro k p h
    cases h

theorem Dated.keepRuleSet (h : s.Dated) {rs : RuleSet} (hv : rs.metadata.resourceVersion = none) :
    (s.keepRuleSet rs).Dated :=
  ⟨h.ruleSets.insert hv, h.pods⟩

theorem Dated.keepPod (h : s.Dated) {p : Pod} (hv : p.metadata.resourceVersion = none) :
    (s.keepPod p).Dated :=
  ⟨h.ruleSets, h.pods.insert hv⟩

namespace Advances

theorem refl (s : Cluster) : s.Advances s :=
  ⟨Nat.le_refl _, .refl _ _ _ _, .refl _ _ _ _⟩

theorem trans (h₁ : s.Advances u) (h₂ : u.Advances t) : s.Advances t :=
  ⟨Nat.le_trans h₁.counter h₂.counter, h₁.ruleSets.trans h₂.ruleSets h₁.counter h₂.counter,
    h₁.pods.trans h₂.pods h₁.counter h₂.counter⟩

theorem wellKeyed (h : s.Advances t) (hs : s.WellKeyed) : t.WellKeyed := by
  constructor
  · intro k rs hrs
    rcases h.ruleSets k rs hrs with hrs | ⟨hk, -⟩
    · exact hs.ruleSet k rs hrs
    · exact hk
  · intro k p hp
    rcases h.pods k p hp with hp | ⟨hk, -⟩
    · exact hs.pod k p hp
    · exact hk

theorem dated (h : s.Advances t) (hs : s.Dated) : t.Dated :=
  ⟨h.ruleSets.noneBeyond hs.ruleSets h.counter, h.pods.noneBeyond hs.pods h.counter⟩

/-- A version is given to one state of a pod only: a pod that still has the version of an earlier
state is that state. -/
theorem eq_pod (h : s.Advances t) (hs : s.Dated) {k : ObjectKey} {p q : Pod}
    (hp : s.pods.get? k = some p) (hq : t.pods.get? k = some q)
    (hv : p.metadata.resourceVersion = q.metadata.resourceVersion) : q = p :=
  h.pods.eq_of_version hs.pods hp hq hv

/-- The same of rule sets. -/
theorem eq_ruleSet (h : s.Advances t) (hs : s.Dated) {k : ObjectKey} {rs stored : RuleSet}
    (hrs : s.ruleSets.get? k = some rs) (hstored : t.ruleSets.get? k = some stored)
    (hv : rs.metadata.resourceVersion = stored.metadata.resourceVersion) : stored = rs :=
  h.ruleSets.eq_of_version hs.ruleSets hrs hstored hv

end Advances

/-! ## What advances a store -/

theorem advances_bump (s : Cluster) : s.Advances s.bump :=
  ⟨Nat.le_succ _, .refl _ _ _ _, .refl _ _ _ _⟩

theorem advances_putRuleSet (s : Cluster) (rs : RuleSet) : s.Advances (s.putRuleSet rs) :=
  ⟨Nat.le_succ _, .insert _ rfl rfl, .refl _ _ _ _⟩

theorem advances_putPod (s : Cluster) (p : Pod) : s.Advances (s.putPod p) :=
  ⟨Nat.le_succ _, .refl _ _ _ _, .insert _ rfl rfl⟩

theorem advances_deleteRuleSet (s : Cluster) (k : ObjectKey) : s.Advances (s.deleteRuleSet k) :=
  ⟨Nat.le_refl _, .erase _ _ _ _ _, .refl _ _ _ _⟩

theorem advances_deletePod (s : Cluster) (k : ObjectKey) : s.Advances (s.deletePod k) :=
  ⟨Nat.le_refl _, .refl _ _ _ _, .erase _ _ _ _ _⟩

theorem advances_touchRuleSet (hs : s.WellKeyed) (k : ObjectKey) :
    s.Advances (s.touchRuleSet k) := by
  unfold touchRuleSet
  split
  next rs hrs =>
    exact ⟨Nat.le_succ _, .insert _ (hs.ruleSet k rs hrs) rfl, .refl _ _ _ _⟩
  next => exact advances_bump s

theorem advances_touchPod (hs : s.WellKeyed) (k : ObjectKey) : s.Advances (s.touchPod k) := by
  unfold touchPod
  split
  next p hp => exact ⟨Nat.le_succ _, .refl _ _ _ _, .insert _ (hs.pod k p hp) rfl⟩
  next => exact advances_bump s

theorem advances_replaceRuleSet (s : Cluster) (stored rs : RuleSet) :
    s.Advances (s.replaceRuleSet stored rs).2 := by
  unfold replaceRuleSet
  dsimp only
  split
  · exact (advances_bump s).trans (advances_deleteRuleSet _ _)
  · exact advances_putRuleSet s { rs with status := stored.status }

/-- Whatever a store is asked, it goes on to newer versions only. -/
theorem advances_answer (s : Cluster) (c : StoreCall) : s.Advances (s.answer c).2 := by
  cases c with
  | getRuleSet k => rw [answer_snd_of_not_isWrite rfl]; exact .refl s
  | getTarget k => rw [answer_snd_of_not_isWrite rfl]; exact .refl s
  | listTargets ns selector => exact .refl s
  | updateRuleSet rs =>
    simp only [answer]
    split
    · exact .refl s
    · split
      · exact advances_replaceRuleSet s _ rs
      · exact .refl s
  | updateStatus rs =>
    simp only [answer]
    split
    · exact .refl s
    next stored _ =>
      split
      · exact advances_putRuleSet s { stored with status := rs.status }
      · exact .refl s
  | updateTarget p =>
    simp only [answer]
    split
    · exact .refl s
    · split
      · exact advances_putPod s p
      · exact .refl s

theorem Serves.advances {mayFail : StoreError → Prop} {τ : List Exchange}
    (h : Serves mayFail s τ t) : s.Advances t := by
  induction h with
  | nil s => exact .refl s
  | answered _ ih => exact (advances_answer _ _).trans ih
  | failed e he _ ih => exact ih
  | aside hx _ ih => exact ih

end Cluster

end PodRules
