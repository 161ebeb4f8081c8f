import PodRules.Cluster.Basic
import PodRules.Proofs.Object.Owners
import PodRules.Proofs.Pass.Trace

namespace PodRules

/-! ## Versions change nothing but the version -/

@[simp] theorem Pod.key_atVersion (p : Pod) (v : String) : (p.atVersion v).key = p.key := rfl

@[simp] theorem Pod.owners_atVersion (p : Pod) (v : String) :
    (p.atVersion v).owners = p.owners := rfl

@[simp] theorem Pod.bare_atVersion (p : Pod) (v : String) : (p.atVersion v).bare = p.bare := rfl

@[simp] theorem RuleSet.key_atVersion (rs : RuleSet) (v : String) :
    (rs.atVersion v).key = rs.key := rfl

@[simp] theorem RuleSet.key_addFinalizer (rs : RuleSet) : rs.addFinalizer.key = rs.key := rfl

@[simp] theorem RuleSet.key_dropFinalizer (rs : RuleSet) : rs.dropFinalizer.key = rs.key := rfl

namespace Cluster

structure WellKeyed (s : Cluster) : Prop where
  ruleSet : ∀ k rs, s.ruleSets.get? k = some rs → rs.key = k
  pod : ∀ k p, s.pods.get? k = some p → p.key = k

theorem wellKeyed_empty : empty.WellKeyed := by
  constructor
  · intro k rs h
    cases h
  · intro k p h
    cases h

namespace WellKeyed

variable {s : Cluster} (h : s.WellKeyed)
include h

theorem bump : s.bump.WellKeyed := ⟨h.ruleSet, h.pod⟩

theorem keepRuleSet (rs : RuleSet) : (s.keepRuleSet rs).WellKeyed := by
  refine ⟨fun k rs' hk => ?_, h.pod⟩
  rw [Cluster.keepRuleSet, SortedMap.get?_insert] at hk
  split at hk
  next he =>
    cases hk
    exact he.symm
  next => exact h.ruleSet k rs' hk

theorem keepPod (p : Pod) : (s.keepPod p).WellKeyed := by
  refine ⟨h.ruleSet, fun k p' hk => ?_⟩
  rw [Cluster.keepPod, SortedMap.get?_insert] at hk
  split at hk
  next he =>
    cases hk
    exact he.symm
  next => exact h.pod k p' hk

theorem deleteRuleSet (k : ObjectKey) : (s.deleteRuleSet k).WellKeyed := by
  refine ⟨fun j rs hj => ?_, h.pod⟩
  rw [Cluster.deleteRuleSet, SortedMap.get?_erase] at hj
  split at hj
  · cases hj
  · exact h.ruleSet j rs hj

theorem deletePod (k : ObjectKey) : (s.deletePod k).WellKeyed := by
  refine ⟨h.ruleSet, fun j p hj => ?_⟩
  rw [Cluster.deletePod, SortedMap.get?_erase] at hj
  split at hj
  · cases hj
  · exact h.pod j p hj

theorem answer (c : StoreCall) : (s.answer c).2.WellKeyed := by
  cases c with
  | getRuleSet key => simp only [Cluster.answer]; split <;> exact h
  | getTarget key => simp only [Cluster.answer]; split <;> exact h
  | listTargets ns selector => exact h
  | updateRuleSet rs =>
    simp only [Cluster.answer]
    split
    · exact h
    · split
      · -- A replaced rule set is stored under its key, or removed if its deletion is finished.
        simp only [replaceRuleSet]
        split
        · exact h.bump.deleteRuleSet _
        · exact h.bump.keepRuleSet _
      · exact h
  | updateStatus rs =>
    simp only [Cluster.answer]
    split
    · exact h
    · split
      · exact h.bump.keepRuleSet _
      · exact h
  | updateTarget p =>
    simp only [Cluster.answer]
    split
    · exact h
    · split
      · exact h.bump.keepPod _
      · exact h

end WellKeyed

/-! ## What a store answers -/

variable {s : Cluster}

theorem answer_getRuleSet {k : ObjectKey} {rs : RuleSet} (h : s.ruleSets.get? k = some rs) :
    s.answer (.getRuleSet k) = (.ok rs, s) := by
  simp [answer, h]

theorem answer_getTarget {k : ObjectKey} {p : Pod} (h : s.pods.get? k = some p) :
    s.answer (.getTarget k) = (.ok p, s) := by
  simp [answer, h]

/-- A call that asks for no change makes none, whatever it is answered. -/
theorem answer_snd_of_not_isWrite {c : StoreCall} (h : c.isWrite = false) : (s.answer c).2 = s := by
  cases c with
  | getRuleSet _ => simp only [answer]; split <;> rfl
  | getTarget _ => simp only [answer]; split <;> rfl
  | listTargets _ _ => rfl
  | updateRuleSet _ => cases h
  | updateStatus _ => cases h
  | updateTarget _ => cases h

/-- A store that answers with an error is the store that it was. -/
theorem answer_snd_of_error {c : StoreCall} {e : StoreError} (h : (s.answer c).1 = .error e) :
    (s.answer c).2 = s := by
  cases c with
  | getRuleSet _ => exact answer_snd_of_not_isWrite rfl
  | getTarget _ => exact answer_snd_of_not_isWrite rfl
  | listTargets _ _ => rfl
  | updateRuleSet rs =>
    simp only [answer] at h ⊢
    split
    · rfl
    · split <;> simp_all
  | updateStatus rs =>
    simp only [answer] at h ⊢
    split
    · rfl
    · split <;> simp_all
  | updateTarget p =>
    simp only [answer] at h ⊢
    split
    · rfl
    · split <;> simp_all

/-- A rule set that is read lies under the key that was asked for. -/
theorem key_of_answer_getRuleSet {k : ObjectKey} {rs : RuleSet} (hw : s.WellKeyed)
    (h : (s.answer (.getRuleSet k)).1 = .ok rs) : rs.key = k := by
  simp only [answer] at h
  split at h
  next stored hstored =>
    cases h
    exact hw.ruleSet k _ hstored
  next => cases h

theorem answer_updateTarget {p stored : Pod} (h : s.pods.get? p.key = some stored)
    (hv : p.metadata.resourceVersion = stored.metadata.resourceVersion) :
    s.answer (.updateTarget p) = (.ok (s.replacePod p).1, (s.replacePod p).2) := by
  simp [answer, h, Metadata.mayReplace, hv]

theorem answer_updateRuleSet {rs stored : RuleSet} (h : s.ruleSets.get? rs.key = some stored)
    (hv : rs.metadata.resourceVersion = stored.metadata.resourceVersion) :
    s.answer (.updateRuleSet rs) =
      (.ok (s.replaceRuleSet stored rs).1, (s.replaceRuleSet stored rs).2) := by
  simp [answer, h, Metadata.mayReplace, hv]

theorem answer_updateStatus {rs stored : RuleSet} (h : s.ruleSets.get? rs.key = some stored)
    (hv : rs.metadata.resourceVersion = stored.metadata.resourceVersion) :
    s.answer (.updateStatus rs) =
      (.ok (s.replaceStatus stored rs).1, (s.replaceStatus stored rs).2) := by
  simp [answer, h, Metadata.mayReplace, hv]

/-! ## Served traces -/

/-- A store serves a trace: each call of it is answered, or fails without an effect. -/
inductive Serves (mayFail : StoreError → Prop) : Cluster → List Exchange → Cluster → Prop
  | nil (s : Cluster) : Serves mayFail s [] s
  | answered {s t : Cluster} {c : StoreCall} {τ : List Exchange}
      (h : Serves mayFail (s.answer c).2 τ t) :
      Serves mayFail s (⟨.store c, (s.answer c).1⟩ :: τ) t
  | failed {s t : Cluster} {c : StoreCall} {τ : List Exchange} (e : StoreError) (he : mayFail e)
      (h : Serves mayFail s τ t) : Serves mayFail s (⟨.store c, .error e⟩ :: τ) t
  | aside {s t : Cluster} {x : Exchange} {τ : List Exchange} (hx : ∀ c, x.call ≠ .store c)
      (h : Serves mayFail s τ t) : Serves mayFail s (x :: τ) t

variable {mayFail : StoreError → Prop} {t : Cluster} {τ : List Exchange}

theorem serves_nil_iff : Serves mayFail s [] t ↔ t = s := by
  constructor
  · rintro ⟨⟩
    rfl
  · rintro rfl
    exact .nil _

/-- A call is answered from the store, or fails without an effect on it. -/
theorem serves_store_iff {c : StoreCall} {r : c.Answer} :
    Serves mayFail s (⟨.store c, r⟩ :: τ) t ↔
      (r = (s.answer c).1 ∧ Serves mayFail (s.answer c).2 τ t) ∨
        ∃ e, mayFail e ∧ r = .error e ∧ Serves mayFail s τ t := by
  constructor
  · intro h
    cases h with
    | answered h => exact Or.inl ⟨rfl, h⟩
    | failed e he h => exact Or.inr ⟨e, he, rfl, h⟩
    | aside hx h => exact absurd rfl (hx c)
  · rintro (⟨rfl, h⟩ | ⟨e, he, rfl, h⟩)
    · exact .answered h
    · exact .failed e he h

theorem Serves.step {u : Cluster} {c : StoreCall} {r : c.Answer} (ha : s.answer c = (r, u))
    (h : Serves mayFail u τ t) : Serves mayFail s (⟨.store c, r⟩ :: τ) t := by
  refine serves_store_iff.2 (Or.inl ⟨by rw [ha], ?_⟩)
  rwa [ha]

/-- A call that succeeded was answered from the store: only errors are made up. -/
theorem answer_of_serves_ok {c : StoreCall} {v : c.Value}
    (h : Serves mayFail s [⟨.store c, .ok v⟩] t) : s.answer c = (.ok v, t) := by
  rcases serves_store_iff.1 h with ⟨hr, hs⟩ | ⟨e, -, hr, -⟩
  · rw [serves_nil_iff.1 hs, hr]
  · cases hr

theorem serves_aside_iff {x : Exchange} (hx : ∀ c, x.call ≠ .store c) :
    Serves mayFail s (x :: τ) t ↔ Serves mayFail s τ t := by
  constructor
  · intro h
    cases h with
    | answered h => exact absurd rfl (hx _)
    | failed e he h => exact absurd rfl (hx _)
    | aside _ h => exact h
  · exact .aside hx

/-- A trace is served in two parts, with one state of the store between them. -/
theorem serves_append_iff {σ : List Exchange} :
    Serves mayFail s (σ ++ τ) t ↔ ∃ u, Serves mayFail s σ u ∧ Serves mayFail u τ t := by
  constructor
  · intro h
    -- On the first trace: the state between the two is the one that it leads to.
    induction σ generalizing s with
    | nil => exact ⟨s, .nil s, h⟩
    | cons x σ ih =>
      rw [List.cons_append] at h
      cases h with
      | answered h =>
        obtain ⟨u, h₁, h₂⟩ := ih h
        exact ⟨u, .answered h₁, h₂⟩
      | failed e he h =>
        obtain ⟨u, h₁, h₂⟩ := ih h
        exact ⟨u, .failed e he h₁, h₂⟩
      | aside hx h =>
        obtain ⟨u, h₁, h₂⟩ := ih h
        exact ⟨u, .aside hx h₁, h₂⟩
  · rintro ⟨u, h₁, h₂⟩
    induction h₁ with
    | nil s => exact h₂
    | answered _ ih => exact .answered (ih h₂)
    | failed e he _ ih => exact .failed e he (ih h₂)
    | aside hx _ ih => exact .aside hx (ih h₂)

/-- Every object stays under its own key while a trace is served. -/
theorem Serves.wellKeyed (h : Serves mayFail s τ t) (hs : s.WellKeyed) : t.WellKeyed := by
  induction h with
  | nil s => exact hs
  | answered _ ih => exact ih (hs.answer _)
  | failed e he _ ih => exact ih hs
  | aside hx _ ih => exact ih hs

/-- Calls that are no calls of the store leave it alone. -/
theorem Serves.eq_of_aside (h : Serves mayFail s τ t) (hτ : ∀ x ∈ τ, ∀ c, x.call ≠ .store c) :
    t = s := by
  induction h with
  | nil s => rfl
  | answered _ ih => exact absurd rfl (hτ _ (List.mem_cons_self ..) _)
  | failed e he _ ih => exact absurd rfl (hτ _ (List.mem_cons_self ..) _)
  | aside hx _ ih => exact ih fun x hx => hτ x (List.mem_cons_of_mem _ hx)

end Cluster

end PodRules
