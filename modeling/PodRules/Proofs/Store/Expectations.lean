import PodRules.Proofs.Order.SortedMap
import PodRules.Store.Expectations

namespace PodRules

/-! ## The order of versions -/

section

variable {base observed : String}

/-- A version is not newer than itself, nor is a number than one that is at least as great. -/
theorem isNewer_eq_false_iff : isNewer base observed = false ↔ base = observed ∨
    ∃ m n, Decimal.word? base = some m ∧ Decimal.word? observed = some n ∧ n ≤ m := by
  unfold isNewer
  cases hb : Decimal.word? base with
  | none => simp
  | some m =>
    cases ho : Decimal.word? observed with
    | none => simp
    | some n =>
      have hself : base = observed → n ≤ m := by
        rintro rfl
        exact Nat.le_of_eq (Option.some.inj (ho.symm.trans hb))
      simpa using hself

theorem isNewer_self (version : String) : isNewer version version = false :=
  isNewer_eq_false_iff.2 (.inl rfl)

/-- Not being newer is transitive, also where versions are not numbers. -/
theorem isNewer_eq_false_trans {version : String} (h : isNewer version base = false)
    (h' : isNewer base observed = false) : isNewer version observed = false := by
  rcases isNewer_eq_false_iff.1 h with rfl | ⟨m, n, hm, hn, hle⟩
  · exact h'
  · rcases isNewer_eq_false_iff.1 h' with rfl | ⟨n', k, hn', hk, hle'⟩
    · exact h
    · cases hn.symm.trans hn'
      exact isNewer_eq_false_iff.2 (.inr ⟨m, k, hm, hk, Nat.le_trans hle' hle⟩)

/-- Against a number, only a number that is no greater is not newer. -/
theorem isNewer_eq_false_iff_le {m : Nat} (h : Decimal.word? base = some m) :
    isNewer base observed = false ↔ ∃ n, Decimal.word? observed = some n ∧ n ≤ m := by
  rw [isNewer_eq_false_iff]
  constructor
  · rintro (rfl | ⟨m', n, hm, hn, hle⟩)
    · exact ⟨m, h, Nat.le_refl m⟩
    · cases h.symm.trans hm
      exact ⟨n, hn, hle⟩
  · rintro ⟨n, hn, hle⟩
    exact .inr ⟨m, n, h, hn, hle⟩

end

namespace Expectations

variable {t t' u u' : Expectations} {key : ObjectKey} {x : Option Pending} {now : Nat}
  {K : ObjectKey → Prop}

theorem eq_of_get? (httl : t.ttl = u.ttl) (h : ∀ k, t.pending.get? k = u.pending.get? k) :
    t = u := by
  obtain ⟨ttl, pending⟩ := t
  obtain ⟨ttl', pending'⟩ := u
  have hpending : pending = pending' := SortedMap.ext h
  rw [hpending, show ttl = ttl' from httl]

def NoneExpired (t : Expectations) (now : Nat) : Prop :=
  ∀ k p, t.pending.get? k = some p → hasExpired t.ttl now p = false

theorem noneExpired_fresh (ttl : Duration) (now : Nat) : (fresh ttl).NoneExpired now := by
  intro k p h
  cases h

def ends (ttl : Duration) (now : Nat) (version : String) (p : Pending) : Bool :=
  hasExpired ttl now p || isNewer p.base version

structure Sets (key : ObjectKey) (x : Option Pending) (t t' : Expectations) : Prop where
  ttl : t'.ttl = t.ttl
  get? : ∀ k, t'.pending.get? k = if k = key then x else t.pending.get? k

theorem trust_fst (t : Expectations) (now : Nat) (key : ObjectKey) (version : String) :
    (t.trust now key version).1 = (t.pending.get? key).all (ends t.ttl now version) := by
  unfold trust
  cases t.pending.get? key with
  | none => rfl
  | some p =>
    show (ite (ends t.ttl now version p = true) _ _ : Bool × Expectations).1 = _
    cases h : ends t.ttl now version p <;> simp [h]

/-- A refusal consumes nothing. -/
theorem trust_snd_of_refused {version : String} (h : (t.trust now key version).1 = false) :
    (t.trust now key version).2 = t := by
  unfold trust at h ⊢
  cases hp : t.pending.get? key with
  | none => rfl
  | some p =>
    simp only [hp] at h ⊢
    split
    next hends =>
      rw [if_pos hends] at h
      cases h
    next => rfl

/-- A look drops the entry of its key when that has been reached or has expired, and nothing
else. -/
theorem sets_trust (t : Expectations) (now : Nat) (key : ObjectKey) (version : String) :
    Sets key ((t.pending.get? key).filter fun p => !ends t.ttl now version p) t
      (t.trust now key version).2 := by
  unfold trust
  cases hp : t.pending.get? key with
  | none =>
    refine ⟨rfl, fun k => ?_⟩
    by_cases hk : k = key
    · simp [hk, hp]
    · simp [hk]
  | some p =>
    -- The entry goes if the version ends it, and stays otherwise.
    show Sets key _ t (ite (ends t.ttl now version p = true) _ _ : Bool × Expectations).2
    cases h : ends t.ttl now version p with
    | true =>
      refine ⟨rfl, fun k => ?_⟩
      simp only [if_true, SortedMap.get?_erase, Option.filter, h]
      rfl
    | false =>
      refine ⟨rfl, fun k => ?_⟩
      by_cases hk : k = key
      · simp [hk, hp, Option.filter, h]
      · simp [hk]

/-- Without expired entries the sweep removes nothing. -/
theorem sets_arm (h : t.NoneExpired now) (key : ObjectKey) (base : String) :
    Sets key (some ⟨base, now⟩) t (t.arm now key base) := by
  refine ⟨rfl, fun k => ?_⟩
  have hsweep : (t.pending.get? k).filter (fun p => !hasExpired t.ttl now p) =
      t.pending.get? k := by
    cases hp : t.pending.get? k with
    | none => rfl
    | some p => simp [Option.filter, h k p hp]
  unfold arm
  rw [SortedMap.get?_insert, SortedMap.get?_filter, hsweep]

theorem sets_disarm (t : Expectations) (key : ObjectKey) : Sets key none t (t.disarm key) := by
  refine ⟨rfl, fun k => ?_⟩
  unfold disarm
  rw [SortedMap.get?_erase]

/-- A view under another key is judged as before. -/
theorem Sets.trust_fst_of_ne {k : ObjectKey} (h : Sets key x t t') (hk : k ≠ key) (now : Nat)
    (version : String) : (t'.trust now k version).1 = (t.trust now k version).1 := by
  have hget : t'.pending.get? k = t.pending.get? k := by
    rw [h.get?, if_neg hk]
  rw [trust_fst, trust_fst, h.ttl, hget]

/-! ## A table cut down to some keys -/

structure Restricts (K : ObjectKey → Prop) (t u : Expectations) : Prop where
  ttl : u.ttl = t.ttl
  inside : ∀ k, K k → u.pending.get? k = t.pending.get? k
  outside : ∀ k, ¬ K k → u.pending.get? k = none

theorem restricts_fresh (ttl : Duration) : Restricts K (fresh ttl) (fresh ttl) :=
  ⟨rfl, fun _ _ => rfl, fun _ _ => rfl⟩

namespace Restricts

theorem noneExpired (h : Restricts K t u) (ht : t.NoneExpired now) : u.NoneExpired now := by
  intro k p hp
  by_cases hk : K k
  · rw [h.ttl]
    rw [h.inside k hk] at hp
    exact ht k p hp
  · rw [h.outside k hk] at hp
    cases hp

theorem trust_fst (h : Restricts K t u) (hk : K key) (version : String) :
    (u.trust now key version).1 = (t.trust now key version).1 := by
  rw [Expectations.trust_fst, Expectations.trust_fst, h.ttl, h.inside key hk]

theorem sets_inside (h : Restricts K t u) (hk : K key) (ht : Sets key x t t')
    (hu : Sets key x u u') : Restricts K t' u' := by
  refine ⟨by rw [hu.ttl, ht.ttl, h.ttl], fun k hK => ?_, fun k hK => ?_⟩
  · rw [hu.get?, ht.get?, h.inside k hK]
  · have hne : k ≠ key := by
      rintro rfl
      exact hK hk
    rw [hu.get?, if_neg hne, h.outside k hK]

/-- A change outside the kept keys does not show. -/
theorem sets_outside (h : Restricts K t u) (hk : ¬ K key) (ht : Sets key x t t') :
    Restricts K t' u := by
  refine ⟨by rw [ht.ttl, h.ttl], fun k hK => ?_, h.outside⟩
  have hne : k ≠ key := by
    rintro rfl
    exact hk hK
  rw [ht.get?, if_neg hne, h.inside k hK]

end Restricts

end Expectations

end PodRules
