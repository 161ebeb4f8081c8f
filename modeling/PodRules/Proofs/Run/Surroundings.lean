import PodRules.Proofs.Pass.Expectations
import PodRules.Proofs.Run.Notifications

/-!
Two runs of a pass side by side. A pass is followed in surroundings that reply to its calls, with a
table of pending writes that reads their clock anew for every call, and its effects are recorded:
the writes that it asks for, what it hands to the stages and the keys that it tells the sinks. Main
statement: what relates the moments of two runs is carried from part to part as long as no entry of
the table has expired for one of them only (`Coupled.bind`).
-/

namespace PodRules

def RuleSet.timeless (rs : RuleSet) : RuleSet :=
  { rs with status := rs.status.map fun st => { st with updateTime := none } }

def StoreCall.timeless : StoreCall → StoreCall
  | .updateStatus rs => .updateStatus rs.timeless
  | c => c

inductive Effect
  | wrote (call : StoreCall)
  | evaluated (stages : List String) (ruleSet : RuleSet) (targets : List Pod)
  | told (key : ObjectKey)
  deriving DecidableEq

def Call.effects : Call → List Effect
  | .store c => if c.isWrite then [.wrote c.timeless] else []
  | .evaluate names rs targets => [.evaluated names rs targets]
  | .notify ns old new => (Call.notify ns old new).told.map .told
  | _ => []

structure Look where
  key : ObjectKey
  entry : Pending
  expired : Bool
  deriving DecidableEq

def Expectations.found (t : Expectations) (now : Nat) (key : ObjectKey) : List Look :=
  (t.pending.get? key).toList.map fun p => ⟨key, p, hasExpired t.ttl now p⟩

/-- No entry that was found on both sides had expired on one of them only. -/
def SameExpiry (looks looks' : List Look) : Prop :=
  ∀ x ∈ looks, ∀ y ∈ looks', x.key = y.key → x.entry = y.entry → x.expired = y.expired

instance (looks looks' : List Look) : Decidable (SameExpiry looks looks') :=
  inferInstanceAs (Decidable (∀ x ∈ looks, ∀ y ∈ looks',
    x.key = y.key → x.entry = y.entry → x.expired = y.expired))

/-- A change to one key leaves what is found under another. -/
theorem Expectations.Sets.found_of_ne {t t' : Expectations} {x : Option Pending}
    {key k : ObjectKey} (h : Sets key x t t') (hk : k ≠ key) (now : Nat) :
    t'.found now k = t.found now k := by
  unfold found
  rw [h.get?, if_neg hk, h.ttl]

/-- What replies to the calls of a pass, and the clock that the table of pending writes reads. Every
call goes through the surroundings, but those on the table are answered by it. -/
structure Surroundings (σ : Type) where
  reply : (c : Call) → σ → c.Reply × σ
  clock : σ → Nat

structure Moment (σ : Type) where
  outer : σ
  table : Expectations
  effects : List Effect
  looks : List Look

namespace Surroundings

variable {σ : Type}

def after (w : Surroundings σ) (c : Call) (s : σ) : σ := (w.reply c s).2

def handle (w : Surroundings σ) : (c : Call) → Moment σ → c.Reply × Moment σ
  | .trust key version, m =>
    let now := w.clock m.outer
    let (trusted, table) := m.table.trust now key version
    (trusted, { m with
      outer := w.after (.trust key version) m.outer, table
      looks := m.looks ++ m.table.found now key })
  | .arm key base, m =>
    let table := m.table.arm (w.clock m.outer) key base
    ((), { m with outer := w.after (.arm key base) m.outer, table })
  | .disarm key, m =>
    ((), { m with outer := w.after (.disarm key) m.outer, table := m.table.disarm key })
  | c, m =>
    ((w.reply c m.outer).1,
      { m with outer := w.after c m.outer, effects := m.effects ++ c.effects })

def follow {α : Type} (w : Surroundings σ) (p : Pass α) (m : Moment σ) :
    Except Failure α × Moment σ :=
  p.run w.handle m

/-- A call that is not on the table is replied to by the surroundings. -/
theorem handle_of_expectation?_eq_none (w : Surroundings σ) {c : Call}
    (h : c.expectation? = none) (m : Moment σ) :
    w.handle c m = ((w.reply c m.outer).1,
      ⟨w.after c m.outer, m.table, m.effects ++ c.effects, m.looks⟩) := by
  cases c with
  | trust key version => cases h
  | arm key base => cases h
  | disarm key => cases h
  | _ => rfl

theorem outer_handle (w : Surroundings σ) (c : Call) (m : Moment σ) :
    (w.handle c m).2.outer = w.after c m.outer := by
  cases c with
  | _ => rfl

theorem effects_handle (w : Surroundings σ) (c : Call) (m : Moment σ) :
    (w.handle c m).2.effects = m.effects ++ c.effects := by
  cases c with
  | trust key version => exact (List.append_nil m.effects).symm
  | arm key base => exact (List.append_nil m.effects).symm
  | disarm key => exact (List.append_nil m.effects).symm
  | _ => rfl

theorem looks_handle (w : Surroundings σ) (c : Call) (m : Moment σ) :
    m.looks ⊆ (w.handle c m).2.looks := by
  cases c with
  | trust key version => exact List.subset_append_left ..
  | _ => exact List.Subset.refl _

/-- What was found is not forgotten. -/
theorem looks_follow {α : Type} (w : Surroundings σ) (p : Pass α) (m : Moment σ) :
    m.looks ⊆ (w.follow p m).2.looks := by
  induction p generalizing m with
  | done v => exact List.Subset.refl _
  | failed e => exact List.Subset.refl _
  | ask c k ih =>
    have hcall : m.looks ⊆ (w.handle c m).2.looks := w.looks_handle c m
    exact List.Subset.trans hcall (ih _ _)

/-- What was looked at in the first part remains looked at in the second. -/
theorem looks_bind {α β : Type} (w : Surroundings σ) (p : Pass α) (f : α → Pass β)
    (m : Moment σ) : (w.follow p m).2.looks ⊆ (w.follow (p.bind f) m).2.looks := by
  unfold follow
  rw [Pass.run_bind]
  rcases p.run w.handle m with ⟨e | v, n⟩
  · exact List.Subset.refl _
  · exact w.looks_follow (f v) n

end Surroundings

/-! ## What expires -/

namespace SameExpiry

variable {looks looks' more more' : List Look}

/-- What holds of all that was found holds of a part of it. -/
theorem mono (h : SameExpiry more more') (hl : looks ⊆ more) (hl' : looks' ⊆ more') :
    SameExpiry looks looks' := by
  intro x hx y hy hkey hentry
  exact h x (hl hx) y (hl' hy) hkey hentry

/-- The reading of the clock shows in an answer of the table only through what has expired. -/
theorem trust_eq {t : Expectations} {now now' : Nat} {key : ObjectKey}
    (h : SameExpiry (t.found now key) (t.found now' key)) (version : String) :
    t.trust now key version = t.trust now' key version := by
  unfold Expectations.found at h
  unfold Expectations.trust
  cases hp : t.pending.get? key with
  | none => rfl
  | some p =>
    rw [hp] at h
    have hexpired : Expectations.hasExpired t.ttl now p = Expectations.hasExpired t.ttl now' p :=
      h _ (List.mem_singleton.2 rfl) _ (List.mem_singleton.2 rfl) rfl rfl
    simp only [hexpired]

end SameExpiry

/-! ## Moments of two runs -/

section

variable {σ σ' α α' β β' : Type} {a : Surroundings σ} {b : Surroundings σ'} {R : σ → σ' → Prop}
  {m : Moment σ} {m' : Moment σ'}

def SameEffects (m : Moment σ) (m' : Moment σ') : Prop := m.effects = m'.effects

structure Alike (R : σ → σ' → Prop) (m : Moment σ) (m' : Moment σ') : Prop where
  outer : R m.outer m'.outer
  effects : SameEffects m m'

structure Abreast (R : σ → σ' → Prop) (m : Moment σ) (m' : Moment σ') : Prop
    extends Alike R m m' where
  table : m.table = m'.table

def SameValue (J : Moment σ → Moment σ' → Prop) (v v' : α) (m : Moment σ) (m' : Moment σ') : Prop :=
  v = v' ∧ J m m'

def SameEnd (v v' : α) (m : Moment σ) (m' : Moment σ') : Prop := v = v' ∧ SameEffects m m'

theorem SameEffects.handle (h : SameEffects m m') {c c' : Call} (hc : c.effects = c'.effects) :
    SameEffects (a.handle c m).2 (b.handle c' m').2 := by
  unfold SameEffects at h ⊢
  rw [Surroundings.effects_handle, Surroundings.effects_handle, h, hc]

/-! ## Coupled runs -/

inductive EndsAlike (Q : α → α' → Moment σ → Moment σ' → Prop) :
    Except Failure α × Moment σ → Except Failure α' × Moment σ' → Prop
  | done {v : α} {v' : α'} {m : Moment σ} {m' : Moment σ'} (h : Q v v' m m') :
      EndsAlike Q (.ok v, m) (.ok v', m')
  | failed (e : Failure) {m : Moment σ} {m' : Moment σ'} (h : SameEffects m m') :
      EndsAlike Q (.error e, m) (.error e, m')

/-- Two passes, each in its surroundings, end alike from related moments, unless an entry of the
table has expired for one of them only. -/
def Coupled (a : Surroundings σ) (b : Surroundings σ') (I : Moment σ → Moment σ' → Prop)
    (p : Pass α) (p' : Pass α') (Q : α → α' → Moment σ → Moment σ' → Prop) : Prop :=
  ∀ m m', I m m' → SameExpiry (a.follow p m).2.looks (b.follow p' m').2.looks →
    EndsAlike Q (a.follow p m) (b.follow p' m')

def RepliedAlike (a : Surroundings σ) (b : Surroundings σ') (J : Moment σ → Moment σ' → Prop)
    (c : Call) : Prop :=
  ∀ m m', J m m' →
    (a.handle c m).1 = (b.handle c m').1 ∧ J (a.handle c m).2 (b.handle c m').2

variable {I J : Moment σ → Moment σ' → Prop} {Q : α → α' → Moment σ → Moment σ' → Prop}
  {Q' : β → β' → Moment σ → Moment σ' → Prop}

theorem coupled_done {v : α} {v' : α'} (h : ∀ m m', I m m' → Q v v' m m') :
    Coupled a b I (.done v) (.done v') Q :=
  fun m m' hm _ => .done (h m m' hm)

theorem coupled_failed (e : Failure) (h : ∀ m m', I m m' → SameEffects m m') :
    Coupled a b I (.failed e) (.failed e) Q :=
  fun m m' hm _ => .failed e (h m m' hm)

/-- Two passes are coupled when their next calls lead to coupled passes. -/
theorem coupled_ask {c c' : Call} {k : c.Reply → Pass α} {k' : c'.Reply → Pass α'}
    (J : Moment σ → Moment σ' → Prop)
    (h : ∀ m m', I m m' → SameExpiry (a.handle c m).2.looks (b.handle c' m').2.looks →
      J (a.handle c m).2 (b.handle c' m').2 ∧
        Coupled a b J (k (a.handle c m).1) (k' (b.handle c' m').1) Q) :
    Coupled a b I (.ask c k) (.ask c' k') Q := by
  intro m m' hm hexpiry
  have hcall : SameExpiry (a.handle c m).2.looks (b.handle c' m').2.looks :=
    hexpiry.mono (a.looks_follow _ _) (b.looks_follow _ _)
  obtain ⟨hmoments, hnext⟩ := h m m' hm hcall
  exact hnext _ _ hmoments hexpiry

/-- A call that is replied to alike is followed by passes that are coupled for every reply. -/
theorem coupled_ask_replied {c : Call} {k : c.Reply → Pass α} {k' : c.Reply → Pass α'}
    (hc : RepliedAlike a b J c) (hk : ∀ r, Coupled a b J (k r) (k' r) Q) :
    Coupled a b J (.ask c k) (.ask c k') Q := by
  apply coupled_ask J
  intro m m' hm _
  obtain ⟨hreply, hmoments⟩ := hc m m' hm
  rw [← hreply]
  exact ⟨hmoments, hk _⟩

theorem coupled_ite {c : Prop} [Decidable c] {p q : Pass α} {p' q' : Pass α'}
    (h : Coupled a b I p p' Q) (h' : Coupled a b I q q' Q) :
    Coupled a b I (if c then p else q) (if c then p' else q') Q := by
  by_cases hc : c
  · rwa [if_pos hc, if_pos hc]
  · rwa [if_neg hc, if_neg hc]

theorem Coupled.of_imp {p : Pass α} {p' : Pass α'} (h : Coupled a b J p p' Q)
    (hI : ∀ m m', I m m' → J m m') : Coupled a b I p p' Q :=
  fun m m' hm => h m m' (hI m m' hm)

/-- The runs of two passes that go on with values of coupled first parts are coupled: what the first
parts found is among what the whole passes find. -/
theorem Coupled.bind {p : Pass α} {p' : Pass α'} {f : α → Pass β} {f' : α' → Pass β'}
    (h : Coupled a b I p p' Q) (hf : ∀ v v', Coupled a b (Q v v') (f v) (f' v') Q') :
    Coupled a b I (p.bind f) (p'.bind f') Q' := by
  intro m m' hm hexpiry
  have hfirst := h m m' hm (hexpiry.mono (a.looks_bind p f m) (b.looks_bind p' f' m'))
  unfold Surroundings.follow at hfirst hexpiry ⊢
  rw [Pass.run_bind, Pass.run_bind] at hexpiry ⊢
  generalize p.run a.handle m = x at hfirst hexpiry ⊢
  generalize p'.run b.handle m' = y at hfirst hexpiry ⊢
  cases hfirst with
  | done hv => exact hf _ _ _ _ hv hexpiry
  | failed e heffects => exact .failed e heffects

/-- Behind a value found on both sides the passes go on with it. -/
theorem Coupled.bind_value {p p' : Pass α} {f : α → Pass β} {f' : α → Pass β'}
    (h : Coupled a b I p p' (SameValue J)) (hf : ∀ v, Coupled a b J (f v) (f' v) Q') :
    Coupled a b I (p.bind f) (p'.bind f') Q' := by
  apply h.bind
  intro v v' m m' hv
  obtain ⟨rfl, hm⟩ := hv
  exact hf v m m' hm

/-- A part that makes only calls which are replied to alike finds one value. -/
theorem coupled_of_asks {p : Pass α} (hp : p.Asks (RepliedAlike a b J))
    (hJ : ∀ m m', J m m' → SameEffects m m') : Coupled a b J p p (SameValue J) := by
  induction p with
  | done v => exact coupled_done fun m m' hm => ⟨rfl, hm⟩
  | failed e => exact coupled_failed e hJ
  | ask c k ih =>
    obtain ⟨hc, hk⟩ := Pass.asks_ask_iff.1 hp
    exact coupled_ask_replied hc fun r => ih r (hk r)

end

end PodRules
