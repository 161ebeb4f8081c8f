import PodRules.Pass.TargetEdit

/-!
The traces of a pass: the calls that it makes with the replies that it gets, for every choice of
replies. A trace of a sequence is a trace of its first part and one of the second
(`ends_bind_iff`), a trace of a retried attempt is some conflicting attempts and a last one
(`Ends.retry`), and a handler follows one trace (`ends_run`). What every call of a pass has behind
it is proved part by part with `Guarded`.
-/

namespace PodRules

structure Exchange where
  call : Call
  reply : call.Reply

def Call.anyReply : (c : Call) → c.Reply
  | .store _ => .error (.transient "")
  | .trust _ _ => true
  | .arm _ _ => ()
  | .disarm _ => ()
  | .sleep _ => ()
  | .stages => []
  | .evaluate _ _ _ => []
  | .now => default
  | .warn _ _ _ => ()
  | .notify _ _ _ => ()

namespace Pass

variable {α β σ : Type}

inductive Ends : Pass α → List Exchange → Except Failure α → Prop
  | done (v : α) : Ends (.done v) [] (.ok v)
  | failed (e : Failure) : Ends (.failed e) [] (.error e)
  | ask {c : Call} {k : c.Reply → Pass α} {τ : List Exchange} {res : Except Failure α}
      (r : c.Reply) (h : Ends (k r) τ res) : Ends (.ask c k) (⟨c, r⟩ :: τ) res

@[simp] theorem ends_done_iff {v : α} {τ : List Exchange} {res : Except Failure α} :
    (Pass.done v).Ends τ res ↔ τ = [] ∧ res = .ok v := by
  constructor
  · rintro ⟨⟩
    exact ⟨rfl, rfl⟩
  · rintro ⟨rfl, rfl⟩
    exact .done v

@[simp] theorem ends_failed_iff {e : Failure} {τ : List Exchange} {res : Except Failure α} :
    (Pass.failed e : Pass α).Ends τ res ↔ τ = [] ∧ res = .error e := by
  constructor
  · rintro ⟨⟩
    exact ⟨rfl, rfl⟩
  · rintro ⟨rfl, rfl⟩
    exact .failed e

theorem ends_ask_iff {c : Call} {k : c.Reply → Pass α} {τ : List Exchange}
    {res : Except Failure α} :
    (Pass.ask c k).Ends τ res ↔ ∃ r rest, τ = ⟨c, r⟩ :: rest ∧ (k r).Ends rest res := by
  constructor
  · rintro ⟨⟩
    next rest r h => exact ⟨r, rest, rfl, h⟩
  · rintro ⟨r, rest, rfl, h⟩
    exact .ask r h

/-- A sequence ends with the failure of its first part, or goes through both parts. -/
theorem ends_bind_iff {p : Pass α} {f : α → Pass β} {τ : List Exchange}
    {res : Except Failure β} :
    (p.bind f).Ends τ res ↔
      (∃ e, p.Ends τ (.error e) ∧ res = .error e) ∨
        ∃ v τ₁ τ₂, τ = τ₁ ++ τ₂ ∧ p.Ends τ₁ (.ok v) ∧ (f v).Ends τ₂ res := by
  -- On the first part: its calls go over to the front of the trace one by one.
  induction p generalizing τ with
  | done v =>
    simp only [bind, ends_done_iff]
    constructor
    · exact fun h => Or.inr ⟨v, [], τ, rfl, ⟨rfl, rfl⟩, h⟩
    · rintro (⟨e, ⟨-, he⟩, -⟩ | ⟨w, τ₁, τ₂, rfl, ⟨rfl, hw⟩, h⟩)
      · cases he
      · cases hw
        exact h
  | failed e =>
    simp only [bind, ends_failed_iff]
    constructor
    · rintro ⟨rfl, rfl⟩
      exact Or.inl ⟨e, ⟨rfl, rfl⟩, rfl⟩
    · rintro (⟨e', ⟨rfl, he⟩, rfl⟩ | ⟨w, τ₁, τ₂, rfl, ⟨-, hw⟩, -⟩)
      · cases he
        exact ⟨rfl, rfl⟩
      · cases hw
  | ask c k ih =>
    simp only [bind, ends_ask_iff, ih]
    constructor
    · rintro ⟨r, rest, rfl, ⟨e, he, rfl⟩ | ⟨v, τ₁, τ₂, rfl, h₁, h₂⟩⟩
      · exact Or.inl ⟨e, ⟨r, rest, rfl, he⟩, rfl⟩
      · exact Or.inr ⟨v, ⟨c, r⟩ :: τ₁, τ₂, rfl, ⟨r, τ₁, rfl, h₁⟩, h₂⟩
    · rintro (⟨e, ⟨r, rest, rfl, he⟩, rfl⟩ | ⟨v, τ₁, τ₂, rfl, ⟨r, rest, rfl, h₁⟩, h₂⟩)
      · exact ⟨r, rest, rfl, Or.inl ⟨e, he, rfl⟩⟩
      · exact ⟨r, rest ++ τ₂, rfl, Or.inr ⟨v, rest, τ₂, rfl, h₁, h₂⟩⟩

/-- What a handler follows is one of the traces. -/
theorem ends_run (handle : (c : Call) → σ → c.Reply × σ) (p : Pass α) (s : σ) :
    ∃ τ, p.Ends τ (p.run handle s).1 := by
  induction p generalizing s with
  | done v => exact ⟨[], .done v⟩
  | failed e => exact ⟨[], .failed e⟩
  | ask c k ih =>
    obtain ⟨τ, h⟩ := ih (handle c s).1 (handle c s).2
    exact ⟨_, .ask _ h⟩

/-- Two traces of a pass of which one begins with the other are the same. -/
theorem Ends.eq_of_append {p : Pass α} {τ rest : List Exchange} {res res' : Except Failure α}
    (h : p.Ends τ res) (h' : p.Ends (τ ++ rest) res') : rest = [] ∧ res' = res := by
  induction h with
  | done v => simpa using h'
  | failed e => simpa using h'
  | ask r _ ih =>
    obtain ⟨r', rest', hτ, hr⟩ := ends_ask_iff.1 h'
    obtain ⟨he, rfl⟩ := List.cons.inj hτ
    cases he
    exact ih hr

/-- The trace of a pass tells its end. -/
theorem Ends.res_eq {p : Pass α} {τ : List Exchange} {res res' : Except Failure α}
    (h : p.Ends τ res) (h' : p.Ends τ res') : res' = res :=
  (h.eq_of_append (by rwa [List.append_nil])).2

inductive Reaches : Pass α → List Exchange → Pass α → Prop
  | here (p : Pass α) : Reaches p [] p
  | ask {c : Call} {k : c.Reply → Pass α} {τ : List Exchange} {q : Pass α} (r : c.Reply)
      (h : Reaches (k r) τ q) : Reaches (.ask c k) (⟨c, r⟩ :: τ) q

/-- Whatever happened so far, some replies bring a pass to its end. -/
theorem Reaches.exists_ends {p q : Pass α} {τ : List Exchange} (h : p.Reaches τ q) :
    ∃ rest res, p.Ends (τ ++ rest) res := by
  induction h with
  | here p =>
    obtain ⟨rest, hrest⟩ := ends_run (fun c s => (c.anyReply, s)) p ()
    exact ⟨rest, _, hrest⟩
  | ask r _ ih =>
    obtain ⟨rest, res, hrest⟩ := ih
    exact ⟨rest, res, .ask r hrest⟩

/-- A pass that was followed up to a point ends as the rest of it does. -/
theorem Reaches.ends_append_iff {p q : Pass α} {τ rest : List Exchange}
    {res : Except Failure α} (h : p.Reaches τ q) : p.Ends (τ ++ rest) res ↔ q.Ends rest res := by
  induction h with
  | here p => rfl
  | ask r _ ih =>
    rw [List.cons_append, ends_ask_iff, ← ih]
    constructor
    · rintro ⟨r', rest', hτ, hr⟩
      obtain ⟨he, rfl⟩ := List.cons.inj hτ
      cases he
      exact hr
    · exact fun hr => ⟨r, _, rfl, hr⟩

/-! ## What a pass may ask -/

def Asks (P : Call → Prop) (p : Pass α) : Prop :=
  ∀ τ res, p.Ends τ res → ∀ x ∈ τ, P x.call

variable {P Q : Call → Prop}

theorem asks_done (v : α) : Asks P (.done v) := by
  intro τ res h x hx
  simp only [ends_done_iff] at h
  simp [h.1] at hx

theorem asks_failed (e : Failure) : Asks P (.failed e : Pass α) := by
  intro τ res h x hx
  simp only [ends_failed_iff] at h
  simp [h.1] at hx

theorem asks_ask {c : Call} {k : c.Reply → Pass α} (hc : P c) (hk : ∀ r, Asks P (k r)) :
    Asks P (.ask c k) := by
  intro τ res h x hx
  obtain ⟨r, rest, rfl, hr⟩ := ends_ask_iff.1 h
  rcases List.mem_cons.1 hx with rfl | hx
  · exact hc
  · exact hk r rest res hr x hx

theorem asks_ask_iff {c : Call} {k : c.Reply → Pass α} :
    Asks P (.ask c k) ↔ P c ∧ ∀ r, Asks P (k r) := by
  constructor
  · intro h
    have hnext : ∀ r, Asks P (k r) := fun r τ res hr x hx =>
      h _ res (.ask r hr) x (List.mem_cons_of_mem _ hx)
    obtain ⟨τ, hends⟩ := ends_run (fun c s => (c.anyReply, s)) (k c.anyReply) ()
    exact ⟨h _ _ (.ask _ hends) ⟨c, c.anyReply⟩ (List.mem_cons_self ..), hnext⟩
  · exact fun h => asks_ask h.1 h.2

theorem Asks.bind {p : Pass α} {f : α → Pass β} (hp : Asks P p) (hf : ∀ v, Asks P (f v)) :
    Asks P (p.bind f) := by
  intro τ res h x hx
  rcases ends_bind_iff.1 h with ⟨e, he, -⟩ | ⟨v, τ₁, τ₂, rfl, h₁, h₂⟩
  · exact hp τ _ he x hx
  · rcases List.mem_append.1 hx with hx | hx
    · exact hp τ₁ _ h₁ x hx
    · exact hf v τ₂ res h₂ x hx

theorem Asks.mono {p : Pass α} (h : Asks P p) (hpq : ∀ c, P c → Q c) : Asks Q p :=
  fun τ res ht x hx => hpq _ (h τ res ht x hx)

theorem Asks.not_mem {p : Pass α} {τ : List Exchange} {res : Except Failure α} (h : Asks P p)
    (hends : p.Ends τ res) {x : Exchange} (hx : ¬ P x.call) : x ∉ τ :=
  fun hmem => hx (h τ res hends x hmem)

/-! ## Retried attempts -/

theorem exists_attempts_eq (b : RetryBackoff) : ∃ left, b.attempts = left + 1 := by
  have h : 1 ≤ b.attempts := Nat.le_max_left 1 b.steps
  exact ⟨b.attempts - 1, by omega⟩

inductive Conflicts (attempt : Pass (Except StoreError α)) : List Exchange → Prop
  | nil : Conflicts attempt []
  | wait {τ rest : List Exchange} {m : String} (span : Duration)
      (h : attempt.Ends τ (.ok (.error (.conflict m)))) (hr : Conflicts attempt rest) :
      Conflicts attempt (τ ++ ⟨.sleep span, ()⟩ :: rest)

inductive Waits (b : RetryBackoff) (attempt : Pass (Except StoreError α)) :
    (number count : Nat) → List Exchange → Prop
  | nil (number : Nat) : Waits b attempt number 0 []
  | wait {number count : Nat} {τ rest : List Exchange} {m : String}
      (h : attempt.Ends τ (.ok (.error (.conflict m))))
      (hr : Waits b attempt (number + 1) count rest) :
      Waits b attempt number (count + 1) (τ ++ ⟨.sleep (b.delay number), ()⟩ :: rest)

theorem Waits.conflicts {b : RetryBackoff} {attempt : Pass (Except StoreError α)}
    {number count : Nat} {τ : List Exchange} (h : Waits b attempt number count τ) :
    Conflicts attempt τ := by
  induction h with
  | nil => exact .nil
  | wait h _ ih => exact .wait _ h ih

inductive Concludes (key : ObjectKey) (attempts : Nat) (attempt : Pass (Except StoreError α))
    (τ : List Exchange) : Except Failure α → Prop
  | value (v : α) (h : attempt.Ends τ (.ok (.ok v))) : Concludes key attempts attempt τ (.ok v)
  | refused (e : StoreError) (hc : e.isConflict = false) (h : attempt.Ends τ (.ok (.error e))) :
      Concludes key attempts attempt τ (.error (.store e))
  | exhausted (m : String) (h : attempt.Ends τ (.ok (.error (.conflict m)))) :
      Concludes key attempts attempt τ (.error (.retryExhausted key attempts))
  | broken (e : Failure) (h : attempt.Ends τ (.error e)) :
      Concludes key attempts attempt τ (.error e)

/-- One attempt of the loop either concludes it, or meets a conflict; then the loop gives up, or
waits and goes on with one attempt less. -/
theorem Ends.retryFrom_step {b : RetryBackoff} {key : ObjectKey}
    {attempt : Pass (Except StoreError α)} {left number n : Nat} {τ : List Exchange}
    {res : Except Failure α}
    (h : (retryFrom (fun d => Pass.call (.sleep d)) b key attempt (left + 1) number).Ends τ res) :
    (Concludes key n attempt τ res ∧ ∀ m, ¬ attempt.Ends τ (.ok (.error (.conflict m)))) ∨
      ∃ τ₁ rest m, τ = τ₁ ++ rest ∧ attempt.Ends τ₁ (.ok (.error (.conflict m))) ∧
        ((left = 0 ∧ rest = [] ∧ res = .error (.retryExhausted key number)) ∨
          ∃ rest', rest = ⟨.sleep (b.delay number), ()⟩ :: rest' ∧ 0 < left ∧
            (retryFrom (fun d => Pass.call (.sleep d)) b key attempt left (number + 1)).Ends
              rest' res) := by
  rw [retryFrom] at h
  rcases ends_bind_iff.1 h with ⟨e, he, rfl⟩ | ⟨v, τ₁, τ₂, rfl, h₁, h₂⟩
  · refine Or.inl ⟨.broken e he, fun m hm => ?_⟩
    cases he.res_eq hm
  cases v with
  | ok v =>
    obtain ⟨rfl, rfl⟩ := ends_done_iff.1 h₂
    rw [List.append_nil]
    refine Or.inl ⟨.value v h₁, fun m hm => ?_⟩
    cases h₁.res_eq hm
  | error e =>
    cases e with
    | conflict m =>
      refine Or.inr ⟨τ₁, τ₂, m, rfl, h₁, ?_⟩
      by_cases hl : left = 0
      · subst hl
        obtain ⟨rfl, rfl⟩ := ends_failed_iff.1 h₂
        exact Or.inl ⟨rfl, rfl, rfl⟩
      · simp only [hl, if_false] at h₂
        obtain ⟨r, rest, rfl, h₃⟩ := ends_ask_iff.1 h₂
        exact Or.inr ⟨rest, rfl, Nat.pos_of_ne_zero hl, h₃⟩
    | notFound m | transient m =>
      obtain ⟨rfl, rfl⟩ := ends_failed_iff.1 h₂
      rw [List.append_nil]
      refine Or.inl ⟨.refused _ rfl h₁, fun m hm => ?_⟩
      cases h₁.res_eq hm

/-- A retried attempt is repeated after conflicts only, with the delays counted up; the last attempt
decides, and meets a conflict only when no attempt is left. -/
theorem Ends.retryFrom_counted {b : RetryBackoff} {key : ObjectKey}
    {attempt : Pass (Except StoreError α)} {left number : Nat} {τ : List Exchange}
    {res : Except Failure α}
    (h : (PodRules.retryFrom (fun d => Pass.call (.sleep d)) b key attempt (left + 1)
      number).Ends τ res) :
    ∃ count before last, τ = before ++ last ∧ Waits b attempt number count before ∧
      count ≤ left ∧ Concludes key (number + left) attempt last res ∧
      ∀ m, attempt.Ends last (.ok (.error (.conflict m))) → count = left := by
  -- On the attempts that are left. The number of an attempt and what is left behind it have a
  -- constant sum, which is the number that a loop which gives up reports.
  induction left generalizing number τ with
  | zero =>
    rcases h.retryFrom_step with ⟨hc, hn⟩ | ⟨τ₁, rest, m, rfl, h₁, ⟨-, rfl, rfl⟩ | ⟨_, _, h0, _⟩⟩
    · exact ⟨0, [], τ, rfl, .nil _, Nat.le_refl 0, hc, fun m hm => absurd hm (hn m)⟩
    · exact ⟨0, [], _, rfl, .nil _, Nat.le_refl 0, .exhausted m (by simpa using h₁),
        fun _ _ => rfl⟩
    · omega
  | succ left ih =>
    rcases h.retryFrom_step with ⟨hc, hn⟩ | ⟨τ₁, rest, m, rfl, h₁, ⟨h0, _, _⟩ | ⟨rest', rfl, -, h₂⟩⟩
    · exact ⟨0, [], τ, rfl, .nil _, Nat.zero_le _, hc, fun m hm => absurd hm (hn m)⟩
    · omega
    · obtain ⟨count, before, last, rfl, hb, hle, hl, hlast⟩ := ih h₂
      refine ⟨count + 1, τ₁ ++ ⟨.sleep (b.delay number), ()⟩ :: before, last, by simp,
        .wait h₁ hb, Nat.succ_le_succ hle, ?_, fun m hm => congrArg (· + 1) (hlast m hm)⟩
      rwa [show number + (left + 1) = number + 1 + left by omega]

/-- A loop waits after each conflict but the last one that it may meet. -/
theorem Ends.retry_counted {b : RetryBackoff} {key : ObjectKey}
    {attempt : Pass (Except StoreError α)} {τ : List Exchange} {res : Except Failure α}
    (h : (Pass.retry b key attempt).Ends τ res) :
    ∃ count before last, τ = before ++ last ∧ Waits b attempt 1 count before ∧
      count < b.attempts ∧ Concludes key b.attempts attempt last res ∧
      ∀ m, attempt.Ends last (.ok (.error (.conflict m))) → count + 1 = b.attempts := by
  -- The loop starts with its first attempt, so the sum is the number of all attempts.
  obtain ⟨left, hleft⟩ := exists_attempts_eq b
  rw [Pass.retry, retryConflicts, hleft] at h
  obtain ⟨count, before, last, hτ, hb, hle, hl, hlast⟩ := h.retryFrom_counted
  refine ⟨count, before, last, hτ, hb, by omega, ?_, fun m hm => by rw [hlast m hm, hleft]⟩
  rwa [hleft, Nat.add_comm]

/-- A retried attempt ends by its last attempt, after others that met conflicts. -/
theorem Ends.retry {b : RetryBackoff} {key : ObjectKey} {attempt : Pass (Except StoreError α)}
    {τ : List Exchange} {res : Except Failure α} (h : (Pass.retry b key attempt).Ends τ res) :
    ∃ before last, τ = before ++ last ∧ Conflicts attempt before ∧
      Concludes key b.attempts attempt last res := by
  obtain ⟨count, before, last, hτ, hb, -, hl, -⟩ := h.retry_counted
  exact ⟨before, last, hτ, hb.conflicts, hl⟩

theorem Ends.retry_ok {b : RetryBackoff} {key : ObjectKey}
    {attempt : Pass (Except StoreError α)} {τ : List Exchange} {v : α}
    (h : (Pass.retry b key attempt).Ends τ (.ok v)) :
    ∃ before last, τ = before ++ last ∧ Conflicts attempt before ∧
      attempt.Ends last (.ok (.ok v)) := by
  obtain ⟨before, last, hτ, hb, hl⟩ := h.retry
  cases hl with
  | value v hv => exact ⟨before, last, hτ, hb, hv⟩

theorem Asks.conflicts {attempt : Pass (Except StoreError α)} (h : Asks P attempt)
    (hs : ∀ d, P (.sleep d)) {τ : List Exchange} (hτ : Conflicts attempt τ) :
    ∀ x ∈ τ, P x.call := by
  induction hτ with
  | nil => simp
  | wait span ht _ ih =>
    intro x hx
    rcases List.mem_append.1 hx with hx | hx
    · exact h _ _ ht x hx
    · rcases List.mem_cons.1 hx with rfl | hx
      · exact hs span
      · exact ih x hx

theorem Asks.retry {b : RetryBackoff} {key : ObjectKey} {attempt : Pass (Except StoreError α)}
    (h : Asks P attempt) (hs : ∀ d, P (.sleep d)) : Asks P (Pass.retry b key attempt) := by
  intro τ res ht x hx
  obtain ⟨before, last, rfl, hb, hl⟩ := ht.retry
  rcases List.mem_append.1 hx with hx | hx
  · exact h.conflicts hs hb x hx
  · cases hl with
    | value v hv => exact h _ _ hv x hx
    | refused e _ hv => exact h _ _ hv x hx
    | exhausted m hv => exact h _ _ hv x hx
    | broken e hv => exact h _ _ hv x hx

/-! ## What every call has behind it -/

/-- An exchange of a joined trace lies in the first part or in the second one. -/
theorem split_append {past rest before after : List Exchange} {x : Exchange}
    (h : past ++ rest = before ++ x :: after) :
    (∃ mid, past = before ++ x :: mid ∧ after = mid ++ rest) ∨
      ∃ mid, before = past ++ mid ∧ rest = mid ++ x :: after := by
  rcases List.append_eq_append_iff.1 h with ⟨mid, hbefore, hrest⟩ | ⟨mid, hpast, hmid⟩
  · exact .inr ⟨mid, hbefore, hrest⟩
  · cases mid with
    | nil => exact .inr ⟨[], by simp [hpast], hmid.symm⟩
    | cons y mid =>
      obtain ⟨rfl, hafter⟩ := List.cons.inj hmid
      exact .inl ⟨mid, hpast, hafter⟩

/-- Every exchange of a pass has a property that may speak of the exchanges before it, those
included that came before the pass. -/
def Guarded (H : List Exchange → Exchange → Prop) (past : List Exchange) (p : Pass α) : Prop :=
  ∀ τ res, p.Ends τ res → ∀ τ₁ x τ₂, τ = τ₁ ++ x :: τ₂ → H (past ++ τ₁) x

variable {H : List Exchange → Exchange → Prop} {past : List Exchange}

theorem guarded_done (v : α) : Guarded H past (.done v) := by
  intro τ res h τ₁ x τ₂ hτ
  obtain ⟨rfl, -⟩ := ends_done_iff.1 h
  simp at hτ

theorem guarded_failed (e : Failure) : Guarded H past (.failed e : Pass α) := by
  intro τ res h τ₁ x τ₂ hτ
  obtain ⟨rfl, -⟩ := ends_failed_iff.1 h
  simp at hτ

/-- A property of the next exchange given its past is shown call by call. -/
theorem guarded_ask {c : Call} {k : c.Reply → Pass α} (hc : ∀ r, H past ⟨c, r⟩)
    (hk : ∀ r, Guarded H (past ++ [⟨c, r⟩]) (k r)) : Guarded H past (.ask c k) := by
  intro τ res h τ₁ x τ₂ hτ
  obtain ⟨r, rest, rfl, hr⟩ := ends_ask_iff.1 h
  cases τ₁ with
  | nil =>
    obtain ⟨rfl, -⟩ := List.cons.inj hτ
    simpa using hc r
  | cons y τ₁ =>
    obtain ⟨rfl, rfl⟩ := List.cons.inj hτ
    simpa using hk r _ res hr τ₁ x τ₂ rfl

/-- The second part of a pass is guarded given whatever trace the first part has left. -/
theorem Guarded.bind {p : Pass α} {f : α → Pass β} (hp : Guarded H past p)
    (hf : ∀ v τ, p.Ends τ (.ok v) → Guarded H (past ++ τ) (f v)) :
    Guarded H past (p.bind f) := by
  intro τ res h τ₁ x τ₂ hτ
  rcases ends_bind_iff.1 h with ⟨e, he, -⟩ | ⟨v, σ₁, σ₂, rfl, h₁, h₂⟩
  · exact hp τ _ he τ₁ x τ₂ hτ
  rcases split_append hτ with ⟨mid, hσ, -⟩ | ⟨mid, rfl, hσ⟩
  · exact hp σ₁ _ h₁ τ₁ x mid hσ
  · rw [← List.append_assoc]
    exact hf v σ₁ h₁ σ₂ res h₂ mid x τ₂ hσ

/-- What holds of every call of a kind guards a pass that makes only such calls. -/
theorem Asks.guarded {p : Pass α} (h : Asks P p)
    (hP : ∀ past x, P x.call → H past x) : Guarded H past p := by
  rintro τ res ht τ₁ x τ₂ rfl
  exact hP _ x (h _ res ht x (by simp))

/-- Every attempt of a loop starts anew, so it has to hold whatever came before. -/
theorem Guarded.retry {b : RetryBackoff} {key : ObjectKey} {attempt : Pass (Except StoreError α)}
    (h : ∀ past, Guarded H past attempt) (hs : ∀ past d, H past ⟨.sleep d, ()⟩) :
    Guarded H past (Pass.retry b key attempt) := by
  unfold Pass.retry retryConflicts
  generalize b.attempts = left
  generalize 1 = number
  induction left generalizing number past with
  | zero => exact guarded_failed _
  | succ left ih =>
    refine Guarded.bind (h past) fun o τ _ => ?_
    rcases o with (m | m | m) | v
    · exact guarded_failed _
    · by_cases hl : left = 0
      · simp only [hl, if_true]
        exact guarded_failed _
      · simp only [hl, if_false]
        exact guarded_ask (fun _ => hs _ _) fun _ => ih _
    · exact guarded_failed _
    · exact guarded_done v

end Pass

end PodRules
