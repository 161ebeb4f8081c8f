import Mathlib.Data.List.Induction
import PodRules.Proofs.Store.Expectations

/-!
Histories of the table of pending writes. Of an entry only what still blocks can be told from
outside, so a sweep of expired entries leaves no trace. Main statement: a view of a key is refused
exactly when the last call that settled this key armed it, less than the time to live ago and at a
version that the view has not overtaken; calls under other keys change nothing
(`refused_iff_lately_armed`).
-/

namespace PodRules

inductive TableCall where
  | trust (key : ObjectKey) (version : String)
  | arm (key : ObjectKey) (base : String)
  | disarm (key : ObjectKey)
  deriving DecidableEq, Repr

structure TimedCall where
  now : Nat
  call : TableCall
  deriving DecidableEq, Repr

namespace TimedCall

def key (c : TimedCall) : ObjectKey :=
  match c.call with
  | .trust key _ => key
  | .arm key _ => key
  | .disarm key => key

/-- The answer of a table to a call, and the table after it; only a question of trust may be
answered with a refusal. -/
def apply (c : TimedCall) (t : Expectations) : Bool × Expectations :=
  match c.call with
  | .trust key version => t.trust c.now key version
  | .arm key base => (true, t.arm c.now key base)
  | .disarm key => (true, t.disarm key)

/-- A call and its answer settle the state of a key: the key is armed or disarmed, or a view of it
is trusted. -/
def Settles (key : ObjectKey) (c : TimedCall × Bool) : Prop :=
  c.1.key = key ∧ c.2 = true

instance (key : ObjectKey) : DecidablePred (Settles key) :=
  fun c => inferInstanceAs (Decidable (c.1.key = key ∧ c.2 = true))

def pending? (c : TimedCall) : Option Pending :=
  match c.call with
  | .arm _ base => some ⟨base, c.now⟩
  | _ => none

end TimedCall

def lastSettling? (key : ObjectKey) (history : List (TimedCall × Bool)) : Option TimedCall :=
  (history.filter fun c => TimedCall.Settles key c).getLast?.map (·.1)

namespace Expectations

def follow (t : Expectations) (calls : List TimedCall) : Expectations :=
  calls.foldl (fun t c => (c.apply t).2) t

def history (t : Expectations) : List TimedCall → List (TimedCall × Bool)
  | [] => []
  | c :: calls => (c, (c.apply t).1) :: (c.apply t).2.history calls

def blocking (t : Expectations) (now : Nat) (key : ObjectKey) : Option Pending :=
  (t.pending.get? key).filter fun p => !hasExpired t.ttl now p

end Expectations

/-! ## What blocks, before and after a call -/

namespace Expectations

variable {t u : Expectations} {now later : Nat} {key : ObjectKey} {c : TimedCall}

theorem hasExpired_mono {ttl : Duration} {p : Pending} (h : now ≤ later)
    (hp : hasExpired ttl now p = true) : hasExpired ttl later p = true := by
  have hnow : ttl.nanos ≤ now - p.armedAt := of_decide_eq_true hp
  apply decide_eq_true
  omega

/-- A view is trusted unless it has to wait for an entry that blocks. -/
theorem trust_fst_eq_blocking (t : Expectations) (now : Nat) (key : ObjectKey)
    (version : String) :
    (t.trust now key version).1 = (t.blocking now key).all fun p => isNewer p.base version := by
  rw [trust_fst, blocking]
  cases t.pending.get? key with
  | none => rfl
  | some p =>
    cases h : hasExpired t.ttl now p with
    | true => simp [ends, h]
    | false => simp [ends, h]

/-- A refusal leaves the table alone, and a trusted view leaves nothing under its key. -/
theorem blocking_trust (t : Expectations) (key k : ObjectKey) (version : String) :
    (t.trust now key version).2.blocking later k =
      if key = k ∧ (t.trust now key version).1 = true then none else t.blocking later k := by
  have hset := sets_trust t now key version
  rw [blocking, blocking, hset.ttl, hset.get?, trust_fst]
  by_cases hk : key = k
  · subst hk
    simp only [if_true, true_and]
    cases t.pending.get? key with
    | none => rfl
    | some p =>
      cases he : ends t.ttl now version p with
      | true => simp [Option.filter, he]
      | false => simp [Option.filter, he]
  · rw [if_neg (Ne.symm hk), if_neg fun h => hk h.1]

/-- The sweep takes nothing that would block later on. -/
theorem blocking_arm (t : Expectations) (key k : ObjectKey) (base : String) (h : now ≤ later) :
    (t.arm now key base).blocking later k =
      if key = k then Option.filter (fun p => !hasExpired t.ttl later p) (some ⟨base, now⟩)
      else t.blocking later k := by
  unfold arm blocking
  rw [SortedMap.get?_insert, SortedMap.get?_filter]
  by_cases hk : key = k
  · rw [if_pos hk.symm, if_pos hk]
  · rw [if_neg (Ne.symm hk), if_neg hk]
    cases t.pending.get? k with
    | none => rfl
    | some p =>
      cases hp : hasExpired t.ttl now p with
      | true => simp [Option.filter, hp, hasExpired_mono h hp]
      | false => simp [Option.filter, hp]

theorem blocking_disarm (t : Expectations) (key k : ObjectKey) :
    (t.disarm key).blocking later k = if key = k then none else t.blocking later k := by
  unfold disarm blocking
  rw [SortedMap.get?_erase]
  by_cases hk : key = k
  · rw [if_pos hk.symm, if_pos hk]
    rfl
  · rw [if_neg (Ne.symm hk), if_neg hk]

/-- What blocks after a call is what the call left pending, if it settled the key, and otherwise
what blocked before. -/
theorem blocking_apply (t : Expectations) (c : TimedCall) (k : ObjectKey) (h : c.now ≤ later) :
    (c.apply t).2.blocking later k =
      if TimedCall.Settles k (c, (c.apply t).1) then
        c.pending?.filter fun p => !hasExpired t.ttl later p
      else t.blocking later k := by
  obtain ⟨now, call⟩ := c
  cases call with
  | trust key version => exact blocking_trust t key k version
  | arm key base =>
    refine (blocking_arm t key k base h).trans ?_
    simp [TimedCall.Settles, TimedCall.key, TimedCall.apply, TimedCall.pending?]
  | disarm key =>
    refine (blocking_disarm t key k).trans ?_
    simp [TimedCall.Settles, TimedCall.key, TimedCall.apply, TimedCall.pending?]

theorem ttl_apply (t : Expectations) (c : TimedCall) : (c.apply t).2.ttl = t.ttl := by
  obtain ⟨now, call⟩ := c
  cases call with
  | trust key version => exact (sets_trust t now key version).ttl
  | arm key base => rfl
  | disarm key => rfl

/-! ## Whole histories -/

theorem follow_append (t : Expectations) (calls rest : List TimedCall) :
    t.follow (calls ++ rest) = (t.follow calls).follow rest := List.foldl_append

theorem history_append (t : Expectations) (calls rest : List TimedCall) :
    t.history (calls ++ rest) = t.history calls ++ (t.follow calls).history rest := by
  induction calls generalizing t with
  | nil => rfl
  | cons c calls ih => simp [history, follow, ih]

theorem ttl_follow (t : Expectations) (calls : List TimedCall) : (t.follow calls).ttl = t.ttl := by
  induction calls generalizing t with
  | nil => rfl
  | cons c calls ih =>
    calc ((c.apply t).2.follow calls).ttl = (c.apply t).2.ttl := ih _
      _ = t.ttl := ttl_apply t c

theorem lastSettling?_append (key : ObjectKey) (past : List (TimedCall × Bool))
    (c : TimedCall × Bool) :
    lastSettling? key (past ++ [c]) =
      if TimedCall.Settles key c then some c.1 else lastSettling? key past := by
  unfold lastSettling?
  rw [List.filter_append]
  by_cases hc : TimedCall.Settles key c
  · simp [hc]
  · simp [hc]

theorem key_of_lastSettling? {history : List (TimedCall × Bool)}
    (h : lastSettling? key history = some c) : c.key = key := by
  unfold lastSettling? at h
  obtain ⟨d, hd, rfl⟩ := Option.map_eq_some_iff.1 h
  have hmem := List.mem_filter.1 (List.mem_of_getLast? hd)
  exact (of_decide_eq_true hmem.2).1

/-- What blocks a key after a history is what the last call that settled it left pending. -/
theorem blocking_follow (ttl : Duration) (calls : List TimedCall) (key : ObjectKey)
    (h : ∀ c ∈ calls, c.now ≤ now) :
    ((fresh ttl).follow calls).blocking now key =
      ((lastSettling? key ((fresh ttl).history calls)).bind TimedCall.pending?).filter
        fun p => !hasExpired ttl now p := by
  -- On the history from its end: only the last call can have settled the key since.
  induction calls using List.reverseRecOn with
  | nil => rfl
  | append_singleton calls c ih =>
    have hcalls : ∀ d ∈ calls, d.now ≤ now := fun d hd => h d (by simp [hd])
    have hstep := blocking_apply ((fresh ttl).follow calls) c key (h c (by simp))
    rw [follow_append, history_append]
    show (c.apply ((fresh ttl).follow calls)).2.blocking now key = _
    rw [hstep, ih hcalls, ttl_follow]
    show _ = (Option.bind (lastSettling? key (_ ++ [(c, _)])) _).filter _
    rw [lastSettling?_append]
    by_cases hc : TimedCall.Settles key (c, (c.apply ((fresh ttl).follow calls)).1)
    · rw [if_pos hc, if_pos hc]
      rfl
    · rw [if_neg hc, if_neg hc]

theorem pending?_eq_some_iff {p : Pending} :
    c.pending? = some p ↔ c = ⟨p.armedAt, .arm c.key p.base⟩ := by
  obtain ⟨now, call⟩ := c
  cases call with
  | trust k version => simp [TimedCall.pending?]
  | arm k base =>
    constructor
    · rintro ⟨⟩
      rfl
    · intro h
      rw [h]
      rfl
  | disarm k => simp [TimedCall.pending?]

/-- After any calls, the entry that blocks a key is the last one that settled it, if that armed
it. -/
theorem blocking_follow_eq_some_iff (ttl : Duration) (calls : List TimedCall) (key : ObjectKey)
    (h : ∀ c ∈ calls, c.now ≤ now) {p : Pending} :
    ((fresh ttl).follow calls).blocking now key = some p ↔
      lastSettling? key ((fresh ttl).history calls) = some ⟨p.armedAt, .arm key p.base⟩ ∧
        now - p.armedAt < ttl.nanos := by
  have hlate : (!hasExpired ttl now p) = true ↔ now - p.armedAt < ttl.nanos := by
    simp [hasExpired]
  rw [blocking_follow ttl calls key h, Option.filter_eq_some_iff, hlate]
  refine and_congr_left fun _ => ?_
  rw [Option.bind_eq_some_iff]
  constructor
  · rintro ⟨c, hlast, hpending⟩
    have harm := pending?_eq_some_iff.1 hpending
    rw [key_of_lastSettling? hlast] at harm
    rw [hlast, harm]
  · exact fun hlast => ⟨_, hlast, rfl⟩

/-- A refusal names the entry that blocks. -/
theorem trust_eq_false_iff (t : Expectations) (now : Nat) (key : ObjectKey) (version : String) :
    (t.trust now key version).1 = false ↔
      ∃ p, t.blocking now key = some p ∧ isNewer p.base version = false := by
  rw [trust_fst_eq_blocking]
  cases t.blocking now key with
  | none => simp
  | some p => simp

def Agree (key : ObjectKey) (now : Nat) (t u : Expectations) : Prop :=
  t.ttl = u.ttl ∧ ∀ later, now ≤ later → t.blocking later key = u.blocking later key

/-- Tables that agree on a key answer alike about it. -/
theorem Agree.answer (h : Agree c.key now t u) (hc : now ≤ c.now) :
    (c.apply t).1 = (c.apply u).1 := by
  obtain ⟨clock, call⟩ := c
  cases call with
  | trust key version =>
    have hblocking : t.blocking clock key = u.blocking clock key := h.2 clock hc
    calc (t.trust clock key version).1
        = (t.blocking clock key).all fun p => isNewer p.base version :=
          trust_fst_eq_blocking t clock key version
      _ = (u.blocking clock key).all fun p => isNewer p.base version := by rw [hblocking]
      _ = (u.trust clock key version).1 := (trust_fst_eq_blocking u clock key version).symm
  | arm key base => rfl
  | disarm key => rfl

theorem Agree.own (h : Agree c.key now t u) (hc : now ≤ c.now) :
    Agree c.key c.now (c.apply t).2 (c.apply u).2 := by
  refine ⟨by rw [ttl_apply, ttl_apply, h.1], fun later hl => ?_⟩
  rw [blocking_apply t c c.key hl, blocking_apply u c c.key hl, h.answer hc, h.1,
    h.2 later (Nat.le_trans hc hl)]

/-- A call about another key, made of one of them only, does not show. -/
theorem Agree.other (h : Agree key now t u) (hc : now ≤ c.now) (hk : c.key ≠ key) :
    Agree key c.now (c.apply t).2 u := by
  refine ⟨by rw [ttl_apply, h.1], fun later hl => ?_⟩
  rw [blocking_apply t c key hl, if_neg fun hs => hk hs.1, h.2 later (Nat.le_trans hc hl)]

/-- A table answers about a key as if it had only had the calls for that key. -/
theorem Agree.history (h : Agree key now t u) {calls : List TimedCall}
    (hclock : (now :: calls.map (·.now)).Pairwise (· ≤ ·)) :
    (t.history calls).filter (fun c => decide (c.1.key = key)) =
      u.history (calls.filter fun c => decide (c.key = key)) := by
  -- On the calls, for any two tables that agree about the key when the first one is made.
  induction calls generalizing now t u with
  | nil => rfl
  | cons c calls ih =>
    obtain ⟨hnow, hrest⟩ := List.pairwise_cons.1 hclock
    have hc : now ≤ c.now := hnow c.now (by simp)
    by_cases hk : c.key = key
    · subst hk
      have htail := ih (h.own hc) hrest
      simp only [Expectations.history, List.filter_cons, decide_true, if_true, htail,
        h.answer hc]
    · have htail := ih (h.other hc hk) hrest
      simp only [Expectations.history, List.filter_cons, hk, decide_false, Bool.false_eq_true,
        if_false, htail]

end Expectations

/-- After a history of calls on a clock that does not go back, a view of a key is refused exactly
when the last call that settled the key armed it, less than the time to live ago and at a version
that the view has not overtaken. The answers for a key are those of a table that had the calls for
this key alone. -/
theorem refused_iff_lately_armed (ttl : Duration) (calls : List TimedCall) (key : ObjectKey)
    (hclock : (calls.map (·.now)).Pairwise (· ≤ ·)) :
    (∀ now version, (∀ c ∈ calls, c.now ≤ now) →
      ((((Expectations.fresh ttl).follow calls).trust now key version).1 = false ↔
        ∃ base armedAt,
          lastSettling? key ((Expectations.fresh ttl).history calls) =
              some ⟨armedAt, .arm key base⟩ ∧
            now - armedAt < ttl.nanos ∧ isNewer base version = false)) ∧
      ((Expectations.fresh ttl).history calls).filter (fun c => decide (c.1.key = key)) =
        (Expectations.fresh ttl).history (calls.filter fun c => decide (c.key = key)) := by
  constructor
  · intro now version hnow
    have hblocking {p : Pending} :=
      @Expectations.blocking_follow_eq_some_iff now ttl calls key hnow p
    rw [Expectations.trust_eq_false_iff]
    constructor
    · rintro ⟨p, hp, hold⟩
      obtain ⟨hlast, hlate⟩ := hblocking.1 hp
      exact ⟨p.base, p.armedAt, hlast, hlate, hold⟩
    · rintro ⟨base, armedAt, hlast, hlate, hold⟩
      exact ⟨⟨base, armedAt⟩, hblocking.2 ⟨hlast, hlate⟩, hold⟩
  · have hagree : Expectations.Agree key 0 (.fresh ttl) (.fresh ttl) := ⟨rfl, fun _ _ => rfl⟩
    apply hagree.history
    exact List.pairwise_cons.2 ⟨fun _ _ => Nat.zero_le _, hclock⟩

namespace Sweeping

def pod : ObjectKey := ⟨"ns", "p"⟩

def other : ObjectKey := ⟨"ns", "q"⟩

def calls : List TimedCall :=
  [⟨0, .arm other "1"⟩, ⟨3, .arm pod "3"⟩, ⟨6, .arm other "4"⟩, ⟨7, .trust pod "2"⟩,
    ⟨7, .disarm other⟩]

end Sweeping

open Sweeping in
/-- The view from before a claim is refused, whatever became of the other pod meanwhile, until the
time to live is over. -/
theorem view_before_claim_refused_until_expiry :
    (((Expectations.fresh ⟨5⟩).follow calls).trust 7 pod "3").1 = false ∧
      (((Expectations.fresh ⟨5⟩).follow calls).trust 8 pod "3").1 = true ∧
      ((Expectations.fresh ⟨5⟩).history calls).filter (fun c => decide (c.1.key = pod)) =
        [(⟨3, .arm pod "3"⟩, true), (⟨7, .trust pod "2"⟩, false)] := by
  have hclock : (calls.map (·.now)).Pairwise (· ≤ ·) := by decide
  have hlast : lastSettling? pod ((Expectations.fresh ⟨5⟩).history calls) =
      some ⟨3, .arm pod "3"⟩ := by rfl
  have hspec := refused_iff_lately_armed ⟨5⟩ calls pod hclock
  refine ⟨?_, ?_, ?_⟩
  · exact (hspec.1 7 "3" (by decide)).2 ⟨"3", 3, hlast, by decide, by decide⟩
  · rw [← Bool.not_eq_false, hspec.1 8 "3" (by decide), hlast]
    rintro ⟨base, armedAt, harm, hlate, -⟩
    cases harm
    exact absurd hlate (by decide)
  · rw [hspec.2]
    rfl

end PodRules
