import PodRules.Proofs.Run.Expectations
import PodRules.Proofs.Store.History

namespace PodRules

namespace LogEntry

def timed? (e : LogEntry) : Option TimedCall :=
  match e.exchange.call with
  | .trust key version => some ⟨e.now, .trust key version⟩
  | .arm key base => some ⟨e.now, .arm key base⟩
  | .disarm key => some ⟨e.now, .disarm key⟩
  | _ => none

def uses (key : ObjectKey) (e : LogEntry) : Bool :=
  decide (e.exchange.call.expectation? = some key)

variable {e : LogEntry} {key : ObjectKey}

theorem key_ne_of_timed? (h : e.uses key = false) {c : TimedCall}
    (hc : e.timed? = some c) : c.key ≠ key := by
  obtain ⟨pass, now, ⟨call, reply⟩⟩ := e
  cases call <;> cases hc <;>
    simpa [uses, Call.expectation?, TimedCall.key] using h

theorem exists_timed?_of_uses (h : e.uses key = true) :
    ∃ c, e.timed? = some c ∧ c.key = key := by
  obtain ⟨pass, now, ⟨call, reply⟩⟩ := e
  cases call <;>
    simp_all [uses, Call.expectation?, timed?, TimedCall.key]

theorem now_of_timed? {c : TimedCall} (hc : e.timed? = some c) : c.now = e.now := by
  obtain ⟨pass, now, ⟨call, reply⟩⟩ := e
  cases call <;> cases hc <;> rfl

end LogEntry

def tableCalls (log : List LogEntry) : List TimedCall := log.filterMap (·.timed?)

namespace Expectations

variable {t u : Expectations} {now later : Nat} {key : ObjectKey} {e : LogEntry}
  {log rest : List LogEntry}

/-- A table follows a log as it follows the calls in it. -/
theorem after_eq_follow (t : Expectations) (log : List LogEntry) :
    t.after log = t.follow (tableCalls log) := by
  induction log generalizing t with
  | nil => rfl
  | cons e log ih =>
    obtain ⟨pass, now, ⟨call, reply⟩⟩ := e
    cases call <;> exact ih _

/-! ## Entries under other keys -/

theorem ttl_after (t : Expectations) (log : List LogEntry) : (t.after log).ttl = t.ttl := by
  rw [after_eq_follow, ttl_follow]

/-- Calls about other keys do not change what blocks a key, though they sweep out what has
expired. -/
theorem blocking_follow_of_others {calls : List TimedCall} (h : ∀ c ∈ calls, c.key ≠ key)
    (hnow : ∀ c ∈ calls, c.now ≤ later) :
    (t.follow calls).blocking later key = t.blocking later key := by
  induction calls generalizing t with
  | nil => rfl
  | cons c calls ih =>
    obtain ⟨hkey, hkeys⟩ := List.forall_mem_cons.1 h
    obtain ⟨hc, hcalls⟩ := List.forall_mem_cons.1 hnow
    calc ((c.apply t).2.follow calls).blocking later key
        = (c.apply t).2.blocking later key := ih hkeys hcalls
      _ = t.blocking later key := by
        rw [blocking_apply t c key hc, if_neg fun hs => hkey hs.1]

theorem blocking_after_of_unused (h : ∀ e ∈ log, e.uses key = false)
    (hnow : ∀ e ∈ log, e.now ≤ later) :
    (t.after log).blocking later key = t.blocking later key := by
  rw [after_eq_follow]
  refine blocking_follow_of_others (fun c hc => ?_) fun c hc => ?_
  all_goals obtain ⟨e, he, htimed⟩ := List.mem_filterMap.1 hc
  · exact LogEntry.key_ne_of_timed? (h e he) htimed
  · exact LogEntry.now_of_timed? htimed ▸ hnow e he

/-- What was armed blocks while it is not used again, as long as an entry blocks at all. -/
theorem blocking_after_armed {base : String} (he : e.exchange.call = .arm key base)
    (hrest : ∀ d ∈ rest, d.uses key = false) (hnow : ∀ d ∈ e :: rest, d.now ≤ later)
    (hlate : later - e.now < t.ttl.nanos) :
    (t.after (log ++ e :: rest)).blocking later key = some ⟨base, e.now⟩ := by
  obtain ⟨henow, hrestnow⟩ := List.forall_mem_cons.1 hnow
  have harmed : (t.after (log ++ [e])) = (t.after log).arm e.now key base := by
    rw [after_append]
    show (e.exchange.call.onTable e.now (t.after log)).2 = _
    rw [he]
    rfl
  have hkept : hasExpired (t.after log).ttl later ⟨base, e.now⟩ = false := by
    rw [ttl_after]
    exact decide_eq_false (Nat.not_le.2 hlate)
  rw [List.append_cons, after_append, blocking_after_of_unused hrest hrestnow, harmed,
    blocking_arm _ key key base henow, if_pos rfl]
  simp [Option.filter, hkept]

/-- A call under another key adds nothing under a key. -/
theorem get?_onTable_of_none {c : Call} (hc : c.expectation? ≠ some key)
    (h : t.pending.get? key = none) : (c.onTable now t).2.pending.get? key = none := by
  cases c with
  | trust k version =>
    have hne : key ≠ k := fun hk => hc (congrArg some hk.symm)
    show (t.trust now k version).2.pending.get? key = none
    rw [(sets_trust t now k version).get?, if_neg hne, h]
  | arm k base =>
    have hne : key ≠ k := fun hk => hc (congrArg some hk.symm)
    show (t.arm now k base).pending.get? key = none
    unfold arm
    rw [SortedMap.get?_insert, if_neg hne, SortedMap.get?_filter, h]
    rfl
  | disarm k =>
    have hne : key ≠ k := fun hk => hc (congrArg some hk.symm)
    show (t.disarm k).pending.get? key = none
    rw [(sets_disarm t k).get?, if_neg hne, h]
  | _ => exact h

theorem get?_after_of_none (h : ∀ e ∈ log, e.uses key = false)
    (hnone : t.pending.get? key = none) : (t.after log).pending.get? key = none := by
  induction log generalizing t with
  | nil => exact hnone
  | cons e log ih =>
    obtain ⟨he, hlog⟩ := List.forall_mem_cons.1 h
    exact ih hlog (get?_onTable_of_none (of_decide_eq_false he) hnone)

/-- An entry that was disarmed is gone until it is armed again. -/
theorem get?_after_disarmed (he : e.exchange.call = .disarm key)
    (hrest : ∀ d ∈ rest, d.uses key = false) :
    (t.after (log ++ e :: rest)).pending.get? key = none := by
  have hdisarmed : (t.after (log ++ [e])) = (t.after log).disarm key := by
    rw [after_append]
    show (e.exchange.call.onTable e.now (t.after log)).2 = _
    rw [he]
    rfl
  rw [List.append_cons, after_append]
  refine get?_after_of_none hrest ?_
  rw [hdisarmed, (sets_disarm _ key).get?, if_pos rfl]

/-! ## The exchanges of one pass -/

section OnePass

variable {pass : Nat} {before after : List Exchange}

/-- A key that neither a pass nor any other one uses. -/
theorem unused_of_traceOf (pass : Nat)
    (hothers : ∀ e ∈ log, e.pass ≠ pass → e.uses key = false)
    (hown : ∀ x ∈ traceOf pass log, x.call.expectation? ≠ some key) :
    ∀ e ∈ log, e.uses key = false := by
  intro e he
  by_cases hpass : e.pass = pass
  · exact decide_eq_false (hown e.exchange (mem_traceOf he hpass))
  · exact hothers e he hpass

/-- A key that a pass arms and that nobody uses from then on. -/
theorem exists_armed {base : String} (hothers : ∀ e ∈ log, e.pass ≠ pass → e.uses key = false)
    (hnow : ∀ e ∈ log, e.now ≤ now)
    (htrace : traceOf pass log = before ++ ⟨.arm key base, ()⟩ :: after)
    (hafter : ∀ x ∈ after, x.call.expectation? ≠ some key) (t : Expectations) :
    ∃ armed ∈ log, armed.pass = pass ∧ armed.exchange = ⟨.arm key base, ()⟩ ∧
      (now - armed.now < t.ttl.nanos →
        (t.after log).blocking now key = some ⟨base, armed.now⟩) := by
  obtain ⟨first, armed, last, rfl, hpass, harmed, -, hlast⟩ := exists_split_of_traceOf htrace
  refine ⟨armed, by simp, hpass, harmed, fun hlate => ?_⟩
  refine blocking_after_armed (by rw [harmed]) ?_ (fun d hd => ?_) hlate
  · refine unused_of_traceOf pass (fun e he => ?_) (by rwa [hlast])
    exact hothers e (List.mem_append_right _ (List.mem_cons_of_mem _ he))
  · exact hnow d (List.mem_append_right _ hd)

/-- A key that a pass forgets and that nobody uses from then on. -/
theorem get?_of_disarmed (hothers : ∀ e ∈ log, e.pass ≠ pass → e.uses key = false)
    (htrace : traceOf pass log = before ++ ⟨.disarm key, ()⟩ :: after)
    (hafter : ∀ x ∈ after, x.call.expectation? ≠ some key) (t : Expectations) :
    (t.after log).pending.get? key = none := by
  obtain ⟨first, disarmed, last, rfl, -, hdisarmed, -, hlast⟩ := exists_split_of_traceOf htrace
  refine get?_after_disarmed (by rw [hdisarmed]) ?_
  refine unused_of_traceOf pass (fun e he => ?_) (by rwa [hlast])
  exact hothers e (List.mem_append_right _ (List.mem_cons_of_mem _ he))

end OnePass

/-! ## The same entries under a key -/

/-- What blocks a key after some calls is what blocks it after those under this key. -/
theorem Agree.follow (h : Agree key now t u) {calls : List TimedCall}
    (hclock : (now :: calls.map (·.now)).Pairwise (· ≤ ·)) (hlater : now ≤ later)
    (hcalls : ∀ c ∈ calls, c.now ≤ later) :
    (t.follow calls).blocking later key =
      (u.follow (calls.filter fun c => decide (c.key = key))).blocking later key := by
  -- On the calls, for any two tables that agree about the key when the first one is made.
  induction calls generalizing now t u with
  | nil => exact h.2 later hlater
  | cons c calls ih =>
    obtain ⟨hnow, hrest⟩ := List.pairwise_cons.1 hclock
    obtain ⟨hc, hcalls⟩ := List.forall_mem_cons.1 hcalls
    have hfirst : now ≤ c.now := hnow c.now (by simp)
    by_cases hk : c.key = key
    · subst hk
      rw [List.filter_cons_of_pos (by simp)]
      exact ih (h.own hfirst) hrest hc hcalls
    · rw [List.filter_cons_of_neg (by simpa using hk)]
      exact ih (h.other hfirst hk) hrest hc hcalls

theorem tableCalls_filter_key (key : ObjectKey) (log : List LogEntry) :
    (tableCalls log).filter (fun c => decide (c.key = key)) = tableCalls (log.filter (·.uses key)) := by
  induction log with
  | nil => rfl
  | cons e log ih =>
    cases hu : e.uses key with
    | true =>
      obtain ⟨c, hc, hk⟩ := LogEntry.exists_timed?_of_uses hu
      rw [List.filter_cons_of_pos hu]
      simpa [tableCalls, hc, hk] using ih
    | false =>
      rw [List.filter_cons_of_neg (by simp [hu]), ← ih]
      cases hc : e.timed? with
      | none => simp [tableCalls, hc]
      | some c => simp [tableCalls, hc, LogEntry.key_ne_of_timed? hu hc]

/-- What blocks a key is settled by the entries that use it. -/
theorem blocking_after_filter (t : Expectations)
    (hclock : (log.map (·.now)).Pairwise (· ≤ ·)) (hnow : ∀ e ∈ log, e.now ≤ later) :
    (t.after log).blocking later key = (t.after (log.filter (·.uses key))).blocking later key := by
  have hclocks : (tableCalls log).map (·.now) = (log.filter (·.timed?.isSome)).map (·.now) := by
    induction log with
    | nil => rfl
    | cons e log ih =>
      have ih := ih (List.Pairwise.of_cons hclock) fun d hd => hnow d (List.mem_cons_of_mem _ hd)
      cases hc : e.timed? with
      | none => simpa [tableCalls, hc] using ih
      | some c => simpa [tableCalls, hc, LogEntry.now_of_timed? hc] using ih
  have hascending : (0 :: (tableCalls log).map (·.now)).Pairwise (· ≤ ·) := by
    rw [hclocks]
    exact List.pairwise_cons.2 ⟨fun _ _ => Nat.zero_le _,
      hclock.sublist (List.filter_sublist.map _)⟩
  rw [after_eq_follow, after_eq_follow, ← tableCalls_filter_key]
  have hagree : Agree key 0 t t := ⟨rfl, fun _ _ => rfl⟩
  refine hagree.follow hascending (Nat.zero_le _) fun c hc => ?_
  obtain ⟨e, he, htimed⟩ := List.mem_filterMap.1 hc
  exact LogEntry.now_of_timed? htimed ▸ hnow e he

/-- Logs with the same entries under a key leave the same pending there. -/
theorem blocking_after_congr (t : Expectations) {log log' : List LogEntry}
    (h : log.filter (·.uses key) = log'.filter (·.uses key))
    (hclock : (log.map (·.now)).Pairwise (· ≤ ·)) (hclock' : (log'.map (·.now)).Pairwise (· ≤ ·))
    (hnow : ∀ e ∈ log, e.now ≤ later) (hnow' : ∀ e ∈ log', e.now ≤ later) :
    (t.after log).blocking later key = (t.after log').blocking later key := by
  rw [blocking_after_filter t hclock hnow, blocking_after_filter t hclock' hnow', h]

end Expectations

end PodRules
