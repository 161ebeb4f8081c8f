import PodRules.Proofs.Pass.Expectations

namespace PodRules

structure LogEntry where
  pass : Nat
  now : Nat
  exchange : Exchange

def traceOf (pass : Nat) (log : List LogEntry) : List Exchange :=
  (log.filter (·.pass = pass)).map (·.exchange)

def kindOf (log : List LogEntry) (e : LogEntry) : ObjectKind := kindAfter (traceOf e.pass log)

def ofKind (kind : ObjectKind) : (past log : List LogEntry) → List LogEntry
  | _, [] => []
  | past, e :: log =>
    (if kindOf past e = kind then [e] else []) ++ ofKind kind (past ++ [e]) log

/-- The entries of a kind are told by what came before them in the log. -/
theorem ofKind_append (kind : ObjectKind) (past log rest : List LogEntry) :
    ofKind kind past (log ++ rest) = ofKind kind past log ++ ofKind kind (past ++ log) rest := by
  induction log generalizing past with
  | nil => simp [ofKind]
  | cons e log ih => simp [ofKind, ih]

namespace Expectations

def after (t : Expectations) (log : List LogEntry) : Expectations :=
  log.foldl (fun t e => (e.exchange.call.onTable e.now t).2) t

theorem after_append (t : Expectations) (log rest : List LogEntry) :
    t.after (log ++ rest) = (t.after log).after rest := List.foldl_append

/-- The table answers every entry of a log, and never has an entry that has expired. -/
inductive Answers : Expectations → List LogEntry → Prop
  | nil (t : Expectations) : Answers t []
  | cons {t : Expectations} {e : LogEntry} {log : List LogEntry} (ht : t.NoneExpired e.now)
      (ha : e.exchange.answer = (e.exchange.call.onTable e.now t).1)
      (hr : Answers (e.exchange.call.onTable e.now t).2 log) : Answers t (e :: log)

end Expectations

/-- A run: each pass makes some of its calls, those of several passes in any order, and all of them
share a table. The objects that the store answers have keys of their kind. -/
structure SharedRun (settings : Settings) (keys : Nat → ObjectKey)
    (ruleSets targets : ObjectKey → Prop) (ttl : Duration) (log : List LogEntry) : Prop where
  passes : ∀ i, ∃ rest res, (reconcile settings (keys i)).Ends (traceOf i log ++ rest) res
  named : ∀ i, ruleSets (keys i)
  names : ∀ e ∈ log, e.exchange.Names ruleSets targets (keys e.pass).namespaceName
  answers : (Expectations.fresh ttl).Answers log

/-- Every answer is that of a table which only had the earlier calls for the same kind of object. -/
def KindsIndependent (ttl : Duration) (log : List LogEntry) : Prop :=
  ∀ before e rest, log = before ++ e :: rest →
    e.exchange.answer = (e.exchange.call.onTable e.now
      ((Expectations.fresh ttl).after (ofKind (kindOf before e) [] before))).1

theorem mem_traceOf {pass : Nat} {log : List LogEntry} {e : LogEntry} (he : e ∈ log)
    (hpass : e.pass = pass) : e.exchange ∈ traceOf pass log :=
  List.mem_map.2 ⟨e, List.mem_filter.2 ⟨he, decide_eq_true hpass⟩, rfl⟩

theorem traceOf_append (i : Nat) (log rest : List LogEntry) :
    traceOf i (log ++ rest) = traceOf i log ++ traceOf i rest := by
  simp [traceOf]

/-- An exchange of a pass stands somewhere in the log, behind the exchanges of that pass before it. -/
theorem exists_split_of_traceOf {pass : Nat} {log : List LogEntry} {before after : List Exchange}
    {x : Exchange} (h : traceOf pass log = before ++ x :: after) :
    ∃ first e last, log = first ++ e :: last ∧ e.pass = pass ∧ e.exchange = x ∧
      traceOf pass first = before ∧ traceOf pass last = after := by
  obtain ⟨past, more, hfilter, hbefore, hmore⟩ := List.map_eq_append_iff.1 h
  obtain ⟨e, later, rfl, hx, hafter⟩ := List.map_eq_cons_iff.1 hmore
  obtain ⟨first, tail, rfl, rfl, htail⟩ := List.filter_eq_append_iff.1 hfilter
  -- Between the exchange and the one before it there may be entries of other passes.
  obtain ⟨others, last, rfl, hothers, hpass, rfl⟩ := List.filter_eq_cons_iff.1 htail
  have hnone : traceOf pass others = [] := by
    rw [traceOf, List.filter_eq_nil_iff.2 hothers, List.map_nil]
  refine ⟨first ++ others, e, last, by simp, of_decide_eq_true hpass, hx, ?_, hafter⟩
  rw [traceOf_append, hnone, List.append_nil]
  exact hbefore

section Disjoint

variable {settings : Settings} {keys : Nat → ObjectKey} {R P : ObjectKey → Prop}
  {ttl : Duration} {log : List LogEntry}

/-- When rule sets and targets have no key in common, a key is of one kind. -/
theorem ObjectKind.not_keys_of_ne (hd : ∀ k, R k → ¬ P k) {kind other : ObjectKind}
    (hne : other ≠ kind) {k : ObjectKey} (hk : other.keys R P k) : ¬ kind.keys R P k := by
  cases kind <;> cases other
  · exact absurd rfl hne
  · exact fun hr => hd k hr hk
  · exact hd k hk
  · exact absurd rfl hne

/-- Every call of a run is under a key of its kind. -/
theorem SharedRun.keys_of_expectation (h : SharedRun settings keys R P ttl log)
    {before rest : List LogEntry} {e : LogEntry} (hlog : log = before ++ e :: rest) {k : ObjectKey}
    (hk : e.exchange.call.expectation? = some k) : (kindOf before e).keys R P k := by
  -- The entry is an exchange of its pass, behind the exchanges of that pass before it.
  obtain ⟨more, res, hends⟩ := h.passes e.pass
  have htrace : traceOf e.pass log ++ more =
      traceOf e.pass before ++ e.exchange :: (traceOf e.pass rest ++ more) := by
    rw [hlog, traceOf_append]
    simp [traceOf]
  refine Pass.usesKind_reconcile (P := P) settings (h.named e.pass) _ res hends _ _ _ htrace ?_ k hk
  intro y hy
  rw [List.nil_append] at hy
  obtain ⟨d, hd, rfl⟩ := List.mem_map.1 hy
  obtain ⟨hmem, hpass⟩ := List.mem_filter.1 hd
  have hnames := h.names d (by simp [hlog, hmem])
  rwa [of_decide_eq_true hpass] at hnames

/-- While the shared table goes on, the tables of both kinds stay the parts of it with their
keys, and they answer alike. -/
theorem Expectations.Answers.independent {t : Expectations} {past : List LogEntry}
    (h : t.Answers log) (hd : ∀ k, R k → ¬ P k)
    (hk : ∀ before e rest, log = before ++ e :: rest → ∀ k,
      e.exchange.call.expectation? = some k → (kindOf (past ++ before) e).keys R P k)
    (ht : ∀ kind : ObjectKind,
      Restricts (kind.keys R P) t ((fresh ttl).after (ofKind kind [] past))) :
    ∀ before e rest, log = before ++ e :: rest →
      e.exchange.answer = (e.exchange.call.onTable e.now
        ((fresh ttl).after (ofKind (kindOf (past ++ before) e) [] (past ++ before)))).1 := by
  -- On the log, with what came before it; all that is known of that are the tables it led to.
  induction h generalizing past with
  | nil t =>
    intro before e rest hlog
    simp at hlog
  | @cons t d log hexp ha hr ih =>
    have hown : ∀ k, d.exchange.call.expectation? = some k → (kindOf past d).keys R P k := by
      simpa using hk [] d log rfl
    intro before e rest hlog
    cases before with
    | nil =>
      obtain ⟨rfl, rfl⟩ := List.cons.inj hlog
      rw [List.append_nil, ha]
      exact ((ht _).onTable_inside hexp hown).1.symm
    | cons d' before =>
      obtain ⟨rfl, rfl⟩ := List.cons.inj hlog
      have hstep : ∀ kind : ObjectKind, Restricts (kind.keys R P)
          (d.exchange.call.onTable d.now t).2
          ((fresh ttl).after (ofKind kind [] (past ++ [d]))) := by
        intro kind
        rw [ofKind_append, after_append]
        -- The entry counts for its own kind, and does not show for the other one.
        by_cases hkind : kindOf past d = kind
        · subst hkind
          simpa [ofKind, after] using ((ht _).onTable_inside hexp hown).2
        · have hother := fun k hc => ObjectKind.not_keys_of_ne hd hkind (hown k hc)
          simpa [ofKind, after, hkind] using (ht kind).onTable_outside hexp hother
      have hrest := @ih (past ++ [d]) ?_ hstep before e rest rfl
      · simpa using hrest
      · intro b x r hl k hc
        simpa using hk (d :: b) x r (by rw [hl]; rfl) k hc

end Disjoint

/-! ## A run over a name that is both

The rule set and its only target have the same key. The first pass claims the target and records
it, so the expectation of the rule set takes the place of the one that the claim had armed. The
second pass sees the rule set as it was stored, which ends the expectation, and then a listing from
before the claim. -/

namespace Collision

variable (k : ObjectKey)

def ruleSet (version : String) (status : Option RuleSetStatus) : RuleSet where
  metadata := { (default : Metadata) with
    name := some k.name, namespaceName := some k.namespaceName,
    finalizers := some [cleanupFinalizer], resourceVersion := some version }
  spec := default
  status

def pod : Pod where
  metadata := { (default : Metadata) with
    name := some k.name, namespaceName := some k.namespaceName, resourceVersion := some "1" }
  others := []

def claimed : Pod := (pod k).withOwners ((pod k).owners.insert k.name)

def stored : Pod :=
  { claimed k with metadata := { (claimed k).metadata with resourceVersion := some "3" } }

def record : RuleSetStatus := statusSnapshot (SortedSet.insert ∅ k.name) 0 [] [] default

def claiming : List Exchange :=
  [⟨.store (.getRuleSet k), .ok (ruleSet k "2" none)⟩, ⟨.trust k "2", true⟩,
    ⟨.store (.listTargets k.namespaceName default), .ok [pod k]⟩, ⟨.trust k "1", true⟩,
    ⟨.store (.getTarget k), .ok (pod k)⟩,
    ⟨.store (.updateTarget (claimed k)), .ok (stored k)⟩, ⟨.arm k "1", ()⟩]

def recording : List Exchange :=
  [⟨.stages, []⟩, ⟨.evaluate [] (ruleSet k "2" none) [stored k], []⟩, ⟨.now, default⟩,
    ⟨.arm k "2", ()⟩,
    ⟨.store (.updateStatus (ruleSet k "2" (some (record k)))),
      .ok (ruleSet k "4" (some (record k)))⟩,
    ⟨.notify k.namespaceName [] [], ()⟩]

def relisting : List Exchange :=
  [⟨.store (.getRuleSet k), .ok (ruleSet k "4" (some (record k)))⟩, ⟨.trust k "4", true⟩,
    ⟨.store (.listTargets k.namespaceName default), .ok [pod k]⟩]

def staleView : Exchange := ⟨.trust k "1", true⟩

theorem ends_firstPass :
    (reconcile .standard k).Ends (claiming k ++ recording k) (.ok .done) :=
  .ask _ (.ask _ (.ask _ (.ask _ (.ask _ (.ask _ (.ask _ (.ask _ (.ask _ (.ask _ (.ask _ (.ask _
    (.ask _ (.done _)))))))))))))

theorem reaches_secondPass :
    ∃ q, (reconcile .standard k).Reaches (relisting k ++ [staleView k]) q :=
  ⟨_, .ask _ (.ask _ (.ask _ (.ask _ (.here _))))⟩

def beforeStaleView : List LogEntry :=
  (claiming k ++ recording k).map (⟨0, 0, ·⟩) ++ (relisting k).map (⟨1, 0, ·⟩)

def log : List LogEntry := beforeStaleView k ++ [⟨1, 0, staleView k⟩]

theorem passes_log (i : Nat) :
    ∃ rest res, (reconcile .standard k).Ends (traceOf i (log k) ++ rest) res := by
  match i with
  | 0 => exact ⟨[], .ok .done, ends_firstPass k⟩
  | 1 =>
    obtain ⟨q, hq⟩ := reaches_secondPass k
    exact hq.exists_ends
  | i + 2 =>
    have hnone : traceOf (i + 2) (log k) = [] := by
      simp [traceOf, log, beforeStaleView]
    rw [hnone]
    exact (Pass.Reaches.here _).exists_ends

def armed (base : String) : Expectations := (Expectations.fresh ⟨1⟩).arm 0 k base

theorem armed_get? (base : String) (j : ObjectKey) :
    (armed k base).pending.get? j = if j = k then some ⟨base, 0⟩ else none :=
  (Expectations.sets_arm (Expectations.noneExpired_fresh _ _) k base).get? j

theorem noneExpired_armed (base : String) : (armed k base).NoneExpired 0 := by
  intro j p hp
  rw [armed_get?] at hp
  split at hp
  · cases hp
    rfl
  · cases hp

theorem trust_armed (base version : String) :
    ((armed k base).trust 0 k version).1 = isNewer base version := by
  rw [Expectations.trust_fst, armed_get?]
  simp [Expectations.ends, armed, Expectations.arm, Expectations.fresh, Expectations.hasExpired]

theorem arm_armed (base base' : String) : (armed k base).arm 0 k base' = armed k base' := by
  have hset := Expectations.sets_arm (noneExpired_armed k base) k base'
  refine Expectations.eq_of_get? rfl fun j => ?_
  rw [hset.get?, armed_get?, armed_get?]
  split <;> rfl

theorem trust_armed_of_isNewer {base version : String} (h : isNewer base version = true) :
    ((armed k base).trust 0 k version).2 = .fresh ⟨1⟩ := by
  have hset := Expectations.sets_trust (armed k base) 0 k version
  refine Expectations.eq_of_get? hset.ttl fun j => ?_
  rw [hset.get?, armed_get?, armed_get?]
  by_cases hj : j = k
  · simp [hj, Option.filter, Expectations.ends, h]
    rfl
  · simp [hj]
    rfl

theorem answers_log : (Expectations.fresh ⟨1⟩).Answers (log k) := by
  have h0 : (Expectations.fresh ⟨1⟩).NoneExpired 0 := Expectations.noneExpired_fresh _ _
  have h1 := noneExpired_armed k "1"
  have h2 := noneExpired_armed k "2"
  -- Nothing is pending until the claim.
  refine .cons h0 rfl (.cons h0 rfl (.cons h0 rfl (.cons h0 rfl (.cons h0 rfl (.cons h0 rfl
    (.cons h0 rfl ?_))))))
  -- Then the expectation of the target is, until that of the rule set takes its place.
  refine .cons h1 rfl (.cons h1 rfl (.cons h1 rfl (.cons h1 rfl ?_)))
  change Expectations.Answers ((armed k "1").arm 0 k "2") _
  rw [arm_armed]
  refine .cons h2 rfl (.cons h2 rfl (.cons h2 rfl (.cons h2 ?_ ?_)))
  · exact (trust_armed k "2" "4").symm
  change Expectations.Answers ((armed k "2").trust 0 k "4").2 _
  rw [trust_armed_of_isNewer k rfl]
  exact .cons h0 rfl (.cons h0 rfl (.nil _))

theorem sharedRun_log {R P : ObjectKey → Prop} (hr : R k) (hp : P k) :
    SharedRun .standard (fun _ => k) R P ⟨1⟩ (log k) := by
  refine ⟨passes_log k, fun _ => hr, ?_, answers_log k⟩
  have hruleSet (x : Exchange) (version : String) (status : Option RuleSetStatus)
      (hx : x.ruleSet? = some (ruleSet k version status)) (hl : x.listing? = none) :
      x.Names R P k.namespaceName := by
    refine ⟨fun rs hrs => ?_, fun pods hpods => ?_⟩
    · cases hx.symm.trans hrs
      exact hr
    · cases hl.symm.trans hpods
  have hlisting (x : Exchange) (hx : x.ruleSet? = none) (hl : x.listing? = some [pod k]) :
      x.Names R P k.namespaceName := by
    refine ⟨fun rs hrs => ?_, fun pods hpods p hmem => ?_⟩
    · cases hx.symm.trans hrs
    · cases hl.symm.trans hpods
      obtain rfl := List.mem_singleton.1 hmem
      exact ⟨hp, hp⟩
  have hneither (x : Exchange) (hx : x.ruleSet? = none) (hl : x.listing? = none) :
      x.Names R P k.namespaceName := by
    refine ⟨fun rs hrs => ?_, fun pods hpods => ?_⟩
    · cases hx.symm.trans hrs
    · cases hl.symm.trans hpods
  intro e he
  simp only [log, beforeStaleView, claiming, recording, relisting, List.cons_append,
    List.nil_append, List.map_cons, List.map_nil, List.mem_cons, List.not_mem_nil, or_false] at he
  rcases he with rfl | rfl | rfl | rfl | rfl | rfl | rfl | rfl | rfl | rfl | rfl | rfl | rfl |
    rfl | rfl | rfl | rfl
  all_goals first
    | exact hneither _ rfl rfl
    | exact hlisting _ rfl rfl
    | exact hruleSet _ _ _ rfl rfl

/-- The stale view would not be trusted, had the table only had the calls for targets. -/
theorem not_kindsIndependent_log : ¬ KindsIndependent ⟨1⟩ (log k) := by
  intro h
  have hstale := h (beforeStaleView k) ⟨1, 0, staleView k⟩ [] rfl
  have hkind : kindOf (beforeStaleView k) ⟨1, 0, staleView k⟩ = .target := rfl
  have hown : ofKind .target [] (beforeStaleView k) =
      ((claiming k).drop 2 ++ (recording k).take 3).map (⟨0, 0, ·⟩) ++
        [⟨1, 0, ⟨.store (.listTargets k.namespaceName default), .ok [pod k]⟩⟩] := by
    simp [ofKind, kindOf, kindAfter, traceOf, beforeStaleView, claiming, recording, relisting,
      Call.isTrust, Call.isNow]
  have htable : (Expectations.fresh ⟨1⟩).after (ofKind (kindOf (beforeStaleView k)
      ⟨1, 0, staleView k⟩) [] (beforeStaleView k)) = armed k "1" := by
    rw [hkind, hown]
    rfl
  rw [htable] at hstale
  have hnewer : true = isNewer "1" "1" := hstale.trans (trust_armed k "1" "1")
  exact absurd hnewer (by decide)

end Collision

/-- In all runs over rule sets and targets of given names each kind of object is answered as if the
table only had its own calls, exactly if no name is both that of a rule set and of a target. -/
theorem kinds_independent_iff (ruleSets targets : ObjectKey → Prop) :
    (∀ settings keys ttl log, SharedRun settings keys ruleSets targets ttl log →
      KindsIndependent ttl log) ↔ ∀ k, ruleSets k → ¬ targets k := by
  constructor
  · intro h k hr hp
    exact Collision.not_kindsIndependent_log k
      (h _ _ _ _ (Collision.sharedRun_log k hr hp))
  · intro hd settings keys ttl log hrun before e rest hlog
    have hk : ∀ before e rest, log = before ++ e :: rest → ∀ k,
        e.exchange.call.expectation? = some k →
        (kindOf ([] ++ before) e).keys ruleSets targets k :=
      fun _ _ _ hsplit _ hc => hrun.keys_of_expectation hsplit hc
    have hfresh (kind : ObjectKind) : Expectations.Restricts (kind.keys ruleSets targets)
        (.fresh ttl) ((Expectations.fresh ttl).after (ofKind kind [] [])) :=
      Expectations.restricts_fresh ttl
    exact hrun.answers.independent hd hk hfresh before e rest hlog

/-- A pass trusts a view of a pod from before its own claim, because the rule set has the same
name. -/
theorem stale_target_trusted_under_shared_name :
    SharedRun .standard (fun _ => ⟨"d", "x"⟩) (· = ⟨"d", "x"⟩) (· = ⟨"d", "x"⟩) ⟨1⟩
        (Collision.log ⟨"d", "x"⟩) ∧
      ¬ KindsIndependent ⟨1⟩ (Collision.log ⟨"d", "x"⟩) :=
  ⟨Collision.sharedRun_log _ rfl rfl, Collision.not_kindsIndependent_log _⟩

end PodRules
