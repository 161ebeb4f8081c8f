import PodRules.Proofs.Run.Blocking

namespace PodRules

def othersThan (pass : Nat) (log : List LogEntry) : List LogEntry := log.filter (·.pass ≠ pass)

/-- What a table says after a log in which a pass has ended the write of a status. -/
structure GatesStatus (rs : RuleSet) (t : Expectations) (log : List LogEntry) (pass now : Nat)
    (res : Except Failure StatusRecord) : Prop where
  unchanged : res = .ok .unchanged → t.after log = t.after (othersThan pass log)
  /-- As long as an entry blocks, views of the rule set are measured by the version that the write
  started from. -/
  written : ∀ stored, res = .ok (.written stored) →
    ∃ armed ∈ log, armed.pass = pass ∧ armed.exchange = ⟨.arm rs.key rs.version, ()⟩ ∧
      (now - armed.now < t.ttl.nanos →
        ((t.after log).trust now rs.key rs.version).1 = false ∧
          ∀ version, ((t.after log).trust now rs.key version).1 = isNewer rs.version version)
  refused : ∀ e, res = .error e → (t.after log).pending.get? rs.key = none ∧
    ∀ version, ((t.after log).trust now rs.key version).1 = true
  others : ∀ key, key ≠ rs.key → ∀ version, ((t.after log).trust now key version).1 =
    ((t.after (othersThan pass log)).trust now key version).1

section

variable {rs : RuleSet} {next : RuleSetStatus} {τ : List Exchange}
  {res : Except Failure StatusRecord} {t : Expectations} {log : List LogEntry} {pass now : Nat}

/-- A status write touches the expectation of its rule set only. -/
theorem StatusWrite.key_of_expectation (h : StatusWrite rs next τ res) {x : Exchange} (hx : x ∈ τ)
    {key : ObjectKey} (hkey : x.call.expectation? = some key) : key = rs.key := by
  cases h with
  | unchanged => cases hx
  | written _ stored =>
    simp only [List.mem_cons, List.not_mem_nil, or_false] at hx
    obtain rfl | rfl := hx <;> cases hkey
    rfl
  | refused _ e =>
    simp only [List.mem_cons, List.not_mem_nil, or_false] at hx
    obtain rfl | rfl | rfl := hx <;> cases hkey <;> rfl

/-! ## Other keys -/

theorem othersThan_eq_self (h : traceOf pass log = []) : othersThan pass log = log := by
  refine List.filter_eq_self.2 fun e he => decide_eq_true fun hpass => ?_
  have hmem := mem_traceOf he hpass
  rw [h] at hmem
  cases hmem

/-- A pass that uses one key only does not show under another one. -/
theorem trust_after_othersThan {key : ObjectKey}
    (hclock : (log.map (·.now)).Pairwise (· ≤ ·)) (hnow : ∀ e ∈ log, e.now ≤ now)
    (hown : ∀ x ∈ traceOf pass log, x.call.expectation? ≠ some key) (version : String) :
    ((t.after log).trust now key version).1 =
      ((t.after (othersThan pass log)).trust now key version).1 := by
  -- Not the tables are the same, for the pass may have dropped what had expired, but what blocks.
  have hsame : log.filter (·.uses key) = (othersThan pass log).filter (·.uses key) := by
    rw [othersThan, List.filter_filter]
    refine List.filter_congr fun e he => ?_
    by_cases hpass : e.pass = pass
    · have hunused : e.uses key = false :=
        decide_eq_false (hown e.exchange (mem_traceOf he hpass))
      simp [hunused]
    · simp [hpass]
  have hsub : (othersThan pass log).Sublist log := List.filter_sublist
  rw [Expectations.trust_fst_eq_blocking, Expectations.trust_fst_eq_blocking,
    Expectations.blocking_after_congr t hsame hclock (hclock.sublist (hsub.map _)) hnow
      fun e he => hnow e (hsub.subset he)]

/-- The status is written if more than its time changes, once and after its expectation was armed;
the expectation stays for a write that succeeded and goes with one that failed. -/
theorem status_write_moves_expectation (rs : RuleSet) (next : RuleSetStatus) :
    (∀ τ res, (recordStatus rs next).Ends τ res ↔ StatusWrite rs next τ res) ∧
      ∀ t log pass now res, (recordStatus rs next).Ends (traceOf pass log) res →
        (log.map (·.now)).Pairwise (· ≤ ·) → (∀ e ∈ log, e.now ≤ now) →
        (∀ e ∈ log, e.pass ≠ pass → e.uses rs.key = false) →
        GatesStatus rs t log pass now res := by
  refine ⟨fun _ _ => ends_recordStatus_iff, ?_⟩
  intro t log pass now res hends hclock hnow hothers
  have hwrite := ends_recordStatus_iff.1 hends
  generalize htrace : traceOf pass log = τ at hwrite
  refine ⟨fun hres => ?_, fun stored hres => ?_, fun e hres => ?_, fun key hkey version => ?_⟩
  · subst hres
    cases hwrite
    rw [othersThan_eq_self htrace]
  · subst hres
    cases hwrite
    have hfirst : traceOf pass log = [] ++ ⟨.arm rs.key rs.version, ()⟩ ::
        [⟨.store (.updateStatus { rs with status := some next }), .ok stored⟩] := htrace
    obtain ⟨armed, hmem, hpass, harmed, hblocking⟩ :=
      Expectations.exists_armed hothers hnow hfirst (by simp [Call.expectation?]) t
    refine ⟨armed, hmem, hpass, harmed, fun hlate => ?_⟩
    have hanswer (version : String) :
        ((t.after log).trust now rs.key version).1 = isNewer rs.version version := by
      rw [Expectations.trust_fst_eq_blocking, hblocking hlate]
      rfl
    exact ⟨(hanswer rs.version).trans (isNewer_self rs.version), hanswer⟩
  · subst hres
    cases hwrite
    have hlast : traceOf pass log = [_, _] ++ ⟨.disarm rs.key, ()⟩ :: [] := htrace
    have hnone : (t.after log).pending.get? rs.key = none :=
      Expectations.get?_of_disarmed hothers hlast (by simp) t
    refine ⟨hnone, fun version => ?_⟩
    rw [Expectations.trust_fst, hnone]
    rfl
  · refine trust_after_othersThan hclock hnow (fun x hx hused => ?_) version
    rw [htrace] at hx
    exact hkey (hwrite.key_of_expectation hx hused)

end

namespace StatusRecording

def ruleSet : RuleSet where
  metadata := { (default : Metadata) with
    name := some "r", namespaceName := some "ns", resourceVersion := some "7" }
  spec := default
  status := none

def next : RuleSetStatus := { (default : RuleSetStatus) with observedGeneration := 2 }

def stored : RuleSet :=
  { ruleSet with
    metadata := { ruleSet.metadata with resourceVersion := some "8" }
    status := some next }

def beginning : List LogEntry :=
  [⟨1, 0, ⟨.arm ⟨"ns", "p"⟩ "3", ()⟩⟩, ⟨0, 1, ⟨.arm ruleSet.key ruleSet.version, ()⟩⟩,
    ⟨1, 2, ⟨.trust ⟨"ns", "p"⟩ "3", false⟩⟩]

def writtenLog : List LogEntry :=
  beginning ++
    [⟨0, 3, ⟨.store (.updateStatus { ruleSet with status := some next }), .ok stored⟩⟩,
      ⟨1, 4, ⟨.trust ⟨"ns", "p"⟩ "5", true⟩⟩]

def refusedLog : List LogEntry :=
  beginning ++
    [⟨0, 3, ⟨.store (.updateStatus { ruleSet with status := some next }),
        .error (.conflict "late")⟩⟩,
      ⟨0, 4, ⟨.disarm ruleSet.key, ()⟩⟩]

end StatusRecording

open StatusRecording in
theorem status_writes_gate_rule_set :
    GatesStatus ruleSet (.fresh ⟨10⟩) writtenLog 0 5 (.ok (.written stored)) ∧
      GatesStatus ruleSet (.fresh ⟨10⟩) refusedLog 0 5 (.error (.store (.conflict "late"))) :=
  ⟨(status_write_moves_expectation ruleSet next).2 (.fresh ⟨10⟩) writtenLog 0 5 _
      (ends_recordStatus_iff.2 (.written (by decide) stored))
      (by decide) (by decide) (by decide),
    (status_write_moves_expectation ruleSet next).2 (.fresh ⟨10⟩) refusedLog 0 5 _
      (ends_recordStatus_iff.2 (.refused (by decide) (.conflict "late")))
      (by decide) (by decide) (by decide)⟩

end PodRules
