import PodRules.Proofs.Run.OwnershipSync
import PodRules.Proofs.Store.Rearming

/-!
Writes of owners and the expectations of their targets. A claim that was written arms its target,
a release does not. Main statement: of a target that was written, by a claim or by a release, the
view that the write started from is refused afterwards exactly if the last arming of the target
since is at no older version or, when there is none, the table of before the write refuses it
(`ownership_write_gates_target`).
-/

namespace PodRules

/-- The exchanges of a synchronisation or of a release alone, with their tasks. -/
inductive OwnershipRun (b : RetryBackoff) (ns ruleSet : String) :
    List OwnershipTask → List Exchange → Prop
  | sync {plan : ClaimPlan} {τ : List Exchange} {res : Except Failure (List Pod)}
      (h : (carryOut b ns ruleSet plan).Ends τ res) : OwnershipRun b ns ruleSet plan.tasks τ
  | release {names : List String} {τ : List Exchange} {res : Except Failure Unit}
      (h : (releaseTargets b ns ruleSet names).Ends τ res) :
      OwnershipRun b ns ruleSet (names.map .release) τ

/-- An accepted write of a task. It stores the target that was fetched right before it, with its
owners edited, and only a claim arms the target. -/
structure AcceptedWrite (ns ruleSet : String) (tasks : List OwnershipTask) (before : List Exchange)
    (u : Pod) (after : List Exchange) (task : OwnershipTask) (pod : Pod) : Prop where
  mem : task ∈ tasks
  fetched : before.getLast? = some ⟨.store (.getTarget ⟨ns, task.name⟩), .ok pod⟩
  edited : u = (task.edit ruleSet pod).1
  claims : ∀ name, task = .claim name → after.head? = some ⟨.arm ⟨ns, name⟩ pod.version, ()⟩
  releases : .claim task.name ∉ tasks → ∀ x ∈ after, x.call.expectation? ≠ some ⟨ns, task.name⟩

/-- What a table says, after a log, of the view that an accepted write in it started from. The last
arming of the target since then decides, and without one the answer is that of the table before.
A claim is waited for, unless its target was armed at an older version since; after a release only
other passes can have armed the target. -/
structure GatesTarget (key : ObjectKey) (tasks : List OwnershipTask) (task : OwnershipTask)
    (version : String) (t : Expectations) (first : List LogEntry) (e : LogEntry)
    (last : List LogEntry) (now : Nat) : Prop where
  armed : ∀ base, lastBase? key (tableCalls last) = some base →
    ((t.after (first ++ e :: last)).trust now key version).1 = isNewer base version
  unarmed : lastBase? key (tableCalls last) = none →
    ((t.after (first ++ e :: last)).trust now key version).1 =
      ((t.after first).trust now key version).1
  claimed : ∀ name, task = .claim name →
    (∀ d ∈ last, ∀ base, d.exchange.call = .arm key base → isNewer base version = false) →
      ((t.after (first ++ e :: last)).trust now key version).1 = false
  released : .claim task.name ∉ tasks →
    (∀ d ∈ last, d.pass ≠ e.pass → ∀ base, d.exchange.call ≠ .arm key base) →
      ((t.after (first ++ e :: last)).trust now key version).1 =
        ((t.after first).trust now key version).1

section

variable {b : RetryBackoff} {ns ruleSet : String} {tasks : List OwnershipTask}
  {τ before after : List Exchange} {task : OwnershipTask} {pod u stored : Pod}
  {key : ObjectKey} {version : String} {t : Expectations} {now : Nat}
  {first last : List LogEntry} {e : LogEntry}

/-! ## The tasks of a run -/

theorem asks_claimTargets_expectation (b : RetryBackoff) (ns ruleSet : String)
    (names : List String) :
    (claimTargets b ns ruleSet names).Asks fun c =>
      ∀ key, c.expectation? = some key → ∃ name ∈ names, key = ⟨ns, name⟩ := by
  induction names with
  | nil => exact Pass.asks_done []
  | cons name names ih =>
    refine Pass.Asks.bind (Pass.Asks.bind ?_ fun w => ?_) fun pod =>
      Pass.Asks.bind (ih.mono ?_) fun pods => Pass.asks_done _
    · refine (Pass.asks_editTarget_isPlain b _ _).mono ?_
      intro c hc key hkey
      rw [Call.expectation?_eq_none_of_isPlain hc] at hkey
      cases hkey
    · cases w with
      | written base pod =>
        refine Pass.asks_ask ?_ fun _ => Pass.asks_done _
        rintro key ⟨⟩
        exact ⟨name, by simp, rfl⟩
      | unchanged pod | gone => exact Pass.asks_done _
    · intro c hc key hkey
      obtain ⟨n, hn, hname⟩ := hc key hkey
      exact ⟨n, List.mem_cons_of_mem _ hn, hname⟩

/-- Only claims use an expectation, that of their target. -/
theorem OwnershipRun.claim_of_expectation (h : OwnershipRun b ns ruleSet tasks τ) {x : Exchange}
    (hx : x ∈ τ) (hkey : x.call.expectation? = some key) :
    ∃ name, .claim name ∈ tasks ∧ key = ⟨ns, name⟩ := by
  have hplain {names : List String} {τ : List Exchange} {res : Except Failure Unit}
      (h : (releaseTargets b ns ruleSet names).Ends τ res) : x ∉ τ := by
    intro hx
    have hnone := Pass.asks_releaseTargets_isPlain b ns ruleSet names _ _ h x hx
    rw [Call.expectation?_eq_none_of_isPlain hnone] at hkey
    cases hkey
  cases h with
  | release h => exact absurd hx (hplain h)
  | @sync plan _ _ h =>
    rcases Pass.ends_bind_iff.1 h with ⟨_, he, -⟩ | ⟨_, τ₁, τ₂, rfl, h₁, h₂⟩
    · exact absurd hx (hplain he)
    · have hclaims := (List.mem_append.1 hx).resolve_left (hplain h₁)
      obtain ⟨name, hname, hk⟩ :=
        asks_claimTargets_expectation b ns ruleSet plan.claim _ _ h₂ x hclaims key hkey
      exact ⟨name, List.mem_append_right _ (List.mem_map_of_mem hname), hk⟩

theorem OwnershipRun.planRun (h : OwnershipRun b ns ruleSet tasks τ) :
    ∃ run, PlanRun b ns ruleSet tasks τ run := by
  cases h with
  | sync h =>
    obtain ⟨run, hrun, -⟩ := planRun_of_carryOut h
    exact ⟨run, hrun⟩
  | release h =>
    obtain ⟨run, hrun, -⟩ := planRun_of_releaseTargets h
    exact ⟨run, hrun⟩

/-- An accepted write belongs to one task, and a claim arms its expectation right after it. -/
theorem OwnershipRun.accepted (h : OwnershipRun b ns ruleSet tasks τ)
    (hτ : τ = before ++ ⟨.store (.updateTarget u), .ok stored⟩ :: after) :
    ∃ task pod, AcceptedWrite ns ruleSet tasks before u after task pod := by
  obtain ⟨run, hrun⟩ := h.planRun
  obtain ⟨earlier, task, later, past, pod, rest, htasks, hbefore, hu, hafter, -⟩ :=
    hrun.accepted hτ
  refine ⟨task, pod, by simp [htasks], by simp [hbefore], hu, ?_, fun hclaim x hx hkey => ?_⟩
  · rintro name rfl
    rw [hafter]
    rfl
  · obtain ⟨name, hmem, hname⟩ := h.claim_of_expectation (by simp [hτ, hx]) hkey
    rw [ObjectKey.mk.injEq] at hname
    exact hclaim (hname.2 ▸ hmem)

/-- The task of an accepted write is told by the fetch before it. -/
theorem AcceptedWrite.eq_of_fetched (h : AcceptedWrite ns ruleSet tasks before u after task pod)
    {name : String} {p : Pod}
    (hp : before.getLast? = some ⟨.store (.getTarget ⟨ns, name⟩), .ok p⟩) :
    task.name = name ∧ pod = p := by
  have hsame := Option.some.inj (h.fetched.symm.trans hp)
  generalize task.name = n at hsame
  cases hsame
  exact ⟨rfl, rfl⟩

/-! ## The table after a write -/

/-- A write of a target does not touch the table. -/
theorem after_write (t : Expectations)
    (hwrite : e.exchange = ⟨.store (.updateTarget u), .ok stored⟩) :
    t.after (first ++ e :: last) = (t.after first).follow (tableCalls last) := by
  have hsame : (e.exchange.call.onTable e.now (t.after first)).2 = t.after first := by
    rw [hwrite]
    rfl
  rw [Expectations.after_append, ← Expectations.after_eq_follow]
  show Expectations.after (e.exchange.call.onTable e.now (t.after first)).2 last = _
  rw [hsame]

/-- After a write, views are measured by the version that was armed last since, or as before the
write if none was. -/
theorem trust_after_write (first : List LogEntry) (t : Expectations)
    (hwrite : e.exchange = ⟨.store (.updateTarget u), .ok stored⟩)
    (h : StillPending t.ttl key version e.now now (tableCalls last)) :
    ((t.after (first ++ e :: last)).trust now key version).1 =
      ((lastBase? key (tableCalls last)).map fun base => isNewer base version).getD
        ((t.after first).trust now key version).1 := by
  have hlately : ∀ c ∈ tableCalls last, c.now ≤ now ∧ now - c.now < (t.after first).ttl.nanos := by
    rw [Expectations.ttl_after]
    exact h.lately
  calc ((t.after (first ++ e :: last)).trust now key version).1
      = (((t.after first).follow (tableCalls last)).trust now key version).1 := by
        rw [after_write t hwrite]
    _ = _ := Expectations.trust_follow (t.after first) h.toUnobserved hlately

/-! ## The last arming since a write -/

theorem base?_eq_some_iff_of_timed? {d : LogEntry} {c : TimedCall} (hc : d.timed? = some c)
    {base : String} :
    c.base? key = some base ↔ d.exchange.call = .arm key base := by
  obtain ⟨pass, clock, ⟨call, reply⟩⟩ := d
  cases call <;> cases hc <;> simp [TimedCall.base?]

theorem exists_armed_of_lastBase? {base : String}
    (h : lastBase? key (tableCalls last) = some base) :
    ∃ d ∈ last, d.exchange.call = .arm key base := by
  obtain ⟨c, hc, hbase⟩ := List.mem_filterMap.1 (List.mem_of_getLast? h)
  obtain ⟨d, hd, htimed⟩ := List.mem_filterMap.1 hc
  exact ⟨d, hd, (base?_eq_some_iff_of_timed? htimed).1 hbase⟩

/-- A claim that was written has armed its target since. -/
theorem AcceptedWrite.exists_lastBase {name : String}
    (h : AcceptedWrite ns ruleSet tasks before u (traceOf e.pass last) (.claim name) pod) :
    ∃ base, lastBase? ⟨ns, name⟩ (tableCalls last) = some base := by
  have hmem : (⟨.arm ⟨ns, name⟩ pod.version, ()⟩ : Exchange) ∈ traceOf e.pass last :=
    List.mem_of_head? (h.claims name rfl)
  obtain ⟨d, hd, hexchange⟩ := List.mem_map.1 hmem
  have hcall : (⟨d.now, .arm ⟨ns, name⟩ pod.version⟩ : TimedCall) ∈ tableCalls last := by
    refine List.mem_filterMap.2 ⟨d, (List.mem_filter.1 hd).1, ?_⟩
    rw [LogEntry.timed?, hexchange]
  have hbase : pod.version ∈ (tableCalls last).filterMap (·.base? ⟨ns, name⟩) :=
    List.mem_filterMap.2 ⟨_, hcall, if_pos rfl⟩
  exact Option.isSome_iff_exists.1 (List.getLast?_isSome.2 (List.ne_nil_of_mem hbase))

/-- A release arms nothing, so only another pass can have armed its target since. -/
theorem AcceptedWrite.lastBase_eq_none
    (h : AcceptedWrite ns ruleSet tasks before u (traceOf e.pass last) task pod)
    (hrelease : .claim task.name ∉ tasks)
    (hothers : ∀ d ∈ last, d.pass ≠ e.pass → ∀ base, d.exchange.call ≠ .arm ⟨ns, task.name⟩ base) :
    lastBase? ⟨ns, task.name⟩ (tableCalls last) = none := by
  apply Option.eq_none_iff_forall_ne_some.2
  intro base hbase
  obtain ⟨d, hd, harm⟩ := exists_armed_of_lastBase? hbase
  by_cases hpass : d.pass = e.pass
  · exact h.releases hrelease d.exchange (mem_traceOf hd hpass) (by rw [harm]; rfl)
  · exact hothers d hd hpass base harm

/-! ## What the table says -/

/-- A claim's write gates its target from then on. A release's arms nothing of its own. -/
theorem AcceptedWrite.gatesTarget
    (h : AcceptedWrite ns ruleSet tasks before u (traceOf e.pass last) task pod)
    (hwrite : e.exchange = ⟨.store (.updateTarget u), .ok stored⟩)
    (hpending : StillPending t.ttl ⟨ns, task.name⟩ pod.version e.now now (tableCalls last)) :
    GatesTarget ⟨ns, task.name⟩ tasks task pod.version t first e last now := by
  have hafter := trust_after_write first t hwrite hpending
  constructor
  · intro base hbase
    rw [hafter, hbase]
    rfl
  · intro hnone
    rw [hafter, hnone]
    rfl
  · rintro name rfl hnewer
    -- The claim has armed its target, so there is a last arming.
    obtain ⟨base, hbase⟩ := h.exists_lastBase
    obtain ⟨d, hd, harm⟩ := exists_armed_of_lastBase? hbase
    have hold : isNewer base pod.version = false := hnewer d hd base harm
    rw [hafter]
    show ((lastBase? ⟨ns, name⟩ (tableCalls last)).map _).getD _ = false
    rw [hbase]
    exact hold
  · intro hrelease hothers
    rw [hafter, h.lastBase_eq_none hrelease hothers]
    rfl

/-- Of a target that a synchronisation or a release has written, the view that the write started
from is refused, as long as the write is pending, exactly if the last arming of the target since
is at no older version, or if there was none and the table of before the write refuses it. So a
claim is waited for unless an older arming comes after it, and a release is not unless another
pass arms its target. -/
theorem ownership_write_gates_target (first : List LogEntry) (e : LogEntry) (last : List LogEntry)
    (hrun : OwnershipRun b ns ruleSet tasks (traceOf e.pass (first ++ e :: last)))
    (hwrite : e.exchange = ⟨.store (.updateTarget u), .ok stored⟩) :
    ∃ task pod,
      AcceptedWrite ns ruleSet tasks (traceOf e.pass first) u (traceOf e.pass last) task pod ∧
        ∀ (t : Expectations) now,
          StillPending t.ttl ⟨ns, task.name⟩ pod.version e.now now (tableCalls last) →
            GatesTarget ⟨ns, task.name⟩ tasks task pod.version t first e last now := by
  have htrace : traceOf e.pass (first ++ e :: last) =
      traceOf e.pass first ++ ⟨.store (.updateTarget u), .ok stored⟩ :: traceOf e.pass last := by
    rw [traceOf_append, ← hwrite]
    simp [traceOf]
  obtain ⟨task, pod, hw⟩ := hrun.accepted htrace
  exact ⟨task, pod, hw, fun t now hpending => hw.gatesTarget hwrite hpending⟩

end

namespace OwnershipGate

open Syncing

def fetchReleased : LogEntry := ⟨0, 1, ⟨.store (.getTarget ⟨"ns", "old"⟩), .ok owned⟩⟩

def release : LogEntry := ⟨0, 2, ⟨.store (.updateTarget released), .ok (released.atVersion "5")⟩⟩

def fetchClaimed : LogEntry := ⟨0, 3, ⟨.store (.getTarget ⟨"ns", "p"⟩), .ok (pod "p" "2")⟩⟩

def claim : LogEntry := ⟨0, 4, ⟨.store (.updateTarget claimed), .ok (claimed.atVersion "3")⟩⟩

def arming : LogEntry := ⟨0, 5, ⟨.arm ⟨"ns", "p"⟩ "2", ()⟩⟩

def log : List LogEntry := [fetchReleased, release, fetchClaimed, claim, arming]

theorem ownershipRun_log :
    OwnershipRun .standard "ns" "r" (ClaimPlan.tasks ⟨["old"], ["p"]⟩) (traceOf 0 log) := by
  have hends : (carryOut .standard "ns" "r" ⟨["old"], ["p"]⟩).Ends (traceOf 0 log)
      (.ok [claimed.atVersion "3"]) :=
    .ask _ (.ask _ (.ask _ (.ask _ (.ask _ (.done _)))))
  exact .sync hends

theorem stillPending_claim :
    StillPending ⟨10⟩ ⟨"ns", "p"⟩ "2" 4 9 (tableCalls [arming]) := by
  refine ⟨⟨by decide, fun c hc version hcall => ?_⟩, by decide, by decide, by decide⟩
  obtain rfl := List.mem_singleton.1 hc
  cases hcall

theorem stillPending_release :
    StillPending ⟨10⟩ ⟨"ns", "old"⟩ "4" 2 9 (tableCalls [fetchClaimed, claim, arming]) := by
  refine ⟨⟨by decide, fun c hc version hcall => ?_⟩, by decide, by decide, by decide⟩
  obtain rfl := List.mem_singleton.1 hc
  cases hcall

end OwnershipGate

open OwnershipGate Syncing in
/-- A pass that releases one pod and claims another one: the second one is waited for and the first
one is not. -/
theorem claimed_pod_is_waited_for :
    (((Expectations.fresh ⟨10⟩).after log).trust 9 ⟨"ns", "p"⟩ "2").1 = false ∧
      (((Expectations.fresh ⟨10⟩).after log).trust 9 ⟨"ns", "old"⟩ "4").1 = true := by
  have htasks {task : OwnershipTask} (h : task ∈ ClaimPlan.tasks ⟨["old"], ["p"]⟩) :
      task = .release "old" ∨ task = .claim "p" := by
    simpa [ClaimPlan.tasks] using h
  constructor
  · obtain ⟨task, p, hw, hgate⟩ := ownership_write_gates_target
      [fetchReleased, release, fetchClaimed] claim [arming] ownershipRun_log rfl
    obtain ⟨hname, rfl⟩ := hw.eq_of_fetched (p := pod "p" "2") rfl
    obtain rfl | rfl := htasks hw.mem
    · exact absurd hname (by decide)
    · exact (hgate (.fresh ⟨10⟩) 9 stillPending_claim).armed "2" rfl
  · obtain ⟨task, p, hw, hgate⟩ := ownership_write_gates_target
      [fetchReleased] release [fetchClaimed, claim, arming] ownershipRun_log rfl
    obtain ⟨hname, rfl⟩ := hw.eq_of_fetched (p := owned) rfl
    obtain rfl | rfl := htasks hw.mem
    · have halone : ∀ d ∈ [fetchClaimed, claim, arming], d.pass = release.pass := by decide
      exact (hgate (.fresh ⟨10⟩) 9 stillPending_release).released (by decide)
        fun d hd hpass => absurd (halone d hd) hpass
    · exact absurd hname (by decide)

open Syncing in
/-- A release that was written leaves the view that it started from trusted. -/
theorem released_pod_is_not_waited_for :
    (releaseTargets .standard "ns" "r" ["old"]).Ends
        [⟨.store (.getTarget ⟨"ns", "old"⟩), .ok owned⟩,
          ⟨.store (.updateTarget released), .ok (released.atVersion "5")⟩] (.ok ()) ∧
      (((Expectations.fresh ⟨10⟩).after
        [⟨0, 1, ⟨.store (.getTarget ⟨"ns", "old"⟩), .ok owned⟩⟩,
          ⟨0, 2, ⟨.store (.updateTarget released), .ok (released.atVersion "5")⟩⟩]).trust 3
        owned.key owned.version).1 = true :=
  ⟨.ask _ (.ask _ (.done _)), by decide⟩

end PodRules
