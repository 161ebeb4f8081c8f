import Mathlib.Logic.Relation
import PodRules.Proofs.Pass.Faultless
import PodRules.Proofs.Run.Orphans

/-!
Runs in which no call fails and others write between passes only. The pods that name a rule set are
among its recorded targets at all times, and while there is one the rule set carries the finalizer
(`Exact`): a claim and the status that records it fall into one step. Main statement: after a pass
that ran the stages exactly the selected pods are recorded and name the rule set
(`ownership_converges`).
-/

namespace PodRules

variable {key : ObjectKey} {s s₀ t : Cluster}

namespace Cluster

def IsHeld (s : Cluster) (key : ObjectKey) : Prop :=
  ∃ rs, s.ruleSets.get? key = some rs ∧ rs.isHeld = true

structure Exact (key : ObjectKey) (s : Cluster) : Prop where
  recorded : ∀ n, ¬ s.Unrecorded key n
  held : ∀ n, s.Owns key.name ⟨key.namespaceName, n⟩ → s.IsHeld key

/-- The stored rule set records exactly the pods that it selects, and they are the ones that name
it. -/
structure Converged (key : ObjectKey) (s : Cluster) (rs : RuleSet) : Prop where
  stored : s.ruleSets.get? key = some rs
  held : rs.isHeld = true
  ascending : rs.recordedStatus.targets.Pairwise (· < ·)
  mem_targets : ∀ n, n ∈ rs.recordedStatus.targets ↔
    s.Selects key.namespaceName rs.spec.selector n
  generation : rs.recordedStatus.observedGeneration = rs.metadata.generation.getD 0
  owns_iff : ∀ n, s.Owns key.name ⟨key.namespaceName, n⟩ ↔ n ∈ rs.recordedStatus.targets

end Cluster

/-- Edits of other writers: they neither name the rule set in a pod nor take its name from one, and
they leave its recorded targets alone. The rule set keeps a finalizer that it has and is not removed
before it lost it. -/
def Edit.Harmless (key : ObjectKey) (s : Cluster) : Edit → Prop
  | .putRuleSet _ rs => rs.key = key →
    rs.recordedStatus.targets = s.recorded key ∧ (s.IsHeld key → rs.isHeld = true)
  | .putPod _ p =>
    p.key.namespaceName = key.namespaceName → (key.name ∈ p.owners ↔ s.Owns key.name p.key)
  | .deleteRuleSet k => k = key → ¬ s.IsHeld key
  | _ => True

inductive FaultlessStep (key : ObjectKey) : Cluster → Cluster → Prop
  | edit {s : Cluster} (e : Edit) (he : e.Harmless key s) : FaultlessStep key s (e.applied s)
  | pass {s t : Cluster} (settings : Settings) (k : ObjectKey) (τ : List Exchange)
      (res : Except Failure Outcome) (h : (reconcile settings k).Ends τ res)
      (hs : Cluster.Serves noFailure s τ t) : FaultlessStep key s t

/-! ## Edits between passes -/

namespace Cluster

theorem isHeld_keepRuleSet {rs : RuleSet} (h : rs.key = key → rs.isHeld = true)
    (hs : s.IsHeld key) : (s.keepRuleSet rs).IsHeld key := by
  have hget : (s.keepRuleSet rs).ruleSets.get? key =
      if key = rs.key then some rs else s.ruleSets.get? key :=
    SortedMap.get?_insert s.ruleSets rs.key key rs
  unfold IsHeld
  rw [hget]
  split
  next he => exact ⟨rs, rfl, h he.symm⟩
  next => exact hs

theorem isHeld_deleteRuleSet {k : ObjectKey} (h : k ≠ key) (hs : s.IsHeld key) :
    (s.deleteRuleSet k).IsHeld key := by
  have hget : (s.deleteRuleSet k).ruleSets.get? key =
      if key = k then none else s.ruleSets.get? key :=
    SortedMap.get?_erase s.ruleSets k key
  rwa [IsHeld, hget, if_neg (Ne.symm h)]

/-- While nobody is owned, nothing needs to be recorded or held. -/
theorem exact_of_not_owns (h : ∀ n, ¬ s.Owns key.name ⟨key.namespaceName, n⟩) : Exact key s :=
  ⟨fun n hn => h n hn.1, fun n hn => absurd hn (h n)⟩

end Cluster

namespace Edit

variable {e : Edit}

/-- A harmless edit is permitted, unless it deletes the rule set itself when nothing holds that. -/
theorem Harmless.permitted_or (h : e.Harmless key s) :
    e.Permitted key s ∨ (e = .deleteRuleSet key ∧ ¬ s.IsHeld key) := by
  cases e with
  | putRuleSet keep rs => exact Or.inl fun hk => (h hk).1
  | putPod keep p => exact Or.inl h
  | deleteRuleSet k =>
    by_cases hk : k = key
    · exact Or.inr ⟨by rw [hk], h hk⟩
    · exact Or.inl hk
  | deletePod k => exact Or.inl trivial
  | touchRuleSet k => exact Or.inl trivial
  | touchPod k => exact Or.inl trivial
  | fault method faults => exact Or.inl trivial

/-- A permitted edit makes no owner. -/
theorem owns_of_owns_applied {n : String} (hw : s.WellKeyed) (hp : e.Permitted key s)
    (h : (e.applied s).Owns key.name ⟨key.namespaceName, n⟩) :
    s.Owns key.name ⟨key.namespaceName, n⟩ := by
  have hkeep {u : Cluster} {p : Pod} (hu : u.pods = s.pods)
      (hp : p.key.namespaceName = key.namespaceName →
        (key.name ∈ p.owners ↔ s.Owns key.name p.key))
      (h : (u.keepPod p).Owns key.name ⟨key.namespaceName, n⟩) :
      s.Owns key.name ⟨key.namespaceName, n⟩ := by
    rw [Cluster.owns_keepPod] at h
    split at h
    next he =>
      rw [he]
      exact (hp (by rw [← he])).1 h
    next => exact (Cluster.owns_congr hu _ _).1 h
  cases e with
  | putRuleSet keep rs => cases keep <;> exact h
  | putPod keep p =>
    cases keep with
    | true => exact hkeep rfl hp h
    | false => exact hkeep (u := s.bump) (p := p.atVersion s.nextVersion) rfl hp h
  | deleteRuleSet k => exact h
  | deletePod k => exact (Cluster.owns_deletePod.1 h).1
  | touchRuleSet k =>
    have hpods : (s.touchRuleSet k).pods = s.pods := by
      unfold Cluster.touchRuleSet
      split <;> rfl
    exact (Cluster.owns_congr hpods _ _).1 h
  | touchPod k =>
    change (s.touchPod k).Owns _ _ at h
    cases hpod : s.pods.get? k with
    | none =>
      rw [Cluster.touchPod, hpod] at h
      exact h
    | some p =>
      obtain rfl := hw.pod k p hpod
      rw [Cluster.touchPod_eq_keepPod hpod] at h
      exact hkeep (u := s.bump) (p := p.atVersion s.nextVersion) rfl
        (fun _ => (Cluster.owns_of_get? hpod key.name).symm) h
  | fault method faults => exact h

theorem isHeld_applied (hw : s.WellKeyed) (hp : e.Permitted key s) (h : e.Harmless key s)
    (hs : s.IsHeld key) : (e.applied s).IsHeld key := by
  cases e with
  | putRuleSet keep rs =>
    have hrs (hk : rs.key = key) : rs.isHeld = true := (h hk).2 hs
    cases keep with
    | true => exact Cluster.isHeld_keepRuleSet hrs hs
    | false => exact Cluster.isHeld_keepRuleSet (s := s.bump) hrs hs
  | putPod keep p => cases keep <;> exact hs
  | deleteRuleSet k => exact Cluster.isHeld_deleteRuleSet hp hs
  | deletePod k => exact hs
  | touchRuleSet k =>
    show (s.touchRuleSet k).IsHeld key
    cases hrs : s.ruleSets.get? k with
    | none =>
      rw [Cluster.touchRuleSet, hrs]
      exact hs
    | some rs =>
      obtain rfl := hw.ruleSet k rs hrs
      rw [Cluster.touchRuleSet_eq_keepRuleSet hrs]
      refine Cluster.isHeld_keepRuleSet (s := s.bump) (fun hk => ?_) hs
      -- Its next version carries what the stored one carries.
      obtain ⟨stored, hstored, hheld⟩ := hs
      rw [← hk, RuleSet.key_atVersion, hrs] at hstored
      cases hstored
      exact hheld
  | touchPod k =>
    have hruleSets : (s.touchPod k).ruleSets = s.ruleSets := by
      unfold Cluster.touchPod
      split <;> rfl
    show (s.touchPod k).IsHeld key
    rwa [Cluster.IsHeld, hruleSets]
  | fault method faults => exact hs

/-- A harmless edit leaves the records exact. -/
theorem Harmless.exact (hw : s.WellKeyed) (h : e.Harmless key s) (hx : s.Exact key) :
    (e.applied s).Exact key := by
  rcases h.permitted_or with hp | ⟨rfl, hfree⟩
  · refine ⟨fun n hn => ?_, fun n hn => ?_⟩
    · exact hx.recorded n ((unrecorded_applied hw hp).1 hn).1
    · exact isHeld_applied hw hp h (hx.held n (owns_of_owns_applied hw hp hn))
  · -- A rule set that is removed is not held, so no pod names it.
    exact Cluster.exact_of_not_owns fun n hn => hfree (hx.held n hn)

end Edit

/-! ## Passes -/

namespace Cluster

variable {τ : List Exchange} {res : Except Failure Outcome} {rs : RuleSet}
  {merged : PipelineResult}

section UpToDate

variable (hu : UpToDate key merged s rs)
include hu

theorem UpToDate.mem_targets (n : String) :
    n ∈ rs.recordedStatus.targets ↔ s.Selects key.namespaceName rs.spec.selector n := by
  obtain ⟨names, now, hnames, hstatus⟩ := hu.status
  have htargets : rs.recordedStatus.targets = names.toList :=
    congrArg RuleSetStatus.targets (RuleSetStatus.equalButTime_iff.1 hstatus)
  rw [htargets]
  exact hnames n

theorem UpToDate.ascending : rs.recordedStatus.targets.Pairwise (· < ·) := by
  obtain ⟨names, now, -, hstatus⟩ := hu.status
  have htargets : rs.recordedStatus.targets = names.toList :=
    congrArg RuleSetStatus.targets (RuleSetStatus.equalButTime_iff.1 hstatus)
  rw [htargets]
  exact names.ascending.imp fun hlt => compareOfLessAndEq_eq_lt.1 hlt

theorem UpToDate.generation :
    rs.recordedStatus.observedGeneration = rs.metadata.generation.getD 0 := by
  obtain ⟨names, now, -, hstatus⟩ := hu.status
  exact congrArg RuleSetStatus.observedGeneration (RuleSetStatus.equalButTime_iff.1 hstatus)

end UpToDate

/-- A pass over another rule set does not concern this one. -/
theorem Frames.exact {k : ObjectKey} (hk : key ≠ k) (h : Frames k s t) (hx : s.Exact key) :
    t.Exact key := by
  have hother : key.name ≠ k.name ∨ key.namespaceName ≠ k.namespaceName := by
    by_cases hname : key.name = k.name
    · refine Or.inr fun hns => hk ?_
      cases key
      cases k
      cases hname
      cases hns
      rfl
    · exact Or.inl hname
  have howns (n : String) : t.Owns key.name ⟨key.namespaceName, n⟩ ↔
      s.Owns key.name ⟨key.namespaceName, n⟩ := h.owns_iff _ _ hother
  have hget := h.get?_ruleSets key hk
  refine ⟨fun n hn => hx.recorded n ?_, fun n hn => ?_⟩
  · rw [Unrecorded, howns, recorded, hget] at hn
    exact hn
  · rw [IsHeld, hget]
    exact hx.held n ((howns n).1 hn)

/-- A pass on a store without faults leaves the records exact. -/
theorem FaultlessPass.exact (h : FaultlessPass key s τ t res) (hx : s.Exact key) :
    t.Exact key := by
  cases h with
  | idle why hn => exact hx
  | staleTarget rs held hrs ha ht hh hr hp hτ hn =>
    refine ⟨fun n hn => hx.recorded n ((unrecorded_congr hp ?_ n).1 hn), fun n _ => ⟨held, ht, hh⟩⟩
    rw [recorded_of_get? ht, recorded_of_get? hrs, hr]
  | deleted rs hrs ht hh hd hn =>
    -- What is not released was not recorded, and nothing was unrecorded.
    refine exact_of_not_owns fun n ho => ?_
    obtain ⟨hbefore, hkept⟩ := (hd.owns_iff _ _).1 ho
    refine hx.recorded n ⟨hbefore, fun hrec => hkept ⟨rfl, n, ?_, rfl⟩⟩
    rwa [recorded_of_get? hrs] at hrec
  | recorded rs stored evaluated stages targets completions o hrs ha he hu ho =>
    refine ⟨fun n hn => ?_, fun n _ => ⟨stored, hu.stored, hu.held⟩⟩
    have hsel := (ho n hn.1).resolve_right (hx.recorded n)
    refine hn.2 ?_
    rw [recorded_of_get? hu.stored]
    exact (hu.mem_targets n).2 hsel

/-- Where the records were exact, a faultless pass that evaluated its stages has converged. -/
theorem FaultlessPass.converged (h : FaultlessPass key s τ t res) (hx : s.Exact key)
    (he : ∃ x ∈ τ, x.call.evaluates = true) :
    (∃ o, res = .ok o) ∧ ∃ rs, Converged key t rs := by
  have hquiet (hn : ∀ x ∈ τ, x.call.evaluates = false) : False := by
    obtain ⟨x, hx, hev⟩ := he
    rw [hn x hx] at hev
    cases hev
  cases h with
  | idle why hn => exact (hquiet hn).elim
  | staleTarget rs held hrs ha ht hh hr hp hτ hn => exact (hquiet hn).elim
  | deleted rs hrs ht hh hd hn => exact (hquiet hn).elim
  | recorded rs stored evaluated stages targets completions o hrs ha he hu ho =>
    refine ⟨⟨o, rfl⟩, stored, hu.stored, hu.held, hu.ascending, hu.mem_targets, hu.generation,
      fun n => ?_⟩
    rw [hu.mem_targets]
    exact ⟨fun hn => (ho n hn).resolve_right (hx.recorded n), hu.owned n⟩

end Cluster

/-! ## Runs -/

/-- One step, be it a pass of any rule set or an edit, leaves the records exact. -/
theorem FaultlessStep.exact (hw : s.WellKeyed) (hx : s.Exact key) (h : FaultlessStep key s t) :
    t.WellKeyed ∧ t.Exact key := by
  cases h with
  | edit e he => exact ⟨e.wellKeyed_applied hw, he.exact hw hx⟩
  | pass settings k τ res h hs =>
    refine ⟨hs.wellKeyed hw, ?_⟩
    by_cases hk : key = k
    · subst hk
      exact (Cluster.faultlessPass_of_served hw h hs).exact hx
    · have hframe := Cluster.frames_reconcile Cluster.isNotFound_of_noFailure settings k
        s τ t res hw h hs
      exact hframe.exact hk hx

/-- The records are exact in every state of a run, by induction over its steps. -/
theorem exact_of_run (hw : s₀.WellKeyed) (hx : s₀.Exact key)
    (hrun : Relation.ReflTransGen (FaultlessStep key) s₀ s) : s.WellKeyed ∧ s.Exact key := by
  induction hrun with
  | refl => exact ⟨hw, hx⟩
  | tail _ hstep ih => exact hstep.exact ih.1 ih.2

/-- In a run without failures that starts where no pod names the rule set, the pods that name it are
recorded at all times, so none is left when it is gone. After every pass over it that ran the stages
its recorded targets are exactly the selected pods in ascending order, the generation is the one that
was seen, the finalizer is there, and exactly the recorded pods name it. -/
theorem ownership_converges (hw : s₀.WellKeyed)
    (h₀ : ∀ n, ¬ s₀.Owns key.name ⟨key.namespaceName, n⟩)
    (hrun : Relation.ReflTransGen (FaultlessStep key) s₀ s) :
    (∀ n, s.Owns key.name ⟨key.namespaceName, n⟩ → n ∈ s.recorded key) ∧
      (s.ruleSets.get? key = none → ∀ n, ¬ s.Owns key.name ⟨key.namespaceName, n⟩) ∧
      ∀ settings τ res t, (reconcile settings key).Ends τ res → Cluster.Serves noFailure s τ t →
        (∃ x ∈ τ, x.call.evaluates = true) →
        (∃ o, res = .ok o) ∧ ∃ rs, Cluster.Converged key t rs := by
  obtain ⟨hw', hx⟩ := exact_of_run hw (Cluster.exact_of_not_owns h₀) hrun
  refine ⟨fun n hn => ?_, fun hnone n hn => ?_, fun settings τ res t h hs he => ?_⟩
  · exact Classical.byContradiction fun hrec => hx.recorded n ⟨hn, hrec⟩
  · obtain ⟨rs, hrs, -⟩ := hx.held n hn
    cases hnone.symm.trans hrs
  · exact (Cluster.faultlessPass_of_served hw' h hs).converged hx he

namespace Converging

open Orphaning

def reports : List Completion := [⟨0, "a", some .empty⟩]

def record : RuleSetStatus := statusSnapshot (.ofList ["p"]) 0 [] [] default

def recorded : RuleSet := { held with status := some record }.atVersion "3"

def afterHold : Cluster := (start.replaceRuleSet ruleSet ruleSet.addFinalizer).2

def afterRecord : Cluster := (afterClaim.replaceStatus held { held with status := some record }).2

def claimingPass : List Exchange :=
  [⟨.store (.getRuleSet ⟨"ns", "r"⟩), .ok ruleSet⟩, ⟨.trust ⟨"ns", "r"⟩ "", true⟩,
    ⟨.store (.listTargets "ns" default), .ok [pod]⟩,
    ⟨.store (.getRuleSet ⟨"ns", "r"⟩), .ok ruleSet⟩,
    ⟨.store (.updateRuleSet ruleSet.addFinalizer), .ok held⟩,
    ⟨.trust ⟨"ns", "p"⟩ "", true⟩,
    ⟨.store (.getTarget ⟨"ns", "p"⟩), .ok pod⟩,
    ⟨.store (.updateTarget claimed), .ok (claimed.atVersion "2")⟩,
    ⟨.arm ⟨"ns", "p"⟩ "", ()⟩, ⟨.stages, ["a"]⟩,
    ⟨.evaluate ["a"] held [claimed.atVersion "2"], reports⟩, ⟨.now, default⟩,
    ⟨.arm ⟨"ns", "r"⟩ "1", ()⟩,
    ⟨.store (.updateStatus { held with status := some record }), .ok recorded⟩,
    ⟨.notify "ns" [] [], ()⟩]

theorem ends_claimingPass : (reconcile .standard ⟨"ns", "r"⟩).Ends claimingPass (.ok .done) :=
  .ask _ (.ask _ (.ask _ (.ask _ (.ask _ (.ask _ (.ask _ (.ask _ (.ask _ (.ask _ (.ask _ (.ask _
    (.ask _ (.ask _ (.ask _ (.done _)))))))))))))))

theorem serves_claimingPass : Cluster.Serves noFailure start claimingPass afterRecord := by
  refine .step (u := start) rfl (.aside ?_ (.step (u := start) rfl (.step (u := start) rfl
    (.step (u := afterHold) rfl (.aside ?_ (.step (u := afterHold) rfl
      (.step (u := afterClaim) rfl (.aside ?_ (.aside ?_ (.aside ?_ (.aside ?_ (.aside ?_
        (.step (u := afterRecord) rfl (.aside ?_ (.nil _)))))))))))))))
  all_goals
    rintro c ⟨⟩

def repeatingPass : List Exchange :=
  [⟨.store (.getRuleSet ⟨"ns", "r"⟩), .ok recorded⟩, ⟨.trust ⟨"ns", "r"⟩ "3", true⟩,
    ⟨.store (.listTargets "ns" default), .ok [claimed.atVersion "2"]⟩,
    ⟨.trust ⟨"ns", "p"⟩ "2", true⟩,
    ⟨.store (.getTarget ⟨"ns", "p"⟩), .ok (claimed.atVersion "2")⟩, ⟨.stages, ["a"]⟩,
    ⟨.evaluate ["a"] recorded [claimed.atVersion "2"], reports⟩, ⟨.now, default⟩,
    ⟨.notify "ns" [] [], ()⟩]

theorem ends_repeatingPass : (reconcile .standard ⟨"ns", "r"⟩).Ends repeatingPass (.ok .done) :=
  .ask _ (.ask _ (.ask _ (.ask _ (.ask _ (.ask _ (.ask _ (.ask _ (.ask _ (.done _)))))))))

theorem serves_repeatingPass : Cluster.Serves noFailure afterRecord repeatingPass afterRecord := by
  refine .step (u := afterRecord) rfl (.aside ?_ (.step (u := afterRecord) rfl (.aside ?_
    (.step (u := afterRecord) rfl (.aside ?_ (.aside ?_ (.aside ?_ (.aside ?_ (.nil _)))))))))
  all_goals
    rintro c ⟨⟩

theorem evaluates_repeatingPass : ∃ x ∈ repeatingPass, x.call.evaluates = true :=
  ⟨⟨.evaluate ["a"] recorded [claimed.atVersion "2"], reports⟩, by simp [repeatingPass], rfl⟩

end Converging

open Converging Orphaning in
theorem claimed_pod_is_recorded :
    ∃ rs, Cluster.Converged ⟨"ns", "r"⟩ afterRecord rs := by
  have hstep : FaultlessStep ⟨"ns", "r"⟩ start afterRecord :=
    .pass .standard _ claimingPass _ ends_claimingPass serves_claimingPass
  have hconverges := @ownership_converges ⟨"ns", "r"⟩ afterRecord start wellKeyed_start
    not_owns_start (.single hstep)
  exact (hconverges.2.2 .standard repeatingPass _ afterRecord ends_repeatingPass
    serves_repeatingPass evaluates_repeatingPass).2

end PodRules
