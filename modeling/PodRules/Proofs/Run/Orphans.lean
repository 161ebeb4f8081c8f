import PodRules.Cluster.Faults
import PodRules.Proofs.Pass.Accounts

/-!
Runs of passes of one rule set, with edits of other writers between them. The finalizer comes off
once the recorded targets are released, so a pod that was claimed but never recorded keeps an owner
that is gone. Main statement: a removal of the finalizer leaves no such pod exactly when every
claim that a failed pass left open was settled by a later step
(`finalizer_removed_without_orphans_iff`).
-/

namespace PodRules

def Edit.applied (e : Edit) (s : Cluster) : Cluster := ((⟨s, []⟩ : FaultyCluster).edit e).cluster

/-- Edits of other writers: they neither name the rule set in a pod, nor take its name from one, nor
change the recorded targets, nor remove the rule set. -/
def Edit.Permitted (key : ObjectKey) (s : Cluster) : Edit → Prop
  | .putRuleSet _ rs => rs.key = key → rs.recordedStatus.targets = s.recorded key
  | .putPod _ p =>
    p.key.namespaceName = key.namespaceName → (key.name ∈ p.owners ↔ s.Owns key.name p.key)
  | .deleteRuleSet k => k ≠ key
  | _ => True

inductive RunStep where
  | edit (edit : Edit)
  | pass (trace : List Exchange) (res : Except Failure Outcome)

namespace RunStep

/-- During a pass calls may fail, though not with an absence that is none, and nobody else
writes. -/
inductive Takes (settings : Settings) (key : ObjectKey) : RunStep → Cluster → Cluster → Prop
  | edit {s : Cluster} (e : Edit) (hp : e.Permitted key s) :
      Takes settings key (.edit e) s (e.applied s)
  | pass {s t : Cluster} {τ : List Exchange} {res : Except Failure Outcome}
      (h : (reconcile settings key).Ends τ res)
      (hs : Cluster.Serves (fun e => e.isNotFound = false) s τ t) :
      Takes settings key (.pass τ res) s t

def LeavesOpen (key : ObjectKey) (n : String) : RunStep → Prop
  | .edit _ => False
  | .pass τ res => PodRules.LeavesOpen key (recordAtStart τ) τ res n

def Settles (key : ObjectKey) (n : String) : RunStep → Prop
  | .edit e => e = .deletePod ⟨key.namespaceName, n⟩
  | .pass τ res => PodRules.Settles (listedNames τ) τ res n

end RunStep

inductive Runs (settings : Settings) (key : ObjectKey) (start : Cluster) :
    List RunStep → Cluster → Prop
  | start : Runs settings key start [] start
  | next {steps : List RunStep} {s t : Cluster} {st : RunStep} (h : Runs settings key start steps s)
      (hst : st.Takes settings key s t) : Runs settings key start (steps ++ [st]) t

def LeftOpen (key : ObjectKey) (steps : List RunStep) (n : String) : Prop :=
  ∃ pre st post, steps = pre ++ st :: post ∧ st.LeavesOpen key n ∧ ∀ x ∈ post, ¬ x.Settles key n

/-- A further step settles what was left open, or leaves something open itself. -/
theorem leftOpen_append_singleton {key : ObjectKey} {steps : List RunStep} {st : RunStep}
    {n : String} :
    LeftOpen key (steps ++ [st]) n ↔
      (LeftOpen key steps n ∧ ¬ st.Settles key n) ∨ st.LeavesOpen key n := by
  constructor
  · rintro ⟨pre, st', post, hsteps, ho, hno⟩
    -- Either the last step left the pod open, or an earlier one did and the last did not settle it.
    rcases List.eq_nil_or_concat post with rfl | ⟨post', last, rfl⟩
    · obtain ⟨rfl, he⟩ := List.append_inj' hsteps rfl
      cases he
      exact Or.inr ho
    · rw [List.concat_eq_append, ← List.cons_append, ← List.append_assoc] at hsteps
      obtain ⟨rfl, he⟩ := List.append_inj' hsteps rfl
      cases he
      rw [List.concat_eq_append] at hno
      exact Or.inl ⟨⟨pre, st', post', rfl, ho, fun x hx => hno x (by simp [hx])⟩,
        hno _ (by simp)⟩
  · rintro (⟨⟨pre, st', post, rfl, ho, hno⟩, hlast⟩ | ho)
    · refine ⟨pre, st', post ++ [st], by simp, ho, fun x hx => ?_⟩
      rcases List.mem_append.1 hx with hx | hx
      · exact hno x hx
      · rw [List.mem_singleton.1 hx]
        exact hlast
    · exact ⟨steps, st, [], rfl, ho, by simp⟩

/-! ## Edits of other writers -/

namespace Cluster

variable {s t : Cluster} {key : ObjectKey}

theorem owns_keepPod {p : Pod} {ruleSet : String} {k : ObjectKey} :
    (s.keepPod p).Owns ruleSet k ↔ if k = p.key then ruleSet ∈ p.owners else s.Owns ruleSet k := by
  have hget : (s.keepPod p).pods.get? k = if k = p.key then some p else s.pods.get? k :=
    SortedMap.get?_insert s.pods p.key k p
  unfold Owns
  rw [hget]
  split <;> simp

theorem owns_deletePod {ruleSet : String} {j k : ObjectKey} :
    (s.deletePod j).Owns ruleSet k ↔ s.Owns ruleSet k ∧ k ≠ j := by
  have hget : (s.deletePod j).pods.get? k = if k = j then none else s.pods.get? k :=
    SortedMap.get?_erase s.pods j k
  unfold Owns
  rw [hget]
  split
  next he => simp [he]
  next he => simp [he]

theorem recorded_keepRuleSet {rs : RuleSet} (key : ObjectKey) :
    (s.keepRuleSet rs).recorded key =
      if key = rs.key then rs.recordedStatus.targets else s.recorded key := by
  have hget : (s.keepRuleSet rs).ruleSets.get? key =
      if key = rs.key then some rs else s.ruleSets.get? key :=
    SortedMap.get?_insert s.ruleSets rs.key key rs
  rw [recorded, recorded, hget]
  split <;> rfl

theorem recorded_deleteRuleSet {k : ObjectKey} (h : k ≠ key) :
    (s.deleteRuleSet k).recorded key = s.recorded key := by
  have hget : (s.deleteRuleSet k).ruleSets.get? key =
      if key = k then none else s.ruleSets.get? key :=
    SortedMap.get?_erase s.ruleSets k key
  rw [recorded, recorded, hget, if_neg (Ne.symm h)]

/-- Touching a rule set stores it again with a new version. -/
theorem touchRuleSet_eq_keepRuleSet {rs : RuleSet} (h : s.ruleSets.get? rs.key = some rs) :
    s.touchRuleSet rs.key = s.bump.keepRuleSet (rs.atVersion s.nextVersion) := by
  simp only [touchRuleSet, h]
  rfl

theorem touchPod_eq_keepPod {p : Pod} (h : s.pods.get? p.key = some p) :
    s.touchPod p.key = s.bump.keepPod (p.atVersion s.nextVersion) := by
  simp only [touchPod, h]
  rfl

end Cluster

variable {settings : Settings} {key : ObjectKey} {s s₀ t : Cluster} {steps : List RunStep}

theorem Edit.wellKeyed_applied (e : Edit) (hw : s.WellKeyed) : (e.applied s).WellKeyed := by
  cases e with
  | putRuleSet keep rs =>
    cases keep with
    | true => exact hw.keepRuleSet rs
    | false => exact hw.bump.keepRuleSet _
  | putPod keep p =>
    cases keep with
    | true => exact hw.keepPod p
    | false => exact hw.bump.keepPod _
  | deleteRuleSet k => exact hw.deleteRuleSet k
  | deletePod k => exact hw.deletePod k
  | touchRuleSet k =>
    show (s.touchRuleSet k).WellKeyed
    cases hrs : s.ruleSets.get? k with
    | none =>
      rw [Cluster.touchRuleSet, hrs]
      exact hw.bump
    | some rs =>
      obtain rfl := hw.ruleSet k rs hrs
      rw [Cluster.touchRuleSet_eq_keepRuleSet hrs]
      exact hw.bump.keepRuleSet _
  | touchPod k =>
    show (s.touchPod k).WellKeyed
    cases hp : s.pods.get? k with
    | none =>
      rw [Cluster.touchPod, hp]
      exact hw.bump
    | some p =>
      obtain rfl := hw.pod k p hp
      rw [Cluster.touchPod_eq_keepPod hp]
      exact hw.bump.keepPod _
  | fault method faults => exact hw

section Kept

variable {e : Edit} {n : String}

/-- A rule set stored with the same record leaves the unrecorded pods as they are. -/
theorem Cluster.unrecorded_keepRuleSet {rs : RuleSet}
    (h : rs.key = key → rs.recordedStatus.targets = s.recorded key) :
    (s.keepRuleSet rs).Unrecorded key n ↔ s.Unrecorded key n := by
  refine unrecorded_congr (s := s) (t := s.keepRuleSet rs) rfl ?_ n
  rw [recorded_keepRuleSet]
  split
  next he => exact h he.symm
  next => rfl

theorem Cluster.unrecorded_keepPod {p : Pod} (h : p.key.namespaceName = key.namespaceName →
    (key.name ∈ p.owners ↔ s.Owns key.name p.key)) :
    (s.keepPod p).Unrecorded key n ↔ s.Unrecorded key n := by
  have howns : (s.keepPod p).Owns key.name ⟨key.namespaceName, n⟩ ↔
      s.Owns key.name ⟨key.namespaceName, n⟩ := by
    rw [owns_keepPod]
    split
    next he =>
      rw [he]
      exact h (congrArg ObjectKey.namespaceName he).symm
    next => rfl
  exact and_congr_left' howns

/-- An edit settles the pod that it removes, and changes nothing about the others. -/
theorem Edit.unrecorded_applied (hw : s.WellKeyed) (hp : e.Permitted key s) :
    (e.applied s).Unrecorded key n ↔
      s.Unrecorded key n ∧ e ≠ .deletePod ⟨key.namespaceName, n⟩ := by
  have hkept (he : ∀ k, e ≠ .deletePod k)
      (h : (e.applied s).Unrecorded key n ↔ s.Unrecorded key n) :
      (e.applied s).Unrecorded key n ↔
        s.Unrecorded key n ∧ e ≠ .deletePod ⟨key.namespaceName, n⟩ := by
    rw [h]
    exact (and_iff_left (he _)).symm
  cases e with
  | putRuleSet keep rs =>
    -- Its record is the stored one, which is what the edit is permitted for.
    refine hkept (by rintro k ⟨⟩) ?_
    cases keep with
    | true => exact Cluster.unrecorded_keepRuleSet hp
    | false => exact Cluster.unrecorded_keepRuleSet (s := s.bump) hp
  | putPod keep p =>
    refine hkept (by rintro k ⟨⟩) ?_
    cases keep with
    | true => exact Cluster.unrecorded_keepPod hp
    | false => exact Cluster.unrecorded_keepPod (s := s.bump) hp
  | deleteRuleSet k =>
    refine hkept (by rintro k ⟨⟩) ?_
    exact Cluster.unrecorded_congr (s := s) (t := s.deleteRuleSet k) rfl
      (Cluster.recorded_deleteRuleSet hp) n
  | deletePod k =>
    show (s.deletePod k).Unrecorded key n ↔ _
    have hne : Edit.deletePod k ≠ .deletePod ⟨key.namespaceName, n⟩ ↔
        (⟨key.namespaceName, n⟩ : ObjectKey) ≠ k := by
      simp [eq_comm]
    rw [hne, Cluster.Unrecorded, Cluster.owns_deletePod, Cluster.Unrecorded, and_right_comm]
    rfl
  | touchRuleSet k =>
    refine hkept (by rintro k ⟨⟩) ?_
    show (s.touchRuleSet k).Unrecorded key n ↔ _
    cases hrs : s.ruleSets.get? k with
    | none =>
      rw [Cluster.touchRuleSet, hrs]
      rfl
    | some rs =>
      obtain rfl := hw.ruleSet k rs hrs
      rw [Cluster.touchRuleSet_eq_keepRuleSet hrs]
      refine Cluster.unrecorded_keepRuleSet (s := s.bump) fun he => ?_
      rw [← he]
      exact (Cluster.recorded_of_get? hrs).symm
  | touchPod k =>
    refine hkept (by rintro k ⟨⟩) ?_
    show (s.touchPod k).Unrecorded key n ↔ _
    cases hpod : s.pods.get? k with
    | none =>
      rw [Cluster.touchPod, hpod]
      rfl
    | some p =>
      obtain rfl := hw.pod k p hpod
      rw [Cluster.touchPod_eq_keepPod hpod]
      exact Cluster.unrecorded_keepPod (s := s.bump) fun _ =>
        (Cluster.owns_of_get? hpod key.name).symm
  | fault method faults => exact hkept (by rintro k ⟨⟩) Iff.rfl

end Kept

/-- One step: what was unrecorded stays so unless it is settled, and what is left open is added. -/
theorem RunStep.Takes.unrecorded_iff {st : RunStep} (hw : s.WellKeyed)
    (h : st.Takes settings key s t) (n : String) :
    t.Unrecorded key n ↔ (s.Unrecorded key n ∧ ¬ st.Settles key n) ∨ st.LeavesOpen key n := by
  cases h with
  | edit e hp =>
    rw [Edit.unrecorded_applied hw hp]
    exact (or_iff_left id).symm
  | pass h hs =>
    exact (Cluster.accounts_reconcile (fun _ he => he) hw h hs).unrecorded_iff n

theorem RunStep.Takes.wellKeyed {st : RunStep} (hw : s.WellKeyed)
    (h : st.Takes settings key s t) : t.WellKeyed := by
  cases h with
  | edit e _ => exact e.wellKeyed_applied hw
  | pass _ hs => exact hs.wellKeyed hw

/-- After a run exactly the pods that were left open are unrecorded. -/
theorem Runs.unrecorded_iff (hw : s₀.WellKeyed) (h₀ : ∀ n, ¬ s₀.Unrecorded key n)
    (h : Runs settings key s₀ steps s) :
    s.WellKeyed ∧ ∀ n, s.Unrecorded key n ↔ LeftOpen key steps n := by
  -- On the run; that every object lies under its key is kept along with it.
  induction h with
  | start =>
    refine ⟨hw, fun n => iff_of_false (h₀ n) ?_⟩
    rintro ⟨pre, st, post, hsteps, -⟩
    simp at hsteps
  | next _ hst ih =>
    obtain ⟨hw', hiff⟩ := ih
    refine ⟨hst.wellKeyed hw', fun n => ?_⟩
    rw [hst.unrecorded_iff hw' n, hiff n, leftOpen_append_singleton]

/-- When a pass takes the finalizer after a run in which no pod named the rule set at first, no pod
of the namespace names it any more exactly when every pod that some step left open was settled by a
later one. -/
theorem finalizer_removed_without_orphans_iff {τ : List Exchange}
    {res : Except Failure Outcome} (hw : s₀.WellKeyed)
    (h₀ : ∀ n, ¬ s₀.Owns key.name ⟨key.namespaceName, n⟩)
    (hrun : Runs settings key s₀ steps s) (hpass : (reconcile settings key).Ends τ res)
    (hserves : Cluster.Serves (fun e => e.isNotFound = false) s τ t)
    (htakes : TakesFinalizer (writes τ)) :
    (∀ n, ¬ t.Owns key.name ⟨key.namespaceName, n⟩) ↔
      ∀ pre st post, steps = pre ++ st :: post → ∀ n, st.LeavesOpen key n →
        ∃ x ∈ post, x.Settles key n := by
  obtain ⟨hw', hopen⟩ := hrun.unrecorded_iff hw fun n hn => h₀ n hn.1
  have howns := (Cluster.accounts_reconcile (fun _ he => he) hw' hpass hserves).owns_iff htakes
  -- With the finalizer goes the record: the unrecorded pods are the ones that keep their owner.
  constructor
  · intro hnone pre st post hsteps n ho
    refine Classical.byContradiction fun hno => hnone n ((howns n).2 ((hopen n).2 ?_))
    exact ⟨pre, st, post, hsteps, ho, fun x hx hset => hno ⟨x, hx, hset⟩⟩
  · intro hsettled n hn
    obtain ⟨pre, st, post, hsteps, ho, hno⟩ := (hopen n).1 ((howns n).1 hn)
    obtain ⟨x, hx, hset⟩ := hsettled pre st post hsteps n ho
    exact hno x hx hset

namespace Orphaning

def ruleSet : RuleSet where
  metadata := { (default : Metadata) with name := some "r", namespaceName := some "ns" }
  spec := default
  status := none

def pod : Pod where
  metadata := { (default : Metadata) with name := some "p", namespaceName := some "ns" }
  others := []

def start : Cluster := (Cluster.empty.keepRuleSet ruleSet).keepPod pod

def held : RuleSet := ruleSet.addFinalizer.atVersion "1"

def deleted : RuleSet :=
  { held with metadata := { held.metadata with
      deletionTimestamp := some default, labels := some (.ofList [(terminatingLabel, "true")]) } }

def claimed : Pod := pod.withOwners (.ofList ["r"])

def afterClaim : Cluster :=
  ((start.replaceRuleSet ruleSet ruleSet.addFinalizer).2.replacePod claimed).2

def failingPass : List Exchange :=
  [⟨.store (.getRuleSet ⟨"ns", "r"⟩), .ok ruleSet⟩, ⟨.trust ⟨"ns", "r"⟩ "", true⟩,
    ⟨.store (.listTargets "ns" default), .ok [pod]⟩,
    ⟨.store (.getRuleSet ⟨"ns", "r"⟩), .ok ruleSet⟩,
    ⟨.store (.updateRuleSet ruleSet.addFinalizer), .ok held⟩,
    ⟨.trust ⟨"ns", "p"⟩ "", true⟩,
    ⟨.store (.getTarget ⟨"ns", "p"⟩), .ok pod⟩,
    ⟨.store (.updateTarget claimed), .ok (claimed.atVersion "2")⟩,
    ⟨.arm ⟨"ns", "p"⟩ "", ()⟩, ⟨.stages, []⟩, ⟨.evaluate [] held [claimed.atVersion "2"], []⟩,
    ⟨.now, default⟩, ⟨.arm ⟨"ns", "r"⟩ "1", ()⟩,
    ⟨.store (.updateStatus { held with
      status := some (statusSnapshot (.ofList ["p"]) 0 [] [] default) }), .error (.transient "")⟩,
    ⟨.disarm ⟨"ns", "r"⟩, ()⟩]

theorem ends_failingPass : (reconcile .standard ⟨"ns", "r"⟩).Ends failingPass
    (.error (.store (.transient ""))) :=
  .ask _ (.ask _ (.ask _ (.ask _ (.ask _ (.ask _ (.ask _ (.ask _ (.ask _ (.ask _ (.ask _ (.ask _
    (.ask _ (.ask _ (.ask _ (.failed _)))))))))))))))

theorem serves_failingPass :
    Cluster.Serves (fun e => e.isNotFound = false) start failingPass afterClaim := by
  refine .answered (.aside ?_ (.answered (.answered (.answered (.aside ?_ (.answered (.answered
    (.aside ?_ (.aside ?_ (.aside ?_ (.aside ?_ (.aside ?_ (.failed _ rfl (.aside ?_
      (.nil _)))))))))))))))
  all_goals
    rintro c ⟨⟩

def marked : RuleSet := deleted.atVersion "3"

def deletingPass : List Exchange :=
  [⟨.store (.getRuleSet ⟨"ns", "r"⟩), .ok marked⟩, ⟨.trust ⟨"ns", "r"⟩ "3", true⟩,
    ⟨.store (.listTargets "ns" default), .ok [claimed.atVersion "2"]⟩,
    ⟨.store (.getRuleSet ⟨"ns", "r"⟩), .ok marked⟩,
    ⟨.store (.updateRuleSet marked.dropFinalizer), .ok (marked.dropFinalizer.atVersion "4")⟩]

def beforeDeletion : Cluster := (Edit.putRuleSet false deleted).applied afterClaim

def afterDeletion : Cluster := (beforeDeletion.replaceRuleSet marked marked.dropFinalizer).2

theorem ends_deletingPass : (reconcile .standard ⟨"ns", "r"⟩).Ends deletingPass (.ok .done) :=
  .ask _ (.ask _ (.ask _ (.ask _ (.ask _ (.done _)))))

theorem serves_deletingPass :
    Cluster.Serves (fun e => e.isNotFound = false) beforeDeletion deletingPass afterDeletion :=
  .answered (.aside (by rintro c ⟨⟩) (.answered (.answered (.answered (.nil _)))))

theorem owns_afterDeletion : afterDeletion.Owns "r" ⟨"ns", "p"⟩ := by
  refine ⟨claimed.atVersion "2", rfl, ?_⟩
  rw [Pod.owners_atVersion, claimed, Pod.owners_withOwners]
  simp

theorem wellKeyed_start : start.WellKeyed := (Cluster.wellKeyed_empty.keepRuleSet _).keepPod _

theorem not_owns_start (n : String) : ¬ start.Owns "r" ⟨"ns", n⟩ := by
  intro ho
  rw [start, Cluster.owns_keepPod] at ho
  split at ho
  · exact absurd ho (by decide)
  · obtain ⟨p, hp, -⟩ := ho
    cases hp

def history : List RunStep :=
  [.pass failingPass (.error (.store (.transient ""))), .edit (.putRuleSet false deleted)]

theorem runs_history : Runs .standard ⟨"ns", "r"⟩ start history beforeDeletion :=
  .next (.next .start (.pass ends_failingPass serves_failingPass)) (.edit _ fun _ => rfl)

theorem takesFinalizer_deletingPass : TakesFinalizer (writes deletingPass) :=
  ⟨marked.dropFinalizer, by simp [deletingPass, writes, Exchange.write?],
    RuleSet.isHeld_dropFinalizer marked⟩

end Orphaning

open Orphaning in
/-- A pass claims a pod and fails to record it; when the rule set is then deleted with force, the
pod keeps it as an owner. -/
theorem forced_deletion_orphans_unrecorded_pod :
    start.WellKeyed ∧ (∀ n, ¬ start.Owns "r" ⟨"ns", n⟩) ∧ start.recorded ⟨"ns", "r"⟩ = [] ∧
      Runs .standard ⟨"ns", "r"⟩ start history beforeDeletion ∧
      (reconcile .standard ⟨"ns", "r"⟩).Ends deletingPass (.ok .done) ∧
      Cluster.Serves (fun e => e.isNotFound = false) beforeDeletion deletingPass afterDeletion ∧
      TakesFinalizer (writes deletingPass) ∧ afterDeletion.Owns "r" ⟨"ns", "p"⟩ :=
  ⟨wellKeyed_start, not_owns_start, rfl, runs_history, ends_deletingPass, serves_deletingPass,
    takesFinalizer_deletingPass, owns_afterDeletion⟩

open Orphaning in
theorem unrecorded_pod_is_left_open :
    ¬ ∀ pre st post, history = pre ++ st :: post → ∀ n, st.LeavesOpen ⟨"ns", "r"⟩ n →
      ∃ x ∈ post, x.Settles ⟨"ns", "r"⟩ n := by
  intro hsettled
  have hiff := @finalizer_removed_without_orphans_iff .standard ⟨"ns", "r"⟩ beforeDeletion start
    afterDeletion history deletingPass _ wellKeyed_start not_owns_start runs_history
    ends_deletingPass serves_deletingPass takesFinalizer_deletingPass
  exact hiff.2 hsettled "p" owns_afterDeletion

end PodRules
