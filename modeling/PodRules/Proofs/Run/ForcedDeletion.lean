import PodRules.Proofs.Pass.Faultless
import PodRules.Proofs.Run.Orphans
import PodRules.Simulation.World

namespace PodRules

/-- A store without faults to come answers like the bare store. -/
theorem FaultyCluster.answer_of_faultless (s : Cluster) (c : StoreCall) :
    (⟨s, []⟩ : FaultyCluster).answer c = ((s.answer c).1, ⟨(s.answer c).2, []⟩) := by
  simp only [answer, takeFault, Fault.answer?]
  rfl

namespace World

variable {α : Type} {w : World}

/-- Without faults to inject, the world answers from the cluster. -/
theorem answer_of_faultless (hf : w.store.faults = []) (c : StoreCall) :
    (w.answer c).1 = (w.cluster.answer c).1 ∧
      (w.answer c).2.cluster = (w.cluster.answer c).2 ∧ (w.answer c).2.store.faults = [] := by
  have hanswer : w.store.answer c = ((w.cluster.answer c).1, ⟨(w.cluster.answer c).2, []⟩) := by
    rw [← FaultyCluster.answer_of_faultless, cluster, ← hf]
  simp only [answer, cluster, hanswer, and_self]

theorem store_withClock (w : World) (clock : Nat) : { w with clock }.store = w.store := rfl

/-- Only calls to the store reach the store. -/
theorem handle_of_aside {c : Call} (hc : ∀ d, c ≠ .store d) :
    (handle c w).2.store = w.store := by
  cases c with
  | store d => exact absurd rfl (hc d)
  | warn rs reason note =>
    simp only [handle]
    split <;> rfl
  | sleep span => exact store_withClock w (w.clock + span.waitMillis)
  | _ => rfl

theorem run_ask (w : World) (c : Call) (k : c.Reply → Pass α) :
    w.run (.ask c k) = (handle c w).2.run (k (handle c w).1) := rfl

/-- What happens in surroundings without faults to come is one of the traces that a store serves
without a failure. -/
theorem exists_served_trace (p : Pass α) (hf : w.store.faults = []) :
    ∃ τ, p.Ends τ (w.run p).1 ∧ Cluster.Serves noFailure w.cluster τ (w.run p).2.cluster := by
  induction p generalizing w with
  | done v => exact ⟨[], .done v, .nil _⟩
  | failed e => exact ⟨[], .failed e, .nil _⟩
  | ask c k ih =>
    by_cases hc : ∃ d, c = .store d
    · obtain ⟨d, rfl⟩ := hc
      obtain ⟨hreply, hcluster, hfaults⟩ := answer_of_faultless hf d
      obtain ⟨τ, hends, hserves⟩ := ih (w.answer d).1 hfaults
      rw [hcluster] at hserves
      rw [run_ask]
      exact ⟨_, .ask _ hends, Cluster.serves_store_iff.2 (Or.inl ⟨hreply, hserves⟩)⟩
    · have haside (d : StoreCall) (hd : c = .store d) : False := hc ⟨d, hd⟩
      have hstore := handle_of_aside (w := w) haside
      have hfaults : (handle c w).2.store.faults = [] := by rw [hstore, hf]
      have hcluster : (handle c w).2.cluster = w.cluster := congrArg FaultyCluster.cluster hstore
      obtain ⟨τ, hends, hserves⟩ := ih (handle c w).1 hfaults
      rw [hcluster] at hserves
      rw [run_ask]
      exact ⟨_, .ask _ hends, .aside haside hserves⟩

variable {key : ObjectKey} {rs : RuleSet}

/-- A pass over a stored rule set without a pending write comes to reading its selector. -/
theorem run_reconcile (settings : Settings) (hf : w.store.faults = []) (hp : w.guard.pending.get? key = none)
    (hrs : w.cluster.ruleSets.get? key = some rs) :
    ∃ w' : World, w'.cluster = w.cluster ∧ w'.store.faults = [] ∧
      w.run (reconcile settings key) = w'.run (match rs.spec.selector.query? with
        | .error e => .failed (.invalidSelector key e)
        | .ok _ => (Pass.storeOrFail (.listTargets key.namespaceName rs.spec.selector)).bind
          fun selected => afterListing settings key rs selected) := by
  obtain ⟨hreply, hcluster, hfaults⟩ := answer_of_faultless hf (.getRuleSet key)
  rw [Cluster.answer_getRuleSet hrs] at hreply hcluster
  have hguard : (w.answer (.getRuleSet key)).2.guard = w.guard := rfl
  have htrust : handle (.trust key rs.version) (w.answer (.getRuleSet key)).2 =
      (true, (w.answer (.getRuleSet key)).2) := by
    simp only [handle, hguard, Expectations.trust, hp]
    rfl
  refine ⟨(w.answer (.getRuleSet key)).2, hcluster, hfaults, ?_⟩
  rw [reconcile, run_ask]
  show World.run (w.answer (.getRuleSet key)).2 _ = _
  rw [show (handle (.store (.getRuleSet key)) w).1 = .ok rs from hreply]
  dsimp only
  rw [run_ask, htrust]
  rfl

end World

def RuleSet.otherFinalizers (rs : RuleSet) : List String :=
  rs.metadata.finalizerList.filter (· ≠ cleanupFinalizer)

theorem RuleSet.finalizerList_dropFinalizer (rs : RuleSet) :
    rs.dropFinalizer.metadata.finalizerList = rs.otherFinalizers := by
  unfold RuleSet.otherFinalizers RuleSet.dropFinalizer Metadata.finalizerList
  cases rs.metadata.finalizers <;> rfl

/-- Every recorded target that exists has lost the rule set from its owners, and nothing else but
its version. The rule set has lost the cleanup finalizer; it is gone unless others hold it. -/
structure DeletionCompleted (key : ObjectKey) (rs : RuleSet) (s t : Cluster) : Prop where
  released : ∀ n ∈ rs.recordedStatus.targets, ∀ p,
    s.pods.get? ⟨key.namespaceName, n⟩ = some p →
    ∃ q, t.pods.get? ⟨key.namespaceName, n⟩ = some q ∧ q.bare = p.bare ∧
      q.owners = p.owners.erase key.name
  gone : rs.otherFinalizers = [] → t.ruleSets.get? key = none
  held : rs.otherFinalizers ≠ [] → ∃ stored, t.ruleSets.get? key = some stored ∧
    stored.metadata.finalizerList = rs.otherFinalizers ∧ stored.spec = rs.spec ∧
    stored.status = rs.status

section

variable {key : ObjectKey} {rs : RuleSet} {settings : Settings} {w : World}

/-- A deletion that is done is complete when the rule set is terminating. -/
theorem Cluster.DeletionDone.completed {s t : Cluster} (h : DeletionDone key rs s t)
    (ht : rs.isTerminating = true) : DeletionCompleted key rs s t := by
  have hfinished : rs.dropFinalizer.metadata.isFinished = rs.otherFinalizers.isEmpty := by
    show (rs.isTerminating && rs.dropFinalizer.metadata.finalizerList.isEmpty) = _
    rw [ht, Bool.true_and, RuleSet.finalizerList_dropFinalizer]
  obtain ⟨v, hv⟩ := h.ruleSet
  rw [hfinished] at hv
  refine ⟨fun n hn p hp => ?_, fun hnone => ?_, fun hsome => ?_⟩
  · obtain ⟨q, hq, hbare⟩ := h.samePods.exists_get? hp
    refine ⟨q, hq, hbare, ?_⟩
    ext r
    have howns := h.owns_iff r ⟨key.namespaceName, n⟩
    rw [owns_of_get? hq, owns_of_get? hp] at howns
    rw [howns, SortedSet.mem_erase]
    -- The pod is recorded, so only the name of the owner decides.
    have hrecorded : (r = key.name ∧ ∃ m ∈ rs.recordedStatus.targets,
        (⟨key.namespaceName, n⟩ : ObjectKey) = ⟨key.namespaceName, m⟩) ↔ r = key.name :=
      and_iff_left ⟨n, hn, rfl⟩
    rw [hrecorded]
  · rw [hv, hnone]
    rfl
  · have hempty : rs.otherFinalizers.isEmpty = false := by simpa using hsome
    rw [hempty] at hv
    exact ⟨_, hv, rs.finalizerList_dropFinalizer, rfl, rfl⟩

/-- A forced deletion passes the gate whatever runs. -/
theorem RuleSet.deletionVerdict_of_isForced (ht : rs.isTerminating = true)
    (hforced : rs.isForced = true) (selected : List Pod) :
    rs.deletionVerdict selected = .ready := by
  simp [RuleSet.deletionVerdict, ht, hforced]

/-- From its listing on nothing stops a forced deletion; what is listed does not matter. -/
theorem Cluster.deletionCompleted_of_served {s t : Cluster} {τ : List Exchange}
    {res : Except Failure Outcome} (hw : s.WellKeyed) (hrs : s.ruleSets.get? key = some rs)
    (ht : rs.isTerminating = true) (hh : rs.isHeld = true) (hforced : rs.isForced = true)
    (h : ((Pass.storeOrFail (.listTargets key.namespaceName rs.spec.selector)).bind
      fun selected => afterListing settings key rs selected).Ends τ res)
    (hs : Serves noFailure s τ t) :
    (∃ o, res = .ok o) ∧ DeletionCompleted key rs s t := by
  obtain ⟨r, rest, rfl, h₁⟩ := Pass.ends_ask_iff.1 h
  obtain ⟨hr | ⟨e, he, -⟩, hs₁⟩ := serves_listTargets hs
  · subst hr
    change (afterListing settings key rs _).Ends rest res at h₁
    rw [afterListing, RuleSet.deletionVerdict_of_isForced ht hforced] at h₁
    dsimp only at h₁
    rw [if_pos hh] at h₁
    have hkey := hw.ruleSet _ _ hrs
    rcases serves_bind h₁ hs₁ with ⟨e, he, -⟩ | ⟨⟨⟩, τ₁, τ₂, u, rfl, h₂, hs₂, h₃, hs₃⟩
    · cases (deletionDone_of_served hw hrs hkey hh he hs₁).1
    obtain ⟨rfl, rfl⟩ := Pass.ends_done_iff.1 h₃
    obtain rfl := serves_nil_iff.1 hs₃
    obtain ⟨-, hdone⟩ := deletionDone_of_served hw hrs hkey hh h₂ hs₂
    exact ⟨⟨_, rfl⟩, hdone.completed ht⟩
  · exact he.elim

/-- Without failures and without a pending write, a pass over a rule set whose deletion is forced
ends well and completes the deletion exactly when the selector denotes a query. Else it fails and
leaves everything as it was. -/
theorem forced_deletion_completes_iff (hw : w.cluster.WellKeyed) (hf : w.store.faults = [])
    (hp : w.guard.pending.get? key = none) (hrs : w.cluster.ruleSets.get? key = some rs)
    (ht : rs.isTerminating = true) (hh : rs.isHeld = true) (hforced : rs.isForced = true) :
    (((∃ o, (w.run (reconcile settings key)).1 = .ok o) ∧
        DeletionCompleted key rs w.cluster (w.run (reconcile settings key)).2.cluster) ↔
      ∃ q, rs.spec.selector.query? = .ok q) ∧
      ∀ e, rs.spec.selector.query? = .error e →
        (w.run (reconcile settings key)).1 = .error (.invalidSelector key e) ∧
          (w.run (reconcile settings key)).2.cluster = w.cluster := by
  obtain ⟨w', hcluster, hfaults, hrun⟩ := World.run_reconcile settings hf hp hrs
  rw [hrun]
  cases hq : rs.spec.selector.query? with
  | error e =>
    have hfails : w'.run (.failed (.invalidSelector key e) : Pass Outcome) =
      (.error (.invalidSelector key e), w') := rfl
    dsimp only
    rw [hfails]
    refine ⟨⟨?_, ?_⟩, ?_⟩
    · rintro ⟨⟨o, ho⟩, -⟩
      cases ho
    · rintro ⟨q, hok⟩
      cases hok
    · rintro e' ⟨⟩
      exact ⟨rfl, hcluster⟩
  | ok q =>
    dsimp only
    obtain ⟨τ, hends, hserves⟩ := World.exists_served_trace
      ((Pass.storeOrFail (.listTargets key.namespaceName rs.spec.selector)).bind
        fun selected => afterListing settings key rs selected) hfaults
    rw [hcluster] at hserves
    have hcompleted := Cluster.deletionCompleted_of_served hw hrs ht hh hforced hends hserves
    refine ⟨iff_of_true hcompleted ⟨q, rfl⟩, ?_⟩
    rintro e ⟨⟩

end

namespace Forcing

open Orphaning

def unknown : LabelSelector := ⟨none, some [⟨"tier", "Between", none⟩]⟩

def ruleSet (selector : LabelSelector) : RuleSet :=
  { deleted with spec := ⟨selector, []⟩, status := some ⟨["p"], 0, [], [], none⟩ }

def cluster (selector : LabelSelector) : Cluster :=
  (Cluster.empty.keepRuleSet (ruleSet selector)).keepPod claimed

def world (selector : LabelSelector) : World :=
  { World.initial default 0 false default with store := ⟨cluster selector, []⟩ }

theorem wellKeyed_cluster (selector : LabelSelector) : (world selector).cluster.WellKeyed :=
  (Cluster.wellKeyed_empty.keepRuleSet _).keepPod _

theorem get?_ruleSet (selector : LabelSelector) :
    (world selector).cluster.ruleSets.get? ⟨"ns", "r"⟩ = some (ruleSet selector) := by
  show (Cluster.empty.ruleSets.insert ⟨"ns", "r"⟩ (ruleSet selector)).get? ⟨"ns", "r"⟩ = _
  rw [SortedMap.get?_insert, if_pos rfl]

theorem owns_cluster (selector : LabelSelector) :
    (world selector).cluster.Owns "r" ⟨"ns", "p"⟩ := by
  refine ⟨claimed, rfl, ?_⟩
  rw [claimed, Pod.owners_withOwners]
  simp

end Forcing

open Forcing in
/-- The selector of a rule set names an unknown operator; its deletion with force fails and leaves
the pod to it that it recorded. -/
theorem unknown_operator_stops_forced_deletion :
    ((world unknown).cluster.WellKeyed ∧ (world unknown).store.faults = [] ∧
      (world unknown).guard.pending.get? ⟨"ns", "r"⟩ = none ∧
      (world unknown).cluster.ruleSets.get? ⟨"ns", "r"⟩ = some (ruleSet unknown) ∧
      (ruleSet unknown).isTerminating = true ∧ (ruleSet unknown).isHeld = true ∧
      (ruleSet unknown).isForced = true ∧ "p" ∈ (ruleSet unknown).recordedStatus.targets) ∧
    ((world unknown).run (reconcile .standard ⟨"ns", "r"⟩)).1 =
        .error (.invalidSelector ⟨"ns", "r"⟩ (.unknownOperator "tier" "Between")) ∧
      ((world unknown).run (reconcile .standard ⟨"ns", "r"⟩)).2.cluster.Owns "r" ⟨"ns", "p"⟩ ∧
      ((world unknown).run (reconcile .standard ⟨"ns", "r"⟩)).2.cluster.ruleSets.get?
        ⟨"ns", "r"⟩ = some (ruleSet unknown) := by
  refine ⟨⟨wellKeyed_cluster _, rfl, rfl, get?_ruleSet _, rfl, rfl, rfl, by decide⟩, ?_⟩
  obtain ⟨w, hcluster, -, hrun⟩ :=
    World.run_reconcile .standard (w := world unknown) rfl rfl (get?_ruleSet unknown)
  have hfails : (world unknown).run (reconcile .standard ⟨"ns", "r"⟩) =
      (.error (.invalidSelector ⟨"ns", "r"⟩ (.unknownOperator "tier" "Between")), w) := hrun
  rw [hfails]
  dsimp only
  rw [hcluster]
  exact ⟨rfl, owns_cluster unknown, get?_ruleSet unknown⟩

open Forcing in
theorem deletion_of_everything_completes :
    (∃ o, ((world .everything).run (reconcile .standard ⟨"ns", "r"⟩)).1 = .ok o) ∧
      DeletionCompleted ⟨"ns", "r"⟩ (ruleSet .everything) (world .everything).cluster
        ((world .everything).run (reconcile .standard ⟨"ns", "r"⟩)).2.cluster :=
  (@forced_deletion_completes_iff ⟨"ns", "r"⟩ (ruleSet .everything) .standard (world .everything)
    (wellKeyed_cluster _) rfl rfl (get?_ruleSet _) rfl rfl rfl).1.2 ⟨_, rfl⟩

end PodRules
