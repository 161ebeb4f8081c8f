import PodRules.Proofs.Run.DeletionPass

/-!
A deletion that shows only behind the first read of a pass. The pass looks for a deletion in its
first copy of the rule set alone; the loop that makes sure of the finalizer reads the rule set again
and takes it as it comes. Main statement: whatever other writers do, a pass keeps off the pipeline
from the first read on that shows the deletion, exactly when its first copy is being deleted already
or has the finalizer, or its selector denotes no query (`deletion_excludes_pipeline_iff`).
-/

namespace PodRules

def Call.concernsRuleSet : Call → Bool
  | .store (.getRuleSet _) => true
  | .store (.updateRuleSet _) => true
  | _ => false

def Exchange.showsDeletion : Exchange → Bool
  | ⟨.store (.getRuleSet _), .ok rs⟩ => rs.isTerminating
  | _ => false

/-- Behind a read that shows the deletion nothing goes on with the work of the rule set. -/
def RespectsDeletion (ruleSet : String) (τ : List Exchange) : Prop :=
  τ.Pairwise fun x y => x.showsDeletion = true → y.call.pursues ruleSet = false

/-- A whole pass among other writers of the store, with the rule set that it read first. -/
structure SharedPass (settings : Settings) (key : ObjectKey) (rs : RuleSet) (s : Cluster)
    (log : List Event) (t : Cluster) (res : Except Failure Outcome) : Prop where
  leads : Leads s log t
  ends : (reconcile settings key).Ends (exchangesOf 0 log) res
  first : (exchangesOf 0 log).head? = some ⟨.store (.getRuleSet key), .ok rs⟩

section

variable {settings : Settings} {b : RetryBackoff} {key : ObjectKey} {rs : RuleSet}
  {s t u : Cluster} {log : List Event} {τ : List Exchange} {res : Except Failure Outcome}

/-- The first exchange of a pass is the first read. -/
theorem SharedPass.exists_eq_cons (h : SharedPass settings key rs s log t res) :
    ∃ τ, exchangesOf 0 log = ⟨.store (.getRuleSet key), .ok rs⟩ :: τ :=
  List.head?_eq_some_iff.1 h.first

/-! ## Passes that keep off -/

theorem Exchange.concernsRuleSet_of_showsDeletion {x : Exchange} (h : x.showsDeletion = true) :
    x.call.concernsRuleSet = true := by
  obtain ⟨c, r⟩ := x
  cases c with
  | store c => cases c <;> first | rfl | cases h
  | _ => cases h

theorem Call.concernsRuleSet_of_concernsTargets {c : Call} (h : c.concernsTargets = true) :
    c.concernsRuleSet = false := by
  cases c with
  | store c => cases c <;> first | rfl | cases h
  | _ => rfl

namespace Pass

/-- The work on the targets neither fetches nor updates the rule set. -/
theorem asks_processTargets (rs : RuleSet) (selected : List Pod) :
    (processTargets settings key rs selected).Asks fun c => c.concernsRuleSet = false := by
  have htrust : (trustedNames selected ∅).Asks fun c => c.concernsRuleSet = false := by
    refine Asks.mono (asks_trustedNames selected ∅) ?_
    rintro c ⟨k, v, rfl⟩
    rfl
  refine htrust.bind fun names => ?_
  cases names with
  | none => exact asks_done _
  | some names =>
    have hcarry := Asks.mono (asks_carryOut settings.retry key.namespaceName key.name
      (.ofSelection rs.recordedStatus.targets names))
      fun c hc => Call.concernsRuleSet_of_concernsTargets hc.1
    refine hcarry.bind fun targets => ?_
    refine asks_ask rfl fun stages => asks_ask rfl fun completions => asks_ask rfl fun now => ?_
    refine Asks.bind ?_ fun _ => asks_ask rfl fun _ => asks_done _
    exact asks_recordStatus rfl rfl rfl

end Pass

theorem respectsDeletion_of_not_pursues {ruleSet : String}
    (h : ∀ x ∈ τ, x.call.pursues ruleSet = false) : RespectsDeletion ruleSet τ :=
  List.pairwise_of_forall_mem_list fun _ _ y hy _ => h y hy

/-- Without another read than the first, that one alone can show a deletion. -/
theorem respectsDeletion_of_not_concernsRuleSet {ruleSet : String} {x : Exchange}
    (hx : x.showsDeletion = false) (h : ∀ y ∈ τ, y.call.concernsRuleSet = false) :
    RespectsDeletion ruleSet (x :: τ) := by
  refine List.pairwise_of_forall_mem_list fun y hy z _ hshows => ?_
  rcases List.mem_cons.1 hy with rfl | hy
  · rw [hx] at hshows
    cases hshows
  · have hread := Exchange.concernsRuleSet_of_showsDeletion hshows
    rw [h y hy] at hread
    cases hread

/-- An invalid selector ends the pass before the listing. -/
theorem ends_reconcile_of_invalidSelector {e : SelectorError}
    (he : rs.spec.selector.query? = .error e)
    (h : (reconcile settings key).Ends (⟨.store (.getRuleSet key), .ok rs⟩ :: τ) res) :
    ∃ trusted, τ = [⟨.trust key rs.version, trusted⟩] := by
  obtain ⟨reply, rest, hτ, h₁⟩ := Pass.ends_ask_iff.1 h
  cases hτ
  obtain ⟨trusted, rest, rfl, h₂⟩ := Pass.ends_ask_iff.1 h₁
  refine ⟨trusted, ?_⟩
  cases trusted with
  | false =>
    obtain ⟨rfl, -⟩ := Pass.ends_done_iff.1 h₂
    rfl
  | true =>
    simp only [if_true, he] at h₂
    obtain ⟨rfl, -⟩ := Pass.ends_failed_iff.1 h₂
    rfl

/-- A rule set that is not being deleted and has the finalizer is read once in a pass. -/
theorem not_concernsRuleSet_of_isHeld (ha : rs.isTerminating = false) (hh : rs.isHeld = true)
    (h : (reconcile settings key).Ends (⟨.store (.getRuleSet key), .ok rs⟩ :: τ) res) :
    ∀ x ∈ τ, x.call.concernsRuleSet = false := by
  cases ends_reconcile h with
  | stale _ => simp [Call.concernsRuleSet]
  | invalid _ e he => simp [Call.concernsRuleSet]
  | unlisted _ e => simp [Call.concernsRuleSet]
  | listed _ selected h₁ =>
    cases ends_afterListing h₁ with
    | active _ h₂ =>
      -- The loop that would read the rule set again has nothing to do.
      have hhold : holdRuleSet settings.retry rs = .done rs := if_pos hh
      rw [hhold] at h₂
      have hquiet := Pass.asks_processTargets rs selected _ _ h₂
      simpa [Call.concernsRuleSet] using hquiet
    | free ht _ =>
      rw [ha] at ht
      cases ht
    | deleting ht _ _ _ =>
      rw [ha] at ht
      cases ht
    | waiting running _ hv =>
      rw [RuleSet.deletionVerdict_eq_active.2 ha] at hv
      cases hv

/-- When the first copy settles whether a pass goes on, nothing that is read later matters. -/
theorem respectsDeletion_of_first (hkey : rs.key = key)
    (h : (reconcile settings key).Ends (⟨.store (.getRuleSet key), .ok rs⟩ :: τ) res)
    (hfirst : rs.isTerminating = true ∨ rs.isHeld = true ∨
      ∃ e, rs.spec.selector.query? = .error e) :
    RespectsDeletion key.name (⟨.store (.getRuleSet key), .ok rs⟩ :: τ) := by
  cases ht : rs.isTerminating with
  | true =>
    -- A deletion that shows at once leaves nothing to go on with.
    refine respectsDeletion_of_not_pursues fun x hx => ?_
    rw [← hkey]
    exact ((onlyReleases_of_reconcile ht h).idle x hx).1
  | false =>
    refine respectsDeletion_of_not_concernsRuleSet ht ?_
    rcases hfirst with hterm | hh | ⟨e, he⟩
    · rw [ht] at hterm
      cases hterm
    · exact not_concernsRuleSet_of_isHeld ht hh h
    · obtain ⟨trusted, rfl⟩ := ends_reconcile_of_invalidSelector he h
      simp [Call.concernsRuleSet]

/-! ## Other writers between the calls of a pass -/

namespace Pass

variable {α β : Type} {p q r : Pass α}

theorem Reaches.append {σ : List Exchange} (h₁ : p.Reaches τ q) (h₂ : q.Reaches σ r) :
    p.Reaches (τ ++ σ) r := by
  induction h₁ with
  | here p => exact h₂
  | ask reply _ ih => exact .ask reply (ih h₂)

/-- In the worst case every call of the store fails, which ends a pass and leaves the store as it
was. -/
theorem exists_failing_log (q : Pass α) (s : Cluster) :
    ∃ log res, Leads s log s ∧ q.Ends (exchangesOf 0 log) res := by
  -- On the pass, with the worst reply to each call of the store and any reply to the others.
  induction q with
  | done v => exact ⟨[], .ok v, .nil s, .done v⟩
  | failed e => exact ⟨[], .error e, .nil s, .failed e⟩
  | ask c k ih =>
    obtain ⟨log, res, hleads, hends⟩ := ih c.anyReply
    have hserves : Cluster.Serves (fun _ => True) s [⟨c, c.anyReply⟩] s := by
      cases c with
      | store c => exact .failed _ trivial (.nil s)
      | _ => exact .aside (by rintro d ⟨⟩) (.nil s)
    exact ⟨_ :: log, res, .cons (.call 0 _ hserves) hleads, .ask _ hends⟩

/-- The loop that puts the finalizer on a rule set may get it done at once. -/
theorem reaches_holdRuleSet {f : RuleSet → Pass β} (hh : rs.isHeld = false)
    {stored next : RuleSet} (hs : stored.isHeld = false) :
    ((holdRuleSet b rs).bind f).Reaches
      [⟨.store (.getRuleSet rs.key), .ok stored⟩,
        ⟨.store (.updateRuleSet stored.addFinalizer), .ok next⟩] (f next) := by
  obtain ⟨left, hleft⟩ := exists_attempts_eq b
  rw [holdRuleSet, hh, Pass.retry, retryConflicts, hleft]
  refine .ask _ ?_
  simp only [hs]
  exact .ask _ (.here _)

end Pass

def rereadCopy (s : Cluster) (edited : RuleSet) : RuleSet := edited.atVersion s.nextVersion

def heldCopy (s : Cluster) (edited : RuleSet) : RuleSet × Cluster :=
  (s.putRuleSet edited).replaceRuleSet (rereadCopy s edited) (rereadCopy s edited).addFinalizer

def editedLog (key : ObjectKey) (s : Cluster) (rs edited : RuleSet) : List Event :=
  [⟨s, s, some (0, ⟨.store (.getRuleSet key), .ok rs⟩)⟩,
    ⟨s, s, some (0, ⟨.trust key rs.version, true⟩)⟩,
    ⟨s, s, some (0, ⟨.store (.listTargets key.namespaceName rs.spec.selector),
      .ok (s.list key.namespaceName rs.spec.selector)⟩)⟩,
    ⟨s, s.putRuleSet edited, none⟩,
    ⟨s.putRuleSet edited, s.putRuleSet edited,
      some (0, ⟨.store (.getRuleSet key), .ok (rereadCopy s edited)⟩)⟩,
    ⟨s.putRuleSet edited, (heldCopy s edited).2,
      some (0, ⟨.store (.updateRuleSet (rereadCopy s edited).addFinalizer),
        .ok (heldCopy s edited).1⟩)⟩]

theorem leads_editedLog {edited : RuleSet} (hrs : s.ruleSets.get? key = some rs)
    (hkey : edited.key = key) : Leads s (editedLog key s rs edited) (heldCopy s edited).2 := by
  subst hkey
  have hread : s.answer (.getRuleSet edited.key) = (.ok rs, s) := Cluster.answer_getRuleSet hrs
  have hlist : s.answer (.listTargets edited.key.namespaceName rs.spec.selector) =
      (.ok (s.list edited.key.namespaceName rs.spec.selector), s) := rfl
  have hstored : (s.putRuleSet edited).ruleSets.get? edited.key = some (rereadCopy s edited) :=
    (SortedMap.get?_insert _ _ _ _).trans (if_pos rfl)
  have hreread := Cluster.answer_getRuleSet hstored
  have hupdate : (s.putRuleSet edited).answer (.updateRuleSet (rereadCopy s edited).addFinalizer) =
      (.ok (heldCopy s edited).1, (heldCopy s edited).2) :=
    Cluster.answer_updateRuleSet hstored rfl
  exact .cons (.served hread) <| .cons (.aside (by rintro c ⟨⟩)) <| .cons (.served hlist) <|
    .cons (.edit (Cluster.advances_putRuleSet s edited)) <|
    .cons (.served hreread) <| .cons (.served hupdate) (.nil _)

/-- The first copy lets the pass go on, and nothing later is asked for a deletion. -/
theorem reaches_editedLog {edited : RuleSet} {q : String} (settings : Settings)
    (hq : rs.spec.selector.query? = .ok q) (ha : rs.isTerminating = false)
    (hh : rs.isHeld = false) (hkey : rs.key = key) (he : edited.isHeld = false) :
    (reconcile settings key).Reaches (exchangesOf 0 (editedLog key s rs edited))
      (processTargets settings key (heldCopy s edited).1
        (s.list key.namespaceName rs.spec.selector)) := by
  have hopen := Pass.reaches_afterListing settings key hq
    (s.list key.namespaceName rs.spec.selector)
  have hafter : afterListing settings key rs (s.list key.namespaceName rs.spec.selector) =
      (holdRuleSet settings.retry rs).bind fun held =>
        processTargets settings key held (s.list key.namespaceName rs.spec.selector) := by
    rw [afterListing, RuleSet.deletionVerdict_eq_active.2 ha]
  rw [hafter] at hopen
  subst hkey
  exact hopen.append (Pass.reaches_holdRuleSet hh he)

def RuleSet.marked (rs : RuleSet) : RuleSet :=
  { rs with metadata := { rs.metadata with
      deletionTimestamp := some default
      finalizers := some (rs.metadata.finalizerList ++ ["foregroundDeletion"]) } }

theorem RuleSet.isHeld_marked (rs : RuleSet) : rs.marked.isHeld = rs.isHeld := by
  simp [RuleSet.isHeld, RuleSet.carries, RuleSet.marked, Metadata.finalizerList, cleanupFinalizer]

/-- The update of the new copy comes right behind the read that shows the deletion. -/
theorem not_respectsDeletion_editedLog {edited : RuleSet} (ht : edited.isTerminating = true)
    (ruleSet : String) (rest : List Event) :
    ¬ RespectsDeletion ruleSet (exchangesOf 0 (editedLog key s rs edited ++ rest)) := by
  intro hrespects
  rw [exchangesOf_append] at hrespects
  -- The exchanges of the pass up to there are the first read, the trust in it, the listing, the
  -- second read and the update.
  have hpair := (List.pairwise_append.1 hrespects).1
  have hreread := (List.pairwise_cons.1 (List.pairwise_cons.1 (List.pairwise_cons.1 hpair).2).2).2
  have hlate := (List.pairwise_cons.1 hreread).1 _ (List.mem_singleton.2 rfl) ht
  rw [Call.pursues, RuleSet.isHeld_addFinalizer] at hlate
  cases hlate

/-- Another writer can make a pass put the finalizer on a rule set that is being deleted. -/
theorem exists_not_respectsDeletion {q : String} (settings : Settings) (hw : s.WellKeyed)
    (hrs : s.ruleSets.get? key = some rs) (hq : rs.spec.selector.query? = .ok q)
    (ha : rs.isTerminating = false) (hh : rs.isHeld = false) :
    ∃ log t res, SharedPass settings key rs s log t res ∧
      ¬ RespectsDeletion key.name (exchangesOf 0 log) := by
  have hkey : rs.key = key := hw.ruleSet key rs hrs
  have hmkey : rs.marked.key = key := hkey
  have hmarked : rs.marked.isHeld = false := by rw [rs.isHeld_marked, hh]
  have hreach := reaches_editedLog (s := s) settings hq ha hh hkey hmarked
  obtain ⟨rest, res, hrest, hends⟩ := Pass.exists_failing_log (processTargets settings key
    (heldCopy s rs.marked).1 (s.list key.namespaceName rs.spec.selector)) (heldCopy s rs.marked).2
  have hleads : Leads s (editedLog key s rs rs.marked ++ rest) (heldCopy s rs.marked).2 :=
    (leads_editedLog hrs hmkey).append hrest
  refine ⟨_, _, res, ⟨hleads, ?_, rfl⟩, not_respectsDeletion_editedLog rfl _ _⟩
  rw [exchangesOf_append]
  exact hreach.ends_append_iff.2 hends

/-- A pass keeps off the pipeline from the first read on that shows the deletion of its rule set,
whatever other writers do between its calls, exactly when the first copy is being deleted already or
has the finalizer, or the selector of it denotes no query. -/
theorem deletion_excludes_pipeline_iff (settings : Settings) (hw : s.WellKeyed)
    (hrs : s.ruleSets.get? key = some rs) :
    (∀ log t res, SharedPass settings key rs s log t res →
      RespectsDeletion key.name (exchangesOf 0 log)) ↔
      rs.isTerminating = true ∨ rs.isHeld = true ∨
        ∃ e, rs.spec.selector.query? = .error e := by
  constructor
  · intro hall
    -- Without any of the three the rule set can be marked between the two reads.
    cases ha : rs.isTerminating with
    | true => exact Or.inl rfl
    | false =>
      cases hh : rs.isHeld with
      | true => exact Or.inr (Or.inl rfl)
      | false =>
        cases hq : rs.spec.selector.query? with
        | error e => exact Or.inr (Or.inr ⟨e, rfl⟩)
        | ok q =>
          obtain ⟨log, t, res, hshared, hlate⟩ :=
            exists_not_respectsDeletion settings hw hrs hq ha hh
          exact absurd (hall log t res hshared) hlate
  · intro hfirst log t res hshared
    obtain ⟨τ, hτ⟩ := hshared.exists_eq_cons
    have hends := hshared.ends
    rw [hτ] at hends ⊢
    exact respectsDeletion_of_first (hw.ruleSet key rs hrs) hends hfirst

end

namespace Editing

open Orphaning (pod claimed)

def key : ObjectKey := ⟨"ns", "r"⟩

def ruleSet : RuleSet :=
  { Orphaning.ruleSet with metadata := { Orphaning.ruleSet.metadata with generation := some 1 } }

def start : Cluster := (Cluster.empty.keepRuleSet ruleSet).keepPod pod

def afterClaim (s : Cluster) : Cluster := (s.replacePod claimed).2

def recorded (copy : RuleSet) : RuleSet :=
  { copy with
    status :=
      some (statusSnapshot (.ofList ["p"]) (copy.metadata.generation.getD 0) [] [] default) }

def afterRecord (s : Cluster) (copy : RuleSet) : RuleSet × Cluster :=
  (afterClaim s).replaceStatus copy (recorded copy)

def claimingLog (s : Cluster) (copy : RuleSet) : List Event :=
  [⟨s, s, some (0, ⟨.trust ⟨"ns", "p"⟩ "", true⟩)⟩,
    ⟨s, s, some (0, ⟨.store (.getTarget ⟨"ns", "p"⟩), .ok pod⟩)⟩,
    ⟨s, afterClaim s, some (0, ⟨.store (.updateTarget claimed), .ok (s.replacePod claimed).1⟩)⟩,
    ⟨afterClaim s, afterClaim s, some (0, ⟨.arm ⟨"ns", "p"⟩ "", ()⟩)⟩,
    ⟨afterClaim s, afterClaim s, some (0, ⟨.stages, ["S"]⟩)⟩,
    ⟨afterClaim s, afterClaim s,
      some (0, ⟨.evaluate ["S"] copy [(s.replacePod claimed).1], [⟨0, "S", none⟩]⟩)⟩,
    ⟨afterClaim s, afterClaim s, some (0, ⟨.now, default⟩)⟩,
    ⟨afterClaim s, afterClaim s, some (0, ⟨.arm copy.key copy.version, ()⟩)⟩,
    ⟨afterClaim s, (afterRecord s copy).2,
      some (0, ⟨.store (.updateStatus (recorded copy)), .ok (afterRecord s copy).1⟩)⟩,
    ⟨(afterRecord s copy).2, (afterRecord s copy).2, some (0, ⟨.notify "ns" [] [], ()⟩)⟩]

def log (edited : RuleSet) : List Event :=
  editedLog key start ruleSet edited ++
    claimingLog (heldCopy start edited).2 (heldCopy start edited).1

def final (edited : RuleSet) : Cluster :=
  (afterRecord (heldCopy start edited).2 (heldCopy start edited).1).2

theorem wellKeyed_start : start.WellKeyed :=
  (Cluster.wellKeyed_empty.keepRuleSet _).keepPod _

variable {s : Cluster} {copy edited : RuleSet}

theorem leads_claimingLog (hp : s.pods.get? ⟨"ns", "p"⟩ = some pod)
    (hcopy : s.ruleSets.get? copy.key = some copy) :
    Leads s (claimingLog s copy) (afterRecord s copy).2 := by
  have hfetch : s.answer (.getTarget ⟨"ns", "p"⟩) = (.ok pod, s) := Cluster.answer_getTarget hp
  have hclaim : s.answer (.updateTarget claimed) = (.ok (s.replacePod claimed).1, afterClaim s) :=
    Cluster.answer_updateTarget hp rfl
  have hrecord : (afterClaim s).answer (.updateStatus (recorded copy)) =
      (.ok (afterRecord s copy).1, (afterRecord s copy).2) :=
    Cluster.answer_updateStatus hcopy rfl
  refine .cons (.aside ?_) <| .cons (.served hfetch) <| .cons (.served hclaim) <|
    .cons (.aside ?_) <| .cons (.aside ?_) <| .cons (.aside ?_) <| .cons (.aside ?_) <|
    .cons (.aside ?_) <| .cons (.served hrecord) <| .cons (.aside ?_) (.nil _)
  all_goals
    rintro c ⟨⟩

theorem ends_claimingLog (hnone : copy.status = none) :
    (processTargets .standard key copy [pod]).Ends (exchangesOf 0 (claimingLog s copy))
      (.ok .done) := by
  obtain ⟨metadata, spec, status⟩ := copy
  cases hnone
  exact .ask _ (.ask _ (.ask _ (.ask _ (.ask _ (.ask _ (.ask _ (.ask _ (.ask _ (.ask _
    (.done _))))))))))

/-- The pass ends well, whatever the other writer made of the spec and the metadata. -/
theorem sharedPass_log (hkey : edited.key = key) (hh : edited.isHeld = false)
    (hnone : edited.status = none) :
    SharedPass .standard key ruleSet start (log edited) (final edited) (.ok .done) := by
  obtain ⟨hget, hheld⟩ := Cluster.get?_replaceRuleSet_of_isHeld (start.putRuleSet edited)
    (rereadCopy start edited) (rereadCopy start edited).isHeld_addFinalizer
  have hstored : (heldCopy start edited).2.ruleSets.get? (heldCopy start edited).1.key =
      some (heldCopy start edited).1 := by
    have hsame : (heldCopy start edited).1.key = (rereadCopy start edited).addFinalizer.key := by
      rw [heldCopy, hheld]
      rfl
    rw [hsame]
    exact hget
  have hpod : (heldCopy start edited).2.pods.get? ⟨"ns", "p"⟩ = some pod := by
    rw [heldCopy, Cluster.pods_replaceRuleSet]
    rfl
  have hstatus : (heldCopy start edited).1.status = none := by
    rw [heldCopy, hheld]
    exact hnone
  have hreach : (reconcile .standard key).Reaches
      (exchangesOf 0 (editedLog key start ruleSet edited))
      (processTargets .standard key (heldCopy start edited).1 [pod]) :=
    reaches_editedLog .standard rfl rfl rfl rfl hh
  refine ⟨(leads_editedLog rfl hkey).append (leads_claimingLog hpod hstored), ?_, rfl⟩
  rw [log, exchangesOf_append]
  exact hreach.ends_append_iff.2 (ends_claimingLog hstatus)

end Editing

open Editing in
/-- The deletion shows when the pass reads the rule set again. The finalizer is put on it, the pod
is claimed, a stage runs and the status is written all the same. -/
theorem pass_claims_for_deleted_rule_set :
    (start.WellKeyed ∧ start.ruleSets.get? key = some ruleSet ∧ ruleSet.isHeld = false) ∧
      SharedPass .standard key ruleSet start (log ruleSet.marked) (final ruleSet.marked)
        (.ok .done) ∧
      ¬ RespectsDeletion key.name (exchangesOf 0 (log ruleSet.marked)) ∧
      (final ruleSet.marked).Owns "r" ⟨"ns", "p"⟩ ∧
      ∃ stored, (final ruleSet.marked).ruleSets.get? key = some stored ∧
        stored.isTerminating = true ∧ stored.isHeld = true ∧
        stored.recordedStatus.targets = ["p"] := by
  refine ⟨⟨wellKeyed_start, rfl, rfl⟩, sharedPass_log rfl ruleSet.isHeld_marked rfl,
    not_respectsDeletion_editedLog rfl _ _, ?_, ⟨_, rfl, rfl, by decide, rfl⟩⟩
  refine ⟨Orphaning.claimed.atVersion "3", rfl, ?_⟩
  rw [Pod.owners_atVersion, Orphaning.claimed, Pod.owners_withOwners]
  simp

/-- Once the finalizer is there, a deletion that comes later waits for the next pass. -/
theorem held_rule_set_keeps_off_late_deletion :
    (Cluster.empty.keepRuleSet Orphaning.held).WellKeyed ∧ Orphaning.held.isHeld = true ∧
      ∀ log t res, SharedPass .standard ⟨"ns", "r"⟩ Orphaning.held
          (Cluster.empty.keepRuleSet Orphaning.held) log t res →
        RespectsDeletion "r" (exchangesOf 0 log) := by
  have hw : (Cluster.empty.keepRuleSet Orphaning.held).WellKeyed :=
    Cluster.wellKeyed_empty.keepRuleSet _
  have hh : Orphaning.held.isHeld = true := by decide
  exact ⟨hw, hh, (deletion_excludes_pipeline_iff .standard hw rfl).2 (Or.inr (Or.inl hh))⟩

end PodRules
