import PodRules.Proofs.Pass.Release
import PodRules.Proofs.Run.LostUpdates

namespace PodRules

namespace Call

def isWrite : Call → Bool
  | .store c => c.isWrite
  | _ => false

def editsRuleSet : Call → Bool
  | .store (.updateRuleSet _) => true
  | _ => false

/-- Goes on with the work of a rule set: holds it, claims a target for it, runs the stages or
records an outcome. -/
def pursues (ruleSet : String) : Call → Bool
  | .store (.updateRuleSet rs) => rs.isHeld
  | .store (.updateTarget pod) => decide (ruleSet ∈ pod.owners)
  | .store (.updateStatus _) => true
  | .evaluate _ _ _ => true
  | _ => false

def tellsSinks : Call → Bool
  | .notify _ _ _ => true
  | _ => false

def isIdle (ruleSet : String) (c : Call) : Prop :=
  c.isWrite = false ∧ c.pursues ruleSet = false ∧ c.tellsSinks = false

theorem editsRuleSet_of_concernsTargets {c : Call} (h : c.concernsTargets = true) :
    c.editsRuleSet = false := by
  cases c with
  | store c => cases c <;> first | rfl | cases h
  | _ => rfl

theorem editsRuleSet_of_not_isWrite {c : Call} (h : c.isWrite = false) :
    c.editsRuleSet = false := by
  cases c with
  | store c => cases c <;> first | rfl | cases h
  | _ => rfl

variable {ruleSet : String}

@[simp] theorem isIdle_store {c : StoreCall} :
    (Call.store c).isIdle ruleSet ↔ c.isWrite = false := by
  constructor
  · exact fun h => h.1
  · intro hc
    refine ⟨hc, ?_⟩
    cases c <;> first | exact ⟨rfl, rfl⟩ | cases hc

@[simp] theorem isIdle_trust (k : ObjectKey) (v : String) : (Call.trust k v).isIdle ruleSet :=
  ⟨rfl, rfl, rfl⟩

@[simp] theorem isIdle_warn (rs : RuleSet) (reason note : String) :
    (Call.warn rs reason note).isIdle ruleSet :=
  ⟨rfl, rfl, rfl⟩

/-- Of the calls of a deletion only a write can pursue anything. -/
theorem isIdle_of_not_isWrite {c : Call}
    (h : c.concernsTargets = true ∨ c.letsRuleSetGo = true) (hw : c.isWrite = false) :
    c.isIdle ruleSet := by
  cases c with
  | store c => exact isIdle_store.2 hw
  | evaluate stages rs targets => simp [concernsTargets, letsRuleSetGo] at h
  | notify ns old new => simp [concernsTargets, letsRuleSetGo] at h
  | _ => exact ⟨rfl, rfl, rfl⟩

end Call

/-- A write of a deletion, made from what was fetched right before it: the release of a recorded
target, as long as the finalizer was not touched, or the removal of the finalizer behind the
releases of all recorded targets. -/
inductive DeletionWrite (rs : RuleSet) (past : List Exchange) : Exchange → Prop
  | release {name : String} {y : Exchange} {c : StoreCall} {reply : c.Answer}
      (hn : name ∈ rs.recordedStatus.targets) (hlast : past.getLast? = some y)
      (hc : (WriteLoop.release ⟨rs.key.namespaceName, name⟩ rs.key.name).Prepares y c)
      (hfirst : ∀ z ∈ past, z.call.editsRuleSet = false) :
      DeletionWrite rs past ⟨.store c, reply⟩
  | letGo {y : Exchange} {c : StoreCall} {reply : c.Answer} (hlast : past.getLast? = some y)
      (hc : (WriteLoop.letGo rs).Prepares y c)
      (hall : ∀ n ∈ rs.recordedStatus.targets,
        Released ⟨rs.key.namespaceName, n⟩ rs.key.name past) :
      DeletionWrite rs past ⟨.store c, reply⟩

/-- Some listed target runs and no force is asked for. -/
def RuleSet.IsHeldBack (rs : RuleSet) (selected : List Pod) : Prop :=
  (∃ pod ∈ selected, pod.isRunning = true) ∧ rs.isForced = false

def openingOf (key : ObjectKey) (rs : RuleSet) (selected : List Pod) : List Exchange :=
  [⟨.store (.getRuleSet key), .ok rs⟩, ⟨.trust key rs.version, true⟩,
    ⟨.store (.listTargets key.namespaceName rs.spec.selector), .ok selected⟩]

/-- What a pass did after it had read a rule set. -/
structure OnlyReleases (rs : RuleSet) (τ : List Exchange) : Prop where
  idle : ∀ x ∈ τ, x.call.pursues rs.key.name = false ∧ x.call.tellsSinks = false
  free : rs.isHeld = false → ∀ x ∈ τ, x.call.isWrite = false
  heldBack : ∀ x ∈ τ, ∀ selected, x.listing? = some selected → rs.IsHeldBack selected →
    ∀ y ∈ τ, y.call.isWrite = false
  writes : ∀ before x after, τ = before ++ x :: after → x.call.isWrite = true →
    DeletionWrite rs before x

variable {settings : Settings} {b : RetryBackoff} {key : ObjectKey} {rs : RuleSet}
  {past τ : List Exchange} {x : Exchange} {res : Except Failure Outcome}

/-- A write of a deletion adds no owner and no finalizer. -/
theorem DeletionWrite.pursues_eq_false (h : DeletionWrite rs past x) :
    x.call.pursues rs.key.name = false ∧ x.call.tellsSinks = false := by
  cases h with
  | release hn hlast hc hfirst =>
    cases hc with
    | @release _ _ pod ho =>
      have hout : rs.key.name ∉ (pod.removeOwner rs.key.name).1.owners := by
        intro hmem
        exact ((Pod.mem_owners_removeOwner pod _ _).1 hmem).2 rfl
      exact ⟨decide_eq_false hout, rfl⟩
  | letGo hlast hc hall =>
    cases hc with
    | letGo hh => exact ⟨RuleSet.isHeld_dropFinalizer _, rfl⟩

theorem OnlyReleases.of_isIdle (h : ∀ x ∈ τ, x.call.isIdle rs.key.name) : OnlyReleases rs τ := by
  refine ⟨fun x hx => (h x hx).2, fun _ x hx => (h x hx).1, fun _ _ _ _ _ y hy => (h y hy).1, ?_⟩
  rintro before x after rfl hw
  have hquiet := (h x (by simp)).1
  rw [hw] at hquiet
  cases hquiet

/-- A rule set that is held back waits for all of its running pods. -/
theorem RuleSet.deletionVerdict_of_isHeldBack {selected : List Pod} (ht : rs.isTerminating = true)
    (h : rs.IsHeldBack selected) :
    rs.deletionVerdict selected = .blocked (selected.countP Pod.isRunning) := by
  obtain ⟨⟨pod, hmem, hrun⟩, hforced⟩ := h
  have hcount : selected.countP Pod.isRunning ≠ 0 := by
    intro hzero
    exact List.countP_eq_zero.1 hzero pod hmem hrun
  simp [RuleSet.deletionVerdict, ht, hforced, hcount]

namespace Pass

/-- What holds of every exchange before a pass and of every one of the pass holds of all. -/
theorem Guarded.all {α : Type} {H : List Exchange → Exchange → Prop} {p : Pass α}
    {σ : List Exchange} {res : Except Failure α} (h : p.Guarded H past)
    (hpast : ∀ before x after, past = before ++ x :: after → H before x) (hends : p.Ends σ res) :
    ∀ before x after, past ++ σ = before ++ x :: after → H before x := by
  intro before x after hτ
  rcases split_append hτ with ⟨mid, hbefore, -⟩ | ⟨mid, rfl, hσ⟩
  · exact hpast before x mid hbefore
  · exact h σ res hends mid x after hσ

/-! ## What a deletion writes -/

theorem guarded_releaseTargets (ns ruleSet : String) (names : List String) :
    (releaseTargets b ns ruleSet names).Guarded (fun past x => x.call.isWrite = true →
      ∃ name ∈ names, (WriteLoop.release ⟨ns, name⟩ ruleSet).IsPrepared past x) past := by
  induction names generalizing past with
  | nil => exact guarded_done ()
  | cons name names ih =>
    refine Guarded.bind ?_ fun _ τ _ => ?_
    · intro τ res h before x after hτ _
      have hprep : (editTarget b ⟨ns, name⟩ (·.removeOwner ruleSet)).Guarded
          (WriteLoop.release ⟨ns, name⟩ ruleSet).IsPrepared past :=
        WriteLoop.isPrepared_editTarget fun p hc => .release (Pod.removeOwner_changes.1 hc)
      exact ⟨name, by simp, hprep τ res h before x after hτ⟩
    · intro τ' res h before x after hτ hw
      obtain ⟨n, hn, hprep⟩ := ih τ' res h before x after hτ hw
      exact ⟨n, by simp [hn], hprep⟩

/-- Finishing the deletion writes releases first, and then lets go. -/
theorem guarded_finishDeletion_writes (hp : ∀ y ∈ past, y.call.editsRuleSet = false) :
    (finishDeletion b rs).Guarded
      (fun past x => x.call.isWrite = true → DeletionWrite rs past x) past := by
  refine Guarded.bind ?_ fun v τ₁ h₁ => ?_
  · rintro τ res h before x after rfl hw
    have hasks := asks_releaseTargets b _ _ _ _ _ h
    obtain ⟨n, hn, hprep⟩ := guarded_releaseTargets _ _ _ _ _ h before x after rfl hw
    obtain ⟨c, reply⟩ := x
    cases c with
    | store c =>
      obtain ⟨y, hlast, hc⟩ := hprep c reply rfl hw
      refine .release hn hlast hc fun z hz => ?_
      rcases List.mem_append.1 hz with hz | hz
      · exact hp z hz
      · exact Call.editsRuleSet_of_concernsTargets (hasks z (by simp [hz])).1
    | _ => cases hw
  · -- All recorded targets are released once the finalizer is looked at.
    have hreleased := released_of_releaseTargets h₁
    rintro τ res h before x after rfl hw
    have hasks := asks_letGo b rs _ _ h
    have hprep : (WriteLoop.letGo rs).IsPrepared (past ++ τ₁ ++ before) x :=
      WriteLoop.isPrepared_letGo b rs _ _ h before x after rfl
    obtain ⟨c, reply⟩ := x
    cases c with
    | store c =>
      obtain ⟨y, hlast, hc⟩ := hprep c reply rfl hw
      refine .letGo hlast hc fun n hn => ?_
      refine ((hreleased n hn).prepend past).append fun z hz hf => ?_
      rw [Call.fetched?_of_letsRuleSetGo (hasks z (by simp [hz]))] at hf
      cases hf
    | _ => cases hw

theorem asks_finishDeletion (b : RetryBackoff) (rs : RuleSet) :
    (finishDeletion b rs).Asks fun c => c.concernsTargets = true ∨ c.letsRuleSetGo = true :=
  Asks.bind (Asks.mono (asks_releaseTargets b _ _ _) fun _ hc => Or.inl hc.1) fun _ =>
    Asks.mono (asks_letGo b rs) fun _ hc => Or.inr hc

end Pass

theorem Exchange.listing?_of_deletion
    (h : x.call.concernsTargets = true ∨ x.call.letsRuleSetGo = true) : x.listing? = none := by
  obtain ⟨c, r⟩ := x
  cases c with
  | store c =>
    cases c with
    | listTargets ns selector => simp [Call.concernsTargets, Call.letsRuleSetGo] at h
    | _ => rfl
  | _ => rfl

/-- After a quiet opening that did not hold it back, finishing the deletion only releases. -/
theorem onlyReleases_of_finishDeletion {σ : List Exchange} (hh : rs.isHeld = true)
    (hready : ∀ y ∈ past, ∀ selected, y.listing? = some selected → ¬ rs.IsHeldBack selected)
    (hp : ∀ y ∈ past, y.call.isIdle rs.key.name)
    (h : ((finishDeletion b rs).bind fun _ => .done .done).Ends σ res) :
    OnlyReleases rs (past ++ σ) := by
  have hasks := (Pass.asks_finishDeletion b rs).bind (fun _ => Pass.asks_done Outcome.done) _ _ h
  have hquiet : ∀ y ∈ past, y.call.editsRuleSet = false :=
    fun y hy => Call.editsRuleSet_of_not_isWrite (hp y hy).1
  have hwrites : ∀ before x after, past ++ σ = before ++ x :: after → x.call.isWrite = true →
      DeletionWrite rs before x := by
    have hfinish : (finishDeletion b rs).Guarded
        (fun past x => x.call.isWrite = true → DeletionWrite rs past x) past :=
      Pass.guarded_finishDeletion_writes hquiet
    refine (hfinish.bind fun _ _ _ => Pass.guarded_done Outcome.done).all ?_ h
    rintro before x after rfl hw
    have hidle := (hp x (by simp)).1
    rw [hw] at hidle
    cases hidle
  refine ⟨?_, ?_, ?_, hwrites⟩
  · intro x hx
    by_cases hw : x.call.isWrite = true
    · obtain ⟨before, after, hτ⟩ := List.append_of_mem hx
      exact (hwrites before x after hτ hw).pursues_eq_false
    · rcases List.mem_append.1 hx with hx | hx
      · exact (hp x hx).2
      · exact (Call.isIdle_of_not_isWrite (hasks x hx) (by simpa using hw)).2
  · intro hfree
    rw [hh] at hfree
    cases hfree
  · intro x hx selected hlist hback
    rcases List.mem_append.1 hx with hx | hx
    · exact absurd hback (hready x hx selected hlist)
    · rw [Exchange.listing?_of_deletion (hasks x hx)] at hlist
      cases hlist

/-- With a selector that denotes a query, a pass comes to its listing and goes on from there. -/
theorem Pass.reaches_afterListing (settings : Settings) (key : ObjectKey) {q : String}
    (hq : rs.spec.selector.query? = .ok q) (selected : List Pod) :
    (reconcile settings key).Reaches (openingOf key rs selected)
      (afterListing settings key rs selected) := by
  refine .ask _ (.ask _ ?_)
  simp only [if_true, hq]
  exact .ask _ (.here _)

theorem isIdle_of_mem_openingOf {selected : List Pod} {ruleSet : String}
    (hx : x ∈ openingOf key rs selected) : x.call.isIdle ruleSet := by
  simp only [openingOf, List.mem_cons, List.not_mem_nil, or_false] at hx
  rcases hx with rfl | rfl | rfl
  · exact Call.isIdle_store.2 rfl
  · exact Call.isIdle_trust _ _
  · exact Call.isIdle_store.2 rfl

theorem listing?_of_mem_openingOf {selected selected' : List Pod}
    (hx : x ∈ openingOf key rs selected) (hlist : x.listing? = some selected') :
    selected' = selected := by
  simp only [openingOf, List.mem_cons, List.not_mem_nil, or_false] at hx
  rcases hx with rfl | rfl | rfl
  · cases hlist
  · cases hlist
  · cases hlist
    rfl

/-- Whichever way a pass of a terminating rule set goes on from the listing, it only releases. -/
theorem onlyReleases_of_listedPass {selected : List Pod} {σ : List Exchange}
    (ht : rs.isTerminating = true) (h : ListedPass settings key rs selected σ res) :
    OnlyReleases rs (openingOf key rs selected ++ σ) := by
  cases h with
  | active ha _ =>
    rw [ht] at ha
    cases ha
  | free _ _ =>
    rw [List.append_nil]
    exact .of_isIdle fun x hx => isIdle_of_mem_openingOf hx
  | deleting _ hh hv h =>
    refine onlyReleases_of_finishDeletion hh ?_ (fun y hy => isIdle_of_mem_openingOf hy) h
    intro y hy selected' hlist hback
    obtain rfl := listing?_of_mem_openingOf hy hlist
    cases hv.symm.trans (RuleSet.deletionVerdict_of_isHeldBack ht hback)
  | waiting running hh hv =>
    refine .of_isIdle fun x hx => ?_
    rcases List.mem_append.1 hx with hx | hx
    · exact isIdle_of_mem_openingOf hx
    · obtain rfl := List.mem_singleton.1 hx
      exact Call.isIdle_warn _ _ _

/-- A pass whose first read shows a terminating rule set only releases. -/
theorem onlyReleases_of_reconcile (ht : rs.isTerminating = true)
    (h : (reconcile settings key).Ends (⟨.store (.getRuleSet key), .ok rs⟩ :: τ) res) :
    OnlyReleases rs (⟨.store (.getRuleSet key), .ok rs⟩ :: τ) := by
  cases ends_reconcile h with
  | stale _ => exact .of_isIdle (by simp [StoreCall.isWrite])
  | invalid _ e he => exact .of_isIdle (by simp [StoreCall.isWrite])
  | unlisted _ e => exact .of_isIdle (by simp [StoreCall.isWrite])
  | listed _ selected h₁ => exact onlyReleases_of_listedPass ht (ends_afterListing h₁)

/-- A pass that reads a rule set which is being deleted runs no stage, claims nothing, writes no
status and tells no sink. It writes nothing without the finalizer and nothing while targets hold the
deletion back; then it warns once and is due again after the recheck. Otherwise it releases recorded
targets and, once all are released, lets the rule set go. -/
theorem deletion_pass_only_releases (settings : Settings) (key : ObjectKey) (rs : RuleSet)
    (ht : rs.isTerminating = true) :
    (∀ τ res, (reconcile settings key).Ends (⟨.store (.getRuleSet key), .ok rs⟩ :: τ) res →
      OnlyReleases rs (⟨.store (.getRuleSet key), .ok rs⟩ :: τ)) ∧
    ∀ q selected rest res, rs.isHeld = true → rs.spec.selector.query? = .ok q →
      rs.IsHeldBack selected →
      ((reconcile settings key).Ends (openingOf key rs selected ++ rest) res ↔
        rest = [⟨.warn rs blockedReason rs.blockedNote, ()⟩] ∧
          res = .ok (.after settings.deletionRecheck)) := by
  constructor
  · intro τ res h
    exact onlyReleases_of_reconcile ht h
  · intro q selected rest res hh hq hback
    have hafter : afterListing settings key rs selected =
        .ask (.warn rs blockedReason rs.blockedNote) fun _ =>
          .done (.after settings.deletionRecheck) := by
      rw [afterListing, RuleSet.deletionVerdict_of_isHeldBack ht hback]
      dsimp only
      rw [if_pos hh]
    rw [(Pass.reaches_afterListing settings key hq selected).ends_append_iff, hafter,
      Pass.ends_ask_iff]
    constructor
    · rintro ⟨r, rest', rfl, h⟩
      obtain ⟨rfl, rfl⟩ := Pass.ends_done_iff.1 h
      exact ⟨rfl, rfl⟩
    · rintro ⟨rfl, rfl⟩
      exact ⟨(), [], rfl, .done _⟩

namespace Deleting

open Orphaning (held pod claimed)

def ruleSet : RuleSet :=
  { held with
    metadata := { held.metadata with deletionTimestamp := some default }
    status := some { RuleSetStatus.initial with targets := ["p", "gone"] } }

def releases : List Exchange :=
  openingOf ⟨"ns", "r"⟩ ruleSet [] ++
    [⟨.store (.getTarget ⟨"ns", "p"⟩), .ok claimed⟩,
      ⟨.store (.updateTarget (claimed.removeOwner "r").1), .error (.conflict "")⟩,
      ⟨.sleep (RetryBackoff.standard.delay 1), ()⟩,
      ⟨.store (.getTarget ⟨"ns", "p"⟩), .ok (claimed.atVersion "7")⟩,
      ⟨.store (.updateTarget ((claimed.atVersion "7").removeOwner "r").1),
        .ok (pod.atVersion "8")⟩,
      ⟨.store (.getTarget ⟨"ns", "gone"⟩), .error (.notFound "")⟩,
      ⟨.store (.getRuleSet ⟨"ns", "r"⟩), .ok ruleSet⟩,
      ⟨.store (.updateRuleSet ruleSet.dropFinalizer), .ok ruleSet.dropFinalizer⟩]

theorem ends_releases : (reconcile .standard ⟨"ns", "r"⟩).Ends releases (.ok .done) := by
  have hreach : (reconcile .standard ⟨"ns", "r"⟩).Reaches (openingOf ⟨"ns", "r"⟩ ruleSet [])
      (afterListing .standard ⟨"ns", "r"⟩ ruleSet []) :=
    Pass.reaches_afterListing _ _ rfl []
  refine hreach.ends_append_iff.2 ?_
  exact .ask _ (.ask _ (.ask _ (.ask _ (.ask _ (.ask _ (.ask _ (.ask _ (.done _))))))))

end Deleting

open Deleting in
theorem running_pod_holds_deletion_back :
    (OnlyReleases ruleSet releases ∧ (reconcile .standard ⟨"ns", "r"⟩).Ends releases (.ok .done)) ∧
      (reconcile .standard ⟨"ns", "r"⟩).Ends
        (openingOf ⟨"ns", "r"⟩ ruleSet [Orphaning.pod] ++
          [⟨.warn ruleSet blockedReason ruleSet.blockedNote, ()⟩])
        (.ok (.after (.ofSeconds 5))) := by
  have hback : ruleSet.IsHeldBack [Orphaning.pod] :=
    ⟨⟨Orphaning.pod, List.mem_singleton.2 rfl, rfl⟩, rfl⟩
  have hspec := deletion_pass_only_releases .standard ⟨"ns", "r"⟩ ruleSet rfl
  exact ⟨⟨hspec.1 _ _ ends_releases, ends_releases⟩,
    (hspec.2 _ _ _ _ (by decide) rfl hback).2 ⟨rfl, rfl⟩⟩

end PodRules
