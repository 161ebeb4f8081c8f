import PodRules.Pass.Reconcile
import PodRules.Proofs.Object.Owners
import PodRules.Proofs.Pass.Trace

namespace PodRules

namespace Call

def concernsTargets : Call → Bool
  | .store (.getTarget _) => true
  | .store (.updateTarget _) => true
  | .arm _ _ => true
  | .sleep _ => true
  | _ => false

def fetched? : Call → Option ObjectKey
  | .store (.getTarget key) => some key
  | _ => none

def holdsRuleSet : Call → Bool
  | .store (.getRuleSet _) => true
  | .store (.updateRuleSet rs) => rs.isHeld
  | .sleep _ => true
  | _ => false

def letsRuleSetGo : Call → Bool
  | .store (.getRuleSet _) => true
  | .store (.updateRuleSet rs) => !rs.isHeld
  | .sleep _ => true
  | _ => false

end Call

def Exchange.ruleSet? : Exchange → Option RuleSet
  | ⟨.store (.getRuleSet _), .ok rs⟩ => some rs
  | ⟨.store (.updateRuleSet _), .ok rs⟩ => some rs
  | _ => none

def Exchange.listing? : Exchange → Option (List Pod)
  | ⟨.store (.listTargets _ _), .ok pods⟩ => some pods
  | _ => none

theorem RuleSet.isHeld_addFinalizer (rs : RuleSet) : rs.addFinalizer.isHeld = true := by
  simp [RuleSet.isHeld, RuleSet.carries, RuleSet.addFinalizer, Metadata.finalizerList]

theorem RuleSet.isHeld_dropFinalizer (rs : RuleSet) : rs.dropFinalizer.isHeld = false := by
  unfold RuleSet.isHeld RuleSet.carries RuleSet.dropFinalizer Metadata.finalizerList
  cases rs.metadata.finalizers <;> simp

inductive EditAttempt (key : ObjectKey) (edit : Pod → Pod × Bool) :
    List Exchange → Except StoreError TargetEdit → Prop
  | absent (m : String) :
      EditAttempt key edit [⟨.store (.getTarget key), .error (.notFound m)⟩] (.ok .gone)
  | unread (e : StoreError) (he : e.isNotFound = false) :
      EditAttempt key edit [⟨.store (.getTarget key), .error e⟩] (.error e)
  | unchanged (pod : Pod) (hc : (edit pod).2 = false) :
      EditAttempt key edit [⟨.store (.getTarget key), .ok pod⟩] (.ok (.unchanged (edit pod).1))
  | written (pod stored : Pod) (hc : (edit pod).2 = true) :
      EditAttempt key edit
        [⟨.store (.getTarget key), .ok pod⟩, ⟨.store (.updateTarget (edit pod).1), .ok stored⟩]
        (.ok (.written pod.version stored))
  | vanished (pod : Pod) (m : String) (hc : (edit pod).2 = true) :
      EditAttempt key edit
        [⟨.store (.getTarget key), .ok pod⟩,
          ⟨.store (.updateTarget (edit pod).1), .error (.notFound m)⟩] (.ok .gone)
  | unwritten (pod : Pod) (e : StoreError) (hc : (edit pod).2 = true)
      (he : e.isNotFound = false) :
      EditAttempt key edit
        [⟨.store (.getTarget key), .ok pod⟩, ⟨.store (.updateTarget (edit pod).1), .error e⟩]
        (.error e)

/-- The ways in which one attempt to edit a target can go. -/
theorem ends_editOnce {key : ObjectKey} {edit : Pod → Pod × Bool} {τ : List Exchange}
    {res : Except Failure (Except StoreError TargetEdit)} (h : (editOnce key edit).Ends τ res) :
    ∃ o, res = .ok o ∧ EditAttempt key edit τ o := by
  obtain ⟨r, rest, rfl, h₁⟩ := Pass.ends_ask_iff.1 h
  -- The errors are an absence, a conflict and a passing failure; only the first is no error here.
  rcases r with (m | m | m) | pod
  · obtain ⟨rfl, rfl⟩ := Pass.ends_done_iff.1 h₁
    exact ⟨_, rfl, .absent m⟩
  · obtain ⟨rfl, rfl⟩ := Pass.ends_done_iff.1 h₁
    exact ⟨_, rfl, .unread _ rfl⟩
  · obtain ⟨rfl, rfl⟩ := Pass.ends_done_iff.1 h₁
    exact ⟨_, rfl, .unread _ rfl⟩
  · by_cases hc : (edit pod).2 = true
    · simp only [hc, if_true] at h₁
      obtain ⟨r, rest, rfl, h₂⟩ := Pass.ends_ask_iff.1 h₁
      rcases r with (m | m | m) | stored
      all_goals obtain ⟨rfl, rfl⟩ := Pass.ends_done_iff.1 h₂
      · exact ⟨_, rfl, .vanished pod m hc⟩
      · exact ⟨_, rfl, .unwritten pod _ hc rfl⟩
      · exact ⟨_, rfl, .unwritten pod _ hc rfl⟩
      · exact ⟨_, rfl, .written pod stored hc⟩
    · simp only [hc] at h₁
      obtain ⟨rfl, rfl⟩ := Pass.ends_done_iff.1 h₁
      exact ⟨_, rfl, .unchanged pod (by simpa using hc)⟩

inductive HoldAttempt (key : ObjectKey) : List Exchange → Except StoreError RuleSet → Prop
  | unread (e : StoreError) :
      HoldAttempt key [⟨.store (.getRuleSet key), .error e⟩] (.error e)
  | held (stored : RuleSet) (hh : stored.isHeld = true) :
      HoldAttempt key [⟨.store (.getRuleSet key), .ok stored⟩] (.ok stored)
  | answered (stored : RuleSet) (reply : Except StoreError RuleSet)
      (hh : stored.isHeld = false) :
      HoldAttempt key
        [⟨.store (.getRuleSet key), .ok stored⟩,
          ⟨.store (.updateRuleSet stored.addFinalizer), reply⟩] reply

theorem ends_holdOnce {key : ObjectKey} {τ : List Exchange}
    {res : Except Failure (Except StoreError RuleSet)} (h : (holdOnce key).Ends τ res) :
    ∃ o, res = .ok o ∧ HoldAttempt key τ o := by
  obtain ⟨r, rest, rfl, h₁⟩ := Pass.ends_ask_iff.1 h
  rcases r with e | stored
  · obtain ⟨rfl, rfl⟩ := Pass.ends_done_iff.1 h₁
    exact ⟨_, rfl, .unread e⟩
  · by_cases hh : stored.isHeld = true
    · simp only [hh, if_true] at h₁
      obtain ⟨rfl, rfl⟩ := Pass.ends_done_iff.1 h₁
      exact ⟨_, rfl, .held stored hh⟩
    · simp only [hh] at h₁
      obtain ⟨r, rest, rfl, h₂⟩ := Pass.ends_ask_iff.1 h₁
      obtain ⟨rfl, rfl⟩ := Pass.ends_done_iff.1 h₂
      exact ⟨_, rfl, .answered stored r (by simpa using hh)⟩

inductive LetGoAttempt (key : ObjectKey) : List Exchange → Except StoreError Unit → Prop
  | absent (m : String) :
      LetGoAttempt key [⟨.store (.getRuleSet key), .error (.notFound m)⟩] (.ok ())
  | unread (e : StoreError) (he : e.isNotFound = false) :
      LetGoAttempt key [⟨.store (.getRuleSet key), .error e⟩] (.error e)
  | free (stored : RuleSet) (hh : stored.isHeld = false) :
      LetGoAttempt key [⟨.store (.getRuleSet key), .ok stored⟩] (.ok ())
  | written (stored next : RuleSet) (hh : stored.isHeld = true) :
      LetGoAttempt key
        [⟨.store (.getRuleSet key), .ok stored⟩,
          ⟨.store (.updateRuleSet stored.dropFinalizer), .ok next⟩] (.ok ())
  | vanished (stored : RuleSet) (m : String) (hh : stored.isHeld = true) :
      LetGoAttempt key
        [⟨.store (.getRuleSet key), .ok stored⟩,
          ⟨.store (.updateRuleSet stored.dropFinalizer), .error (.notFound m)⟩] (.ok ())
  | unwritten (stored : RuleSet) (e : StoreError) (hh : stored.isHeld = true)
      (he : e.isNotFound = false) :
      LetGoAttempt key
        [⟨.store (.getRuleSet key), .ok stored⟩,
          ⟨.store (.updateRuleSet stored.dropFinalizer), .error e⟩] (.error e)

theorem ends_letGoOnce {key : ObjectKey} {τ : List Exchange}
    {res : Except Failure (Except StoreError Unit)} (h : (letGoOnce key).Ends τ res) :
    ∃ o, res = .ok o ∧ LetGoAttempt key τ o := by
  obtain ⟨r, rest, rfl, h₁⟩ := Pass.ends_ask_iff.1 h
  rcases r with (m | m | m) | stored
  · obtain ⟨rfl, rfl⟩ := Pass.ends_done_iff.1 h₁
    exact ⟨_, rfl, .absent m⟩
  · obtain ⟨rfl, rfl⟩ := Pass.ends_done_iff.1 h₁
    exact ⟨_, rfl, .unread _ rfl⟩
  · obtain ⟨rfl, rfl⟩ := Pass.ends_done_iff.1 h₁
    exact ⟨_, rfl, .unread _ rfl⟩
  · by_cases hh : stored.isHeld = true
    · simp only [hh, if_true] at h₁
      obtain ⟨r, rest, rfl, h₂⟩ := Pass.ends_ask_iff.1 h₁
      rcases r with (m | m | m) | next
      all_goals obtain ⟨rfl, rfl⟩ := Pass.ends_done_iff.1 h₂
      · exact ⟨_, rfl, .vanished stored m hh⟩
      · exact ⟨_, rfl, .unwritten stored _ hh rfl⟩
      · exact ⟨_, rfl, .unwritten stored _ hh rfl⟩
      · exact ⟨_, rfl, .written stored next hh⟩
    · simp only [hh] at h₁
      obtain ⟨rfl, rfl⟩ := Pass.ends_done_iff.1 h₁
      exact ⟨_, rfl, .free stored (by simpa using hh)⟩

inductive StatusWrite (rs : RuleSet) (next : RuleSetStatus) :
    List Exchange → Except Failure StatusRecord → Prop
  | unchanged (hs : rs.recordedStatus.equalButTime next = true) :
      StatusWrite rs next [] (.ok .unchanged)
  | written (hs : rs.recordedStatus.equalButTime next = false) (stored : RuleSet) :
      StatusWrite rs next
        [⟨.arm rs.key rs.version, ()⟩,
          ⟨.store (.updateStatus { rs with status := some next }), .ok stored⟩]
        (.ok (.written stored))
  | refused (hs : rs.recordedStatus.equalButTime next = false) (e : StoreError) :
      StatusWrite rs next
        [⟨.arm rs.key rs.version, ()⟩,
          ⟨.store (.updateStatus { rs with status := some next }), .error e⟩,
          ⟨.disarm rs.key, ()⟩]
        (.error (.store e))

/-- The write may do all this, and nothing else. -/
theorem ends_recordStatus_iff {rs : RuleSet} {next : RuleSetStatus} {τ : List Exchange}
    {res : Except Failure StatusRecord} :
    (recordStatus rs next).Ends τ res ↔ StatusWrite rs next τ res := by
  unfold recordStatus
  by_cases hs : rs.recordedStatus.equalButTime next = true
  · rw [if_pos hs, Pass.ends_done_iff]
    constructor
    · rintro ⟨rfl, rfl⟩
      exact .unchanged hs
    · rintro (⟨-⟩ | ⟨hn, -⟩ | ⟨hn, -⟩)
      · exact ⟨rfl, rfl⟩
      · cases hs.symm.trans hn
      · cases hs.symm.trans hn
  · have hn : rs.recordedStatus.equalButTime next = false := by simpa using hs
    rw [if_neg hs]
    constructor
    · intro h
      obtain ⟨_, rest, rfl, h₁⟩ := Pass.ends_ask_iff.1 h
      obtain ⟨reply, rest, rfl, h₂⟩ := Pass.ends_ask_iff.1 h₁
      cases reply with
      | ok stored =>
        obtain ⟨rfl, rfl⟩ := Pass.ends_done_iff.1 h₂
        exact .written hn stored
      | error e =>
        obtain ⟨_, rest, rfl, h₃⟩ := Pass.ends_ask_iff.1 h₂
        obtain ⟨rfl, rfl⟩ := Pass.ends_failed_iff.1 h₃
        exact .refused hn e
    · rintro (⟨hs'⟩ | ⟨-, stored⟩ | ⟨-, e⟩)
      · exact absurd hs' hs
      · exact .ask _ (.ask _ (.done _))
      · exact .ask _ (.ask _ (.ask _ (.failed _)))

/-! ## The branches of a pass -/

theorem RuleSet.deletionVerdict_eq_active {rs : RuleSet} {selected : List Pod} :
    rs.deletionVerdict selected = .active ↔ rs.isTerminating = false := by
  unfold RuleSet.deletionVerdict
  constructor
  · intro h
    split at h
    · dsimp only at h
      split at h <;> cases h
    next ht => simpa using ht
  · intro ha
    rw [ha]
    rfl

/-- All that a pass can do after its listing, with its end. -/
inductive ListedPass (settings : Settings) (key : ObjectKey) (rs : RuleSet)
    (selected : List Pod) : List Exchange → Except Failure Outcome → Prop
  | active {τ : List Exchange} {res : Except Failure Outcome} (ha : rs.isTerminating = false)
      (h : ((holdRuleSet settings.retry rs).bind fun held =>
        processTargets settings key held selected).Ends τ res) :
      ListedPass settings key rs selected τ res
  | free (ht : rs.isTerminating = true) (hh : rs.isHeld = false) :
      ListedPass settings key rs selected [] (.ok .done)
  | deleting {τ : List Exchange} {res : Except Failure Outcome} (ht : rs.isTerminating = true)
      (hh : rs.isHeld = true) (hv : rs.deletionVerdict selected = .ready)
      (h : ((finishDeletion settings.retry rs).bind fun _ => .done .done).Ends τ res) :
      ListedPass settings key rs selected τ res
  | waiting (running : Nat) (hh : rs.isHeld = true)
      (hv : rs.deletionVerdict selected = .blocked running) :
      ListedPass settings key rs selected [⟨.warn rs blockedReason rs.blockedNote, ()⟩]
        (.ok (.after settings.deletionRecheck))

/-- The ways in which a pass can go on from the listing. -/
theorem ends_afterListing {settings : Settings} {key : ObjectKey} {rs : RuleSet}
    {selected : List Pod} {τ : List Exchange} {res : Except Failure Outcome}
    (h : (afterListing settings key rs selected).Ends τ res) :
    ListedPass settings key rs selected τ res := by
  have hterm {v : DeletionVerdict} (hv : rs.deletionVerdict selected = v) (hne : v ≠ .active) :
      rs.isTerminating = true := by
    by_cases ht : rs.isTerminating = true
    · exact ht
    · rw [Bool.not_eq_true, ← RuleSet.deletionVerdict_eq_active] at ht
      exact absurd (hv.symm.trans ht) hne
  unfold afterListing at h
  split at h
  next hv => exact .active (RuleSet.deletionVerdict_eq_active.1 hv) h
  next hv =>
    split at h
    next hh => exact .deleting (hterm hv (by simp)) hh hv h
    next hh =>
      obtain ⟨rfl, rfl⟩ := Pass.ends_done_iff.1 h
      exact .free (hterm hv (by simp)) (by simpa using hh)
  next running hv =>
    split at h
    next hh =>
      obtain ⟨r, rest, rfl, h₁⟩ := Pass.ends_ask_iff.1 h
      obtain ⟨rfl, rfl⟩ := Pass.ends_done_iff.1 h₁
      exact .waiting running hh hv
    next hh =>
      obtain ⟨rfl, rfl⟩ := Pass.ends_done_iff.1 h
      exact .free (hterm hv (by simp)) (by simpa using hh)

inductive OpenedPass (settings : Settings) (key : ObjectKey) :
    List Exchange → Except Failure Outcome → Prop
  | absent (m : String) :
      OpenedPass settings key [⟨.store (.getRuleSet key), .error (.notFound m)⟩] (.ok .done)
  | unread (e : StoreError) (he : e.isNotFound = false) :
      OpenedPass settings key [⟨.store (.getRuleSet key), .error e⟩] (.error (.store e))
  | stale (rs : RuleSet) :
      OpenedPass settings key
        [⟨.store (.getRuleSet key), .ok rs⟩, ⟨.trust key rs.version, false⟩] (.ok .done)
  | invalid (rs : RuleSet) (e : SelectorError) (he : rs.spec.selector.query? = .error e) :
      OpenedPass settings key
        [⟨.store (.getRuleSet key), .ok rs⟩, ⟨.trust key rs.version, true⟩]
        (.error (.invalidSelector key e))
  | unlisted (rs : RuleSet) (e : StoreError) :
      OpenedPass settings key
        [⟨.store (.getRuleSet key), .ok rs⟩, ⟨.trust key rs.version, true⟩,
          ⟨.store (.listTargets key.namespaceName rs.spec.selector), .error e⟩]
        (.error (.store e))
  | listed (rs : RuleSet) (selected : List Pod) {τ : List Exchange}
      {res : Except Failure Outcome} (h : (afterListing settings key rs selected).Ends τ res) :
      OpenedPass settings key
        (⟨.store (.getRuleSet key), .ok rs⟩ :: ⟨.trust key rs.version, true⟩ ::
          ⟨.store (.listTargets key.namespaceName rs.spec.selector), .ok selected⟩ :: τ) res

/-- The ways in which a pass can go. -/
theorem ends_reconcile {settings : Settings} {key : ObjectKey} {τ : List Exchange}
    {res : Except Failure Outcome} (h : (reconcile settings key).Ends τ res) :
    OpenedPass settings key τ res := by
  obtain ⟨r, rest, rfl, h₁⟩ := Pass.ends_ask_iff.1 h
  rcases r with (m | m | m) | rs
  · obtain ⟨rfl, rfl⟩ := Pass.ends_done_iff.1 h₁
    exact .absent m
  · obtain ⟨rfl, rfl⟩ := Pass.ends_failed_iff.1 h₁
    exact .unread _ rfl
  · obtain ⟨rfl, rfl⟩ := Pass.ends_failed_iff.1 h₁
    exact .unread _ rfl
  obtain ⟨trusted, rest, rfl, h₂⟩ := Pass.ends_ask_iff.1 h₁
  cases trusted with
  | false =>
    obtain ⟨rfl, rfl⟩ := Pass.ends_done_iff.1 h₂
    exact .stale rs
  | true =>
    simp only [if_true] at h₂
    split at h₂
    next e he =>
      obtain ⟨rfl, rfl⟩ := Pass.ends_failed_iff.1 h₂
      exact .invalid rs e he
    next =>
      obtain ⟨r, rest, rfl, h₃⟩ := Pass.ends_ask_iff.1 h₂
      rcases r with e | selected
      · obtain ⟨rfl, rfl⟩ := Pass.ends_failed_iff.1 h₃
        exact .unlisted rs e
      · exact .listed rs selected h₃

def trustsOf (pods : List Pod) : List Exchange :=
  pods.map fun pod => ⟨.trust pod.key pod.version, true⟩

/-- The loop over the views asks about one target after the other, up to the first refusal. -/
theorem ends_trustedNames {pods : List Pod} {start : SortedSet String} {τ : List Exchange}
    {res : Except Failure (Option (SortedSet String))} (h : (trustedNames pods start).Ends τ res) :
    (∃ names, res = .ok (some names) ∧ τ = trustsOf pods ∧
        ∀ n, n ∈ names ↔ n ∈ start ∨ n ∈ pods.map (·.metadata.anyName)) ∨
      (res = .ok none ∧ ∃ before pod after, pods = before ++ pod :: after ∧
        τ = trustsOf before ++ [⟨.trust pod.key pod.version, false⟩]) := by
  -- On the pods, for any names to start with; one stale view ends it without names.
  induction pods generalizing start τ with
  | nil =>
    obtain ⟨rfl, rfl⟩ := Pass.ends_done_iff.1 h
    exact .inl ⟨start, rfl, rfl, by simp⟩
  | cons pod pods ih =>
    obtain ⟨trusted, rest, rfl, h₁⟩ := Pass.ends_ask_iff.1 h
    cases trusted with
    | false =>
      obtain ⟨rfl, rfl⟩ := Pass.ends_done_iff.1 h₁
      exact .inr ⟨rfl, [], pod, pods, rfl, rfl⟩
    | true =>
      rcases ih h₁ with ⟨names, hres, rfl, hnames⟩ | ⟨hres, before, p, after, rfl, rfl⟩
      · refine .inl ⟨names, hres, rfl, ?_⟩
        intro n
        rw [hnames, SortedSet.mem_insert, List.map_cons, List.mem_cons, or_assoc, or_left_comm]
      · exact .inr ⟨hres, pod :: before, p, after, rfl, rfl⟩

/-- The trusted names are those of all pods that were looked at. -/
theorem mem_of_trustedNames {pods : List Pod} {start names : SortedSet String}
    {τ : List Exchange} (h : (trustedNames pods start).Ends τ (.ok (some names))) (n : String) :
    n ∈ names ↔ n ∈ start ∨ n ∈ pods.map (·.metadata.anyName) := by
  rcases ends_trustedNames h with ⟨_, hres, -, hnames⟩ | ⟨hres, -⟩
  · cases hres
    exact hnames n
  · cases hres

namespace Pass

/-! ## Which calls a part makes -/

variable {α : Type}

def AsksTargets (keys : ObjectKey → Prop) (p : Pass α) : Prop :=
  p.Asks fun c => c.concernsTargets = true ∧ ∀ k, c.fetched? = some k → keys k

/-- An edit of a target fetches and writes that target only. -/
theorem asks_editTarget (b : RetryBackoff) (key : ObjectKey) (edit : Pod → Pod × Bool) :
    (editTarget b key edit).AsksTargets (· = key) := by
  refine Asks.retry (fun τ res h x hx => ?_) fun _ => ⟨rfl, by rintro k ⟨⟩⟩
  obtain ⟨o, -, ha⟩ := ends_editOnce h
  cases ha <;> simp at hx <;> rcases hx with rfl | rfl <;>
    exact ⟨rfl, by rintro k ⟨⟩ <;> rfl⟩

theorem AsksTargets.mono {keys keys' : ObjectKey → Prop} {p : Pass α} (h : p.AsksTargets keys)
    (hk : ∀ k, keys k → keys' k) : p.AsksTargets keys' :=
  Asks.mono h fun _ hc => ⟨hc.1, fun k hf => hk k (hc.2 k hf)⟩

theorem asks_releaseTargets (b : RetryBackoff) (ns ruleSet : String) (names : List String) :
    (releaseTargets b ns ruleSet names).AsksTargets fun k => ∃ n ∈ names, k = ⟨ns, n⟩ := by
  induction names with
  | nil => exact asks_done ()
  | cons name names ih =>
    refine Asks.bind ((asks_editTarget b _ _).mono ?_) fun _ => ih.mono ?_
    · rintro k rfl
      exact ⟨name, by simp, rfl⟩
    · rintro k ⟨n, hn, rfl⟩
      exact ⟨n, by simp [hn], rfl⟩

/-- The looks at the targets ask for nothing but trust. -/
theorem asks_trustedNames (pods : List Pod) (names : SortedSet String) :
    (trustedNames pods names).Asks fun c => ∃ k v, c = .trust k v := by
  induction pods generalizing names with
  | nil => exact asks_done _
  | cons pod pods ih =>
    refine asks_ask ⟨_, _, rfl⟩ fun trusted => ?_
    cases trusted with
    | true => exact ih _
    | false => exact asks_done _

theorem asks_claimTarget (b : RetryBackoff) (ns ruleSet name : String) :
    (claimTarget b ns ruleSet name).AsksTargets (· = ⟨ns, name⟩) := by
  refine Asks.bind (asks_editTarget b _ _) fun w => ?_
  cases w with
  | written base pod => exact asks_ask ⟨rfl, by rintro k ⟨⟩⟩ fun _ => asks_done _
  | unchanged pod => exact asks_done _
  | gone => exact asks_done _

theorem asks_claimTargets (b : RetryBackoff) (ns ruleSet : String) (names : List String) :
    (claimTargets b ns ruleSet names).AsksTargets fun k => ∃ n ∈ names, k = ⟨ns, n⟩ := by
  induction names with
  | nil => exact asks_done _
  | cons name names ih =>
    refine Asks.bind ((asks_claimTarget b ns ruleSet name).mono ?_) fun _ =>
      Asks.bind (ih.mono ?_) fun _ => asks_done _
    · rintro k rfl
      exact ⟨name, by simp, rfl⟩
    · rintro k ⟨n, hn, rfl⟩
      exact ⟨n, by simp [hn], rfl⟩

/-- The expectation of a write that fails is forgotten again. -/
theorem asks_recordStatus {P : Call → Prop} {rs : RuleSet} {next : RuleSetStatus}
    (harm : P (.arm rs.key rs.version))
    (hwrite : P (.store (.updateStatus { rs with status := some next })))
    (hdisarm : P (.disarm rs.key)) : (recordStatus rs next).Asks P := by
  unfold recordStatus
  split
  · exact asks_done _
  · refine asks_ask harm fun _ => asks_ask hwrite fun reply => ?_
    cases reply with
    | error e => exact asks_ask hdisarm fun _ => asks_failed _
    | ok stored => exact asks_done _

theorem asks_holdRuleSet (b : RetryBackoff) (rs : RuleSet) :
    (holdRuleSet b rs).Asks fun c => c.holdsRuleSet = true := by
  unfold holdRuleSet
  split
  · exact asks_done rs
  · refine Asks.retry (fun τ res h x hx => ?_) fun _ => rfl
    obtain ⟨o, -, ha⟩ := ends_holdOnce h
    cases ha <;> simp at hx
    · subst hx; rfl
    · subst hx; rfl
    · rcases hx with rfl | rfl
      · rfl
      · exact RuleSet.isHeld_addFinalizer _

theorem asks_letGo (b : RetryBackoff) (rs : RuleSet) :
    (letGo b rs).Asks fun c => c.letsRuleSetGo = true := by
  refine Asks.retry (fun τ res h x hx => ?_) fun _ => rfl
  obtain ⟨o, -, ha⟩ := ends_letGoOnce h
  cases ha <;> simp at hx <;> rcases hx with rfl | rfl <;>
    simp [Call.letsRuleSetGo, RuleSet.isHeld_dropFinalizer]

end Pass

end PodRules
