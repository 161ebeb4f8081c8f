import PodRules.Proofs.Pass.Parts
import PodRules.Proofs.Store.Expectations
import PodRules.Simulation.World

/-!
The calls of a pass on the table of pending writes. A pass first looks at the expectation of its
rule set, then at those of its targets, and in the end arms or forgets that of its rule set again.
Main statement: every such call is under a name of a rule set or of a listed pod, according to the
part of the pass that makes it (`usesKind_reconcile`).
-/

namespace PodRules

namespace Call

def expectation? : Call → Option ObjectKey
  | .trust key _ => some key
  | .arm key _ => some key
  | .disarm key => some key
  | _ => none

def onTable (now : Nat) : Call → Expectations → Bool × Expectations
  | .trust key version, t => t.trust now key version
  | .arm key base, t => (true, t.arm now key base)
  | .disarm key, t => (true, t.disarm key)
  | _, t => (true, t)

def isTrust : Call → Bool
  | .trust _ _ => true
  | _ => false

def isNow : Call → Bool
  | .now => true
  | _ => false

def isPlain (c : Call) : Bool := c.expectation?.isNone && !c.isNow

end Call

theorem Call.isNow_of_isPlain {c : Call} (h : c.isPlain = true) : c.isNow = false := by
  simp only [Call.isPlain, Bool.and_eq_true, Bool.not_eq_true'] at h
  exact h.2

theorem Call.expectation?_eq_none_of_isPlain {c : Call} (h : c.isPlain = true) :
    c.expectation? = none := by
  rw [Call.isPlain, Bool.and_eq_true] at h
  exact Option.isNone_iff_eq_none.1 h.1

def Exchange.answer : Exchange → Bool
  | ⟨.trust _ _, r⟩ => r
  | _ => true

namespace Expectations

variable {t u : Expectations} {now : Nat} {K : ObjectKey → Prop} {c : Call}

/-- A table cut down to the keys that a call may use replies and changes like the whole one. -/
theorem Restricts.onTable_inside (h : Restricts K t u) (ht : t.NoneExpired now)
    (hk : ∀ k, c.expectation? = some k → K k) :
    (c.onTable now u).1 = (c.onTable now t).1 ∧
      Restricts K (c.onTable now t).2 (c.onTable now u).2 := by
  cases c with
  | trust key version =>
    have hkey : K key := hk key rfl
    have hset := sets_trust u now key version
    rw [h.ttl, h.inside key hkey] at hset
    exact ⟨h.trust_fst hkey version, h.sets_inside hkey (sets_trust t now key version) hset⟩
  | arm key base =>
    exact ⟨rfl, h.sets_inside (hk key rfl) (sets_arm ht key base)
      (sets_arm (h.noneExpired ht) key base)⟩
  | disarm key =>
    exact ⟨rfl, h.sets_inside (hk key rfl) (sets_disarm t key) (sets_disarm u key)⟩
  | _ => exact ⟨rfl, h⟩

/-- A call under another key does not show in it. -/
theorem Restricts.onTable_outside (h : Restricts K t u) (ht : t.NoneExpired now)
    (hk : ∀ k, c.expectation? = some k → ¬ K k) : Restricts K (c.onTable now t).2 u := by
  cases c with
  | trust key version => exact h.sets_outside (hk key rfl) (sets_trust t now key version)
  | arm key base => exact h.sets_outside (hk key rfl) (sets_arm ht key base)
  | disarm key => exact h.sets_outside (hk key rfl) (sets_disarm t key)
  | _ => exact h

end Expectations

/-! ## Whose expectation a call is about -/

inductive ObjectKind where
  | ruleSet
  | target
  deriving DecidableEq, Repr

/-- The kind of object that a pass looks after, once these exchanges have been made. It turns to
its targets when it trusts its rule set, and back when it takes the time for the status. -/
def kindAfter (past : List Exchange) : ObjectKind :=
  if past.any (·.call.isTrust) && !past.any (·.call.isNow) then .target else .ruleSet

def ObjectKind.keys (ruleSets targets : ObjectKey → Prop) : ObjectKind → ObjectKey → Prop
  | .ruleSet => ruleSets
  | .target => targets

/-- The objects that the store answers in a pass over a namespace have keys of their kind: a rule
set its own key, a listed target its own one and the one under which it is claimed. -/
structure Exchange.Names (ruleSets targets : ObjectKey → Prop) (ns : String) (x : Exchange) :
    Prop where
  ruleSet : ∀ rs, x.ruleSet? = some rs → ruleSets rs.key
  listed : ∀ pods, x.listing? = some pods →
    ∀ pod ∈ pods, targets pod.key ∧ targets ⟨ns, pod.metadata.anyName⟩

def UsesKind (ruleSets targets : ObjectKey → Prop) (ns : String) (past : List Exchange)
    (x : Exchange) : Prop :=
  (∀ y ∈ past, y.Names ruleSets targets ns) →
    ∀ k, x.call.expectation? = some k → (kindAfter past).keys ruleSets targets k

theorem kindAfter_append {past τ : List Exchange} (h : kindAfter past = .target)
    (hτ : ∀ x ∈ τ, x.call.isNow = false) : kindAfter (past ++ τ) = .target := by
  have hnow : τ.any (·.call.isNow) = false := by simpa using hτ
  unfold kindAfter at h
  split at h
  · rename_i hpast
    rw [Bool.and_eq_true, Bool.not_eq_true'] at hpast
    simp [kindAfter, List.any_append, hpast.1, hpast.2, hnow]
  · cases h

/-- Once the clock was read for the status, expectations are those of the rule set. -/
theorem kindAfter_of_now {past : List Exchange} {x : Exchange} (hx : x ∈ past)
    (hn : x.call.isNow = true) : kindAfter past = .ruleSet := by
  have hany : past.any (·.call.isNow) = true := List.any_eq_true.2 ⟨x, hx, hn⟩
  simp [kindAfter, hany]

namespace Pass

variable {α : Type} {R P : ObjectKey → Prop} {ns : String} {past : List Exchange}
  {b : RetryBackoff}

/-- What the store answered so far may be taken to have keys of its kind. -/
theorem guarded_of_names {p : Pass α}
    (h : (∀ y ∈ past, y.Names R P ns) → p.Guarded (UsesKind R P ns) past) :
    p.Guarded (UsesKind R P ns) past := by
  intro τ res ht τ₁ x τ₂ hτ hnames
  have hpast : ∀ y ∈ past, y.Names R P ns := fun y hy => hnames y (List.mem_append_left _ hy)
  exact h hpast τ res ht τ₁ x τ₂ hτ hnames

theorem usesKind_of_isPlain {x : Exchange} (hx : x.call.isPlain = true) :
    UsesKind R P ns past x := by
  intro _ k hk
  simp [Call.isPlain, hk] at hx

theorem asks_editTarget_isPlain (b : RetryBackoff) (key : ObjectKey) (edit : Pod → Pod × Bool) :
    (editTarget b key edit).Asks fun c => c.isPlain = true := by
  refine Asks.retry (fun τ res h x hx => ?_) fun _ => rfl
  obtain ⟨o, -, ha⟩ := ends_editOnce h
  cases ha <;> simp at hx <;> rcases hx with rfl | rfl <;> rfl

theorem asks_releaseTargets_isPlain (b : RetryBackoff) (ns ruleSet : String)
    (names : List String) :
    (releaseTargets b ns ruleSet names).Asks fun c => c.isPlain = true := by
  induction names with
  | nil => exact asks_done ()
  | cons name names ih => exact Asks.bind (asks_editTarget_isPlain b _ _) fun _ => ih

theorem asks_holdRuleSet_isPlain (b : RetryBackoff) (rs : RuleSet) :
    (holdRuleSet b rs).Asks fun c => c.isPlain = true := by
  refine (asks_holdRuleSet b rs).mono fun c hc => ?_
  unfold Call.holdsRuleSet at hc
  split at hc <;> first | rfl | cases hc

/-- The rule set that is held goes by the key of the one that was read. -/
theorem names_of_holdRuleSet {rs held : RuleSet} {τ : List Exchange} (hrs : R rs.key)
    (h : (holdRuleSet b rs).Ends τ (.ok held)) (hτ : ∀ x ∈ τ, x.Names R P ns) : R held.key := by
  unfold holdRuleSet at h
  split at h
  · obtain ⟨-, he⟩ := ends_done_iff.1 h
    cases he
    exact hrs
  · obtain ⟨before, last, rfl, -, hl⟩ := h.retry_ok
    obtain ⟨o, ho, ha⟩ := ends_holdOnce hl
    cases ho
    -- The last exchange of the last attempt answered it.
    cases ha with
    | held stored hh =>
      exact (hτ ⟨.store (.getRuleSet rs.key), .ok held⟩
        (List.mem_append_right _ (by simp))).ruleSet _ rfl
    | answered stored reply hh =>
      exact (hτ ⟨.store (.updateRuleSet stored.addFinalizer), .ok held⟩
        (List.mem_append_right _ (by simp))).ruleSet _ rfl

/-- The looks at the targets use the targets' keys. -/
theorem usesKind_trustedNames {pods : List Pod} (start : SortedSet String)
    (hk : kindAfter past = .target) (hp : ∀ pod ∈ pods, P pod.key) :
    (trustedNames pods start).Guarded (UsesKind R P ns) past := by
  -- On the pods, for any past in which the pass is at its targets.
  induction pods generalizing start past with
  | nil => exact guarded_done _
  | cons pod pods ih =>
    refine guarded_ask (fun r _ k hkey => ?_) fun trusted => ?_
    · cases hkey
      rw [hk]
      exact hp pod (by simp)
    · cases trusted with
      | true =>
        refine ih _ (kindAfter_append hk ?_) fun p hmem => hp p (by simp [hmem])
        simp [Call.isNow]
      | false => exact guarded_done _

theorem usesKind_claimTarget {ruleSet name : String} (hk : kindAfter past = .target)
    (hp : P ⟨ns, name⟩) :
    (claimTarget b ns ruleSet name).Guarded (UsesKind R P ns) past := by
  refine Guarded.bind ((asks_editTarget_isPlain b _ _).guarded
    fun _ _ hx => usesKind_of_isPlain hx) fun w τ hτ => ?_
  -- The expectation is armed after the write, with nothing but the edit in between.
  cases w with
  | written base pod =>
    have hquiet : ∀ x ∈ τ, x.call.isNow = false := fun x hx =>
      Call.isNow_of_isPlain (asks_editTarget_isPlain b _ _ τ _ hτ x hx)
    refine guarded_ask (fun r _ k hkey => ?_) fun _ => guarded_done _
    cases hkey
    rw [kindAfter_append hk hquiet]
    exact hp
  | unchanged pod => exact guarded_done _
  | gone => exact guarded_done _

/-- Calls about targets leave a pass at its targets. -/
theorem AsksTargets.isNow {p : Pass α} {keys : ObjectKey → Prop} {τ : List Exchange}
    {res : Except Failure α} (ha : p.AsksTargets keys) (h : p.Ends τ res) :
    ∀ x ∈ τ, x.call.isNow = false := by
  intro x hx
  have hc := (ha τ res h x hx).1
  obtain ⟨c, r⟩ := x
  cases c with
  | now => cases hc
  | _ => rfl

theorem usesKind_claimTargets {ruleSet : String} {names : List String}
    (hk : kindAfter past = .target) (hp : ∀ n ∈ names, P ⟨ns, n⟩) :
    (claimTargets b ns ruleSet names).Guarded (UsesKind R P ns) past := by
  induction names generalizing past with
  | nil => exact guarded_done _
  | cons name names ih =>
    refine Guarded.bind (usesKind_claimTarget hk (hp name (by simp))) fun _ τ hτ => ?_
    have hkτ := kindAfter_append hk ((asks_claimTarget b ns ruleSet name).isNow hτ)
    exact Guarded.bind (ih hkτ fun n hn => hp n (by simp [hn])) fun _ _ _ => guarded_done _

/-- Recording the outcome uses the key of the rule set. -/
theorem usesKind_recordOutcome {rs : RuleSet} {names : SortedSet String}
    (merged : PipelineResult) (hrs : R rs.key) :
    (recordOutcome ns rs names merged).Guarded (UsesKind R P ns) past := by
  refine guarded_ask (fun _ _ k hkey => ?_) fun now => ?_
  · cases hkey
  -- The time was taken, so the pass is at its rule set again.
  have hk : ∀ τ, kindAfter (past ++ [⟨.now, now⟩] ++ τ) = .ruleSet := fun τ =>
    @kindAfter_of_now _ ⟨.now, now⟩ (by simp) rfl
  have hown {c : Call} {r : c.Reply} (τ : List Exchange) (hc : c.expectation? = some rs.key) :
      UsesKind R P ns (past ++ [⟨.now, now⟩] ++ τ) ⟨c, r⟩ := by
    intro _ k hkey
    obtain rfl : rs.key = k := Option.some.inj (hc.symm.trans hkey)
    rw [hk]
    exact hrs
  refine Guarded.bind ?_ fun _ _ _ =>
    guarded_ask (fun _ => usesKind_of_isPlain rfl) fun _ => guarded_done _
  unfold recordStatus
  split
  · exact guarded_done _
  · refine guarded_ask (fun _ => by simpa using hown [] rfl) fun _ =>
      guarded_ask (fun _ => usesKind_of_isPlain rfl) fun reply => ?_
    cases reply with
    | ok stored => exact guarded_done _
    | error e =>
      refine guarded_ask (fun _ => ?_) fun _ => guarded_failed _
      simpa using hown [⟨.arm rs.key rs.version, ()⟩, ⟨.store (.updateStatus _), .error e⟩] rfl

/-- The targets that a pass claims were listed, and so were those whose expectations it looks at. -/
theorem usesKind_processTargets {s : Settings} {key : ObjectKey} {rs : RuleSet}
    {selected : List Pod} (hk : kindAfter past = .target) (hrs : R rs.key)
    (hp : ∀ pod ∈ selected, P pod.key ∧ P ⟨key.namespaceName, pod.metadata.anyName⟩) :
    (processTargets s key rs selected).Guarded (UsesKind R P key.namespaceName) past := by
  refine Guarded.bind (usesKind_trustedNames ∅ hk fun pod hmem => (hp pod hmem).1)
    fun found τ hτ => ?_
  cases found with
  | none => exact guarded_done _
  | some names =>
    have hkτ : kindAfter (past ++ τ) = .target := by
      refine kindAfter_append hk fun x hx => ?_
      obtain ⟨k, v, hc⟩ := asks_trustedNames selected ∅ τ _ hτ x hx
      rw [hc]
      rfl
    have hnames : ∀ n ∈ names.toList, P ⟨key.namespaceName, n⟩ := by
      intro n hn
      rw [← SortedSet.mem_def, mem_of_trustedNames hτ n] at hn
      rcases hn with hn | hn
      · exact absurd hn SortedSet.not_mem_empty
      · obtain ⟨pod, hmem, rfl⟩ := List.mem_map.1 hn
        exact (hp pod hmem).2
    refine Guarded.bind (Guarded.bind ((asks_releaseTargets_isPlain _ _ _ _).guarded
      fun _ _ hx => usesKind_of_isPlain hx) fun _ σ hσ => ?_) fun targets σ hσ => ?_
    · exact usesKind_claimTargets
        (kindAfter_append hkτ ((asks_releaseTargets _ _ _ _).isNow hσ)) hnames
    · refine Guarded.bind ?_ fun merged _ _ => usesKind_recordOutcome merged hrs
      exact guarded_ask (fun _ => usesKind_of_isPlain rfl) fun stages =>
        guarded_ask (fun _ => usesKind_of_isPlain rfl) fun _ => guarded_done _

theorem asks_finishDeletion_isPlain (b : RetryBackoff) (rs : RuleSet) :
    (finishDeletion b rs).Asks fun c => c.isPlain = true := by
  refine Asks.bind (asks_releaseTargets_isPlain b _ _ _) fun _ =>
    (asks_letGo b rs).mono fun c hc => ?_
  unfold Call.letsRuleSetGo at hc
  split at hc <;> first | rfl | cases hc

/-- After the listing a pass uses the targets' keys until it records the outcome, and then its
own. -/
theorem usesKind_afterListing {s : Settings} {key : ObjectKey} {rs : RuleSet}
    {selected : List Pod} (hk : kindAfter past = .target) (hrs : R rs.key)
    (hp : ∀ pod ∈ selected, P pod.key ∧ P ⟨key.namespaceName, pod.metadata.anyName⟩) :
    (afterListing s key rs selected).Guarded (UsesKind R P key.namespaceName) past := by
  have plain {β : Type} {p : Pass β} (h : p.Asks fun c => c.isPlain = true) :
      p.Guarded (UsesKind R P key.namespaceName) past :=
    h.guarded fun _ _ hx => usesKind_of_isPlain hx
  unfold afterListing
  split
  · -- The rule set that comes back with the finalizer was answered by the store.
    have hhold := asks_holdRuleSet_isPlain s.retry rs
    refine Guarded.bind (plain hhold) fun held τ hτ => guarded_of_names fun hnames => ?_
    have hkτ : kindAfter (past ++ τ) = .target :=
      kindAfter_append hk fun x hx => Call.isNow_of_isPlain (hhold τ _ hτ x hx)
    have hheld : R held.key :=
      names_of_holdRuleSet hrs hτ fun x hx => hnames x (List.mem_append_right _ hx)
    exact usesKind_processTargets hkτ hheld hp
  · split
    · exact Guarded.bind (plain (asks_finishDeletion_isPlain _ _)) fun _ _ _ => guarded_done _
    · exact guarded_done _
  · split
    · exact guarded_ask (fun _ => usesKind_of_isPlain rfl) fun _ => guarded_done _
    · exact guarded_done _

/-- A pass uses the expectation of an object only while it looks after objects of that kind. -/
theorem usesKind_reconcile (s : Settings) {key : ObjectKey} (hkey : R key) :
    (reconcile s key).Guarded (UsesKind R P key.namespaceName) [] := by
  refine guarded_ask (fun _ => usesKind_of_isPlain rfl) fun reply => ?_
  rcases reply with (m | m | m) | rs
  · exact guarded_done _
  · exact guarded_failed _
  · exact guarded_failed _
  refine guarded_ask (fun _ _ k hk => ?_) fun trusted => ?_
  · cases hk
    exact hkey
  cases trusted with
  | false => exact guarded_done _
  | true =>
    simp only [if_true]
    split
    · exact guarded_failed _
    refine guarded_ask (fun _ => usesKind_of_isPlain rfl) fun reply => ?_
    rcases reply with e | selected
    · exact guarded_failed _
    refine guarded_of_names fun hnames => usesKind_afterListing rfl ?_ ?_
    · exact (hnames ⟨.store (.getRuleSet key), .ok rs⟩ (by simp)).ruleSet rs rfl
    · exact (hnames ⟨.store (.listTargets key.namespaceName rs.spec.selector), .ok selected⟩
        (by simp)).listed selected rfl

end Pass

end PodRules
