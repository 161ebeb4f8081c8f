import PodRules.Proofs.Pass.Ownership
import PodRules.Proofs.Pass.Release

/-!
Pods that name a rule set as an owner although its status does not record them. A claim is written
before the status that records it, so a pass that fails in between leaves the pod unrecorded, and
only a status written over it settles that. Main statement: what one pass does to the unrecorded
pods can be read off its trace, and when it takes the finalizer exactly they keep their owner
(`accounts_reconcile`).
-/

namespace PodRules

/-- A pod of the namespace names the rule set as an owner, and is not recorded as its target. -/
def Cluster.Unrecorded (s : Cluster) (key : ObjectKey) (n : String) : Prop :=
  s.Owns key.name ⟨key.namespaceName, n⟩ ∧ n ∉ s.recorded key

def Call.evaluates : Call → Bool
  | .evaluate _ _ _ => true
  | _ => false

def listedNames (τ : List Exchange) : List String :=
  ((τ.findSome? Exchange.listing?).getD []).map (·.metadata.anyName)

def recordAtStart (τ : List Exchange) : List String :=
  ((τ.findSome? Exchange.ruleSet?).map fun rs => rs.recordedStatus.targets).getD []

structure LeavesOpen (key : ObjectKey) (record : List String) (τ : List Exchange)
    (res : Except Failure Outcome) (n : String) : Prop where
  failed : ∃ e, res = .error e
  claimed : Cluster.Claims key.name (writes τ) ⟨key.namespaceName, n⟩
  unrecorded : n ∉ record

structure Settles (names : List String) (τ : List Exchange) (res : Except Failure Outcome)
    (n : String) : Prop where
  ended : ∃ o, res = .ok o
  evaluated : ∃ x ∈ τ, x.call.evaluates = true
  listed : n ∈ names

def TakesFinalizer (ws : List StoreCall) : Prop := ∃ u, .updateRuleSet u ∈ ws ∧ u.isHeld = false

namespace Cluster

structure Accounts (key : ObjectKey) (record names : List String) (s : Cluster)
    (τ : List Exchange) (t : Cluster) (res : Except Failure Outcome) : Prop where
  unrecorded_iff : ∀ n, t.Unrecorded key n ↔
    (s.Unrecorded key n ∧ ¬ Settles names τ res n) ∨ LeavesOpen key record τ res n
  owns_iff : TakesFinalizer (writes τ) →
    ∀ n, t.Owns key.name ⟨key.namespaceName, n⟩ ↔ s.Unrecorded key n

variable {mayFail : StoreError → Prop} {s t u : Cluster} {τ : List Exchange} {key : ObjectKey}
  {record names : List String} {rs : RuleSet} {settings : Settings}
  {res : Except Failure Outcome}

/-- What is unrecorded depends on the pods and on the recorded targets alone. -/
theorem unrecorded_congr (hp : t.pods = s.pods) (hr : t.recorded key = s.recorded key)
    (n : String) : t.Unrecorded key n ↔ s.Unrecorded key n := by
  rw [Unrecorded, Unrecorded, owns_congr hp, hr]

/-- A part that makes no claim and runs no stage accounts for nothing. -/
theorem Accounts.of_quiet (hu : ∀ n, t.Unrecorded key n ↔ s.Unrecorded key n)
    (hc : ∀ k, ¬ Claims key.name (writes τ) k) (he : ∀ x ∈ τ, x.call.evaluates = false)
    (hf : TakesFinalizer (writes τ) →
      ∀ n, t.Owns key.name ⟨key.namespaceName, n⟩ ↔ s.Unrecorded key n) :
    Accounts key record names s τ t res := by
  refine ⟨fun n => ?_, hf⟩
  have hsettle : ¬ Settles names τ res n := by
    rintro ⟨-, ⟨x, hx, hev⟩, -⟩
    rw [he x hx] at hev
    cases hev
  have hopen : ¬ LeavesOpen key record τ res n := fun h => hc _ h.claimed
  rw [hu n]
  constructor
  · exact fun h => Or.inl ⟨h, hsettle⟩
  · rintro (h | h)
    · exact h.1
    · exact absurd h hopen

theorem Accounts.of_unchanged (hn : writes τ = []) (he : ∀ x ∈ τ, x.call.evaluates = false) :
    Accounts key record names s τ s res := by
  refine .of_quiet (fun _ => Iff.rfl) (by simp [hn]) he ?_
  rintro ⟨u, hu, -⟩
  simp [hn] at hu

/-- A part that fails records nothing of what it claimed. -/
theorem Accounts.of_failed {e : Failure}
    (hu : ∀ n, t.Unrecorded key n ↔ s.Unrecorded key n ∨
      (Claims key.name (writes τ) ⟨key.namespaceName, n⟩ ∧ n ∉ record))
    (hf : ¬ TakesFinalizer (writes τ)) : Accounts key record names s τ t (.error e) := by
  refine ⟨fun n => ?_, fun h => absurd h hf⟩
  have hsettle : ¬ Settles names τ (.error e) n := by
    rintro ⟨⟨o, ho⟩, -, -⟩
    cases ho
  have hopen : LeavesOpen key record τ (.error e) n ↔
      Claims key.name (writes τ) ⟨key.namespaceName, n⟩ ∧ n ∉ record :=
    ⟨fun h => ⟨h.claimed, h.unrecorded⟩, fun h => ⟨⟨e, rfl⟩, h.1, h.2⟩⟩
  rw [hu n, hopen, and_iff_left hsettle]

theorem takesFinalizer_append {ws vs : List StoreCall} :
    TakesFinalizer (ws ++ vs) ↔ TakesFinalizer ws ∨ TakesFinalizer vs := by
  constructor
  · rintro ⟨u, hu, hh⟩
    exact (List.mem_append.1 hu).imp (fun h => ⟨u, h, hh⟩) fun h => ⟨u, h, hh⟩
  · rintro (⟨u, hu, hh⟩ | ⟨u, hu, hh⟩)
    · exact ⟨u, List.mem_append_left _ hu, hh⟩
    · exact ⟨u, List.mem_append_right _ hu, hh⟩

/-- An earlier part that changes neither pods nor record, and runs no stage, changes no account. -/
theorem Accounts.prepend {σ : List Exchange} (h : Accounts key record names u τ t res)
    (hu : ∀ n, u.Unrecorded key n ↔ s.Unrecorded key n)
    (hc : ∀ k, ¬ Claims key.name (writes σ) k) (hf : ¬ TakesFinalizer (writes σ))
    (he : ∀ x ∈ σ, x.call.evaluates = false) : Accounts key record names s (σ ++ τ) t res := by
  have hsettle (n : String) : Settles names (σ ++ τ) res n ↔ Settles names τ res n := by
    constructor
    · rintro ⟨ho, ⟨x, hx, hev⟩, hl⟩
      refine ⟨ho, ⟨x, (List.mem_append.1 hx).resolve_left fun hx => ?_, hev⟩, hl⟩
      rw [he x hx] at hev
      cases hev
    · rintro ⟨ho, ⟨x, hx, hev⟩, hl⟩
      exact ⟨ho, ⟨x, List.mem_append_right _ hx, hev⟩, hl⟩
  have hclaims (k : ObjectKey) :
      Claims key.name (writes (σ ++ τ)) k ↔ Claims key.name (writes τ) k := by
    rw [writes_append, claims_append]
    exact or_iff_right (hc k)
  have hopen (n : String) :
      LeavesOpen key record (σ ++ τ) res n ↔ LeavesOpen key record τ res n :=
    ⟨fun h => ⟨h.failed, (hclaims _).1 h.claimed, h.unrecorded⟩,
      fun h => ⟨h.failed, (hclaims _).2 h.claimed, h.unrecorded⟩⟩
  constructor
  · intro n
    rw [hsettle, hopen, ← hu]
    exact h.unrecorded_iff n
  · intro ht n
    rw [writes_append, takesFinalizer_append] at ht
    rw [← hu]
    exact h.owns_iff (ht.resolve_left hf) n

/-! ## The claims of a pass -/

section Served

variable (hne : ∀ e, mayFail e → e.isNotFound = false)
include hne

/-- However it ends, carrying out a plan releases and then claims. -/
theorem carryOut_effect {b : RetryBackoff} {ns owner : String} {plan : ClaimPlan}
    {res : Except Failure (List Pod)} (hw : s.WellKeyed)
    (h : (carryOut b ns owner plan).Ends τ res) (hs : Serves mayFail s τ t) :
    ∃ u ws vs, writes τ = ws ++ vs ∧
      Releases owner (fun k => ∃ n ∈ plan.release, k = ⟨ns, n⟩) s ws u ∧
      Adds owner (fun k => ∃ n ∈ plan.claim, k = ⟨ns, n⟩) u vs t ∧
      ((∃ pods, res = .ok pods) → ∀ n ∈ plan.release, ¬ u.Owns owner ⟨ns, n⟩) := by
  rcases serves_bind h hs with ⟨e, he, rfl⟩ | ⟨⟨⟩, τ₁, τ₂, u, rfl, h₁, hs₁, h₂, hs₂⟩
  · have hr := (releases_of_releaseTargets hne hw he hs).1
    exact ⟨t, _, [], (List.append_nil _).symm, hr, .refl _ _ _, by rintro ⟨pods, ⟨⟩⟩⟩
  · obtain ⟨hr, hno⟩ := releases_of_releaseTargets hne hw h₁ hs₁
    exact ⟨u, _, _, writes_append .., hr, adds_of_claimTargets hne (hs₁.wellKeyed hw) h₂ hs₂,
      fun _ => hno rfl⟩

/-- Carrying out the plan of a selection adds the claimed pods to the unrecorded ones, and once it
came to its end every owned pod that is not selected was unrecorded before. -/
theorem unrecorded_carryOut {b : RetryBackoff} {selected : SortedSet String}
    {res : Except Failure (List Pod)} (hw : s.WellKeyed)
    (h : (carryOut b key.namespaceName key.name
      (.ofSelection (s.recorded key) selected)).Ends τ res)
    (hs : Serves mayFail s τ t) :
    t.ruleSets = s.ruleSets ∧
      (∀ n, t.Unrecorded key n ↔ s.Unrecorded key n ∨
        (Claims key.name (writes τ) ⟨key.namespaceName, n⟩ ∧ n ∉ s.recorded key)) ∧
      ((∃ pods, res = .ok pods) → ∀ n, ¬ n ∈ selected →
        (t.Owns key.name ⟨key.namespaceName, n⟩ ↔ s.Unrecorded key n)) := by
  obtain ⟨u, ws, vs, hτ, hr, ha, hno⟩ := carryOut_effect hne hw h hs
  have hruleSets : t.ruleSets = s.ruleSets := ha.ruleSets.trans hr.ruleSets
  have hrecorded : t.recorded key = s.recorded key := by rw [recorded, recorded, hruleSets]
  -- The releases are of recorded targets only.
  have hkept (n : String) (hn : n ∉ s.recorded key) :
      u.Owns key.name ⟨key.namespaceName, n⟩ ↔ s.Owns key.name ⟨key.namespaceName, n⟩ := by
    constructor
    · exact hr.owns_of_owns _ _
    · intro ho
      refine (hr.owns_or _ _ ho).resolve_right ?_
      rintro ⟨-, m, hm, hkey⟩
      cases hkey
      exact hn (ClaimPlan.mem_release.1 hm).1
  have hclaims (n : String) : Claims key.name (writes τ) ⟨key.namespaceName, n⟩ ↔
      Claims key.name vs ⟨key.namespaceName, n⟩ := by
    rw [hτ, claims_append]
    exact or_iff_right (hr.not_claims _)
  refine ⟨hruleSets, fun n => ?_, fun hres n hsel => ?_⟩
  · rw [Unrecorded, Unrecorded, hrecorded, ha.owns_iff, hclaims]
    constructor
    · rintro ⟨ho | hc, hn⟩
      · exact Or.inl ⟨(hkept n hn).1 ho, hn⟩
      · exact Or.inr ⟨hc, hn⟩
    · rintro (⟨ho, hn⟩ | ⟨hc, hn⟩)
      · exact ⟨Or.inl ((hkept n hn).2 ho), hn⟩
      · exact ⟨Or.inr hc, hn⟩
  · have hunclaimed : ¬ Claims key.name vs ⟨key.namespaceName, n⟩ := by
      intro hc
      obtain ⟨m, hm, hkey⟩ := ha.claims _ hc
      cases hkey
      exact hsel hm
    rw [ha.owns_iff, or_iff_left hunclaimed, Unrecorded]
    by_cases hn : n ∈ s.recorded key
    · constructor
      · exact fun ho => absurd ho (hno hres n (ClaimPlan.mem_release.2 ⟨hn, hsel⟩))
      · exact fun ho => absurd hn ho.2
    · rw [hkept n hn]
      exact ⟨fun ho => ⟨ho, hn⟩, And.left⟩

omit hne in
/-- Calls that are neither calls of the store nor runs of the stages. -/
theorem quiet_of_trusts {pods : List Pod} {start : SortedSet String} {σ : List Exchange}
    {r : Except Failure (Option (SortedSet String))} (h : (trustedNames pods start).Ends σ r) :
    (∀ x ∈ σ, ∀ c, x.call ≠ .store c) ∧ writes σ = [] ∧ ∀ x ∈ σ, x.call.evaluates = false := by
  have hall := Pass.asks_trustedNames pods start σ r h
  refine ⟨fun x hx c hc => ?_, List.filterMap_eq_nil_iff.2 fun x hx => ?_, fun x hx => ?_⟩
  · obtain ⟨k, v, he⟩ := hall x hx
    rw [he] at hc
    cases hc
  · obtain ⟨k, v, he⟩ := hall x hx
    obtain ⟨c, r⟩ := x
    cases he
    rfl
  · obtain ⟨k, v, he⟩ := hall x hx
    rw [he]
    rfl

omit hne in
/-- The pods of a part that only concerns targets: no stage runs and no finalizer is touched. -/
theorem quiet_of_asksTargets {α : Type} {p : Pass α} {keys : ObjectKey → Prop}
    {r : Except Failure α} (ha : p.AsksTargets keys) (h : p.Ends τ r) :
    (∀ x ∈ τ, x.call.evaluates = false) ∧ ∀ u, .updateRuleSet u ∉ writes τ := by
  have hall := ha τ r h
  refine ⟨fun x hx => ?_, fun u hu => ?_⟩
  · obtain ⟨c, r⟩ := x
    have hc := (hall _ hx).1
    cases c with
    | evaluate _ _ _ => cases hc
    | _ => rfl
  · obtain ⟨⟨c, r⟩, hx, hw⟩ := List.mem_filterMap.1 hu
    have hc := (hall _ hx).1
    cases c with
    | store c =>
      cases c with
      | updateRuleSet _ => cases hc
      | updateTarget _ => cases r <;> cases hw
      | getTarget _ => cases hw
      | _ => cases hc
    | _ => cases hw

omit hne in
/-- The end of a pass that has carried out its plan: the stages are run, and what they say is
recorded together with the selection. -/
theorem accounts_recordOutcome {selection : SortedSet String} {targets : List Pod}
    {σ : List Exchange} (hrs : u.ruleSets.get? key = some rs) (hkey : rs.key = key)
    (hkept : ¬ TakesFinalizer (writes σ))
    (hun : ∀ n, u.Unrecorded key n ↔ s.Unrecorded key n ∨
      (Claims key.name (writes σ) ⟨key.namespaceName, n⟩ ∧ n ∉ record))
    (howns : ∀ n, ¬ n ∈ selection →
      (u.Owns key.name ⟨key.namespaceName, n⟩ ↔ s.Unrecorded key n))
    (hnames : ∀ n, n ∈ selection ↔ n ∈ names)
    (h : ((evaluateStages rs targets).bind fun merged =>
      recordOutcome key.namespaceName rs selection merged).Ends τ res)
    (hs : Serves mayFail u τ t) : Accounts key record names s (σ ++ τ) t res := by
  obtain ⟨stages, rest, rfl, h₁⟩ := Pass.ends_ask_iff.1 h
  obtain ⟨completions, ρ, rfl, h₂⟩ := Pass.ends_ask_iff.1 h₁
  rw [serves_aside_iff (by rintro c ⟨⟩), serves_aside_iff (by rintro c ⟨⟩)] at hs
  have hrec := records_of_recordOutcome (by rwa [hkey]) h₂ hs
  rw [hkey] at hrec
  have hwrites : writes (σ ++
      ⟨.stages, stages⟩ :: ⟨.evaluate stages rs targets, completions⟩ :: ρ) =
        writes σ ++ writes ρ := by
    rw [writes_append, writes_aside (by rintro c ⟨⟩), writes_aside (by rintro c ⟨⟩)]
  have hstays : ¬ TakesFinalizer (writes σ ++ writes ρ) := by
    intro ht
    rcases takesFinalizer_append.1 ht with ht | ⟨w, hw, -⟩
    · exact hkept ht
    · obtain ⟨v, hv⟩ := hrec.statuses _ hw
      cases hv
  rw [← hwrites] at hstays
  cases res with
  | error e =>
    -- The status could not be written, and nothing else happened after the claims.
    obtain rfl := hrec.error e rfl
    refine .of_failed (fun n => ?_) hstays
    rw [hwrites, claims_append, or_iff_left (hrec.not_claims _ _)]
    exact hun n
  | ok o =>
    refine ⟨fun n => ?_, fun h => absurd h hstays⟩
    have hopen (σ : List Exchange) : ¬ LeavesOpen key record σ (.ok o) n := by
      rintro ⟨⟨e, he⟩, -, -⟩
      cases he
    -- The record is the selection now, so what is owned outside of it was unrecorded before.
    rw [or_iff_left (hopen _), Unrecorded, owns_congr hrec.pods, hrec.ok o rfl]
    constructor
    · rintro ⟨ho, hn⟩
      refine ⟨(howns n hn).1 ho, fun hset => hn ?_⟩
      exact (hnames n).2 hset.listed
    · rintro ⟨ho, hset⟩
      have hn : ¬ n ∈ selection := by
        intro hn
        exact hset ⟨⟨o, rfl⟩, ⟨_, List.mem_append_right _ (List.mem_cons_of_mem _
          (List.mem_cons_self ..)), rfl⟩, (hnames n).1 hn⟩
      exact ⟨(howns n hn).2 ho, hn⟩

/-- The targets' part of a pass: a claim before the status is written leaves a pod unrecorded, and
the status write settles all of them. -/
theorem accounts_processTargets {selected : List Pod} (hw : s.WellKeyed)
    (hrs : s.ruleSets.get? key = some rs) (hkey : rs.key = key)
    (h : (processTargets settings key rs selected).Ends τ res) (hs : Serves mayFail s τ t) :
    Accounts key rs.recordedStatus.targets (selected.map (·.metadata.anyName)) s τ t res := by
  -- First the views of the targets are looked at, which is no call of the store.
  rcases serves_bind h hs with ⟨e, he, rfl⟩ | ⟨trusted, τ₁, τ₂, u, rfl, h₁, hs₁, h₂, hs₂⟩
  · obtain ⟨haside, hnone, hquiet⟩ := quiet_of_trusts he
    obtain rfl := hs.eq_of_aside haside
    exact .of_unchanged hnone hquiet
  obtain ⟨haside, hnone, hquiet⟩ := quiet_of_trusts h₁
  obtain rfl : s = u := (hs₁.eq_of_aside haside).symm
  refine Accounts.prepend ?_ (fun _ => Iff.rfl) (by simp [hnone]) (by simp [hnone, TakesFinalizer])
    hquiet
  rcases trusted with _ | selection
  · obtain ⟨rfl, rfl⟩ := Pass.ends_done_iff.1 h₂
    obtain rfl := serves_nil_iff.1 hs₂
    exact .of_unchanged rfl (by simp)
  have hnames : ∀ n, n ∈ selection ↔ n ∈ selected.map (·.metadata.anyName) := by
    intro n
    rw [mem_of_trustedNames h₁]
    exact or_iff_right SortedSet.not_mem_empty
  rw [← recorded_of_get? hrs] at h₂ ⊢
  -- Then targets are released and claimed; a failure leaves the claims so far unrecorded.
  have hasks := Pass.asks_carryOut settings.retry key.namespaceName key.name
    (.ofSelection (s.recorded key) selection)
  have hkept {σ : List Exchange} {r : Except Failure (List Pod)}
      (h : (carryOut settings.retry key.namespaceName key.name
        (.ofSelection (s.recorded key) selection)).Ends σ r) : ¬ TakesFinalizer (writes σ) := by
    rintro ⟨u, hu, -⟩
    exact (quiet_of_asksTargets hasks h).2 u hu
  rcases serves_bind h₂ hs₂ with ⟨e, he, rfl⟩ | ⟨targets, σ₁, σ₂, v, rfl, h₃, hs₃, h₄, hs₄⟩
  · obtain ⟨-, hun, -⟩ := unrecorded_carryOut hne hw he hs₂
    exact .of_failed hun (hkept he)
  · obtain ⟨hruleSets, hun, howns⟩ := unrecorded_carryOut hne hw h₃ hs₃
    exact accounts_recordOutcome (by rwa [hruleSets]) hkey (hkept h₃) hun (howns ⟨targets, rfl⟩)
      hnames h₄ hs₄

/-! ## The deletion -/

/-- Finishing the deletion releases recorded pods only: the unrecorded ones stay as they were, and
are all that is left when the finalizer goes. -/
theorem unrecorded_finishDeletion {b : RetryBackoff} {res : Except Failure Unit}
    (hw : s.WellKeyed) (hrs : s.ruleSets.get? key = some rs) (hkey : rs.key = key)
    (h : (finishDeletion b rs).Ends τ res) (hs : Serves mayFail s τ t) :
    (∀ n, t.Unrecorded key n ↔ s.Unrecorded key n) ∧ (∀ k, ¬ Claims key.name (writes τ) k) ∧
      (TakesFinalizer (writes τ) →
        ∀ n, t.Owns key.name ⟨key.namespaceName, n⟩ ↔ s.Unrecorded key n) := by
  rw [finishDeletion, hkey, ← recorded_of_get? hrs] at h
  -- The releases leave the unrecorded pods alone.
  have hkept {u : Cluster} {σ : List Exchange}
      (hr : Releases key.name (fun k => ∃ n ∈ s.recorded key, k = ⟨key.namespaceName, n⟩) s
        (writes σ) u) (n : String) : u.Unrecorded key n ↔ s.Unrecorded key n := by
    have hrecorded : u.recorded key = s.recorded key := by rw [recorded, recorded, hr.ruleSets]
    rw [Unrecorded, Unrecorded, hrecorded]
    constructor
    · rintro ⟨ho, hn⟩
      exact ⟨hr.owns_of_owns _ _ ho, hn⟩
    · rintro ⟨ho, hn⟩
      refine ⟨(hr.owns_or _ _ ho).resolve_right ?_, hn⟩
      rintro ⟨-, m, hm, he⟩
      cases he
      exact hn hm
  have hasks := Pass.asks_releaseTargets b key.namespaceName key.name (s.recorded key)
  rcases serves_bind h hs with ⟨e, he, rfl⟩ | ⟨⟨⟩, τ₁, τ₂, u, rfl, h₁, hs₁, h₂, hs₂⟩
  · have hr := (releases_of_releaseTargets hne hw he hs).1
    refine ⟨hkept hr, hr.not_claims, ?_⟩
    rintro ⟨v, hv, -⟩
    exact absurd hv ((quiet_of_asksTargets hasks he).2 v)
  obtain ⟨hr, hno⟩ := releases_of_releaseTargets hne hw h₁ hs₁
  obtain ⟨hpods, hnoclaims, hrecorded⟩ := letGo_effect hne (hs₁.wellKeyed hw) h₂ hs₂
  rw [hkey] at hrecorded
  -- All recorded pods are released by now, so the unrecorded ones are all that are left.
  have howns (n : String) : t.Owns key.name ⟨key.namespaceName, n⟩ ↔ s.Unrecorded key n := by
    rw [owns_congr hpods, ← hkept hr n, Unrecorded]
    have hsame : u.recorded key = s.recorded key := by rw [recorded, recorded, hr.ruleSets]
    constructor
    · intro ho
      refine ⟨ho, fun hn => hno rfl n ?_ ho⟩
      rwa [← hsame]
    · exact And.left
  refine ⟨fun n => ?_, fun k hk => ?_, fun _ => howns⟩
  · rw [Unrecorded, howns]
    constructor
    · exact And.left
    · intro hun
      refine ⟨hun, ?_⟩
      rcases hrecorded with hrec | hrec
      · rw [hrec]
        exact ((hkept hr n).2 hun).2
      · rw [hrec]
        exact List.not_mem_nil
  · rw [writes_append, claims_append] at hk
    rcases hk with hk | hk
    · exact hr.not_claims k hk
    · exact hnoclaims _ k hk

omit hne in
theorem evaluates_of_holdRuleSet {b : RetryBackoff} {res : Except Failure RuleSet}
    (h : (holdRuleSet b rs).Ends τ res) : ∀ x ∈ τ, x.call.evaluates = false := by
  intro x hx
  have hc := Pass.asks_holdRuleSet b rs τ res h x hx
  obtain ⟨c, r⟩ := x
  cases c with
  | evaluate _ _ _ => cases hc
  | _ => rfl

omit hne in
theorem evaluates_of_finishDeletion {b : RetryBackoff} {res : Except Failure Unit}
    (h : (finishDeletion b rs).Ends τ res) : ∀ x ∈ τ, x.call.evaluates = false := by
  have hasks : (finishDeletion b rs).Asks fun c => c.evaluates = false := by
    refine Pass.Asks.bind ?_ fun _ => ?_
    · intro σ r hσ
      exact (quiet_of_asksTargets (Pass.asks_releaseTargets b _ _ _) hσ).1
    · refine (Pass.asks_letGo b rs).mono fun c hc => ?_
      cases c with
      | evaluate _ _ _ => cases hc
      | _ => rfl
  exact hasks τ res h

/-! ## The whole pass -/

/-- The finalizer is made sure of, which changes neither pods nor record, and then the targets are
worked on. -/
theorem accounts_holdRuleSet {selected : List Pod} (hw : s.WellKeyed)
    (hrs : s.ruleSets.get? key = some rs) (hkey : rs.key = key)
    (h : ((holdRuleSet settings.retry rs).bind fun held =>
      processTargets settings key held selected).Ends τ res)
    (hs : Serves mayFail s τ t) :
    Accounts key rs.recordedStatus.targets (selected.map (·.metadata.anyName)) s τ t res := by
  have hrs' : s.ruleSets.get? rs.key = some rs := by rwa [hkey]
  have hkeeps {σ : List Exchange} {v : Cluster} {r : Except Failure RuleSet}
      (h : Holds rs s (writes σ) v r) :
      (∀ n, v.Unrecorded key n ↔ s.Unrecorded key n) ∧ ¬ TakesFinalizer (writes σ) := by
    refine ⟨unrecorded_congr h.pods (hkey ▸ h.recorded), ?_⟩
    rintro ⟨w, hw, hnot⟩
    obtain ⟨w', hw', hheld⟩ := h.held _ hw
    cases hw'
    rw [hheld] at hnot
    cases hnot
  rcases serves_bind h hs with ⟨e, he, rfl⟩ | ⟨held, τ₁, τ₂, u, rfl, h₁, hs₁, h₂, hs₂⟩
  · have hh := holds_of_holdRuleSet hw hrs' he hs
    exact .of_quiet (hkeeps hh).1 (hh.not_claims _) (evaluates_of_holdRuleSet he) fun hf =>
      absurd hf (hkeeps hh).2
  · have hh := holds_of_holdRuleSet hw hrs' h₁ hs₁
    obtain ⟨hstored, hheldkey, -, hstatus⟩ := hh.stored held rfl
    have hacc := accounts_processTargets hne (hs₁.wellKeyed hw) (hkey ▸ hstored)
      (hheldkey.trans hkey) h₂ hs₂
    rw [hstatus] at hacc
    exact hacc.prepend (hkeeps hh).1 (hh.not_claims _) (hkeeps hh).2 (evaluates_of_holdRuleSet h₁)

theorem accounts_finishDeletion {o : Outcome} (hw : s.WellKeyed)
    (hrs : s.ruleSets.get? key = some rs) (hkey : rs.key = key)
    (h : ((finishDeletion settings.retry rs).bind fun _ => .done o).Ends τ res)
    (hs : Serves mayFail s τ t) : Accounts key record names s τ t res := by
  rcases serves_bind h hs with ⟨e, he, rfl⟩ | ⟨⟨⟩, τ₁, τ₂, u, rfl, h₁, hs₁, h₂, hs₂⟩
  · obtain ⟨hun, hno, howns⟩ := unrecorded_finishDeletion hne hw hrs hkey he hs
    exact .of_quiet hun hno (evaluates_of_finishDeletion he) howns
  · obtain ⟨rfl, rfl⟩ := Pass.ends_done_iff.1 h₂
    obtain rfl := serves_nil_iff.1 hs₂
    rw [List.append_nil]
    obtain ⟨hun, hno, howns⟩ := unrecorded_finishDeletion hne hw hrs hkey h₁ hs₁
    exact .of_quiet hun hno (evaluates_of_finishDeletion h₁) howns

theorem accounts_afterListing {selected : List Pod} (hw : s.WellKeyed)
    (hrs : s.ruleSets.get? key = some rs) (hkey : rs.key = key)
    (h : (afterListing settings key rs selected).Ends τ res) (hs : Serves mayFail s τ t) :
    Accounts key rs.recordedStatus.targets (selected.map (·.metadata.anyName)) s τ t res := by
  have hdone {o : Outcome} (h : (Pass.done o).Ends τ res) :
      Accounts key rs.recordedStatus.targets (selected.map (·.metadata.anyName)) s τ t res := by
    obtain ⟨rfl, rfl⟩ := Pass.ends_done_iff.1 h
    obtain rfl := serves_nil_iff.1 hs
    exact .of_unchanged rfl (by simp)
  unfold afterListing at h
  split at h
  · exact accounts_holdRuleSet hne hw hrs hkey h hs
  · -- The deletion is carried out, unless the finalizer has gone already.
    split at h
    · exact accounts_finishDeletion hne hw hrs hkey h hs
    · exact hdone h
  · -- The deletion waits, and only a warning may be recorded.
    split at h
    · obtain ⟨r, rest, rfl, h₁⟩ := Pass.ends_ask_iff.1 h
      obtain ⟨rfl, rfl⟩ := Pass.ends_done_iff.1 h₁
      rw [serves_aside_iff (by rintro c ⟨⟩)] at hs
      obtain rfl := serves_nil_iff.1 hs
      exact .of_unchanged rfl (by simp [Call.evaluates])
    · exact hdone h

/-- Every pass keeps account of the pods that a rule set owns without a record of them. -/
theorem accounts_reconcile (hw : s.WellKeyed) (h : (reconcile settings key).Ends τ res)
    (hs : Serves mayFail s τ t) :
    Accounts key (recordAtStart τ) (listedNames τ) s τ t res := by
  obtain ⟨r, rest, rfl, h₁⟩ := Pass.ends_ask_iff.1 h
  rcases r with e | rs
  · -- The rule set is not there, or cannot be read.
    have hnil : rest = [] := by
      cases e <;> first | exact (Pass.ends_done_iff.1 h₁).1 | exact (Pass.ends_failed_iff.1 h₁).1
    subst hnil
    obtain rfl := serves_nil_iff.1 (serves_getRuleSet_error hs).2
    exact .of_unchanged rfl (by simp [Call.evaluates])
  obtain ⟨hrs, hs₁⟩ := serves_getRuleSet_ok hs
  obtain ⟨trusted, rest, rfl, h₂⟩ := Pass.ends_ask_iff.1 h₁
  rw [serves_aside_iff (by rintro c ⟨⟩)] at hs₁
  -- A stale view, a selector that denotes nothing and a listing that fails end the pass at once.
  cases trusted with
  | false =>
    obtain ⟨rfl, rfl⟩ := Pass.ends_done_iff.1 h₂
    obtain rfl := serves_nil_iff.1 hs₁
    exact .of_unchanged rfl (by simp [Call.evaluates])
  | true =>
    simp only [if_true] at h₂
    split at h₂
    · obtain ⟨rfl, rfl⟩ := Pass.ends_failed_iff.1 h₂
      obtain rfl := serves_nil_iff.1 hs₁
      exact .of_unchanged rfl (by simp [Call.evaluates])
    obtain ⟨r, rest, rfl, h₃⟩ := Pass.ends_ask_iff.1 h₂
    rcases r with e | selected
    · obtain ⟨rfl, rfl⟩ := Pass.ends_failed_iff.1 h₃
      obtain rfl := serves_nil_iff.1 (serves_listTargets hs₁).2
      exact .of_unchanged rfl (by simp [Call.evaluates])
    · have hacc := accounts_afterListing hne hw hrs (hw.ruleSet _ _ hrs) h₃
        (serves_listTargets hs₁).2
      change Accounts key _ _ s ([⟨.store (.getRuleSet key), .ok rs⟩, ⟨.trust key rs.version, true⟩,
        ⟨.store (.listTargets key.namespaceName rs.spec.selector), .ok selected⟩] ++ rest) t res
      refine hacc.prepend (fun _ => Iff.rfl) (fun k hk => ?_) ?_ ?_
      · exact not_claims_nil hk
      · rintro ⟨u, hu, -⟩
        cases hu
      · simp [Call.evaluates]

end Served

end Cluster

end PodRules
