import PodRules.Proofs.Run.LateDeletion

/-!
The generation that a status records. A pass lists its targets with the selector of the copy that it
read first, and records the generation of the copy that came back with the finalizer. Where other
writers raise the generation with every update of the spec, a generation stands for one spec through
the whole history (`StoredDuring.spec_eq`). Main statement: the recorded targets are what the
selector at the recorded generation listed exactly when the two copies list the same names
(`observed_generation_honest_iff`).
-/

namespace PodRules

def RuleSet.generation (rs : RuleSet) : Int64 := rs.metadata.generation.getD 0

def Event.listed (l : Event) (ns : String) (selector : LabelSelector) : List String :=
  (l.before.list ns selector).map (·.metadata.anyName)

def RuleSet.Succeeds (new old : RuleSet) : Prop :=
  (new.spec = old.spec ∧ new.generation = old.generation) ∨ old.generation < new.generation

/-- An event does not change the spec that is stored under a key without raising its generation. -/
def Event.RaisesGeneration (key : ObjectKey) (e : Event) : Prop :=
  ∀ new, e.after.ruleSets.get? key = some new →
    ∃ old, e.before.ruleSets.get? key = some old ∧ new.Succeeds old

def StoredDuring (key : ObjectKey) (s : Cluster) (log : List Event) (rs : RuleSet) : Prop :=
  ∃ past u, past <+: log ∧ Leads s past u ∧ u.ruleSets.get? key = some rs

/-- The targets of a status are the names that a listing returns for the selector of the rule set at
the recorded generation. -/
def HonestAt (key : ObjectKey) (s : Cluster) (log : List Event) (l : Event)
    (status : RuleSetStatus) : Prop :=
  ∀ stored, StoredDuring key s log stored → stored.generation = status.observedGeneration →
    ∀ n, n ∈ status.targets ↔ n ∈ l.listed key.namespaceName stored.spec.selector

section

variable {settings : Settings} {b : RetryBackoff} {key : ObjectKey} {rs old new : RuleSet}
  {s t u : Cluster} {log : List Event} {e : Event} {τ : List Exchange}
  {res : Except Failure Outcome}

/-! ## A generation stands for one spec -/

theorem RuleSet.Succeeds.refl (rs : RuleSet) : rs.Succeeds rs := Or.inl ⟨rfl, rfl⟩

theorem RuleSet.Succeeds.trans {mid : RuleSet} (h₁ : new.Succeeds mid) (h₂ : mid.Succeeds old) :
    new.Succeeds old := by
  rcases h₁ with ⟨hspec₁, hgen₁⟩ | hlt₁
  · rcases h₂ with ⟨hspec₂, hgen₂⟩ | hlt₂
    · exact Or.inl ⟨hspec₁.trans hspec₂, hgen₁.trans hgen₂⟩
    · exact Or.inr (hgen₁ ▸ hlt₂)
  · rcases h₂ with ⟨-, hgen₂⟩ | hlt₂
    · exact Or.inr (hgen₂ ▸ hlt₁)
    · exact Or.inr (Int64.lt_trans hlt₂ hlt₁)

/-- A successor of the same generation has the same spec. -/
theorem RuleSet.Succeeds.spec_eq (h : new.Succeeds old) (hgen : new.generation = old.generation) :
    new.spec = old.spec := by
  rcases h with ⟨hspec, -⟩ | hlt
  · exact hspec
  · rw [hgen] at hlt
    exact absurd hlt Int64.lt_irrefl

theorem Event.RaisesGeneration.of_eq (h : e.after.ruleSets.get? key = e.before.ruleSets.get? key) :
    e.RaisesGeneration key := by
  intro new hnew
  exact ⟨new, h ▸ hnew, .refl new⟩

/-- When every event raises the generation with the spec, what is stored last succeeds what was
stored first. -/
theorem Leads.succeeds (h : Leads s log t) (hraise : ∀ e ∈ log, e.RaisesGeneration key)
    (hnew : t.ruleSets.get? key = some new) :
    ∃ old, s.ruleSets.get? key = some old ∧ new.Succeeds old := by
  -- On the events from the last one back: each of them names what it succeeds.
  induction h with
  | nil s => exact ⟨new, hnew, .refl new⟩
  | cons he _ ih =>
    obtain ⟨mid, hmid, hsucc⟩ := ih (fun d hd => hraise d (List.mem_cons_of_mem _ hd)) hnew
    obtain ⟨old, hold, hfirst⟩ := hraise _ (List.mem_cons_self ..) mid hmid
    exact ⟨old, hold, hsucc.trans hfirst⟩

/-- Of two moments of a history one comes first, so what is stored then is succeeded by what is
stored at the other. -/
theorem StoredDuring.succeeds (hraise : ∀ e ∈ log, e.RaisesGeneration key)
    (hnew : StoredDuring key s log new) (hold : StoredDuring key s log old) :
    new.Succeeds old ∨ old.Succeeds new := by
  obtain ⟨past, u, hpast, hu, hnew⟩ := hnew
  obtain ⟨past', u', hpast', hu', hold⟩ := hold
  -- The longer past goes on from the state that the shorter one leads to.
  rcases List.prefix_or_prefix_of_prefix hpast' hpast with ⟨mid, rfl⟩ | ⟨mid, rfl⟩
  · obtain ⟨v, hv, hmid⟩ := leads_append_iff.1 hu
    obtain rfl := hv.unique hu'
    obtain ⟨first, hfirst, hsucc⟩ := hmid.succeeds
      (fun e he => hraise e (hpast.subset (List.mem_append_right _ he))) hnew
    cases hfirst.symm.trans hold
    exact Or.inl hsucc
  · obtain ⟨v, hv, hmid⟩ := leads_append_iff.1 hu'
    obtain rfl := hv.unique hu
    obtain ⟨first, hfirst, hsucc⟩ := hmid.succeeds
      (fun e he => hraise e (hpast'.subset (List.mem_append_right _ he))) hold
    cases hfirst.symm.trans hnew
    exact Or.inr hsucc

/-- Of all that is stored during such a run, a generation has one spec. -/
theorem StoredDuring.spec_eq (hraise : ∀ e ∈ log, e.RaisesGeneration key)
    (hnew : StoredDuring key s log new) (hold : StoredDuring key s log old)
    (hgen : new.generation = old.generation) : new.spec = old.spec := by
  rcases hnew.succeeds hraise hold with hsucc | hsucc
  · exact hsucc.spec_eq hgen
  · exact (hsucc.spec_eq hgen.symm).symm

theorem Leads.storedDuring_before (h : Leads s log t) (he : e ∈ log)
    (hrs : e.before.ruleSets.get? key = some rs) : StoredDuring key s log rs := by
  obtain ⟨before, after, rfl⟩ := List.append_of_mem he
  exact ⟨before, e.before, List.prefix_append _ _, h.split.1, hrs⟩

theorem Leads.storedDuring_after (h : Leads s log t) (he : e ∈ log)
    (hrs : e.after.ruleSets.get? key = some rs) : StoredDuring key s log rs := by
  obtain ⟨before, after, rfl⟩ := List.append_of_mem he
  obtain ⟨hbefore, hhappens, -⟩ := h.split
  refine ⟨before ++ [e], e.after, ⟨after, by simp⟩, hbefore.append ?_, hrs⟩
  exact .cons hhappens (.nil _)

/-! ## The writes of a pass leave specs and generations alone -/

def UpdatesFetched (past : List Exchange) (x : Exchange) : Prop :=
  ∀ u r, x = ⟨.store (.updateRuleSet u), r⟩ →
    ∃ (loop : WriteLoop) (y : Exchange), past.getLast? = some y ∧
      loop.Prepares y (.updateRuleSet u)

theorem UpdatesFetched.of_not_concernsRuleSet {past : List Exchange} {x : Exchange}
    (h : x.call.concernsRuleSet = false) : UpdatesFetched past x := by
  rintro u r rfl
  cases h

theorem WriteLoop.IsPrepared.updatesFetched {loop : WriteLoop} {past : List Exchange} {x : Exchange}
    (h : loop.IsPrepared past x) : UpdatesFetched past x := by
  rintro u r rfl
  exact ⟨loop, h _ r rfl rfl⟩

namespace Pass

variable {α : Type} {past : List Exchange}

theorem Asks.updatesFetched {p : Pass α} (h : p.Asks fun c => c.concernsRuleSet = false) :
    p.Guarded UpdatesFetched past :=
  h.guarded fun _ _ hx => .of_not_concernsRuleSet hx

theorem updatesFetched_read {k : ObjectKey} {next : Except StoreError RuleSet → Pass α}
    (hnext : ∀ r, (next r).Guarded UpdatesFetched
      (past ++ [⟨.store (.getRuleSet k), r⟩])) :
    (Pass.ask (.store (.getRuleSet k)) next).Guarded UpdatesFetched past := by
  refine guarded_ask (fun r => ?_) hnext
  rintro u r' hx
  cases hx

theorem updatesFetched_finishDeletion (b : RetryBackoff) (rs : RuleSet) :
    (finishDeletion b rs).Guarded UpdatesFetched past := by
  refine Guarded.bind ?_ fun _ τ _ => ?_
  · exact Asks.updatesFetched (Asks.mono (asks_releaseTargets b _ _ _)
      fun c hc => Call.concernsRuleSet_of_concernsTargets hc.1)
  · intro τ res h before x after hτ
    exact (WriteLoop.isPrepared_letGo b rs τ res h before x after hτ).updatesFetched

/-- After the listing, what a pass updates is what it fetched last. -/
theorem updatesFetched_afterListing (selected : List Pod) :
    (afterListing settings key rs selected).Guarded UpdatesFetched past := by
  unfold afterListing
  split
  · refine Guarded.bind ?_ fun held τ _ => (asks_processTargets held selected).updatesFetched
    intro τ res h before x after hτ
    exact (WriteLoop.isPrepared_holdRuleSet _ rs τ res h before x after hτ).updatesFetched
  · split
    · exact (updatesFetched_finishDeletion _ rs).bind fun _ _ _ => guarded_done _
    · exact guarded_done _
  · split
    · exact guarded_ask (fun _ => .of_not_concernsRuleSet rfl) fun _ => guarded_done _
    · exact guarded_done _

/-- A pass sends no update of a rule set but one that a loop made from a fetched copy. -/
theorem updatesFetched_reconcile (settings : Settings) (key : ObjectKey) :
    (reconcile settings key).Guarded UpdatesFetched [] := by
  refine updatesFetched_read fun reply => ?_
  rcases reply with (m | m | m) | rs
  · exact guarded_done _
  · exact guarded_failed _
  · exact guarded_failed _
  refine guarded_ask (fun _ => .of_not_concernsRuleSet rfl) fun trusted => ?_
  cases trusted with
  | false => exact guarded_done _
  | true =>
    simp only [if_true]
    split
    · exact guarded_failed _
    refine guarded_ask (fun _ => .of_not_concernsRuleSet rfl) fun reply => ?_
    rcases reply with e | selected
    · exact guarded_failed _
    · exact updatesFetched_afterListing selected

end Pass

theorem Cluster.FinalizersWritten.raisesGeneration {k : ObjectKey} {kept : Bool}
    {edit : List String → List String}
    (h : Cluster.FinalizersWritten k kept edit e.before e.after) : e.RaisesGeneration key := by
  intro new hnew
  by_cases hk : key = k
  · obtain ⟨stored, next, hstored, -, rfl, hafter⟩ := h.ruleSet
    rw [hk, hafter] at hnew
    split at hnew
    · cases hnew
    · cases hnew
      exact ⟨stored, hk ▸ hstored, Or.inl ⟨rfl, rfl⟩⟩
  · exact ⟨new, h.others key hk ▸ hnew, .refl new⟩

/-- A status write leaves the generation and the spec alone. -/
theorem raisesGeneration_of_updateStatus {v u : RuleSet} {i : Nat}
    (hw : e.before.WellKeyed) (h : e.Happens)
    (hx : e.exchange? = some (i, ⟨.store (.updateStatus u), .ok v⟩)) :
    e.RaisesGeneration key := by
  obtain ⟨stored, hstored, -, hafter⟩ := Cluster.serves_updateStatus_ok (h.serves hx)
  have hkey : stored.key = u.key := hw.ruleSet _ _ hstored
  intro new hnew
  rw [hafter] at hnew
  by_cases hk : key = stored.key
  · rw [hk, Cluster.get?_replaceStatus] at hnew
    cases hnew
    exact ⟨stored, by rw [hk, hkey, hstored], Or.inl ⟨rfl, rfl⟩⟩
  · have hother : (e.before.replaceStatus stored u).2.ruleSets.get? key =
        e.before.ruleSets.get? key := by
      show (e.before.ruleSets.insert stored.key _).get? key = _
      rw [SortedMap.get?_insert, if_neg hk]
    exact ⟨new, hother ▸ hnew, .refl new⟩

/-- An update that the store accepts from a pass edits the finalizers of what is stored. -/
theorem SharedPass.raisesGeneration_of_updateRuleSet (h : SharedPass settings key rs s log t res)
    (hw : s.WellKeyed) (hd : s.Dated) {v u : RuleSet} (he : e ∈ log)
    (hx : e.exchange? = some (0, ⟨.store (.updateRuleSet u), .ok v⟩)) :
    e.RaisesGeneration key := by
  obtain ⟨before, after, hlog⟩ := List.append_of_mem he
  have htrace : exchangesOf 0 log = exchangesOf 0 before ++
      ⟨.store (.updateRuleSet u), .ok v⟩ :: exchangesOf 0 after := by
    rw [hlog, exchangesOf_append]
    simp [exchangesOf, hx]
  obtain ⟨loop, y, hlast, hprep⟩ :=
    Pass.updatesFetched_reconcile settings key _ _ h.ends _ _ _ htrace u _ rfl
  have happlies := h.leads.applies hw hd hlog hx hlast hprep
  -- Only two of the loops update rule sets.
  cases hprep with
  | hold _ => exact Cluster.FinalizersWritten.raisesGeneration happlies
  | letGo _ => exact Cluster.FinalizersWritten.raisesGeneration happlies

/-- No write of a pass changes a spec without its generation. -/
theorem SharedPass.raisesGeneration (h : SharedPass settings key rs s log t res)
    (hw : s.WellKeyed) (hd : s.Dated) (he : e ∈ log) {x : Exchange}
    (hx : e.exchange? = some (0, x)) : e.RaisesGeneration key := by
  have hhappens := h.leads.happens_of_mem he
  cases hwriter : e.writer? with
  | none =>
    have hsame := hhappens.after_eq (by rw [hx]; exact Option.some_ne_none _) hwriter
    exact .of_eq (by rw [hsame])
  | some i =>
    obtain ⟨c, v, hx', hc⟩ := exchange?_of_writer? hwriter
    cases hx.symm.trans hx'
    cases c with
    | updateTarget p =>
      obtain ⟨-, -, -, hafter⟩ := Cluster.serves_updateTarget_ok (hhappens.serves hx)
      exact .of_eq (by rw [hafter]; rfl)
    | updateStatus u =>
      obtain ⟨before, after, hlog⟩ := List.append_of_mem he
      have hbefore := (hlog ▸ h.leads).split.1
      exact raisesGeneration_of_updateStatus (hbefore.advances.wellKeyed hw) hhappens hx
    | updateRuleSet u => exact h.raisesGeneration_of_updateRuleSet hw hd he hx
    | _ => cases hc

/-! ## What a pass records -/

/-- A status that a call writes belongs to a rule set: it has its generation and the names of the
selected pods as targets. -/
def Call.Records (held : RuleSet) (selected : List Pod) (c : Call) : Prop :=
  ∀ u, c = .store (.updateStatus u) → u = { held with status := u.status } ∧
    u.recordedStatus.observedGeneration = held.generation ∧
    ∀ n, n ∈ u.recordedStatus.targets ↔ n ∈ selected.map (·.metadata.anyName)

theorem Call.Records.of_ne {held : RuleSet} {selected : List Pod} {c : Call}
    (h : ∀ u, c ≠ .store (.updateStatus u)) : c.Records held selected :=
  fun u hu => absurd hu (h u)

theorem Call.records_of_concernsTargets {held : RuleSet} {selected : List Pod} {c : Call}
    (h : c.concernsTargets = true) : c.Records held selected := by
  refine .of_ne ?_
  rintro u rfl
  cases h

namespace Pass

variable {held : RuleSet} {selected : List Pod}

/-- The status that is recorded has the listed names, and the generation of the copy that is
held. -/
theorem asks_recordOutcome {ns : String} {names : SortedSet String} {merged : PipelineResult}
    (hnames : ∀ n, n ∈ names ↔ n ∈ selected.map (·.metadata.anyName)) :
    (recordOutcome ns held names merged).Asks (Call.Records held selected) := by
  refine asks_ask (.of_ne (by rintro u ⟨⟩)) fun now => ?_
  refine Asks.bind ?_ fun _ => asks_ask (.of_ne (by rintro u ⟨⟩)) fun _ => asks_done _
  refine asks_recordStatus (.of_ne (by rintro u ⟨⟩)) ?_ (.of_ne (by rintro u ⟨⟩))
  rintro u hu
  cases hu
  exact ⟨rfl, rfl, hnames⟩

/-- A status is written for the rule set that the work was begun with, with the names of all
selected pods. -/
theorem asks_records_processTargets :
    (processTargets settings key held selected).Asks (Call.Records held selected) := by
  intro τ res h x hx
  have htrust : (trustedNames selected ∅).Asks (Call.Records held selected) := by
    refine Asks.mono (asks_trustedNames selected ∅) ?_
    rintro c ⟨k, v, rfl⟩
    exact .of_ne (by rintro u ⟨⟩)
  rcases ends_bind_iff.1 h with ⟨e, he, -⟩ | ⟨trusted, τ₁, τ₂, rfl, h₁, h₂⟩
  · exact htrust τ _ he x hx
  rcases List.mem_append.1 hx with hx | hx
  · exact htrust τ₁ _ h₁ x hx
  cases trusted with
  | none =>
    obtain ⟨rfl, -⟩ := ends_done_iff.1 h₂
    cases hx
  | some names =>
    have hnames : ∀ n, n ∈ names ↔ n ∈ selected.map (·.metadata.anyName) := by
      intro n
      rw [mem_of_trustedNames h₁ n]
      exact or_iff_right SortedSet.not_mem_empty
    have hcarry : (carryOut settings.retry key.namespaceName key.name
        (.ofSelection held.recordedStatus.targets names)).Asks (Call.Records held selected) :=
      Asks.mono (asks_carryOut _ _ _ _) fun _ hc => Call.records_of_concernsTargets hc.1
    refine (hcarry.bind fun targets => ?_) τ₂ res h₂ x hx
    refine asks_ask (.of_ne (by rintro u ⟨⟩)) fun stages =>
      asks_ask (.of_ne (by rintro u ⟨⟩)) fun completions => asks_recordOutcome hnames

end Pass

/-- A status write of a pass is one of its work on the targets: the rule set that it read first came
back from the loop with the finalizer, and the selected pods from the listing. -/
theorem records_of_reconcile {u : RuleSet} {r : (StoreCall.updateStatus u).Answer}
    (h : (reconcile settings key).Ends (⟨.store (.getRuleSet key), .ok rs⟩ :: τ) res)
    (hx : ⟨.store (.updateStatus u), r⟩ ∈ τ) :
    ∃ selected held σ,
      ⟨.store (.listTargets key.namespaceName rs.spec.selector), .ok selected⟩ ∈ τ ∧
      (∀ y ∈ σ, y ∈ τ) ∧ (holdRuleSet settings.retry rs).Ends σ (.ok held) ∧
      (Call.store (.updateStatus u)).Records held selected := by
  cases ends_reconcile h with
  | stale _ => simp at hx
  | invalid _ e he => simp at hx
  | unlisted _ e => simp at hx
  | @listed _ selected σ _ h₁ =>
    have hσ : ⟨.store (.updateStatus u), r⟩ ∈ σ := by simpa using hx
    -- Of the branches behind the listing only the first one writes a status, and not in its loop.
    cases ends_afterListing h₁ with
    | active _ h₂ =>
      have hhold := Pass.asks_holdRuleSet settings.retry rs
      have hquiet : ¬ (Call.store (.updateStatus u)).holdsRuleSet = true := Bool.false_ne_true
      rcases Pass.ends_bind_iff.1 h₂ with ⟨e, he, -⟩ | ⟨held, σ₁, σ₂, rfl, hloop, hwork⟩
      · exact absurd hσ (hhold.not_mem he hquiet)
      have hlate : ⟨.store (.updateStatus u), r⟩ ∈ σ₂ :=
        (List.mem_append.1 hσ).resolve_left (hhold.not_mem hloop hquiet)
      refine ⟨selected, held, σ₁, by simp, fun y hy => by simp [hy], hloop, ?_⟩
      exact Pass.asks_records_processTargets σ₂ res hwork _ hlate
    | free _ _ => cases hσ
    | deleting _ _ _ h₂ =>
      have hasks := (Pass.asks_finishDeletion settings.retry rs).bind
        fun _ => Pass.asks_done Outcome.done
      exact absurd hσ (hasks.not_mem h₂ (by simp [Call.concernsTargets, Call.letsRuleSetGo]))
    | waiting running _ _ => simp at hσ

/-! ## The copy that the pass goes on with -/

theorem StoredDuring.key_eq (h : StoredDuring key s log rs) (hw : s.WellKeyed) : rs.key = key := by
  obtain ⟨past, u, -, hpast, hrs⟩ := h
  exact (hpast.advances.wellKeyed hw).ruleSet key rs hrs

theorem Leads.storedDuring_of_read (h : Leads s log t) {i : Nat}
    (hx : ⟨.store (.getRuleSet key), .ok rs⟩ ∈ exchangesOf i log) : StoredDuring key s log rs := by
  obtain ⟨e, he, hex⟩ := exists_of_mem_exchangesOf hx
  have hserves := (h.happens_of_mem he).serves hex
  exact h.storedDuring_before he (Cluster.serves_getRuleSet_ok hserves).1

/-- What an accepted update returns was stored, given that it did not complete a deletion. -/
theorem Leads.storedDuring_of_update (h : Leads s log t) {i : Nat} (hh : old.isHeld = true)
    (hx : ⟨.store (.updateRuleSet old), .ok new⟩ ∈ exchangesOf i log) :
    StoredDuring old.key s log new := by
  obtain ⟨e, he, hex⟩ := exists_of_mem_exchangesOf hx
  obtain ⟨stored, -, -, rfl, hafter⟩ :=
    Cluster.serves_updateRuleSet_ok ((h.happens_of_mem he).serves hex)
  refine h.storedDuring_after he ?_
  rw [hafter]
  exact (Cluster.get?_replaceRuleSet_of_isHeld e.before stored hh).1

/-- What comes back from the loop that makes sure of the finalizer was stored at some moment. -/
theorem Leads.storedDuring_of_holdRuleSet (h : Leads s log t) (hw : s.WellKeyed) {i : Nat}
    {held : RuleSet} (hrs : StoredDuring key s log rs) (hσ : ∀ x ∈ τ, x ∈ exchangesOf i log)
    (hhold : (holdRuleSet b rs).Ends τ (.ok held)) : StoredDuring key s log held := by
  have hkey := hrs.key_eq hw
  unfold holdRuleSet at hhold
  split at hhold
  · obtain ⟨-, hheld⟩ := Pass.ends_done_iff.1 hhold
    cases hheld
    exact hrs
  · -- What comes back is what the last attempt read, or the answer to its update.
    obtain ⟨before, last, rfl, -, hlast⟩ := hhold.retry_ok
    obtain ⟨o, ho, hattempt⟩ := ends_holdOnce hlast
    cases ho
    rw [hkey] at hattempt
    cases hattempt with
    | held _ hh => exact h.storedDuring_of_read (hσ _ (by simp))
    | answered stored _ hh =>
      have hstored : StoredDuring key s log stored := h.storedDuring_of_read (hσ _ (by simp))
      have hnext : StoredDuring stored.addFinalizer.key s log held :=
        h.storedDuring_of_update stored.isHeld_addFinalizer (hσ _ (by simp))
      rwa [RuleSet.key_addFinalizer, hstored.key_eq hw] at hnext

/-! ## Honest generations -/

/-- A pass records the names that its listing returned, at the generation of the copy that came back
with the finalizer, which is that of a stored rule set with the selector of the update. -/
structure RecordsListing (key : ObjectKey) (rs : RuleSet) (s : Cluster) (log : List Event)
    (u : RuleSet) (l : Event) : Prop where
  lists : ∃ selected, l.exchange? =
    some (0, ⟨.store (.listTargets key.namespaceName rs.spec.selector), .ok selected⟩)
  names : ∀ n, n ∈ u.recordedStatus.targets ↔ n ∈ l.listed key.namespaceName rs.spec.selector
  stored : ∃ held, StoredDuring key s log held ∧
    held.generation = u.recordedStatus.observedGeneration ∧ held.spec = u.spec
  held : rs.isHeld = true → u.spec = rs.spec

/-- A status write records the names of the pass's one listing. -/
theorem SharedPass.exists_recordsListing (h : SharedPass settings key rs s log t res)
    (hw : s.WellKeyed) {u : RuleSet} {r : (StoreCall.updateStatus u).Answer}
    (hx : ⟨.store (.updateStatus u), r⟩ ∈ exchangesOf 0 log) :
    ∃ l ∈ log, RecordsListing key rs s log u l := by
  obtain ⟨τ, hτ⟩ := h.exists_eq_cons
  have hends := h.ends
  have hrs : StoredDuring key s log rs := h.leads.storedDuring_of_read (by rw [hτ]; simp)
  rw [hτ] at hends hx
  obtain ⟨selected, held, σ, hlist, hσ, hhold, hrecords⟩ :=
    records_of_reconcile hends (by simpa using hx)
  obtain ⟨hu, hgen, hnames⟩ := hrecords u rfl
  have hspec : held.spec = u.spec := by rw [hu]
  obtain ⟨l, hl, hlx⟩ := exists_of_mem_exchangesOf (hτ ▸ List.mem_cons_of_mem _ hlist)
  have hselected : l.before.list key.namespaceName rs.spec.selector = selected := by
    have hanswer := Cluster.answer_of_serves_ok ((h.leads.happens_of_mem hl).serves hlx)
    exact Except.ok.inj (Prod.mk.inj hanswer).1
  refine ⟨l, hl, ⟨selected, hlx⟩, ?_, ⟨held, ?_, hgen.symm, hspec⟩, fun hh => ?_⟩
  · intro n
    rw [hnames, Event.listed, hselected]
  · exact h.leads.storedDuring_of_holdRuleSet hw hrs
      (fun x hx => hτ ▸ List.mem_cons_of_mem _ (hσ x hx)) hhold
  · rw [holdRuleSet, if_pos hh] at hhold
    obtain ⟨-, hheld⟩ := Pass.ends_done_iff.1 hhold
    cases hheld
    exact hspec.symm

/-- The recorded generation is honest exactly if its selector accepts the names that were listed by
the selector of the first read. -/
theorem RecordsListing.honestAt_iff {u : RuleSet} {l : Event} (h : RecordsListing key rs s log u l)
    (hraise : ∀ e ∈ log, e.RaisesGeneration key) :
    HonestAt key s log l u.recordedStatus ↔
      ∀ n, n ∈ l.listed key.namespaceName u.spec.selector ↔
        n ∈ l.listed key.namespaceName rs.spec.selector := by
  obtain ⟨held, hheld, hgen, hspec⟩ := h.stored
  constructor
  · intro hhonest n
    rw [← h.names, ← hspec]
    exact (hhonest held hheld hgen n).symm
  · intro hsame stored hstored hstoredgen n
    -- Whatever else is stored at this generation has the same spec.
    have heq : stored.spec = u.spec :=
      (hstored.spec_eq hraise hheld (hstoredgen.trans hgen.symm)).trans hspec
    rw [h.names, heq, hsame]

/-- The targets of a status are what the selector at its generation listed, when the pass listed,
exactly when the selector of the copy with the finalizer and that of the first copy listed the same
names. So it is when the first copy has the finalizer, or no update of the spec came in between. The
other writers only raise the generation with every new spec, and create no rule set anew. -/
theorem observed_generation_honest_iff (hw : s.WellKeyed) (hd : s.Dated)
    (h : SharedPass settings key rs s log t res)
    (hothers : ∀ e ∈ log, (∀ x, e.exchange? ≠ some (0, x)) → e.RaisesGeneration key)
    {u : RuleSet} {r : (StoreCall.updateStatus u).Answer}
    (hx : ⟨.store (.updateStatus u), r⟩ ∈ exchangesOf 0 log) :
    ∃ l ∈ log, RecordsListing key rs s log u l ∧
      (HonestAt key s log l u.recordedStatus ↔
        ∀ n, n ∈ l.listed key.namespaceName u.spec.selector ↔
          n ∈ l.listed key.namespaceName rs.spec.selector) ∧
      (rs.isHeld = true ∨ u.recordedStatus.observedGeneration = rs.generation →
        HonestAt key s log l u.recordedStatus) := by
  obtain ⟨l, hl, hrecords⟩ := h.exists_recordsListing hw hx
  -- The pass itself never writes a spec or a generation.
  have hraise : ∀ e ∈ log, e.RaisesGeneration key := by
    intro e he
    by_cases hown : ∃ x, e.exchange? = some (0, x)
    · obtain ⟨x, hex⟩ := hown
      exact h.raisesGeneration hw hd he hex
    · exact hothers e he fun x hex => hown ⟨x, hex⟩
  have hiff := hrecords.honestAt_iff hraise
  refine ⟨l, hl, hrecords, hiff, fun hsame => hiff.2 fun n => ?_⟩
  have hspec : u.spec = rs.spec := by
    rcases hsame with hh | hgen
    · exact hrecords.held hh
    · obtain ⟨held, hheld, hheldgen, hspec⟩ := hrecords.stored
      obtain ⟨τ, hτ⟩ := h.exists_eq_cons
      have hrs : StoredDuring key s log rs := h.leads.storedDuring_of_read (by rw [hτ]; simp)
      exact hspec.symm.trans (hheld.spec_eq hraise hrs (hheldgen.trans hgen))
  rw [hspec]

end

namespace Editing

def renewed : RuleSet :=
  { ruleSet with
    metadata := { ruleSet.metadata with generation := some 2 }
    spec := { ruleSet.spec with rules := [⟨"R", "S"⟩] } }

def retargeted : RuleSet :=
  { renewed with
    spec := { renewed.spec with selector := ⟨some (.ofList [("app", "b")]), none⟩ } }

theorem dated_start : start.Dated := (Cluster.dated_empty.keepRuleSet rfl).keepPod rfl

theorem exists_exchange?_of_mem_claimingLog {s : Cluster} {copy : RuleSet} :
    ∀ e ∈ claimingLog s copy, ∃ x, e.exchange? = some (0, x) := by
  simp [claimingLog]

theorem raisesGeneration_log {edited : RuleSet} (hkey : edited.key = key)
    (hlt : ruleSet.generation < edited.generation) :
    ∀ e ∈ log edited, (∀ x, e.exchange? ≠ some (0, x)) → e.RaisesGeneration key := by
  intro e he hother
  rcases List.mem_append.1 he with he | he
  · have hedit : e = ⟨start, start.putRuleSet edited, none⟩ := by
      simp only [editedLog, List.mem_cons, List.not_mem_nil, or_false] at he
      rcases he with rfl | rfl | rfl | rfl | rfl | rfl
      all_goals first | rfl | exact (hother _ rfl).elim
    rw [hedit]
    intro new hnew
    rw [Cluster.putRuleSet, Cluster.keepRuleSet, SortedMap.get?_insert, RuleSet.key_atVersion,
      if_pos hkey.symm] at hnew
    cases hnew
    exact ⟨ruleSet, rfl, Or.inr hlt⟩
  · obtain ⟨x, hx⟩ := exists_exchange?_of_mem_claimingLog e he
    exact absurd hx (hother x)

theorem records_log (edited : RuleSet) :
    ⟨.store (.updateStatus (recorded (heldCopy start edited).1)),
      .ok (afterRecord (heldCopy start edited).2 (heldCopy start edited).1).1⟩ ∈
      exchangesOf 0 (log edited) := by
  simp [log, editedLog, claimingLog, exchangesOf]

theorem rereads_log (edited : RuleSet) :
    ⟨.store (.getRuleSet key), .ok (rereadCopy start edited)⟩ ∈ exchangesOf 0 (log edited) := by
  simp [log, editedLog, claimingLog, exchangesOf]

/-- No pod of the history has the label. -/
theorem listed_retargeted : ∀ l ∈ log retargeted, l.listed "ns" retargeted.spec.selector = [] := by
  intro l hl
  simp only [log, editedLog, claimingLog, List.cons_append, List.nil_append, List.mem_cons,
    List.not_mem_nil, or_false] at hl
  rcases hl with rfl | rfl | rfl | rfl | rfl | rfl | rfl | rfl | rfl | rfl | rfl | rfl | rfl | rfl |
    rfl | rfl
  all_goals rfl

end Editing

open Editing in
/-- The selector changes after the listing. The pod that the old one selected is recorded at the
generation of the new one, which no pod of the history meets. -/
theorem spec_update_recorded_with_old_targets :
    (start.WellKeyed ∧ start.Dated ∧ ∀ e ∈ log retargeted, (∀ x, e.exchange? ≠ some (0, x)) →
        e.RaisesGeneration key) ∧
      SharedPass .standard key ruleSet start (log retargeted) (final retargeted) (.ok .done) ∧
      ∃ u r, ⟨.store (.updateStatus u), r⟩ ∈ exchangesOf 0 (log retargeted) ∧
        u.recordedStatus.targets = ["p"] ∧ u.recordedStatus.observedGeneration = 2 ∧
        ∀ l ∈ log retargeted, ¬ HonestAt key start (log retargeted) l u.recordedStatus := by
  have hshared : SharedPass .standard key ruleSet start (log retargeted) (final retargeted)
      (.ok .done) := sharedPass_log rfl rfl rfl
  refine ⟨⟨wellKeyed_start, dated_start, raisesGeneration_log rfl (by decide)⟩, hshared,
    recorded (heldCopy start retargeted).1, _, records_log retargeted, rfl, rfl, ?_⟩
  intro l hl hhonest
  have hreread : StoredDuring key start (log retargeted) (rereadCopy start retargeted) :=
    hshared.leads.storedDuring_of_read (rereads_log retargeted)
  have hlisted : "p" ∈ l.listed "ns" retargeted.spec.selector :=
    (hhonest _ hreread rfl "p").1 (List.mem_singleton.2 rfl)
  rw [listed_retargeted l hl] at hlisted
  cases hlisted

open Editing in
/-- Only a rule is declared after the listing, so the pod is what the selector lists at the new
generation too. -/
theorem renewed_rule_set_recorded_honestly :
    ∃ l ∈ log renewed, HonestAt key start (log renewed) l
      (recorded (heldCopy start renewed).1).recordedStatus := by
  have hshared : SharedPass .standard key ruleSet start (log renewed) (final renewed)
      (.ok .done) := sharedPass_log rfl rfl rfl
  obtain ⟨l, hl, -, hhonest, -⟩ := observed_generation_honest_iff wellKeyed_start dated_start
    hshared (raisesGeneration_log rfl (by decide)) (records_log renewed)
  exact ⟨l, hl, hhonest.2 fun _ => Iff.rfl⟩

end PodRules
