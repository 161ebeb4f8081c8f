import PodRules.Proofs.Run.DeletionPass

namespace PodRules

def Call.announces : Call → Bool
  | .store (.updateStatus _) => true
  | .notify _ _ _ => true
  | _ => false

inductive Recording (ns : String) (rs : RuleSet) : List Exchange → Except Failure Outcome → Prop
  | unchanged (now : Instant) (next : RuleSetStatus) (o : Outcome)
      (hs : rs.recordedStatus.equalButTime next = true) :
      Recording ns rs
        [⟨.now, now⟩, ⟨.notify ns rs.recordedStatus.details next.details, ()⟩] (.ok o)
  | written (now : Instant) (next : RuleSetStatus) (stored : RuleSet) (o : Outcome)
      (hs : rs.recordedStatus.equalButTime next = false) :
      Recording ns rs
        [⟨.now, now⟩, ⟨.arm rs.key rs.version, ()⟩,
          ⟨.store (.updateStatus { rs with status := some next }), .ok stored⟩,
          ⟨.notify ns rs.recordedStatus.details next.details, ()⟩] (.ok o)
  | unwritten (now : Instant) (next : RuleSetStatus) (e : StoreError)
      (hs : rs.recordedStatus.equalButTime next = false) :
      Recording ns rs
        [⟨.now, now⟩, ⟨.arm rs.key rs.version, ()⟩,
          ⟨.store (.updateStatus { rs with status := some next }), .error e⟩,
          ⟨.disarm rs.key, ()⟩] (.error (.store e))

variable {settings : Settings} {key : ObjectKey} {rs : RuleSet} {ns : String}
  {names : SortedSet String} {merged : PipelineResult} {selected : List Pod} {τ : List Exchange}
  {res : Except Failure Outcome}

/-- The ways in which recording the outcome can go. -/
theorem ends_recordOutcome (h : (recordOutcome ns rs names merged).Ends τ res) :
    Recording ns rs τ res := by
  obtain ⟨now, rest, rfl, h₁⟩ := Pass.ends_ask_iff.1 h
  generalize statusSnapshot names (rs.metadata.generation.getD 0) merged.details.values
    merged.ruleStates now = next at h₁
  rcases Pass.ends_bind_iff.1 h₁ with ⟨e, hwrite, rfl⟩ | ⟨record, τ₁, τ₂, rfl, hwrite, h₂⟩
  · cases ends_recordStatus_iff.1 hwrite with
    | refused hs e => exact .unwritten now next e hs
  · obtain ⟨_, rest, rfl, h₃⟩ := Pass.ends_ask_iff.1 h₂
    obtain ⟨rfl, rfl⟩ := Pass.ends_done_iff.1 h₃
    cases ends_recordStatus_iff.1 hwrite with
    | unchanged hs => exact .unchanged now next _ hs
    | written hs stored => exact .written now next stored _ hs

/-! ## The parts before -/

/-- Nothing is announced before the outcome is recorded. -/
theorem Call.announces_eq_false {c : Call} (h : c.concernsTargets = true ∨ c.holdsRuleSet = true ∨
    c.letsRuleSetGo = true) : c.announces = false := by
  cases c with
  | store c =>
    cases c <;> first | rfl | simp [concernsTargets, holdsRuleSet, letsRuleSetGo] at h
  | notify ns old new => simp [concernsTargets, holdsRuleSet, letsRuleSetGo] at h
  | _ => rfl

/-- The names are known only if every view was trusted. -/
theorem trusted_of_trustedNames {pods : List Pod} {start : SortedSet String}
    (h : (trustedNames pods start).Ends τ (.ok (some names))) :
    ∀ k v, ⟨.trust k v, false⟩ ∉ τ := by
  rcases ends_trustedNames h with ⟨_, -, rfl, -⟩ | ⟨hres, -⟩
  · intro k v hmem
    obtain ⟨pod, -, he⟩ := List.mem_map.1 hmem
    cases he
  · cases hres

/-- The trace of a pass that comes to record its outcome, up to there: it reads the rule set, lists
the targets, makes sure of the finalizer and works on the targets. -/
def traceToRecord (key : ObjectKey) (rs : RuleSet) (selected : List Pod) (σ work : List Exchange) :
    List Exchange :=
  ⟨.store (.getRuleSet key), .ok rs⟩ :: ⟨.trust key rs.version, true⟩ ::
    ⟨.store (.listTargets key.namespaceName rs.spec.selector), .ok selected⟩ :: (σ ++ work)

/-- A pass with a rule set that was read and came back from the loop with its finalizer, work on its
targets, and the record of the outcome. -/
inductive RecordingPass (settings : Settings) (key : ObjectKey) :
    List Exchange → Except Failure Outcome → Prop
  | mk (rs held : RuleSet) (selected : List Pod) {σ work ρ : List Exchange}
      {res : Except Failure Outcome} (ha : rs.isTerminating = false)
      (hhold : (holdRuleSet settings.retry rs).Ends σ (.ok held))
      (hwork : ∀ x ∈ work, x.call.announces = false)
      (htrusted : ∀ k v, ⟨.trust k v, false⟩ ∉ work)
      (hrecord : Recording key.namespaceName held ρ res) :
      RecordingPass settings key (traceToRecord key rs selected σ work ++ ρ) res

theorem announces_of_mem_traceToRecord {held : RuleSet} {σ work : List Exchange}
    (hhold : (holdRuleSet settings.retry rs).Ends σ (.ok held))
    (hwork : ∀ x ∈ work, x.call.announces = false) :
    ∀ x ∈ traceToRecord key rs selected σ work, x.call.announces = false := by
  intro x hx
  simp only [traceToRecord, List.mem_cons, List.mem_append] at hx
  obtain rfl | rfl | rfl | hx | hx := hx
  · rfl
  · rfl
  · rfl
  · have hasks := Pass.asks_holdRuleSet settings.retry rs σ _ hhold x hx
    exact Call.announces_eq_false (.inr (.inl hasks))
  · exact hwork x hx

/-- A pass that got as far as recording its outcome trusted all that it looked at. -/
theorem trusted_of_traceToRecord {held : RuleSet} {σ work : List Exchange}
    (hhold : (holdRuleSet settings.retry rs).Ends σ (.ok held))
    (htrusted : ∀ k v, ⟨.trust k v, false⟩ ∉ work) (k : ObjectKey) (v : String) :
    ⟨.trust k v, false⟩ ∉ traceToRecord key rs selected σ work := by
  have hloop : ⟨.trust k v, false⟩ ∉ σ :=
    (Pass.asks_holdRuleSet settings.retry rs).not_mem hhold Bool.false_ne_true
  simp [traceToRecord, hloop, htrusted k v]

/-- The work on the targets announces nothing, or ends with the record of its outcome. -/
theorem announces_of_processTargets (h : (processTargets settings key rs selected).Ends τ res) :
    (∀ x ∈ τ, x.call.announces = false) ∨
      ∃ work ρ, τ = work ++ ρ ∧ (∀ x ∈ work, x.call.announces = false) ∧
        (∀ k v, ⟨.trust k v, false⟩ ∉ work) ∧ Recording key.namespaceName rs ρ res := by
  have htrust : (trustedNames selected ∅).Asks fun c => c.announces = false := by
    refine Pass.Asks.mono (Pass.asks_trustedNames selected ∅) ?_
    rintro c ⟨k, v, rfl⟩
    rfl
  rcases Pass.ends_bind_iff.1 h with ⟨e, he, -⟩ | ⟨names, τ₁, τ₂, rfl, h₁, h₂⟩
  · exact .inl (htrust τ _ he)
  have hquiet₁ := htrust τ₁ _ h₁
  cases names with
  | none =>
    obtain ⟨rfl, -⟩ := Pass.ends_done_iff.1 h₂
    simpa using .inl hquiet₁
  | some names =>
    have hcarry : (carryOut settings.retry key.namespaceName key.name
        (.ofSelection rs.recordedStatus.targets names)).Asks fun c => c.concernsTargets = true :=
      Pass.Asks.mono (Pass.asks_carryOut _ _ _ _) fun _ hc => hc.1
    rcases Pass.ends_bind_iff.1 h₂ with ⟨e, he, -⟩ | ⟨targets, τ₃, τ₄, rfl, h₃, h₄⟩
    · refine .inl fun x hx => ?_
      rcases List.mem_append.1 hx with hx | hx
      · exact hquiet₁ x hx
      · exact Call.announces_eq_false (.inl (hcarry τ₂ _ he x hx))
    obtain ⟨stages, rest, rfl, h₅⟩ := Pass.ends_ask_iff.1 h₄
    obtain ⟨completions, ρ, rfl, h₆⟩ := Pass.ends_ask_iff.1 h₅
    refine .inr ⟨τ₁ ++ (τ₃ ++ [⟨.stages, stages⟩, ⟨.evaluate stages rs targets, completions⟩]), ρ,
      by simp, fun x hx => ?_, fun k v hmem => ?_, ends_recordOutcome h₆⟩
    · simp only [List.mem_append, List.mem_cons, List.not_mem_nil, or_false] at hx
      obtain hx | hx | rfl | rfl := hx
      · exact hquiet₁ x hx
      · exact Call.announces_eq_false (.inl (hcarry τ₃ _ h₃ x hx))
      · rfl
      · rfl
    · simp only [List.mem_append, List.mem_cons, List.not_mem_nil, or_false] at hmem
      obtain hmem | hmem | hmem | hmem := hmem
      · exact trusted_of_trustedNames h₁ k v hmem
      · cases hcarry τ₃ _ h₃ _ hmem
      · cases hmem
      · cases hmem

/-- A pass announces nothing, or it ends with the record of its outcome. -/
theorem announces_of_ends (h : (reconcile settings key).Ends τ res) :
    (∀ x ∈ τ, x.call.announces = false) ∨ RecordingPass settings key τ res := by
  cases ends_reconcile h with
  | absent m => simp [Call.announces]
  | unread e he => simp [Call.announces]
  | stale rs => simp [Call.announces]
  | invalid rs e he => simp [Call.announces]
  | unlisted rs e => simp [Call.announces]
  | @listed rs selected rest _ h₁ =>
    have hopening {rest : List Exchange} (hrest : ∀ x ∈ rest, x.call.announces = false) :
        ∀ x ∈ (⟨.store (.getRuleSet key), .ok rs⟩ : Exchange) :: ⟨.trust key rs.version, true⟩ ::
          ⟨.store (.listTargets key.namespaceName rs.spec.selector), .ok selected⟩ :: rest,
          x.call.announces = false := by
      simpa [Call.announces] using hrest
    cases ends_afterListing h₁ with
    | active ha h₂ =>
      have hhold := Pass.Asks.mono (Pass.asks_holdRuleSet settings.retry rs)
        fun _ hc => Call.announces_eq_false (.inr (.inl hc))
      rcases Pass.ends_bind_iff.1 h₂ with ⟨e, he, -⟩ | ⟨held, σ, τ₂, rfl, hloop, hprocess⟩
      · exact .inl (hopening (hhold rest _ he))
      rcases announces_of_processTargets hprocess with hquiet |
        ⟨work, ρ, rfl, hwork, htrusted, hrecord⟩
      · refine .inl (hopening fun x hx => ?_)
        rcases List.mem_append.1 hx with hx | hx
        · exact hhold σ _ hloop x hx
        · exact hquiet x hx
      · rw [← List.append_assoc]
        exact .inr (.mk rs held selected ha hloop hwork htrusted hrecord)
    | free ht hh => exact .inl (hopening (by simp))
    | deleting ht hh hv h₂ =>
      have hasks := (Pass.asks_finishDeletion settings.retry rs).bind
        fun _ => Pass.asks_done Outcome.done
      refine .inl (hopening fun x hx => Call.announces_eq_false ?_)
      exact (hasks rest res h₂ x hx).imp_right .inr
    | waiting running hh hv => exact .inl (hopening (by simp [Call.announces]))

end PodRules
