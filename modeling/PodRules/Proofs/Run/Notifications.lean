import PodRules.Proofs.Notification.Queue
import PodRules.Proofs.Run.ForcedDeletion
import PodRules.Proofs.Run.Generations
import PodRules.Proofs.Run.Idempotence
import PodRules.Proofs.Run.Recording
import PodRules.Proofs.Run.Vanishing
import PodRules.Proofs.Stage.Snapshot

namespace PodRules

def KeyQueue.receive (keys : List ObjectKey) (q : KeyQueue) : KeyQueue :=
  if q.shuttingDown then q else keys.foldl push q

def Call.inform : Call → List KeyQueue → List KeyQueue
  | .notify ns old new, sinks => (notifyChanges sinks ns old new).1
  | _, sinks => sinks

def sinksAfter (τ : List Exchange) (sinks : List KeyQueue) : List KeyQueue :=
  τ.foldl (fun sinks x => x.call.inform sinks) sinks

def Call.told : Call → List ObjectKey
  | .notify ns old new => (changedOutcomes old new).toList.map fun n => ⟨ns, n⟩
  | _ => []

def toldKeys (τ : List Exchange) : List ObjectKey := τ.flatMap fun x => x.call.told

def Cluster.outcome? (s : Cluster) (key : ObjectKey) (name : String) : Option Detail :=
  (s.ruleSets.get? key).bind fun rs => outcomeOf rs.recordedStatus.details name

def Exchange.recordsStatus : Exchange → Bool
  | ⟨.store (.updateStatus _), .ok _⟩ => true
  | _ => false

def statusWrites (log : List Event) : List Event :=
  log.filter fun e => e.exchange?.any fun x => x.1 = 0 && x.2.recordsStatus

/-- A pass that leaves the stored status as it is: it fails, meets a stale view, finds the rule set
gone or being deleted, or has no other status to write. Only the first copy of the rule set is asked
whether it is being deleted. -/
inductive LeavesStatus (key : ObjectKey) (τ : List Exchange) : Except Failure Outcome → Prop
  | failed (f : Failure) : LeavesStatus key τ (.error f)
  | stale {k : ObjectKey} {v : String} {res : Except Failure Outcome}
      (h : ⟨.trust k v, false⟩ ∈ τ) : LeavesStatus key τ res
  | gone {m : String} {res : Except Failure Outcome}
      (h : τ.head? = some ⟨.store (.getRuleSet key), .error (.notFound m)⟩) : LeavesStatus key τ res
  | deleted {rs : RuleSet} {res : Except Failure Outcome} (ht : rs.isTerminating = true)
      (h : τ.head? = some ⟨.store (.getRuleSet key), .ok rs⟩) : LeavesStatus key τ res
  | unchanged {res : Except Failure Outcome}
      (h : ∀ u r, ⟨.store (.updateStatus u), r⟩ ∉ τ) : LeavesStatus key τ res

/-- The sinks are told, each target once, the changes of the stored outcomes. -/
structure TellsChanges (key : ObjectKey) (log : List Event) (res : Except Failure Outcome) :
    Prop where
  sinks : ∀ sinks, sinksAfter (exchangesOf 0 log) sinks =
    sinks.map (·.receive (toldKeys (exchangesOf 0 log)))
  nodup : (toldKeys (exchangesOf 0 log)).Nodup
  changes : (statusWrites log = [] ∧ toldKeys (exchangesOf 0 log) = []) ∨
    ∃ e, statusWrites log = [e] ∧ ∀ k, k ∈ toldKeys (exchangesOf 0 log) ↔
      k.namespaceName = key.namespaceName ∧
        e.before.outcome? key k.name ≠ e.after.outcome? key k.name
  quiet : LeavesStatus key (exchangesOf 0 log) res → toldKeys (exchangesOf 0 log) = []

/-! ## The sinks -/

namespace KeyQueue

theorem shuttingDown_receive (keys : List ObjectKey) (q : KeyQueue) :
    (q.receive keys).shuttingDown = q.shuttingDown := by
  unfold receive
  split
  · rfl
  · induction keys generalizing q with
    | nil => rfl
    | cons k keys ih =>
      have hopen : ¬ (q.push k).shuttingDown = true := by rwa [shuttingDown_push]
      rw [List.foldl_cons, ih _ hopen, shuttingDown_push]

theorem receive_nil (q : KeyQueue) : q.receive [] = q := ite_self q

theorem receive_append (ks ls : List ObjectKey) (q : KeyQueue) :
    q.receive (ks ++ ls) = (q.receive ks).receive ls := by
  by_cases hdown : q.shuttingDown = true
  · simp only [receive, hdown, if_true]
  · have hopen : ¬ (q.receive ks).shuttingDown = true := by rwa [shuttingDown_receive]
    rw [receive, if_neg hdown, List.foldl_append, receive.eq_def ls, if_neg hopen, receive,
      if_neg hdown]

end KeyQueue

/-- Telling the sinks name by name is each of them receiving all the names. -/
theorem foldl_notifyKey (ns : String) (names : List String) (sinks : List KeyQueue) :
    names.foldl (fun sinks n => notifyKey sinks ⟨ns, n⟩) sinks =
      sinks.map (·.receive (names.map fun n => ⟨ns, n⟩)) := by
  induction names generalizing sinks with
  | nil => simp [KeyQueue.receive_nil]
  | cons n names ih =>
    have hfirst : notifyKey sinks ⟨ns, n⟩ = sinks.map (·.receive [⟨ns, n⟩]) := rfl
    rw [List.foldl_cons, ih, hfirst, List.map_map]
    congr 1
    funext q
    exact (q.receive_append [⟨ns, n⟩] _).symm

/-- Every sink is told the same, whatever becomes of the others. -/
theorem Call.inform_eq_map (c : Call) (sinks : List KeyQueue) :
    c.inform sinks = sinks.map (·.receive c.told) := by
  cases c with
  | notify ns old new =>
    simp only [inform, notifyChanges, told]
    split
    next hempty =>
      obtain rfl := List.isEmpty_iff.1 hempty
      rfl
    next => exact foldl_notifyKey ns _ sinks
  | _ => simp [inform, told, KeyQueue.receive_nil]

/-- Every sink receives the same keys, and none is affected by the state of another. -/
theorem sinksAfter_eq_map (τ : List Exchange) (sinks : List KeyQueue) :
    sinksAfter τ sinks = sinks.map (·.receive (toldKeys τ)) := by
  induction τ generalizing sinks with
  | nil => simp [sinksAfter, toldKeys, KeyQueue.receive_nil]
  | cons x τ ih =>
    have hstep : sinksAfter (x :: τ) sinks = sinksAfter τ (x.call.inform sinks) := rfl
    rw [hstep, ih, Call.inform_eq_map, List.map_map]
    congr 1
    funext q
    exact (q.receive_append x.call.told (toldKeys τ)).symm

/-- The sinks are told of the names whose outcome changed. -/
theorem Call.mem_told {ns : String} {old new : List Detail} {k : ObjectKey} :
    k ∈ (Call.notify ns old new).told ↔
      k.namespaceName = ns ∧ outcomeOf old k.name ≠ outcomeOf new k.name := by
  simp only [told, List.mem_map, ← SortedSet.mem_def, mem_changedOutcomes]
  constructor
  · rintro ⟨n, hne, rfl⟩
    exact ⟨rfl, hne⟩
  · rintro ⟨rfl, hne⟩
    exact ⟨k.name, hne, rfl⟩

theorem Call.nodup_told (c : Call) : c.told.Nodup := by
  cases c with
  | notify ns old new =>
    refine List.Pairwise.map _ (fun n n' hne heq => ?_) (nodup_changedOutcomes old new)
    exact hne (congrArg ObjectKey.name heq)
  | _ => exact .nil

/-! ## Sinks do not matter to a pass -/

namespace World

variable {α : Type}

/-- What the sinks hold has no influence on the answers. -/
theorem handle_withSinks (c : Call) (w : World) (sinks : List KeyQueue) :
    handle c { w with sinks } =
      ((handle c w).1, { (handle c w).2 with sinks := c.inform sinks }) := by
  cases c with
  | warn rs reason note =>
    simp only [handle]
    split <;> rfl
  | _ => rfl

/-- What a pass comes to, and all that it does beside the sinks, is the same for any sinks, which
end as its trace informs them. -/
theorem run_withSinks (p : Pass α) (w : World) :
    ∃ τ, p.Ends τ (w.run p).1 ∧ ∀ sinks, ({ w with sinks } : World).run p =
      ((w.run p).1, { (w.run p).2 with sinks := sinksAfter τ sinks }) := by
  induction p generalizing w with
  | done v => exact ⟨[], .done v, fun sinks => rfl⟩
  | failed e => exact ⟨[], .failed e, fun sinks => rfl⟩
  | ask c k ih =>
    obtain ⟨τ, hends, hrun⟩ := ih (handle c w).1 (handle c w).2
    refine ⟨⟨c, (handle c w).1⟩ :: τ, .ask _ hends, fun sinks => ?_⟩
    rw [run_ask, handle_withSinks]
    exact hrun (c.inform sinks)

end World

section

variable {settings : Settings} {key : ObjectKey} {rs held stored : RuleSet}
  {next : RuleSetStatus} {s t : Cluster} {log before after : List Event} {e : Event}
  {res : Except Failure Outcome}

/-! ## Exchanges and their events -/

theorem mem_exchangesOf {i : Nat} {x : Exchange} (he : e ∈ log) (hx : e.exchange? = some (i, x)) :
    x ∈ exchangesOf i log :=
  List.mem_filterMap.2 ⟨e, he, by simp [hx]⟩

theorem exists_split_of_exchangesOf {i : Nat} {past rest : List Exchange} {x : Exchange}
    (h : exchangesOf i log = past ++ x :: rest) :
    ∃ before e after, log = before ++ e :: after ∧ exchangesOf i before = past ∧
      e.exchange? = some (i, x) ∧ exchangesOf i after = rest := by
  obtain ⟨before, later, rfl, hpast, hlater⟩ := List.filterMap_eq_append_iff.1 h
  obtain ⟨others, e, after, rfl, hothers, hx, hrest⟩ := List.filterMap_eq_cons_iff.1 hlater
  refine ⟨before ++ others, e, after, by simp, ?_, ?_, hrest⟩
  · rw [exchangesOf_append, exchangesOf, hpast, exchangesOf, List.filterMap_eq_nil_iff.2 hothers]
    exact List.append_nil past
  · have hmem : x ∈ exchangesOf i [e] := List.mem_filterMap.2 ⟨e, List.mem_singleton.2 rfl, hx⟩
    obtain ⟨d, hd, hdx⟩ := exists_of_mem_exchangesOf hmem
    rwa [List.mem_singleton.1 hd] at hdx

theorem statusWrites_eq_nil (h : ∀ x ∈ exchangesOf 0 log, x.recordsStatus = false) :
    statusWrites log = [] := by
  refine List.filter_eq_nil_iff.2 fun e he => ?_
  cases hx : e.exchange? with
  | none => simp
  | some y =>
    obtain ⟨i, x⟩ := y
    simp only [Option.any_some, Bool.and_eq_true, decide_eq_true_eq, not_and, Bool.not_eq_true]
    rintro rfl
    exact h x (mem_exchangesOf he hx)

theorem statusWrites_eq_singleton {x : Exchange} (hx : e.exchange? = some (0, x))
    (hwrite : x.recordsStatus = true)
    (hbefore : ∀ y ∈ exchangesOf 0 before, y.recordsStatus = false)
    (hafter : ∀ y ∈ exchangesOf 0 after, y.recordsStatus = false) :
    statusWrites (before ++ e :: after) = [e] := by
  have hown : (e.exchange?.any fun x => x.1 = 0 && x.2.recordsStatus) = true := by
    simp [hx, hwrite]
  rw [statusWrites, List.filter_append, List.filter_cons, if_pos hown]
  rw [← statusWrites, ← statusWrites, statusWrites_eq_nil hbefore, statusWrites_eq_nil hafter]
  rfl

/-! ## A pass that records nothing -/

theorem Exchange.recordsStatus_of_not_announces {x : Exchange} (h : x.call.announces = false) :
    x.recordsStatus = false := by
  obtain ⟨c, r⟩ := x
  cases c with
  | store c => cases c <;> first | rfl | cases h
  | _ => rfl

theorem Call.told_of_not_announces {c : Call} (h : c.announces = false) : c.told = [] := by
  cases c with
  | notify ns old new => cases h
  | _ => rfl

theorem toldKeys_append (τ₁ τ₂ : List Exchange) :
    toldKeys (τ₁ ++ τ₂) = toldKeys τ₁ ++ toldKeys τ₂ :=
  List.flatMap_append

theorem toldKeys_of_not_announces {τ : List Exchange} (h : ∀ x ∈ τ, x.call.announces = false) :
    toldKeys τ = [] :=
  List.flatMap_eq_nil_iff.2 fun x hx => Call.told_of_not_announces (h x hx)

/-- A pass that announces nothing and records nothing tells nothing. -/
theorem tellsChanges_of_silent {past ρ : List Exchange} (htrace : exchangesOf 0 log = past ++ ρ)
    (hpast : ∀ x ∈ past, x.call.announces = false) (hwrites : ∀ x ∈ ρ, x.recordsStatus = false)
    (htold : toldKeys ρ = []) : TellsChanges key log res := by
  have hnone : toldKeys (exchangesOf 0 log) = [] := by
    rw [htrace, toldKeys_append, toldKeys_of_not_announces hpast, htold]
    rfl
  have hunwritten : statusWrites log = [] := by
    refine statusWrites_eq_nil fun x hx => ?_
    rcases List.mem_append.1 (htrace ▸ hx) with hx | hx
    · exact Exchange.recordsStatus_of_not_announces (hpast x hx)
    · exact hwrites x hx
  exact ⟨sinksAfter_eq_map _, by simp [hnone], .inl ⟨hunwritten, hnone⟩, fun _ => hnone⟩

/-! ## A pass that records its outcome -/

/-- What was stored before, and has the version of what is stored now, is stored now. -/
theorem StoredDuring.eq_of_version (h : StoredDuring key s log rs) (hd : s.Dated)
    (hleads : Leads s log t) (hstored : t.ruleSets.get? key = some stored)
    (hv : rs.metadata.resourceVersion = stored.metadata.resourceVersion) : stored = rs := by
  obtain ⟨past, u, ⟨rest, rfl⟩, hpast, hrs⟩ := h
  obtain ⟨v, hv₁, hrest⟩ := leads_append_iff.1 hleads
  obtain rfl := hpast.unique hv₁
  exact hrest.advances.eq_ruleSet (hpast.advances.dated hd) hrs hstored hv

/-- An accepted write of a status replaces the outcomes that the pass worked from. -/
theorem outcome?_of_written (hw : s.WellKeyed) (hd : s.Dated) (h : Leads s before e.before)
    (he : e.Happens) (hheld : StoredDuring key s before held) {i : Nat} {v : RuleSet}
    (hx : e.exchange? =
      some (i, ⟨.store (.updateStatus { held with status := some next }), .ok v⟩)) (n : String) :
    e.before.outcome? key n = outcomeOf held.recordedStatus.details n ∧
      e.after.outcome? key n = outcomeOf next.details n := by
  obtain ⟨stored, hstored, hv, hafter⟩ := Cluster.serves_updateStatus_ok (he.serves hx)
  have hkey : ({ held with status := some next } : RuleSet).key = key := hheld.key_eq hw
  rw [hkey] at hstored
  -- The version of the update is that of the copy, so the copy is what the write replaces.
  obtain rfl := hheld.eq_of_version hd h hstored hv
  constructor
  · rw [Cluster.outcome?, hstored]
    rfl
  · have hget := Cluster.get?_replaceStatus e.before stored { stored with status := some next }
    rw [show stored.key = key from hkey, ← hafter] at hget
    rw [Cluster.outcome?, hget]
    rfl

/-- The copy that a pass goes on with was stored at some moment before the record. -/
theorem Leads.storedDuring_held (h : Leads s log t) (hw : s.WellKeyed) {selected : List Pod}
    {σ work ρ : List Exchange} (hhold : (holdRuleSet settings.retry rs).Ends σ (.ok held))
    (htrace : exchangesOf 0 log = traceToRecord key rs selected σ work ++ ρ) :
    StoredDuring key s log held := by
  have hread : ⟨.store (.getRuleSet key), .ok rs⟩ ∈ exchangesOf 0 log := by
    rw [htrace]
    exact List.mem_cons_self ..
  have hσ : ∀ x ∈ σ, x ∈ exchangesOf 0 log := by
    intro x hx
    rw [htrace]
    simp [traceToRecord, hx]
  exact h.storedDuring_of_holdRuleSet hw (h.storedDuring_of_read hread) hσ hhold

/-- A pass that came to write a status met none of the reasons to leave it. -/
theorem not_leavesStatus_of_written {selected : List Pod} {σ work : List Exchange} {now : Instant}
    {o : Outcome} (ha : rs.isTerminating = false)
    (hhold : (holdRuleSet settings.retry rs).Ends σ (.ok held))
    (htrusted : ∀ k v, ⟨.trust k v, false⟩ ∉ work) :
    ¬ LeavesStatus key (traceToRecord key rs selected σ work ++
      [⟨.now, now⟩, ⟨.arm held.key held.version, ()⟩,
        ⟨.store (.updateStatus { held with status := some next }), .ok stored⟩,
        ⟨.notify key.namespaceName held.recordedStatus.details next.details, ()⟩]) (.ok o) := by
  intro h
  cases h with
  | @stale k v _ hmem => simp [trusted_of_traceToRecord hhold htrusted k v] at hmem
  | gone hfirst => cases hfirst
  | deleted ht hfirst =>
    cases hfirst
    exact absurd ht (by simp [ha])
  | unchanged hnone =>
    refine hnone { held with status := some next } (.ok stored) (List.mem_append_right _ ?_)
    simp

/-- A pass that records its status tells what this write changed in the store. -/
theorem tellsChanges_of_written (hw : s.WellKeyed) (hd : s.Dated) (h : Leads s log t)
    {selected : List Pod} {σ work : List Exchange} {now : Instant} {o : Outcome}
    (ha : rs.isTerminating = false) (hhold : (holdRuleSet settings.retry rs).Ends σ (.ok held))
    (hwork : ∀ x ∈ work, x.call.announces = false)
    (htrusted : ∀ k v, ⟨.trust k v, false⟩ ∉ work)
    (htrace : exchangesOf 0 log = traceToRecord key rs selected σ work ++
      [⟨.now, now⟩, ⟨.arm held.key held.version, ()⟩,
        ⟨.store (.updateStatus { held with status := some next }), .ok stored⟩,
        ⟨.notify key.namespaceName held.recordedStatus.details next.details, ()⟩]) :
    TellsChanges key log (.ok o) := by
  have hsilent : ∀ x ∈ traceToRecord key rs selected σ work, x.call.announces = false :=
    announces_of_mem_traceToRecord hhold hwork
  have htold : toldKeys (exchangesOf 0 log) =
      (Call.notify key.namespaceName held.recordedStatus.details next.details).told := by
    rw [htrace, toldKeys_append, toldKeys_of_not_announces hsilent]
    exact List.append_nil _
  obtain ⟨before, e, after, rfl, hbefore, hx, hafter⟩ :=
    exists_split_of_exchangesOf (htrace.trans (List.append_assoc _ [_, _] [_, _]).symm)
  obtain ⟨hleads, hhappens, -⟩ := h.split
  have hheld := hleads.storedDuring_held hw hhold hbefore
  have houtcomes := outcome?_of_written hw hd hleads hhappens hheld hx
  refine ⟨sinksAfter_eq_map _, ?_, .inr ⟨e, ?_, fun k => ?_⟩, fun hleaves => ?_⟩
  · rw [htold]
    exact Call.nodup_told _
  · refine statusWrites_eq_singleton hx rfl (fun y hy => ?_) fun y hy => ?_
    · rw [hbefore] at hy
      rcases List.mem_append.1 hy with hy | hy
      · exact Exchange.recordsStatus_of_not_announces (hsilent y hy)
      · simp only [List.mem_cons, List.not_mem_nil, or_false] at hy
        obtain rfl | rfl := hy <;> rfl
    · rw [hafter, List.mem_singleton] at hy
      rw [hy]
      rfl
  · rw [htold, Call.mem_told, (houtcomes k.name).1, (houtcomes k.name).2]
  · rw [htrace] at hleaves
    exact absurd hleaves (not_leavesStatus_of_written ha hhold htrusted)

/-- Every pass tells the changes that its status write made to what was stored. -/
theorem tellsChanges_of_leads (hw : s.WellKeyed) (hd : s.Dated) (h : Leads s log t)
    (hends : (reconcile settings key).Ends (exchangesOf 0 log) res) : TellsChanges key log res := by
  generalize htrace : exchangesOf 0 log = τ at hends
  rcases announces_of_ends hends with hsilent | @⟨rs, held, selected, σ, work, ρ, _, ha, hhold,
    hwork, htrusted, hrecord⟩
  · have hall : exchangesOf 0 log = τ ++ [] := htrace.trans (List.append_nil τ).symm
    exact tellsChanges_of_silent hall hsilent (by simp) rfl
  have hsilent : ∀ x ∈ traceToRecord key rs selected σ work, x.call.announces = false :=
    announces_of_mem_traceToRecord hhold hwork
  cases hrecord with
  | unchanged now next o hs =>
    have hdetails : held.recordedStatus.details = next.details :=
      (RuleSetStatus.mk.inj (RuleSetStatus.equalButTime_iff.1 hs)).2.2.1
    refine tellsChanges_of_silent htrace hsilent (by simp [Exchange.recordsStatus]) ?_
    rw [hdetails, toldKeys]
    simp only [List.flatMap_cons, List.flatMap_nil, Call.told, changedOutcomes_self]
    rfl
  | written now next stored o hs =>
    exact tellsChanges_of_written hw hd h ha hhold hwork htrusted htrace
  | unwritten now next e hs =>
    exact tellsChanges_of_silent htrace hsilent (by simp [Exchange.recordsStatus]) rfl

/-- On a store that checks versions a pass tells every sink that is not shutting down exactly the
targets whose stored outcome its status write changed, each once, and nothing if it leaves the
status as it is. In any surroundings neither the end of a pass nor anything that it does beside the
sinks depends on the sinks, and each of them ends as if it were alone. -/
theorem sinks_told_stored_changes (settings : Settings) (key : ObjectKey) :
    (∀ s log t res, s.WellKeyed → s.Dated → Leads s log t →
        (reconcile settings key).Ends (exchangesOf 0 log) res → TellsChanges key log res) ∧
      ∀ w : World, ∃ τ, (reconcile settings key).Ends τ (w.run (reconcile settings key)).1 ∧
        ∀ sinks, ({ w with sinks } : World).run (reconcile settings key) =
          ((w.run (reconcile settings key)).1,
            { (w.run (reconcile settings key)).2 with
              sinks := sinks.map (·.receive (toldKeys τ)) }) := by
  refine ⟨fun s log t res hw hd h hends => tellsChanges_of_leads hw hd h hends, fun w => ?_⟩
  obtain ⟨τ, hends, hrun⟩ := World.run_withSinks (reconcile settings key) w
  refine ⟨τ, hends, fun sinks => ?_⟩
  rw [hrun, sinksAfter_eq_map]

end

namespace Telling

open Editing (key ruleSet)
open Vanishing (start opening leads_opening)

def held : RuleSet :=
  { ruleSet.addFinalizer with
    status := some { (default : RuleSetStatus) with details := [.new "q" "S"] } }

def completions : List Completion :=
  [⟨0, "S", some { StageResult.empty with passRules := .ofList [("p", .ofList ["R"])] }⟩]

def next : RuleSetStatus :=
  statusSnapshot ∅ 1 (Completion.combine completions).details.values
    (Completion.combine completions).ruleStates default

def written : RuleSet × Cluster :=
  (start held).replaceStatus held { held with status := some next }

def log : List Event :=
  opening held ++
    [⟨start held, start held, some (0, ⟨.stages, ["S"]⟩)⟩,
      ⟨start held, start held, some (0, ⟨.evaluate ["S"] held [], completions⟩)⟩,
      ⟨start held, start held, some (0, ⟨.now, default⟩)⟩,
      ⟨start held, start held, some (0, ⟨.arm key held.version, ()⟩)⟩,
      ⟨start held, written.2,
        some (0, ⟨.store (.updateStatus { held with status := some next }), .ok written.1⟩)⟩,
      ⟨written.2, written.2,
        some (0, ⟨.notify "ns" held.recordedStatus.details next.details, ()⟩)⟩]

theorem leads_log : Leads (start held) log written.2 := by
  have hwrite : (start held).answer (.updateStatus { held with status := some next }) =
      (.ok written.1, written.2) := rfl
  refine (leads_opening rfl).append ?_
  refine .cons (.aside ?_) <| .cons (.aside ?_) <| .cons (.aside ?_) <| .cons (.aside ?_) <|
    .cons (.served hwrite) <| .cons (.aside ?_) (.nil _)
  all_goals
    rintro c ⟨⟩

theorem ends_log : (reconcile .standard key).Ends (exchangesOf 0 log) (.ok .done) :=
  .ask _ (.ask _ (.ask _ (.ask _ (.ask _ (.ask _ (.ask _ (.ask _ (.ask _ (.done _)))))))))

theorem dated_start : (start held).Dated := Cluster.dated_empty.keepRuleSet rfl

end Telling

open Telling in
/-- One target is new in the status and another one is dropped from it. Both keys come to the sink
that is open, and none to the one that shuts down. -/
theorem new_and_dropped_outcomes_told :
    ((Vanishing.start held).WellKeyed ∧ (Vanishing.start held).Dated ∧
        Leads (Vanishing.start held) log written.2 ∧
        (reconcile .standard Editing.key).Ends (exchangesOf 0 log) (.ok .done)) ∧
      TellsChanges Editing.key log (.ok .done) ∧
      toldKeys (exchangesOf 0 log) = [⟨"ns", "p"⟩, ⟨"ns", "q"⟩] ∧
      (sinksAfter (exchangesOf 0 log) [.empty, KeyQueue.empty.shutDown]).map (·.order) =
        [[⟨"ns", "p"⟩, ⟨"ns", "q"⟩], []] := by
  have hw : (Vanishing.start held).WellKeyed := Vanishing.wellKeyed_start held
  exact ⟨⟨hw, dated_start, leads_log, ends_log⟩,
    (sinks_told_stored_changes .standard Editing.key).1 _ _ _ _ hw dated_start leads_log ends_log,
    rfl, rfl⟩

end PodRules
