import PodRules.Proofs.Cluster.Versions
import PodRules.Proofs.Pass.Frame
import PodRules.Proofs.Run.Orphans

/-!
Optimistic write loops that share a store with each other and with other writers, their calls
interleaved in any order. An update is accepted only at the version of the copy that it was made
from, and a version tells a state from every other one, so an accepted update is an edit of the
object that is stored when it arrives. Main statement: no update undoes another one
(`no_update_is_lost`).
-/

namespace PodRules

inductive WriteLoop where
  | claim (pod : ObjectKey) (owner : String)
  | release (pod : ObjectKey) (owner : String)
  /-- The rule set is the copy of the caller, whatever became of the stored one. -/
  | hold (ruleSet : RuleSet)
  | letGo (ruleSet : RuleSet)

def RuleSet.withFinalizers (rs : RuleSet) (finalizers : List String) : RuleSet :=
  { rs with metadata := { rs.metadata with finalizers := some finalizers } }

namespace Cluster

/-- A write edits the owners of one pod, which were others before, and nothing else but the version
of that pod. -/
structure OwnersWritten (k : ObjectKey) (edit : SortedSet String → SortedSet String)
    (s t : Cluster) : Prop where
  ruleSets : t.ruleSets = s.ruleSets
  others : ∀ j, j ≠ k → t.pods.get? j = s.pods.get? j
  pod : ∃ p q, s.pods.get? k = some p ∧ t.pods.get? k = some q ∧ edit p.owners ≠ p.owners ∧
    q = (p.withOwners (edit p.owners)).atVersion s.nextVersion ∧
    q.owners = edit p.owners ∧ q.bare = p.bare

structure FinalizersWritten (k : ObjectKey) (held : Bool) (edit : List String → List String)
    (s t : Cluster) : Prop where
  pods : t.pods = s.pods
  others : ∀ j, j ≠ k → t.ruleSets.get? j = s.ruleSets.get? j
  ruleSet : ∃ rs next, s.ruleSets.get? k = some rs ∧ rs.isHeld = held ∧
    next = (rs.withFinalizers (edit rs.metadata.finalizerList)).atVersion s.nextVersion ∧
    t.ruleSets.get? k = if next.metadata.isFinished then none else some next

end Cluster

namespace WriteLoop

def pass (b : RetryBackoff) : WriteLoop → Pass Unit
  | claim pod owner => (editTarget b pod (·.addOwner owner)).bind fun _ => .done ()
  | release pod owner => (editTarget b pod (·.removeOwner owner)).bind fun _ => .done ()
  | hold rs => (holdRuleSet b rs).bind fun _ => .done ()
  | letGo rs => PodRules.letGo b rs

inductive Prepares : WriteLoop → Exchange → StoreCall → Prop
  | claim {k : ObjectKey} {owner : String} {p : Pod} (ho : owner ∉ p.owners) :
      Prepares (.claim k owner) ⟨.store (.getTarget k), .ok p⟩ (.updateTarget (p.addOwner owner).1)
  | release {k : ObjectKey} {owner : String} {p : Pod} (ho : owner ∈ p.owners) :
      Prepares (.release k owner) ⟨.store (.getTarget k), .ok p⟩
        (.updateTarget (p.removeOwner owner).1)
  | hold {rs stored : RuleSet} (hh : stored.isHeld = false) :
      Prepares (.hold rs) ⟨.store (.getRuleSet rs.key), .ok stored⟩
        (.updateRuleSet stored.addFinalizer)
  | letGo {rs stored : RuleSet} (hh : stored.isHeld = true) :
      Prepares (.letGo rs) ⟨.store (.getRuleSet rs.key), .ok stored⟩
        (.updateRuleSet stored.dropFinalizer)

def Applies : WriteLoop → Cluster → Cluster → Prop
  | claim k owner => Cluster.OwnersWritten k (·.insert owner)
  | release k owner => Cluster.OwnersWritten k (·.erase owner)
  | hold rs => Cluster.FinalizersWritten rs.key false (· ++ [cleanupFinalizer])
  | letGo rs => Cluster.FinalizersWritten rs.key true (·.filter (· ≠ cleanupFinalizer))

def ownersEdit? (k : ObjectKey) : WriteLoop → Option (SortedSet String → SortedSet String)
  | claim pod owner => if pod = k then some (·.insert owner) else none
  | release pod owner => if pod = k then some (·.erase owner) else none
  | _ => none

end WriteLoop

/-! ## What the loops send -/

namespace WriteLoop

variable {loop : WriteLoop} {past : List Exchange}

def IsPrepared (loop : WriteLoop) (past : List Exchange) (x : Exchange) : Prop :=
  ∀ c r, x = ⟨.store c, r⟩ → c.isWrite = true →
    ∃ y, past.getLast? = some y ∧ loop.Prepares y c

theorem isPrepared_of_not_isWrite {x : Exchange}
    (hx : ∀ c, x.call = .store c → c.isWrite = false) : loop.IsPrepared past x := by
  rintro c r rfl hc
  rw [hx c rfl] at hc
  cases hc

theorem isPrepared_of_prepares {y : Exchange} {c : StoreCall} {r : c.Answer}
    (h : loop.Prepares y c) : loop.IsPrepared (past ++ [y]) ⟨.store c, r⟩ := by
  rintro d r' he -
  cases he
  exact ⟨y, by simp, h⟩

/-- Retrying keeps each write next to the read that prepared it. -/
theorem isPrepared_retry {α : Type} {b : RetryBackoff} {key : ObjectKey}
    {attempt : Pass (Except StoreError α)} (h : ∀ past, attempt.Guarded loop.IsPrepared past) :
    (Pass.retry b key attempt).Guarded loop.IsPrepared past :=
  Pass.Guarded.retry h fun _ _ => isPrepared_of_not_isWrite (by rintro c ⟨⟩)

/-- A read may come at any time; it is what a write may follow. -/
theorem isPrepared_read {α : Type} {c : StoreCall} {k : c.Answer → Pass α}
    (hc : c.isWrite = false)
    (hk : ∀ r, (k r).Guarded loop.IsPrepared (past ++ [⟨.store c, r⟩])) :
    (Pass.ask (.store c) k).Guarded loop.IsPrepared past := by
  refine Pass.guarded_ask (fun _ => isPrepared_of_not_isWrite ?_) hk
  rintro d ⟨⟩
  exact hc

/-- An edit of a target writes what it made of the pod that it has just read. -/
theorem isPrepared_editTarget {b : RetryBackoff} {k : ObjectKey} {edit : Pod → Pod × Bool}
    (h : ∀ p, (edit p).2 = true →
      loop.Prepares ⟨.store (.getTarget k), .ok p⟩ (.updateTarget (edit p).1)) :
    (editTarget b k edit).Guarded loop.IsPrepared past := by
  refine isPrepared_retry fun past => isPrepared_read rfl fun reply => ?_
  rcases reply with (m | m | m) | p
  · exact Pass.guarded_done _
  · exact Pass.guarded_done _
  · exact Pass.guarded_done _
  dsimp only
  split
  next hc =>
    refine Pass.guarded_ask (fun _ => isPrepared_of_prepares (h p hc)) fun reply => ?_
    rcases reply with (m | m | m) | stored <;> exact Pass.guarded_done _
  next => exact Pass.guarded_done _

theorem isPrepared_holdRuleSet (b : RetryBackoff) (rs : RuleSet) :
    (holdRuleSet b rs).Guarded (WriteLoop.hold rs).IsPrepared past := by
  unfold holdRuleSet
  split
  · exact Pass.guarded_done rs
  refine isPrepared_retry fun past => isPrepared_read rfl fun reply => ?_
  rcases reply with e | stored
  · exact Pass.guarded_done _
  dsimp only
  split
  next => exact Pass.guarded_done _
  next hh =>
    have hprep : (WriteLoop.hold rs).Prepares _ _ := .hold (by simpa using hh)
    exact Pass.guarded_ask (fun _ => isPrepared_of_prepares hprep)
      fun reply => Pass.guarded_done reply

theorem isPrepared_letGo (b : RetryBackoff) (rs : RuleSet) :
    (PodRules.letGo b rs).Guarded (WriteLoop.letGo rs).IsPrepared past := by
  refine isPrepared_retry fun past => isPrepared_read rfl fun reply => ?_
  rcases reply with (m | m | m) | stored
  · exact Pass.guarded_done _
  · exact Pass.guarded_done _
  · exact Pass.guarded_done _
  dsimp only
  split
  next hh =>
    refine Pass.guarded_ask (fun _ => isPrepared_of_prepares (.letGo hh)) fun reply => ?_
    rcases reply with (m | m | m) | next <;> exact Pass.guarded_done _
  next => exact Pass.guarded_done _

/-- Whatever is answered, a loop sends no update but from the copy that it fetched right before, and
none from a copy that has the edit. -/
theorem isPrepared_pass (loop : WriteLoop) (b : RetryBackoff) :
    (loop.pass b).Guarded loop.IsPrepared [] := by
  cases loop with
  | claim k owner =>
    refine Pass.Guarded.bind (isPrepared_editTarget fun p hc => .claim ?_) fun _ _ _ =>
      Pass.guarded_done _
    intro ho
    rw [Pod.addOwner, if_pos ho] at hc
    cases hc
  | release k owner =>
    exact Pass.Guarded.bind (isPrepared_editTarget fun p hc =>
      .release (Pod.removeOwner_changes.1 hc)) fun _ _ _ => Pass.guarded_done _
  | hold rs =>
    exact Pass.Guarded.bind (isPrepared_holdRuleSet b rs) fun _ _ _ => Pass.guarded_done _
  | letGo rs => exact isPrepared_letGo b rs

end WriteLoop

/-! ## What an accepted write does -/

theorem RuleSet.dropFinalizer_eq_withFinalizers {rs : RuleSet} (h : rs.isHeld = true) :
    rs.dropFinalizer =
      rs.withFinalizers (rs.metadata.finalizerList.filter (· ≠ cleanupFinalizer)) := by
  unfold RuleSet.isHeld RuleSet.carries Metadata.finalizerList at h
  unfold RuleSet.dropFinalizer RuleSet.withFinalizers Metadata.finalizerList
  cases hf : rs.metadata.finalizers with
  | none => simp [hf] at h
  | some fs => rfl

namespace Cluster

variable {mayFail : StoreError → Prop} {s t u : Cluster} {k : ObjectKey}

/-- An update of a pod is accepted only at the version of the stored one. -/
theorem serves_updateTarget_ok {p q : Pod}
    (h : Serves mayFail s [⟨.store (.updateTarget p), .ok q⟩] t) :
    ∃ stored, s.pods.get? p.key = some stored ∧
      p.metadata.resourceVersion = stored.metadata.resourceVersion ∧ t = (s.replacePod p).2 := by
  have ha := answer_of_serves_ok h
  simp only [answer] at ha
  split at ha
  · cases ha
  next stored hstored =>
    split at ha
    next hv =>
      cases ha
      exact ⟨stored, hstored, of_decide_eq_true hv, rfl⟩
    · cases ha

/-- An accepted update carried the stored version. -/
theorem serves_updateRuleSet_ok {rs next : RuleSet}
    (h : Serves mayFail s [⟨.store (.updateRuleSet rs), .ok next⟩] t) :
    ∃ stored, s.ruleSets.get? rs.key = some stored ∧
      rs.metadata.resourceVersion = stored.metadata.resourceVersion ∧
        next = (s.replaceRuleSet stored rs).1 ∧ t = (s.replaceRuleSet stored rs).2 := by
  have ha := answer_of_serves_ok h
  simp only [answer] at ha
  split at ha
  · cases ha
  next stored hstored =>
    split at ha
    next hv =>
      cases ha
      exact ⟨stored, hstored, of_decide_eq_true hv, rfl, rfl⟩
    · cases ha

theorem serves_updateStatus_ok {rs next : RuleSet}
    (h : Serves mayFail s [⟨.store (.updateStatus rs), .ok next⟩] t) :
    ∃ stored, s.ruleSets.get? rs.key = some stored ∧
      rs.metadata.resourceVersion = stored.metadata.resourceVersion ∧
        t = (s.replaceStatus stored rs).2 := by
  have ha := answer_of_serves_ok h
  simp only [answer] at ha
  split at ha
  · cases ha
  next stored hstored =>
    split at ha
    next hv =>
      cases ha
      exact ⟨stored, hstored, of_decide_eq_true hv, rfl⟩
    · cases ha

/-- An update made from a stored pod is accepted only as long as the pod is stored, so it writes
other owners into the pod that is stored when it arrives. -/
theorem ownersWritten_of_served {p r : Pod} {edit : SortedSet String → SortedSet String}
    (hw : s.WellKeyed) (hd : s.Dated) (hp : s.pods.get? k = some p) (hadv : s.Advances u)
    (hne : edit p.owners ≠ p.owners)
    (h : Serves mayFail u [⟨.store (.updateTarget (p.withOwners (edit p.owners))), .ok r⟩] t) :
    OwnersWritten k edit u t := by
  have hkey : (p.withOwners (edit p.owners)).key = k := hw.pod k p hp
  obtain ⟨stored, hstored, hv, rfl⟩ := serves_updateTarget_ok h
  rw [hkey] at hstored
  obtain rfl := hadv.eq_pod hd hp hstored hv
  refine ⟨rfl, fun j hj => ?_, stored, _, hstored, ?_, hne, rfl, ?_, ?_⟩
  · rw [get?_pods_replacePod, hkey, if_neg hj]
  · rw [get?_pods_replacePod, hkey, if_pos rfl]
  · rw [Pod.owners_atVersion, Pod.owners_withOwners]
  · rw [Pod.bare_atVersion, Pod.bare_withOwners]

/-- An accepted update of the finalizers edits what is stored: the version shows that the copy is
it. -/
theorem finalizersWritten_of_served {rs r : RuleSet} {held : Bool}
    {edit : List String → List String} (hw : s.WellKeyed) (hd : s.Dated)
    (hrs : s.ruleSets.get? k = some rs) (hadv : s.Advances u) (hh : rs.isHeld = held)
    (h : Serves mayFail u [⟨.store (.updateRuleSet
      (rs.withFinalizers (edit rs.metadata.finalizerList))), .ok r⟩] t) :
    FinalizersWritten k held edit u t := by
  have hkey : (rs.withFinalizers (edit rs.metadata.finalizerList)).key = k := hw.ruleSet k rs hrs
  obtain ⟨stored, hstored, hv, -, rfl⟩ := serves_updateRuleSet_ok h
  rw [hkey] at hstored
  obtain rfl := hadv.eq_ruleSet hd hrs hstored hv
  subst hkey
  exact ⟨pods_replaceRuleSet u _ _, fun j hj => get?_ruleSets_replaceRuleSet u _ _ hj,
    stored, _, hstored, hh, rfl, get?_replaceRuleSet u stored _⟩

end Cluster

namespace WriteLoop

variable {mayFail : StoreError → Prop} {s t u v : Cluster}

/-- An accepted update of a loop applies its edit to what is stored when it arrives. -/
theorem Prepares.applies {loop : WriteLoop} {y : Exchange} {c : StoreCall} {r : c.Value}
    (h : loop.Prepares y c) (hw : s.WellKeyed) (hd : s.Dated)
    (hread : Cluster.Serves mayFail s [y] t) (hadv : t.Advances u)
    (hwrite : Cluster.Serves mayFail u [⟨.store c, .ok r⟩] v) : loop.Applies u v := by
  have hsu : s.Advances u := hread.advances.trans hadv
  cases h with
  | @claim k owner p ho =>
    obtain ⟨hp, -⟩ := Cluster.serves_getTarget_ok hread
    have hne : p.owners.insert owner ≠ p.owners := by
      intro heq
      exact ho (heq ▸ SortedSet.mem_insert.2 (Or.inl rfl))
    have hedit : (p.addOwner owner).1 = p.withOwners (p.owners.insert owner) := by
      rw [Pod.addOwner, if_neg ho]
    rw [hedit] at hwrite
    exact Cluster.ownersWritten_of_served hw hd hp hsu hne hwrite
  | @release k owner p ho =>
    obtain ⟨hp, -⟩ := Cluster.serves_getTarget_ok hread
    have hne : p.owners.erase owner ≠ p.owners := by
      intro heq
      exact (SortedSet.mem_erase.1 (heq ▸ ho)).2 rfl
    have hedit : (p.removeOwner owner).1 = p.withOwners (p.owners.erase owner) := by
      rw [Pod.removeOwner, if_pos ho]
    rw [hedit] at hwrite
    exact Cluster.ownersWritten_of_served hw hd hp hsu hne hwrite
  | hold hh =>
    obtain ⟨hrs, -⟩ := Cluster.serves_getRuleSet_ok hread
    exact Cluster.finalizersWritten_of_served hw hd hrs hsu hh hwrite
  | letGo hh =>
    obtain ⟨hrs, -⟩ := Cluster.serves_getRuleSet_ok hread
    rw [RuleSet.dropFinalizer_eq_withFinalizers hh] at hwrite
    exact Cluster.finalizersWritten_of_served hw hd hrs hsu hh hwrite

end WriteLoop

/-! ## Interleavings -/

def Edit.TakesVersion : Edit → Prop
  | .putRuleSet keepVersion _ => keepVersion = false
  | .putPod keepVersion _ => keepVersion = false
  | _ => True

theorem Edit.advances_applied {s : Cluster} {e : Edit} (hw : s.WellKeyed) (he : e.TakesVersion) :
    s.Advances (e.applied s) := by
  cases e with
  | putRuleSet keepVersion rs =>
    obtain rfl : keepVersion = false := he
    exact Cluster.advances_putRuleSet s rs
  | putPod keepVersion p =>
    obtain rfl : keepVersion = false := he
    exact Cluster.advances_putPod s p
  | deleteRuleSet k => exact Cluster.advances_deleteRuleSet s k
  | deletePod k => exact Cluster.advances_deletePod s k
  | touchRuleSet k => exact Cluster.advances_touchRuleSet hw k
  | touchPod k => exact Cluster.advances_touchPod hw k
  | fault method faults => exact .refl s

structure Event where
  before : Cluster
  after : Cluster
  exchange? : Option (Nat × Exchange)

namespace Event

/-- A call is one step of the store, which answers it or fails without an effect; another writer
stores what it stores at fresh versions. -/
inductive Happens : Event → Prop
  | edit {s t : Cluster} (h : s.Advances t) : Happens ⟨s, t, none⟩
  | call {s t : Cluster} (i : Nat) (x : Exchange) (h : Cluster.Serves (fun _ => True) s [x] t) :
      Happens ⟨s, t, some (i, x)⟩

def writer? (e : Event) : Option Nat :=
  e.exchange?.bind fun x => x.2.write?.map fun _ => x.1

def KeepsOwners (k : ObjectKey) (e : Event) : Prop :=
  ∀ p, e.before.pods.get? k = some p →
    ∃ q, e.after.pods.get? k = some q ∧ q.owners = p.owners

theorem keepsOwners_touchPod (s : Cluster) (j k : ObjectKey) :
    (⟨s, (Edit.touchPod j).applied s, none⟩ : Event).KeepsOwners k := by
  intro p hp
  show ∃ q, (s.touchPod j).pods.get? k = some q ∧ q.owners = p.owners
  unfold Cluster.touchPod
  split
  next stored hstored =>
    rw [SortedMap.get?_insert]
    split
    next hk =>
      subst hk
      cases hp.symm.trans hstored
      exact ⟨_, rfl, rfl⟩
    next => exact ⟨p, hp, rfl⟩
  next => exact ⟨p, hp, rfl⟩

end Event

def exchangesOf (i : Nat) (log : List Event) : List Exchange :=
  log.filterMap fun e => e.exchange?.bind fun x => if x.1 = i then some x.2 else none

def ownersEdits (loops : Nat → WriteLoop) (k : ObjectKey) (log : List Event) :
    List (SortedSet String → SortedSet String) :=
  log.filterMap fun e => e.writer?.bind fun i => (loops i).ownersEdit? k

inductive Leads : Cluster → List Event → Cluster → Prop
  | nil (s : Cluster) : Leads s [] s
  | cons {e : Event} {log : List Event} {t : Cluster} (he : e.Happens) (h : Leads e.after log t) :
      Leads e.before (e :: log) t

/-- Loops share a store: each of them is somewhere on its way. -/
structure Interleaves (loops : Nat → WriteLoop) (b : Nat → RetryBackoff) (s : Cluster)
    (log : List Event) (t : Cluster) : Prop where
  leads : Leads s log t
  reaches : ∀ i, ∃ rest, ((loops i).pass (b i)).Reaches (exchangesOf i log) rest

section

variable {s t u : Cluster} {log : List Event} {e : Event}

/-- Every event, a call or an edit, goes on to newer versions. -/
theorem Event.Happens.advances (h : e.Happens) : e.before.Advances e.after := by
  cases h with
  | edit h => exact h
  | call i x h => exact h.advances

theorem Event.Happens.served {i : Nat} {c : StoreCall} {r : c.Answer} (h : s.answer c = (r, t)) :
    (⟨s, t, some (i, ⟨.store c, r⟩)⟩ : Event).Happens :=
  .call i _ (.step h (.nil t))

theorem Event.Happens.aside {i : Nat} {x : Exchange} (hx : ∀ c, x.call ≠ .store c) :
    (⟨s, s, some (i, x)⟩ : Event).Happens :=
  .call i x (.aside hx (.nil s))

theorem Event.Happens.serves (h : e.Happens) {i : Nat} {x : Exchange}
    (hx : e.exchange? = some (i, x)) : Cluster.Serves (fun _ => True) e.before [x] e.after := by
  cases h with
  | edit h => cases hx
  | call j y h =>
    cases hx
    exact h

theorem Leads.advances (h : Leads s log t) : s.Advances t := by
  induction h with
  | nil s => exact .refl s
  | cons he _ ih => exact he.advances.trans ih

theorem leads_cons_iff : Leads s (e :: log) t ↔ s = e.before ∧ e.Happens ∧ Leads e.after log t := by
  constructor
  · intro h
    cases h with
    | cons he h => exact ⟨rfl, he, h⟩
  · rintro ⟨rfl, he, h⟩
    exact .cons he h

theorem Leads.append {rest : List Event} (h₁ : Leads s log u) (h₂ : Leads u rest t) :
    Leads s (log ++ rest) t := by
  induction h₁ with
  | nil s => exact h₂
  | cons he _ ih => exact .cons he (ih h₂)

theorem leads_append_iff {rest : List Event} :
    Leads s (log ++ rest) t ↔ ∃ u, Leads s log u ∧ Leads u rest t := by
  constructor
  · intro h
    induction log generalizing s with
    | nil => exact ⟨s, .nil s, h⟩
    | cons e log ih =>
      obtain ⟨rfl, he, h⟩ := leads_cons_iff.1 h
      obtain ⟨u, h₁, h₂⟩ := ih h
      exact ⟨u, .cons he h₁, h₂⟩
  · rintro ⟨u, h₁, h₂⟩
    exact h₁.append h₂

/-- A run is split at any of its events. -/
theorem Leads.split {before after : List Event} (h : Leads s (before ++ e :: after) t) :
    Leads s before e.before ∧ e.Happens ∧ Leads e.after after t := by
  obtain ⟨u, h₁, h₂⟩ := leads_append_iff.1 h
  obtain ⟨rfl, he, h₃⟩ := leads_cons_iff.1 h₂
  exact ⟨h₁, he, h₃⟩

/-- Events lead to one state. -/
theorem Leads.unique (h : Leads s log t) (h' : Leads s log u) : u = t := by
  induction h with
  | nil s =>
    cases h'
    rfl
  | cons he _ ih => exact ih (leads_cons_iff.1 h').2.2

theorem Leads.happens_of_mem (h : Leads s log t) (he : e ∈ log) : e.Happens := by
  obtain ⟨before, after, rfl⟩ := List.append_of_mem he
  exact h.split.2.1

theorem exchangesOf_append (i : Nat) (log rest : List Event) :
    exchangesOf i (log ++ rest) = exchangesOf i log ++ exchangesOf i rest :=
  List.filterMap_append

theorem exists_of_mem_exchangesOf {i : Nat} {x : Exchange} (h : x ∈ exchangesOf i log) :
    ∃ e ∈ log, e.exchange? = some (i, x) := by
  obtain ⟨e, he, hx⟩ := List.mem_filterMap.1 h
  refine ⟨e, he, ?_⟩
  obtain ⟨⟨j, y⟩, hy, hj⟩ := Option.bind_eq_some_iff.1 hx
  split at hj
  next hij =>
    cases hj
    rw [hy, ← hij]
  · cases hj

/-- A call that is no accepted write leaves the store alone. -/
theorem Event.Happens.after_eq (h : e.Happens) (hcall : e.exchange? ≠ none)
    (hnone : e.writer? = none) : e.after = e.before := by
  cases h with
  | edit h => exact absurd rfl hcall
  | call i x h => exact Cluster.eq_of_serves_of_write?_eq_none h (by simpa [writer?] using hnone)

theorem exchange?_of_writer? {i : Nat} (h : e.writer? = some i) :
    ∃ c v, e.exchange? = some (i, ⟨.store c, .ok v⟩) ∧ c.isWrite = true := by
  obtain ⟨⟨j, x⟩, hx, hw⟩ := Option.bind_eq_some_iff.1 h
  obtain ⟨c, hc, rfl⟩ := Option.map_eq_some_iff.1 hw
  obtain ⟨v, rfl, hwrite⟩ := Exchange.write?_eq_some hc
  exact ⟨c, v, hx, hwrite⟩

end

namespace WriteLoop

variable {s t : Cluster}

/-- An accepted write leaves the owners of a pod as they were, but for the edit of its loop. -/
theorem Applies.owners {loop : WriteLoop} (h : loop.Applies s t) {k : ObjectKey} {p : Pod}
    (hp : s.pods.get? k = some p) :
    ∃ q, t.pods.get? k = some q ∧
      q.owners = ((loop.ownersEdit? k).map fun edit => edit p.owners).getD p.owners := by
  have hpod {pod : ObjectKey} {edit : SortedSet String → SortedSet String}
      (h : Cluster.OwnersWritten pod edit s t) : ∃ q, t.pods.get? k = some q ∧
        q.owners = if pod = k then edit p.owners else p.owners := by
    by_cases hk : pod = k
    · subst hk
      obtain ⟨p', q, hp', hq, -, -, ho, -⟩ := h.pod
      cases hp.symm.trans hp'
      exact ⟨q, hq, by rw [ho, if_pos rfl]⟩
    · exact ⟨p, by rw [h.others k (Ne.symm hk), hp], by rw [if_neg hk]⟩
  cases loop with
  | claim pod owner =>
    obtain ⟨q, hq, ho⟩ := hpod h
    refine ⟨q, hq, ?_⟩
    rw [ho, ownersEdit?]
    split <;> rfl
  | release pod owner =>
    obtain ⟨q, hq, ho⟩ := hpod h
    refine ⟨q, hq, ?_⟩
    rw [ho, ownersEdit?]
    split <;> rfl
  | hold rs => exact ⟨p, by rw [h.pods, hp], rfl⟩
  | letGo rs => exact ⟨p, by rw [h.pods, hp], rfl⟩

end WriteLoop

section

variable {loops : Nat → WriteLoop} {b : Nat → RetryBackoff} {s t : Cluster} {log : List Event}

/-- A pod that exists and whose owners only the loops edit ends with the edits that they made. -/
theorem Leads.owners (h : Leads s log t) {k : ObjectKey} {p : Pod}
    (hp : s.pods.get? k = some p)
    (happ : ∀ e ∈ log, ∀ i, e.writer? = some i → (loops i).Applies e.before e.after)
    (hkeep : ∀ e ∈ log, e.exchange? = none → e.KeepsOwners k) :
    ∃ q, t.pods.get? k = some q ∧
      q.owners = (ownersEdits loops k log).foldl (fun owners edit => edit owners) p.owners := by
  -- On the log, from any state: an event leads to a pod with the owners that it makes.
  induction h generalizing p with
  | nil s => exact ⟨p, hp, rfl⟩
  | @cons e log t he _ ih =>
    have hstep : ∃ q, e.after.pods.get? k = some q ∧
        q.owners = ((e.writer?.bind fun i => (loops i).ownersEdit? k).map
          fun edit => edit p.owners).getD p.owners := by
      cases hi : e.writer? with
      | some i => exact (happ e (List.mem_cons_self ..) i hi).owners hp
      | none =>
        by_cases hcall : e.exchange? = none
        · exact hkeep e (List.mem_cons_self ..) hcall p hp
        · rw [he.after_eq hcall hi]
          exact ⟨p, hp, rfl⟩
    obtain ⟨q, hq, ho⟩ := hstep
    obtain ⟨q', hq', ho'⟩ := ih hq (fun d hd => happ d (List.mem_cons_of_mem _ hd))
      fun d hd => hkeep d (List.mem_cons_of_mem _ hd)
    refine ⟨q', hq', ?_⟩
    rw [ho', ho, ownersEdits, ownersEdits, List.filterMap_cons]
    cases e.writer?.bind fun i => (loops i).ownersEdit? k with
    | none => rfl
    | some edit => rfl

/-- An accepted write of a loop applies its edit, whatever happened since the loop fetched the copy
that it wrote from. -/
theorem Leads.applies (h : Leads s log t) (hw : s.WellKeyed) (hd : s.Dated) {loop : WriteLoop}
    {i : Nat} {before after : List Event} {e : Event} {c : StoreCall} {v : c.Value} {y : Exchange}
    (hlog : log = before ++ e :: after) (hx : e.exchange? = some (i, ⟨.store c, .ok v⟩))
    (hlast : (exchangesOf i before).getLast? = some y) (hprep : loop.Prepares y c) :
    loop.Applies e.before e.after := by
  subst hlog
  -- The copy was fetched at an earlier event, after which the store only advanced.
  obtain ⟨d, hdmem, hdx⟩ := exists_of_mem_exchangesOf (List.mem_of_getLast? hlast)
  obtain ⟨first, between, rfl⟩ := List.append_of_mem hdmem
  obtain ⟨hbefore, hhappens, -⟩ := h.split
  obtain ⟨hfirst, hread, hbetween⟩ := hbefore.split
  have hw' := hfirst.advances.wellKeyed hw
  have hd' := hfirst.advances.dated hd
  exact hprep.applies hw' hd' (hread.serves hdx) hbetween.advances (hhappens.serves hx)

namespace Interleaves

variable (h : Interleaves loops b s log t)
include h

/-- Every write that is sent was prepared by what its loop asked right before. -/
theorem prepares {before after : List Event} {e : Event} {i : Nat} {c : StoreCall} {r : c.Answer}
    (hlog : log = before ++ e :: after) (he : e.exchange? = some (i, ⟨.store c, r⟩))
    (hc : c.isWrite = true) :
    ∃ y, (exchangesOf i before).getLast? = some y ∧ (loops i).Prepares y c := by
  obtain ⟨rest, hreach⟩ := h.reaches i
  obtain ⟨more, res, hends⟩ := hreach.exists_ends
  have htrace : exchangesOf i log ++ more =
      exchangesOf i before ++ ⟨.store c, r⟩ :: (exchangesOf i after ++ more) := by
    rw [hlog, exchangesOf_append]
    simp [exchangesOf, he]
  exact (loops i).isPrepared_pass (b i) _ res hends _ _ _ htrace c r rfl hc

/-- Each accepted write of a loop applies that loop's own edit to the stored object. -/
theorem applies (hw : s.WellKeyed) (hd : s.Dated) {e : Event} (he : e ∈ log) {i : Nat}
    (hi : e.writer? = some i) : (loops i).Applies e.before e.after := by
  obtain ⟨before, after, hlog⟩ := List.append_of_mem he
  obtain ⟨c, v, hx, hc⟩ := exchange?_of_writer? hi
  obtain ⟨y, hlast, hprep⟩ := h.prepares hlog hx hc
  exact h.leads.applies hw hd hlog hx hlast hprep

end Interleaves

/-- Loops and other writers share a store. Every accepted write of a loop applies its edit to the
object as it is stored right before, in which the edit is not in place, and does nothing else; no
loop sends an update but from the copy that it fetched right before, if that lacks the edit; and a
pod whose owners only the loops edit ends with the accepted edits in the order of the writes. -/
theorem no_update_is_lost (hw : s.WellKeyed) (hd : s.Dated) (h : Interleaves loops b s log t) :
    (∀ e ∈ log, ∀ i, e.writer? = some i → (loops i).Applies e.before e.after) ∧
      (∀ before e after i c r, log = before ++ e :: after →
        e.exchange? = some (i, ⟨.store c, r⟩) → c.isWrite = true →
        ∃ y, (exchangesOf i before).getLast? = some y ∧ (loops i).Prepares y c) ∧
      ∀ k p, s.pods.get? k = some p →
        (∀ e ∈ log, e.exchange? = none → e.KeepsOwners k) →
        ∃ q, t.pods.get? k = some q ∧
          q.owners = (ownersEdits loops k log).foldl (fun owners edit => edit owners) p.owners := by
  have happ : ∀ e ∈ log, ∀ i, e.writer? = some i → (loops i).Applies e.before e.after :=
    fun e he i hi => h.applies hw hd he hi
  refine ⟨happ, fun before e after i c r hlog he hc => h.prepares hlog he hc, ?_⟩
  intro k p hp hkeep
  exact h.leads.owners hp happ hkeep

end

/-! ## Two claims of one pod

Both loops fetch the pod before either writes. The update that comes second meets a conflict, and
after a wait its loop starts over with a fresh copy, which another writer has touched by then. -/

namespace Sharing

open Orphaning (pod)

def loops : Nat → WriteLoop
  | 0 => .claim ⟨"ns", "p"⟩ "a"
  | _ => .claim ⟨"ns", "p"⟩ "b"

def stored : Pod := pod.atVersion "1"

def claimedFirst : Pod := stored.withOwners (.ofList ["a"])

def claimedLate : Pod := stored.withOwners (.ofList ["b"])

def touched : Pod := claimedFirst.atVersion "3"

def claimedTwice : Pod := touched.withOwners (.ofList ["a", "b"])

def start : Cluster := Cluster.empty.putPod pod

def afterFirst : Cluster := (start.replacePod claimedFirst).2

def afterTouch : Cluster := (Edit.touchPod ⟨"ns", "p"⟩).applied afterFirst

def afterBoth : Cluster := (afterTouch.replacePod claimedTwice).2

def log : List Event :=
  [⟨start, start, some (0, ⟨.store (.getTarget ⟨"ns", "p"⟩), .ok stored⟩)⟩,
    ⟨start, start, some (1, ⟨.store (.getTarget ⟨"ns", "p"⟩), .ok stored⟩)⟩,
    ⟨start, afterFirst,
      some (0, ⟨.store (.updateTarget claimedFirst), .ok (claimedFirst.atVersion "2")⟩)⟩,
    ⟨afterFirst, afterFirst,
      some (1, ⟨.store (.updateTarget claimedLate), .error (.conflict "ns/p")⟩)⟩,
    ⟨afterFirst, afterFirst, some (1, ⟨.sleep (RetryBackoff.standard.delay 1), ()⟩)⟩,
    ⟨afterFirst, afterTouch, none⟩,
    ⟨afterTouch, afterTouch, some (1, ⟨.store (.getTarget ⟨"ns", "p"⟩), .ok touched⟩)⟩,
    ⟨afterTouch, afterBoth,
      some (1, ⟨.store (.updateTarget claimedTwice), .ok (claimedTwice.atVersion "4")⟩)⟩]

theorem wellKeyed_start : start.WellKeyed :=
  (Cluster.advances_putPod _ pod).wellKeyed Cluster.wellKeyed_empty

theorem dated_start : start.Dated :=
  (Cluster.advances_putPod _ pod).dated Cluster.dated_empty

theorem leads_log : Leads start log afterBoth := by
  refine .cons (.call _ _ (.step (u := start) rfl (.nil _))) <|
    .cons (.call _ _ (.step (u := start) rfl (.nil _))) <|
    .cons (.call _ _ (.step (u := afterFirst) rfl (.nil _))) <|
    .cons (.call _ _ (.step (u := afterFirst) rfl (.nil _))) <|
    .cons (.call _ _ (.aside (by rintro c ⟨⟩) (.nil _))) <|
    .cons (.edit ?_) <|
    .cons (.call _ _ (.step (u := afterTouch) rfl (.nil _))) <|
    .cons (.call _ _ (.step (u := afterBoth) rfl (.nil _))) (.nil _)
  have hw : afterFirst.WellKeyed :=
    (Cluster.advances_putPod start claimedFirst).wellKeyed wellKeyed_start
  exact Edit.advances_applied hw trivial

theorem reaches_log (i : Nat) :
    ∃ rest, ((loops i).pass .standard).Reaches (exchangesOf i log) rest := by
  match i with
  | 0 => exact ⟨_, .ask _ (.ask _ (.here _))⟩
  | 1 => exact ⟨_, .ask _ (.ask _ (.ask _ (.ask _ (.ask _ (.here _)))))⟩
  | i + 2 =>
    have hnone : exchangesOf (i + 2) log = [] := by simp [exchangesOf, log]
    rw [hnone]
    exact ⟨_, .here _⟩

theorem keepsOwners_log : ∀ e ∈ log, e.exchange? = none → e.KeepsOwners ⟨"ns", "p"⟩ := by
  intro e he hnone
  have hedit : e = ⟨afterFirst, afterTouch, none⟩ := by
    simp only [log, List.mem_cons, List.not_mem_nil, or_false] at he
    rcases he with rfl | rfl | rfl | rfl | rfl | rfl | rfl | rfl
    all_goals first | rfl | cases hnone
  rw [hedit]
  exact Event.keepsOwners_touchPod _ _ _

end Sharing

open Sharing in
theorem second_claim_keeps_the_first :
    ∃ q, afterBoth.pods.get? ⟨"ns", "p"⟩ = some q ∧
      q.owners = (stored.owners.insert "a").insert "b" :=
  (@no_update_is_lost loops (fun _ => .standard) start afterBoth log wellKeyed_start dated_start
    ⟨leads_log, reaches_log⟩).2.2 ⟨"ns", "p"⟩ stored rfl keepsOwners_log

end PodRules
