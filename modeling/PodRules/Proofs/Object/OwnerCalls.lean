import PodRules.Proofs.Object.Owners

namespace PodRules

inductive OwnerCall
  | claim (name : String)
  | release (name : String)
  deriving DecidableEq, Repr

namespace OwnerCall

def onPod : OwnerCall → Pod → Pod × Bool
  | claim name, p => p.addOwner name
  | release name, p => p.removeOwner name

def onSet : OwnerCall → SortedSet String → SortedSet String
  | claim name, owners => owners.insert name
  | release name, owners => owners.erase name

def afterAll (calls : List OwnerCall) (p : Pod) : Pod := calls.foldl (fun p c => (c.onPod p).1) p

end OwnerCall

namespace Pod

def annotation? (p : Pod) (name : String) : Option String :=
  p.metadata.annotations.bind (·.get? name)

def ownersRecord? (owners : SortedSet String) : Option String :=
  if owners.isEmpty then none else some (ownersText owners)

/-- Pods that differ at most in what the ownership annotation says. -/
structure AgreesBeyondOwners (p q : Pod) : Prop where
  annotations : ∀ name, name ≠ ownershipAnnotation → q.annotation? name = p.annotation? name
  /-- With the same annotations they are the same, down to every other field. -/
  others : { q with metadata := { q.metadata with annotations := p.metadata.annotations } } = p

end Pod

structure OwnerStep where
  before : Pod
  call : OwnerCall
  changed : Bool
  after : Pod

def OwnerStep.all : List OwnerCall → Pod → List OwnerStep
  | [], _ => []
  | c :: cs, p => ⟨p, c, (c.onPod p).2, (c.onPod p).1⟩ :: all cs (c.onPod p).1

structure OwnerStep.ActsOnSet (s : OwnerStep) : Prop where
  owners : s.after.owners = s.call.onSet s.before.owners
  reports : s.changed = true ↔ s.after.owners ≠ s.before.owners
  unchanged : s.changed = false → s.after = s.before
  recorded : s.changed = true →
    s.after.annotation? ownershipAnnotation = Pod.ownersRecord? s.after.owners
  absent : s.changed = true →
    (s.after.annotation? ownershipAnnotation = none ↔ s.after.owners = ∅)
  parses : s.changed = true → ∀ text, s.after.annotation? ownershipAnnotation = some text →
    Json.decode? (SortedSet String) text = some s.after.owners
  agrees : Pod.AgreesBeyondOwners s.before s.after

/-! ## The set -/

namespace SortedSet

variable {α : Type} [Ord α] [Std.TransOrd α] [Std.LawfulEqOrd α] {s : SortedSet α} {x : α}

theorem insert_eq_self_iff : s.insert x = s ↔ x ∈ s := by
  constructor
  · intro h
    rw [← h]
    exact mem_insert.2 (.inl rfl)
  · intro h
    ext z
    rw [mem_insert]
    exact ⟨fun hz => hz.elim (fun e => e ▸ h) id, .inr⟩

theorem erase_eq_self_iff [DecidableEq α] : s.erase x = s ↔ x ∉ s := by
  constructor
  · intro h hx
    rw [← h] at hx
    exact (mem_erase.1 hx).2 rfl
  · intro h
    ext z
    rw [mem_erase]
    exact ⟨And.left, fun hz => ⟨hz, fun e => h (e ▸ hz)⟩⟩

end SortedSet

/-! ## The annotation -/

namespace Pod

variable {p q r : Pod}

/-- The annotation is left out exactly when there is no owner. -/
theorem ownersRecord?_eq_none_iff {owners : SortedSet String} :
    ownersRecord? owners = none ↔ owners = ∅ := by
  unfold ownersRecord?
  constructor
  · intro h
    by_cases he : owners.isEmpty = true
    · exact SortedSet.eq_empty_of_isEmpty he
    · simp [he] at h
  · rintro rfl
    rfl

theorem decode?_of_ownersRecord? {owners : SortedSet String} {text : String}
    (h : ownersRecord? owners = some text) :
    Json.decode? (SortedSet String) text = some owners := by
  unfold ownersRecord? at h
  split at h
  · cases h
  · cases h
    exact Json.decode?_text owners

theorem get?_annotations (p : Pod) (name : String) :
    (p.metadata.annotations.getD ∅).get? name = p.annotation? name := by
  unfold annotation?
  cases p.metadata.annotations <;> rfl

/-- Writing the owners changes one annotation only. -/
theorem annotation?_withOwners (p : Pod) (owners : SortedSet String) (name : String) :
    (p.withOwners owners).annotation? name =
      if name = ownershipAnnotation then ownersRecord? owners else p.annotation? name := by
  rw [← p.get?_annotations name]
  unfold annotation? withOwners ownersRecord?
  by_cases h : owners.isEmpty = true
  · simp only [h, if_true, Option.bind_some, SortedMap.get?_erase]
  · simp only [h, Bool.false_eq_true, if_false, Option.bind_some, SortedMap.get?_insert]

theorem AgreesBeyondOwners.refl (p : Pod) : AgreesBeyondOwners p p := ⟨fun _ _ => rfl, rfl⟩

theorem AgreesBeyondOwners.trans (h : AgreesBeyondOwners p q) (h' : AgreesBeyondOwners q r) :
    AgreesBeyondOwners p r where
  annotations name hname := (h'.annotations name hname).trans (h.annotations name hname)
  others := by
    rw [← h.others, ← h'.others]

theorem agreesBeyondOwners_withOwners (p : Pod) (owners : SortedSet String) :
    AgreesBeyondOwners p (p.withOwners owners) where
  annotations name hname := by
    rw [annotation?_withOwners, if_neg hname]
  others := rfl

end Pod

/-! ## One call -/

namespace OwnerCall

variable (c : OwnerCall) (p : Pod)

/-- Both kinds of calls write the new set of owners, and only if it is another one. -/
theorem onPod_eq : c.onPod p = if c.onSet p.owners = p.owners then (p, false)
    else (p.withOwners (c.onSet p.owners), true) := by
  cases c with
  | claim name =>
    show p.addOwner name = if p.owners.insert name = p.owners then _ else _
    simp only [Pod.addOwner, SortedSet.insert_eq_self_iff]
    rfl
  | release name =>
    show p.removeOwner name = if p.owners.erase name = p.owners then _ else _
    simp only [Pod.removeOwner, SortedSet.erase_eq_self_iff, ite_not]
    rfl

/-- One call on a pod acts on its owners as the call on a set does. -/
theorem actsOnSet_onPod : OwnerStep.ActsOnSet ⟨p, c, (c.onPod p).2, (c.onPod p).1⟩ := by
  rw [onPod_eq]
  by_cases h : c.onSet p.owners = p.owners
  · -- The same set: what its annotation says stays, also where it is not how the set is written.
    rw [if_pos h]
    refine ⟨h.symm, ?_, fun _ => rfl, ?_, ?_, ?_, .refl p⟩
    · simp
    all_goals
      intro hchanged
      cases hchanged
  · rw [if_neg h]
    have howners := Pod.owners_withOwners p (c.onSet p.owners)
    have hrecord : (p.withOwners (c.onSet p.owners)).annotation? ownershipAnnotation =
        Pod.ownersRecord? (p.withOwners (c.onSet p.owners)).owners := by
      rw [Pod.annotation?_withOwners, if_pos rfl, howners]
    refine ⟨howners, ?_, ?_, fun _ => hrecord, fun _ => ?_, fun _ text htext => ?_,
      Pod.agreesBeyondOwners_withOwners p _⟩
    · simpa using h
    · intro hchanged
      cases hchanged
    · rw [hrecord, Pod.ownersRecord?_eq_none_iff]
    · exact Pod.decode?_of_ownersRecord? (hrecord.symm.trans htext)

end OwnerCall

/-! ## A sequence of calls -/

namespace OwnerStep

open OwnerCall (afterAll)

theorem actsOnSet_of_mem_all {calls : List OwnerCall} {p : Pod} {s : OwnerStep}
    (hs : s ∈ all calls p) : s.ActsOnSet := by
  induction calls generalizing p with
  | nil => cases hs
  | cons c cs ih =>
    rcases List.mem_cons.1 hs with rfl | hs
    · exact c.actsOnSet_onPod p
    · exact ih hs

/-- The owners after a sequence of calls are what the calls make of the owners before it. -/
theorem owners_afterAll (calls : List OwnerCall) (p : Pod) :
    (afterAll calls p).owners = calls.foldl (fun owners c => c.onSet owners) p.owners := by
  induction calls generalizing p with
  | nil => rfl
  | cons c cs ih =>
    have hstep := (c.actsOnSet_onPod p).owners
    rw [List.foldl_cons, ← hstep]
    exact ih (c.onPod p).1

/-- Whatever the calls do to the owners, they leave the rest of the pod as it was. -/
theorem agreesBeyondOwners_afterAll (calls : List OwnerCall) (p : Pod) :
    Pod.AgreesBeyondOwners p (afterAll calls p) := by
  induction calls generalizing p with
  | nil => exact .refl p
  | cons c cs ih => exact (c.actsOnSet_onPod p).agrees.trans (ih (c.onPod p).1)

/-- Owners behave as a set that every call of a sequence acts on. -/
theorem owner_calls_act_on_set (p : Pod) (calls : List OwnerCall) :
    (∀ s ∈ all calls p, s.ActsOnSet) ∧
      (afterAll calls p).owners = calls.foldl (fun owners c => c.onSet owners) p.owners ∧
      Pod.AgreesBeyondOwners p (afterAll calls p) :=
  ⟨fun _ hs => actsOnSet_of_mem_all hs, owners_afterAll calls p,
    agreesBeyondOwners_afterAll calls p⟩

end OwnerStep

namespace QuotedOwners

def pod : Pod :=
  ⟨{ (default : Metadata) with
      name := some "p"
      labels := some (.ofList [("app", "web")])
      annotations := some (.ofList
        [( ownershipAnnotation, "[\"a\", \"b"), ("note", "kept")]) }, []⟩

def calls : List OwnerCall :=
  [.release "a", .claim "é\"\\", .claim "\n", .claim "é\"\\", .release "\n"]

end QuotedOwners

open OwnerCall QuotedOwners in
theorem quoted_owner_calls_act_on_set :
    pod.owners = ∅ ∧ (∀ s ∈ OwnerStep.all calls pod, s.ActsOnSet) ∧
      (OwnerStep.all calls pod).map (·.changed) = [false, true, true, false, true] ∧
      (afterAll calls pod).annotation? ownershipAnnotation = some "[\"é\\\"\\\\\"]" :=
  ⟨by decide +kernel, (OwnerStep.owner_calls_act_on_set pod calls).1, by decide +kernel,
    by decide +kernel⟩

end PodRules
