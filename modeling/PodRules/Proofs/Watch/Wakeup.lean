import PodRules.Proofs.Object.OwnerCalls
import PodRules.Watch.Wakeup

namespace PodRules

def OwnerCall.ruleSet : OwnerCall → String
  | .claim name => name
  | .release name => name

inductive PodEdit
  | relabel (labels : Option (SortedMap String String))
  | annotate (name value : String)
  | unannotate (name : String)
  | owners (call : OwnerCall)
  deriving DecidableEq

namespace PodEdit

def onPod : PodEdit → Pod → Pod
  | relabel labels, p => { p with metadata := { p.metadata with labels } }
  | annotate name value, p =>
    let annotations := (p.metadata.annotations.getD ∅).insert name value
    { p with metadata := { p.metadata with annotations := some annotations } }
  | unannotate name, p =>
    let annotations := p.metadata.annotations.map (·.erase name)
    { p with metadata := { p.metadata with annotations } }
  | owners call, p => (call.onPod p).1

def afterAll (edits : List PodEdit) (p : Pod) : Pod := edits.foldl (fun p e => e.onPod p) p

/-- Whether an edit leaves the claim of a rule set alone: it is about another annotation than that
of the owners, or about another rule set. -/
def Spares (ruleSet : String) : PodEdit → Prop
  | relabel _ => True
  | annotate name _ => name ≠ ownershipAnnotation
  | unannotate name => name ≠ ownershipAnnotation
  | owners call => call.ruleSet ≠ ruleSet

instance (ruleSet : String) (e : PodEdit) : Decidable (e.Spares ruleSet) :=
  match e with
  | relabel _ => .isTrue trivial
  | annotate name _ => inferInstanceAs (Decidable (name ≠ ownershipAnnotation))
  | unannotate name => inferInstanceAs (Decidable (name ≠ ownershipAnnotation))
  | owners call => inferInstanceAs (Decidable (call.ruleSet ≠ ruleSet))

end PodEdit

/-- A change of a pod concerns the rule sets of its namespace that select it or own it. -/
structure Pod.Concerns (p : Pod) (rs : RuleSet) : Prop where
  sameNamespace : rs.metadata.namespaceName = p.metadata.namespaceName
  selectsOrOwns : rs.spec.selector.matches? p.labels = .ok true ∨ rs.metadata.anyName ∈ p.owners

/-- References to the entries of a list that have a property: one for each, in their order. -/
inductive RefersTo (P : RuleSet → Prop) : List RuleSet → List RuleSetRef → Prop
  | nil : RefersTo P [] []
  | woken {rs : RuleSet} {rest : List RuleSet} {refs : List RuleSetRef} (h : P rs)
      (hrest : RefersTo P rest refs) : RefersTo P (rs :: rest) (rs.ref :: refs)
  | passedOver {rs : RuleSet} {rest : List RuleSet} {refs : List RuleSetRef} (h : ¬ P rs)
      (hrest : RefersTo P rest refs) : RefersTo P (rs :: rest) refs

/-! ## Who hears of a change -/

theorem LabelSelector.accepts_iff {s : LabelSelector} {labels : SortedMap String String} :
    s.accepts labels = true ↔ s.matches? labels = .ok true := by
  unfold accepts
  cases s.matches? labels with
  | ok b => simp
  | error e => simp

/-- The code's test for a rule set that a pod concerns is the one meant. -/
theorem RuleSet.concerns_iff {p : Pod} {rs : RuleSet} :
    rs.concerns p = true ↔ p.Concerns rs := by
  rw [concerns, Bool.and_eq_true, Bool.or_eq_true, decide_eq_true_eq, SortedSet.contains_iff,
    LabelSelector.accepts_iff]
  constructor
  · rintro ⟨hns, howner | hselected⟩
    · exact ⟨hns, .inr howner⟩
    · exact ⟨hns, .inl hselected⟩
  · rintro ⟨hns, hselected | howner⟩
    · exact ⟨hns, .inr hselected⟩
    · exact ⟨hns, .inl howner⟩

/-- The references that a pod wakes are those of the rule sets that it concerns, in order. -/
theorem Pod.refersTo_wakes (p : Pod) (ruleSets : List RuleSet) :
    RefersTo p.Concerns ruleSets (p.wakes ruleSets) := by
  induction ruleSets with
  | nil => exact .nil
  | cons rs rest ih =>
    by_cases h : rs.concerns p = true
    · have hwakes : p.wakes (rs :: rest) = rs.ref :: p.wakes rest := by
        rw [wakes, List.filter_cons_of_pos h]
        rfl
      rw [hwakes]
      exact .woken (RuleSet.concerns_iff.1 h) ih
    · have hwakes : p.wakes (rs :: rest) = p.wakes rest := by
        rw [wakes, List.filter_cons_of_neg h]
        rfl
      rw [hwakes]
      exact .passedOver (fun hc => h (RuleSet.concerns_iff.2 hc)) ih

theorem RefersTo.ref_mem {P : RuleSet → Prop} {ruleSets : List RuleSet} {refs : List RuleSetRef}
    {rs : RuleSet} (h : RefersTo P ruleSets refs) (hmem : rs ∈ ruleSets) (hP : P rs) :
    rs.ref ∈ refs := by
  induction h with
  | nil => cases hmem
  | woken _ _ ih =>
    rcases List.mem_cons.1 hmem with rfl | hmem
    · exact List.mem_cons_self ..
    · exact List.mem_cons_of_mem _ (ih hmem)
  | passedOver hnot _ ih =>
    rcases List.mem_cons.1 hmem with rfl | hmem
    · exact absurd hP hnot
    · exact ih hmem

/-! ## What edits leave alone -/

/-- Only the ownership annotation says who owns a pod. -/
theorem Pod.owners_eq_of_annotation? {p q : Pod}
    (h : q.annotation? ownershipAnnotation = p.annotation? ownershipAnnotation) :
    q.owners = p.owners := by
  unfold annotation? at h
  rw [owners, owners, h]

namespace PodEdit

theorem annotation?_annotate (p : Pod) (name value k : String) :
    ((annotate name value).onPod p).annotation? k =
      if k = name then some value else p.annotation? k := by
  rw [← p.get?_annotations k]
  exact SortedMap.get?_insert _ name k value

theorem annotation?_unannotate (p : Pod) (name k : String) :
    ((unannotate name).onPod p).annotation? k = if k = name then none else p.annotation? k := by
  show (p.metadata.annotations.map (·.erase name)).bind (·.get? k) =
    if k = name then none else p.metadata.annotations.bind (·.get? k)
  cases p.metadata.annotations with
  | none => exact (ite_self none).symm
  | some annotations => exact SortedMap.get?_erase annotations name k

/-- An edit that spares an owner neither adds nor drops it. -/
theorem mem_owners_onPod {ruleSet : String} {e : PodEdit} (h : e.Spares ruleSet) (p : Pod) :
    ruleSet ∈ (e.onPod p).owners ↔ ruleSet ∈ p.owners := by
  cases e with
  | relabel labels => exact Iff.rfl
  | annotate name value =>
    have hkept : ((annotate name value).onPod p).annotation? ownershipAnnotation =
        p.annotation? ownershipAnnotation := by
      rw [annotation?_annotate, if_neg (Ne.symm h)]
    rw [Pod.owners_eq_of_annotation? hkept]
  | unannotate name =>
    have hkept : ((unannotate name).onPod p).annotation? ownershipAnnotation =
        p.annotation? ownershipAnnotation := by
      rw [annotation?_unannotate, if_neg (Ne.symm h)]
    rw [Pod.owners_eq_of_annotation? hkept]
  | owners call =>
    have hother : ruleSet ≠ call.ruleSet := Ne.symm h
    cases call with
    | claim name =>
      refine (p.mem_owners_addOwner name ruleSet).trans ?_
      exact or_iff_right hother
    | release name =>
      refine (p.mem_owners_removeOwner name ruleSet).trans ?_
      exact and_iff_left hother

theorem namespaceName_onPod (e : PodEdit) (p : Pod) :
    (e.onPod p).metadata.namespaceName = p.metadata.namespaceName := by
  cases e with
  | owners call =>
    have hothers := (call.actsOnSet_onPod p).agrees.others
    have hns := congrArg (fun q : Pod => q.metadata.namespaceName) hothers
    exact hns
  | _ => rfl

/-- What one edit leaves alone a sequence of edits leaves alone. -/
theorem keeps_afterAll {ruleSet : String} {edits : List PodEdit}
    (h : ∀ e ∈ edits, e.Spares ruleSet) (p : Pod) :
    (ruleSet ∈ (afterAll edits p).owners ↔ ruleSet ∈ p.owners) ∧
      (afterAll edits p).metadata.namespaceName = p.metadata.namespaceName := by
  induction edits generalizing p with
  | nil => exact ⟨Iff.rfl, rfl⟩
  | cons e edits ih =>
    obtain ⟨howner, hns⟩ := ih (fun d hd => h d (List.mem_cons_of_mem _ hd)) (e.onPod p)
    have hspares : e.Spares ruleSet := h e (List.mem_cons_self ..)
    exact ⟨howner.trans (mem_owners_onPod hspares p), hns.trans (e.namespaceName_onPod p)⟩

end PodEdit

/-- A change of a pod is heard of by the rule sets of its namespace that select it or own it, one
reference for each entry and in their order. A rule set of its namespace that has claimed it is
among them whatever its selector has become, after any edits of labels and other annotations and any
claims and releases by other rule sets. -/
theorem owner_hears_of_pod (p : Pod) (ruleSets : List RuleSet) :
    RefersTo p.Concerns ruleSets (p.wakes ruleSets) ∧
      ∀ rs ∈ ruleSets, rs.metadata.namespaceName = p.metadata.namespaceName →
        ∀ edits : List PodEdit, (∀ e ∈ edits, e.Spares rs.metadata.anyName) →
          rs.ref ∈ (PodEdit.afterAll edits (p.addOwner rs.metadata.anyName).1).wakes ruleSets := by
  refine ⟨p.refersTo_wakes ruleSets, ?_⟩
  intro rs hrs hns edits hspares
  obtain ⟨howner, hkept⟩ := PodEdit.keeps_afterAll hspares (p.addOwner rs.metadata.anyName).1
  have hclaim := (PodEdit.owners (.claim rs.metadata.anyName)).namespaceName_onPod p
  have hclaimed : rs.metadata.anyName ∈ (p.addOwner rs.metadata.anyName).1.owners :=
    (p.mem_owners_addOwner _ _).2 (.inl rfl)
  apply (Pod.refersTo_wakes _ ruleSets).ref_mem hrs
  exact ⟨hns.trans (hkept.trans hclaim).symm, .inr (howner.2 hclaimed)⟩

namespace Deselecting

def ruleSet (ns name : String) (requirement : Requirement) : RuleSet where
  metadata := { (default : Metadata) with name := some name, namespaceName := some ns }
  spec := ⟨⟨none, some [requirement]⟩, []⟩
  status := none

def ruleSets : List RuleSet :=
  [ruleSet "ns" "db" ⟨"app", "In", some ["db"]⟩, ruleSet "ns" "web" ⟨"app", "Gt", some ["1"]⟩,
    ruleSet "other" "web" ⟨"app", "Exists", none⟩]

def pod : Pod where
  metadata := { (default : Metadata) with
    name := some "p"
    namespaceName := some "ns"
    labels := some (.ofList [("app", "web")])
    annotations := some (.ofList [( ownershipAnnotation, "not-json")]) }
  others := []

def edits : List PodEdit :=
  [.relabel (some (.ofList [("app", "db")])), .annotate "note" "moved", .owners (.claim "db"),
    .owners (.release "db"), .unannotate "note", .relabel none]

end Deselecting

open Deselecting in
theorem invalid_selector_leaves_owner_woken :
    pod.wakes ruleSets = [] ∧
      (PodEdit.afterAll (edits.take 3) (pod.addOwner "web").1).wakes ruleSets =
        [⟨"db", some "ns"⟩, ⟨"web", some "ns"⟩] ∧
      ⟨"web", some "ns"⟩ ∈ (PodEdit.afterAll edits (pod.addOwner "web").1).wakes ruleSets := by
  have hweb : ruleSet "ns" "web" ⟨"app", "Gt", some ["1"]⟩ ∈ ruleSets :=
    List.mem_cons_of_mem _ (List.mem_cons_self ..)
  exact ⟨by decide +kernel, by decide +kernel,
    (owner_hears_of_pod pod ruleSets).2 _ hweb rfl edits (by decide)⟩

end PodRules
