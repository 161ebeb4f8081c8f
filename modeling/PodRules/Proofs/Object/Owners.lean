import PodRules.Object.Ownership
import PodRules.Proofs.Json.Forms

namespace PodRules

theorem SortedSet.eq_empty_of_isEmpty {α : Type} [Ord α] {s : SortedSet α}
    (h : s.isEmpty = true) : s = ∅ :=
  SortedSet.eq_of_toList (List.isEmpty_iff.1 h)

namespace Pod

/-- The owners are read back from the text that is written for them. -/
theorem ownersOfText_ownersText (owners : SortedSet String) :
    ownersOfText (ownersText owners) = owners := by
  have hread : Json.decode? (SortedSet String) (ownersText owners) = some owners :=
    Json.decode?_text owners
  rw [Json.decode?] at hread
  rw [ownersOfText, hread, Option.getD_some]

/-- The owners that are written are the owners that are read. -/
@[simp] theorem owners_withOwners (p : Pod) (owners : SortedSet String) :
    (p.withOwners owners).owners = owners := by
  unfold withOwners Pod.owners
  by_cases h : owners.isEmpty = true
  · -- Without owners there is no annotation, which stands for none.
    simp only [h, if_true, Option.bind_some, SortedMap.get?_erase]
    exact (SortedSet.eq_empty_of_isEmpty h).symm
  · simp only [h, Bool.false_eq_true, if_false, Option.bind_some, SortedMap.get?_insert, if_true]
    exact ownersOfText_ownersText owners

@[simp] theorem key_withOwners (p : Pod) (owners : SortedSet String) :
    (p.withOwners owners).key = p.key := rfl

@[simp] theorem mem_owners_addOwner (p : Pod) (ruleSet name : String) :
    name ∈ (p.addOwner ruleSet).1.owners ↔ name = ruleSet ∨ name ∈ p.owners := by
  unfold addOwner
  split
  next h =>
    constructor
    · exact Or.inr
    · rintro (rfl | hn)
      · exact h
      · exact hn
  next => simp

@[simp] theorem mem_owners_removeOwner (p : Pod) (ruleSet name : String) :
    name ∈ (p.removeOwner ruleSet).1.owners ↔ name ∈ p.owners ∧ name ≠ ruleSet := by
  unfold removeOwner
  split
  next => simp
  next h =>
    constructor
    · exact fun hn => ⟨hn, fun e => h (e ▸ hn)⟩
    · exact And.left

@[simp] theorem key_addOwner (p : Pod) (ruleSet : String) : (p.addOwner ruleSet).1.key = p.key := by
  unfold addOwner
  split <;> simp

@[simp] theorem key_removeOwner (p : Pod) (ruleSet : String) :
    (p.removeOwner ruleSet).1.key = p.key := by
  unfold removeOwner
  split <;> simp

def bare (p : Pod) : Pod :=
  { p with metadata := { p.metadata with
      resourceVersion := none
      annotations := some ((p.metadata.annotations.getD ∅).erase ownershipAnnotation) } }

@[simp] theorem key_bare (p : Pod) : p.bare.key = p.key := rfl

@[simp] theorem labels_bare (p : Pod) : p.bare.labels = p.labels := rfl

@[simp] theorem isRunning_bare (p : Pod) : p.bare.isRunning = p.isRunning := rfl

@[simp] theorem bare_withOwners (p : Pod) (owners : SortedSet String) :
    (p.withOwners owners).bare = p.bare := by
  have herase : ((p.withOwners owners).metadata.annotations.getD ∅).erase ownershipAnnotation =
      (p.metadata.annotations.getD ∅).erase ownershipAnnotation := by
    -- Whether the annotation is written or dropped, no other one is touched.
    ext1 k
    unfold withOwners
    by_cases h : owners.isEmpty = true
    · simp only [h, if_true, Option.getD_some, SortedMap.get?_erase]
      split <;> rfl
    · simp only [h, Bool.false_eq_true, if_false, Option.getD_some, SortedMap.get?_erase,
        SortedMap.get?_insert]
      split <;> rfl
  unfold bare
  rw [herase]
  rfl

@[simp] theorem bare_addOwner (p : Pod) (ruleSet : String) :
    (p.addOwner ruleSet).1.bare = p.bare := by
  unfold addOwner
  split <;> simp

@[simp] theorem bare_removeOwner (p : Pod) (ruleSet : String) :
    (p.removeOwner ruleSet).1.bare = p.bare := by
  unfold removeOwner
  split <;> simp

/-- Removing an owner counts as a change exactly when it was there. -/
theorem removeOwner_changes {p : Pod} {ruleSet : String} :
    (p.removeOwner ruleSet).2 = true ↔ ruleSet ∈ p.owners := by
  unfold removeOwner
  split <;> simp_all

end Pod

end PodRules
