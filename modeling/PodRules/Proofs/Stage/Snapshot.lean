import PodRules.Proofs.Order.SortedMap
import PodRules.Stage.Snapshot

namespace PodRules

def outcomeOf (ds : List Detail) (name : String) : Option Detail :=
  ds.reverse.find? (·.name = name)

/-- The map of details has, under each name, the last detail of that name. -/
theorem get?_detailMap (ds : List Detail) (name : String) :
    (detailMap ds).get? name = outcomeOf ds name := by
  rw [detailMap, SortedMap.get?_ofList, ← List.map_reverse, List.find?_map, Option.map_map]
  exact Option.map_id'

/-- A name is among the changes when its last outcome is not the same. -/
theorem mem_changedOutcomes {old new : List Detail} {name : String} :
    name ∈ changedOutcomes old new ↔ outcomeOf old name ≠ outcomeOf new name := by
  rw [← get?_detailMap, ← get?_detailMap]
  simp only [changedOutcomes, SortedSet.mem_ofList, List.mem_filter, List.mem_append,
    SortedMap.mem_keys, decide_eq_true_eq]
  constructor
  · rintro ⟨-, hne⟩
    exact hne.symm
  · intro hne
    refine ⟨?_, hne.symm⟩
    -- Of two different look-ups one finds something.
    by_cases hold : (detailMap old).get? name = none
    · exact .inr fun hnew => hne (hold.trans hnew.symm)
    · exact .inl hold

theorem nodup_changedOutcomes (old new : List Detail) :
    (changedOutcomes old new).toList.Nodup :=
  SortedMap.nodup_of_ascending (changedOutcomes old new).ascending

theorem changedOutcomes_comm (old new : List Detail) :
    changedOutcomes old new = changedOutcomes new old := by
  ext name
  rw [mem_changedOutcomes, mem_changedOutcomes]
  exact ne_comm

theorem changedOutcomes_eq_empty_iff {old new : List Detail} :
    changedOutcomes old new = ∅ ↔ detailMap old = detailMap new := by
  constructor
  · intro h
    apply SortedMap.ext
    intro name
    have hname : name ∉ changedOutcomes old new := by
      rw [h]
      exact SortedSet.not_mem_empty
    have hlast : outcomeOf old name = outcomeOf new name :=
      Decidable.of_not_not fun hne => hname (mem_changedOutcomes.2 hne)
    rw [get?_detailMap, get?_detailMap, hlast]
  · intro h
    ext name
    have hlast : outcomeOf old name = outcomeOf new name := by
      rw [← get?_detailMap, ← get?_detailMap, h]
    rw [mem_changedOutcomes, hlast]
    exact iff_of_false (fun hne => hne rfl) SortedSet.not_mem_empty

/-- A change shows on one side or the other of whatever is put between. -/
theorem mem_changedOutcomes_between {old new : List Detail} {name : String}
    (h : name ∈ changedOutcomes old new) (mid : List Detail) :
    name ∈ changedOutcomes old mid ∨ name ∈ changedOutcomes mid new := by
  rw [mem_changedOutcomes] at h
  by_cases hold : outcomeOf old name = outcomeOf mid name
  · have hnew : outcomeOf mid name ≠ outcomeOf new name := hold ▸ h
    exact .inr (mem_changedOutcomes.2 hnew)
  · exact .inl (mem_changedOutcomes.2 hold)

/-- A change from the first status of a sequence to its last one is a change at some step. -/
theorem exists_step_of_mem_changedOutcomes {first : RuleSetStatus} {later : List RuleSetStatus}
    {name : String} (h : name ∈ changedOutcomes first.details (later.getLastD first).details) :
    ∃ step ∈ (first :: later).zip later,
      name ∈ changedOutcomes step.1.details step.2.details := by
  -- On the later statuses: the second one is put between the first and the last.
  induction later generalizing first with
  | nil =>
    rw [mem_changedOutcomes] at h
    exact absurd rfl h
  | cons second later ih =>
    rw [List.getLastD_cons] at h
    rcases mem_changedOutcomes_between h second.details with hfirst | hlater
    · exact ⟨(first, second), List.mem_cons_self .., hfirst⟩
    · obtain ⟨step, hstep, hname⟩ := ih hlater
      exact ⟨step, List.mem_cons_of_mem _ hstep, hname⟩

/-- The changes between two lists of outcomes are the difference of the maps that they denote, of
which the last outcome of a target counts. They are the same in both directions, and there are none
exactly when the maps are equal. The changes from the first to the last status of a sequence are
among those from each status to the next. -/
theorem changes_are_map_difference (old new : List Detail) (first : RuleSetStatus)
    (later : List RuleSetStatus) :
    (∀ name, name ∈ changedOutcomes old new ↔ outcomeOf old name ≠ outcomeOf new name) ∧
      changedOutcomes old new = changedOutcomes new old ∧
      (changedOutcomes old new = ∅ ↔ detailMap old = detailMap new) ∧
      ∀ name, name ∈ changedOutcomes first.details (later.getLastD first).details →
        ∃ step ∈ (first :: later).zip later,
          name ∈ changedOutcomes step.1.details step.2.details := by
  refine ⟨fun _ => mem_changedOutcomes, changedOutcomes_comm old new,
    changedOutcomes_eq_empty_iff, ?_⟩
  intro name h
  exact exists_step_of_mem_changedOutcomes h

namespace Reverting

def rejected (name : String) : Detail := (Detail.new name "A").addRejection ⟨"r", "no"⟩

def status (details : List Detail) : RuleSetStatus := { RuleSetStatus.initial with details }

def first : RuleSetStatus := status [rejected "a", .new "b" "A", .new "a" "A"]

def later : List RuleSetStatus :=
  [status [rejected "a", .new "b" "A"], status [.new "c" "A", .new "a" "A"]]

end Reverting

open Reverting in
theorem reverted_outcome_changes_only_between :
    (changedOutcomes first.details (later.getLastD first).details).toList = ["b", "c"] ∧
      "a" ∉ changedOutcomes first.details (later.getLastD first).details ∧
      (((first :: later).zip later).map fun step =>
        (changedOutcomes step.1.details step.2.details).toList) = [["a"], ["a", "b", "c"]] ∧
      ∃ step ∈ (first :: later).zip later,
        "b" ∈ changedOutcomes step.1.details step.2.details := by
  have hb : "b" ∈ changedOutcomes first.details (later.getLastD first).details := by
    decide +kernel
  exact ⟨by decide +kernel, by decide +kernel, by decide +kernel,
    (changes_are_map_difference [] [] first later).2.2.2 "b" hb⟩

end PodRules
