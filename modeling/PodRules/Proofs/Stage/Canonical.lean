import Mathlib.Data.List.Nodup
import PodRules.Proofs.Order.Sorting
import PodRules.Stage.Snapshot

namespace PodRules

theorem isLE_compare_iff_le {a b : String} : (compare a b).isLE = true ↔ a ≤ b :=
  isLE_compareOfLessAndEq String.le_antisymm String.not_le String.le_total

/-- A status of some targets and outcomes in the form in which it is recorded. -/
structure IsSnapshot (targets : SortedSet String) (generation : Int64) (details : List Detail)
    (ruleStates : List RuleState) (status : RuleSetStatus) : Prop where
  ascending : status.targets.Pairwise (· < ·)
  mem_targets : ∀ name, name ∈ status.targets ↔ name ∈ targets
  generation : status.observedGeneration = generation
  perm : status.details.Perm details
  sorted : status.details.Pairwise fun d e => d.name ≤ e.name
  /-- The outcomes of one target keep their order. -/
  stable : ∀ name, status.details.filter (·.name = name) = details.filter (·.name = name)
  ruleStates : status.ruleStates = ruleStates

theorem pairwise_sortDetails (ds : List Detail) :
    (sortDetails ds).Pairwise fun d e => d.name ≤ e.name :=
  (pairwise_sortBy_key Detail.name ds).imp isLE_compare_iff_le.1

/-- Sorting by name keeps the details of one name in their order. -/
theorem filter_sortDetails (ds : List Detail) (name : String) :
    (sortDetails ds).filter (·.name = name) = ds.filter (·.name = name) := by
  apply filter_sortBy
  intro d e hd he
  have hname : d.name = e.name := (of_decide_eq_true hd).trans (of_decide_eq_true he).symm
  simp [hname, Std.ReflCmp.compare_self]

theorem isSnapshot_statusSnapshot (targets : SortedSet String) (generation : Int64)
    (ds : List Detail) (states : List RuleState) (now : Instant) :
    IsSnapshot targets generation ds states
      (statusSnapshot targets generation ds states now) where
  ascending := targets.ascending.imp fun hlt => compareOfLessAndEq_eq_lt.1 hlt
  mem_targets _ := SortedSet.mem_def.symm
  generation := rfl
  perm := sortBy_perm ds
  sorted := pairwise_sortDetails ds
  stable := filter_sortDetails ds
  ruleStates := rfl

section Snapshots

variable {targets : SortedSet String} {generation : Int64} {ds es : List Detail}
  {states : List RuleState} {status status' : RuleSetStatus}

/-- The form leaves no choice but the time. -/
theorem IsSnapshot.unique (h : IsSnapshot targets generation ds states status)
    (h' : IsSnapshot targets generation ds states status') : status.equalButTime status' = true := by
  have htargets : status.targets = status'.targets := by
    refine SortedSet.eq_of_mem_iff (h.ascending.imp compareOfLessAndEq_eq_lt.2)
      (h'.ascending.imp compareOfLessAndEq_eq_lt.2) fun name => ?_
    rw [h.mem_targets, h'.mem_targets]
  have hdetails : status.details = status'.details := by
    refine eq_of_filter_key (h.sorted.imp isLE_compare_iff_le.2)
      (h'.sorted.imp isLE_compare_iff_le.2) fun name => ?_
    rw [h.stable, h'.stable]
  simp [RuleSetStatus.equalButTime, htargets, hdetails, h.generation, h'.generation, h.ruleStates,
    h'.ruleStates]

/-- Where no target has two outcomes, sorting forgets their order and nothing else. -/
theorem sortDetails_eq_iff (hds : (ds.map (·.name)).Nodup) (hes : (es.map (·.name)).Nodup) :
    sortDetails ds = sortDetails es ↔ ∀ d, d ∈ ds ↔ d ∈ es := by
  constructor
  · intro h d
    have hmem : d ∈ sortDetails ds ↔ d ∈ sortDetails es := by rw [h]
    exact mem_sortBy.symm.trans (hmem.trans mem_sortBy)
  · intro h
    -- Equal names are equal outcomes here, so the sorted list has no choice left.
    have hperm : ds.Perm es := (List.perm_ext_iff_of_nodup hds.of_map hes.of_map).2 h
    apply eq_of_perm_of_sorted_key Detail.name
      ((sortBy_perm ds).trans (hperm.trans (sortBy_perm es).symm))
      (pairwise_sortBy_key Detail.name ds) (pairwise_sortBy_key Detail.name es)
    intro d hd e he hname
    exact List.inj_on_of_nodup_map hds (mem_sortBy.1 hd) (mem_sortBy.1 he) hname

end Snapshots

/-- A pass records its targets in ascending order and its outcomes sorted by their targets, those of
one target in the order in which they came, and that is the one status of this form. Where no target
has two outcomes, what two passes record is equal but for the times exactly when their targets,
generations and rule states are the same and their outcomes are the same in any order. -/
theorem status_snapshot_is_canonical (targets targets' : SortedSet String)
    (generation generation' : Int64) (ds es : List Detail) (states states' : List RuleState)
    (now now' : Instant) :
    IsSnapshot targets generation ds states (statusSnapshot targets generation ds states now) ∧
      (∀ status, IsSnapshot targets generation ds states status →
        (statusSnapshot targets generation ds states now).equalButTime status = true) ∧
      ((ds.map (·.name)).Nodup → (es.map (·.name)).Nodup →
        ((statusSnapshot targets generation ds states now).equalButTime
            (statusSnapshot targets' generation' es states' now') = true ↔
          targets = targets' ∧ generation = generation' ∧ (∀ d, d ∈ ds ↔ d ∈ es) ∧
            states = states')) := by
  refine ⟨isSnapshot_statusSnapshot targets generation ds states now, ?_, ?_⟩
  · intro status h
    exact (isSnapshot_statusSnapshot targets generation ds states now).unique h
  · intro hds hes
    have htargets : targets = targets' ↔ targets.toList = targets'.toList :=
      ⟨congrArg SortedSet.toList, SortedSet.eq_of_toList⟩
    rw [RuleSetStatus.equalButTime_iff, ← sortDetails_eq_iff hds hes, htargets]
    simp only [statusSnapshot, RuleSetStatus.mk.injEq, and_true]

namespace Shuffled

def rejected (name : String) : Detail := (Detail.new name "s").addRejection ⟨"r", "no"⟩

def targets : SortedSet String := .ofList ["b", "a", "c"]

def outcomes : List Detail := [.new "c" "s", rejected "a", .new "b" "s"]

def shuffled : List Detail := [.new "b" "s", .new "c" "s", rejected "a"]

def passing : List Detail := [.new "b" "s", .new "c" "s", .new "a" "s"]

def repeated : List Detail := [rejected "b", .new "a" "s", .new "b" "t"]

def status : RuleSetStatus :=
  ⟨["a", "b", "c"], 3, [.new "a" "s", rejected "b", .new "b" "t"], [], none⟩

theorem isSnapshot_status : IsSnapshot targets 3 repeated [] status where
  ascending := by decide +kernel
  mem_targets name := by simp [status, targets, or_left_comm]
  generation := rfl
  perm := by decide +kernel
  sorted := by decide +kernel
  stable name := by
    by_cases ha : "a" = name
    · subst ha
      decide +kernel
    · by_cases hb : "b" = name <;>
        simp [status, repeated, rejected, Detail.new, Detail.addRejection, ha, hb]
  ruleStates := rfl

end Shuffled

open Shuffled in
theorem shuffled_outcomes_recorded_alike :
    (outcomes.map (·.name)).Nodup ∧ (shuffled.map (·.name)).Nodup ∧ (passing.map (·.name)).Nodup ∧
      (statusSnapshot targets 3 outcomes [] ⟨0, 0⟩).equalButTime
        (statusSnapshot targets 3 shuffled [] ⟨60, 0⟩) = true ∧
      ¬ (statusSnapshot targets 3 outcomes [] ⟨0, 0⟩).equalButTime
        (statusSnapshot targets 3 passing [] ⟨60, 0⟩) = true ∧
      (statusSnapshot targets 3 repeated [] ⟨0, 0⟩).equalButTime status = true := by
  have houtcomes : (outcomes.map (·.name)).Nodup := by decide +kernel
  have hshuffled : (shuffled.map (·.name)).Nodup := by decide +kernel
  have hpassing : (passing.map (·.name)).Nodup := by decide +kernel
  have hperm : outcomes.Perm shuffled := by decide +kernel
  have hnew : ¬ (.new "a" "s") ∈ outcomes := by decide +kernel
  refine ⟨houtcomes, hshuffled, hpassing, ?_, ?_, ?_⟩
  · exact ((status_snapshot_is_canonical targets targets 3 3 outcomes shuffled [] [] ⟨0, 0⟩
      ⟨60, 0⟩).2.2 houtcomes hshuffled).2 ⟨rfl, rfl, fun _ => hperm.mem_iff, rfl⟩
  · intro hsame
    have hmem := (((status_snapshot_is_canonical targets targets 3 3 outcomes passing [] [] ⟨0, 0⟩
      ⟨60, 0⟩).2.2 houtcomes hpassing).1 hsame).2.2.1 (.new "a" "s")
    exact hnew (hmem.2 (by decide +kernel))
  · exact (status_snapshot_is_canonical targets targets 3 3 repeated [] [] [] ⟨0, 0⟩
      ⟨60, 0⟩).2.1 status isSnapshot_status

end PodRules
