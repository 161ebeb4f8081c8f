import PodRules.Proofs.Cluster.Service
import PodRules.Proofs.Order.SortedMap

namespace PodRules

namespace Cluster

variable {s t u : Cluster} {ns n : String} {selector : LabelSelector}

def SamePods (s t : Cluster) : Prop :=
  ∀ k, (t.pods.get? k).map Pod.bare = (s.pods.get? k).map Pod.bare

theorem SamePods.refl (s : Cluster) : SamePods s s := fun _ => rfl

theorem SamePods.trans (h₁ : SamePods s u) (h₂ : SamePods u t) : SamePods s t :=
  fun k => (h₂ k).trans (h₁ k)

theorem SamePods.symm (h : SamePods s t) : SamePods t s := fun k => (h k).symm

theorem SamePods.of_eq (h : t.pods = s.pods) : SamePods s t := fun k => by rw [h]

/-- A stored pod stays under its key, the same but for owners and version. -/
theorem SamePods.exists_get? (h : SamePods s t) {k : ObjectKey} {p : Pod}
    (hp : s.pods.get? k = some p) : ∃ q, t.pods.get? k = some q ∧ q.bare = p.bare := by
  have hk := h k
  rw [hp, Option.map_some] at hk
  exact Option.map_eq_some_iff.1 hk

def Selects (s : Cluster) (ns : String) (selector : LabelSelector) (n : String) : Prop :=
  ∃ p, s.pods.get? ⟨ns, n⟩ = some p ∧ selector.accepts p.labels = true

theorem SamePods.selects (h : SamePods s t) (hs : s.Selects ns selector n) :
    t.Selects ns selector n := by
  obtain ⟨p, hp, ha⟩ := hs
  obtain ⟨q, hq, hbare⟩ := h.exists_get? hp
  refine ⟨q, hq, ?_⟩
  rw [← Pod.labels_bare, hbare, Pod.labels_bare]
  exact ha

/-- Owners and versions do not show in what a selector accepts. -/
theorem SamePods.selects_iff (h : SamePods s t) :
    t.Selects ns selector n ↔ s.Selects ns selector n :=
  ⟨h.symm.selects, h.selects⟩

/-- A listing has exactly the stored pods of the namespace that the selector accepts. -/
theorem mem_list (hw : s.WellKeyed) {p : Pod} :
    p ∈ s.list ns selector ↔
      s.pods.get? p.key = some p ∧ p.key.namespaceName = ns ∧
        selector.accepts p.labels = true := by
  unfold list
  rw [List.mem_filter, SortedMap.mem_values]
  simp only [Bool.and_eq_true, decide_eq_true_eq]
  refine and_congr_left' ?_
  constructor
  · rintro ⟨k, hk⟩
    rwa [hw.pod k p hk]
  · exact fun h => ⟨p.key, h⟩

/-- Every pod of a listing has a key of its own. -/
theorem nodup_keys_list (hw : s.WellKeyed) (ns : String) (selector : LabelSelector) :
    ((s.list ns selector).map Pod.key).Nodup := by
  have hkeys : s.pods.values.map Pod.key = s.pods.keys := by
    rw [SortedMap.values, SortedMap.keys, List.map_map]
    apply List.map_congr_left
    intro e he
    exact hw.pod e.1 e.2 (SortedMap.look_of_mem s.pods.ascending he)
  have hsublist : ((s.list ns selector).map Pod.key).Sublist (s.pods.values.map Pod.key) :=
    List.filter_sublist.map Pod.key
  rw [hkeys] at hsublist
  exact s.pods.nodup_keys.sublist hsublist

/-- A listing names the selected pods. -/
theorem names_list (hw : s.WellKeyed) :
    n ∈ (s.list ns selector).map (·.metadata.anyName) ↔ s.Selects ns selector n := by
  constructor
  · intro h
    obtain ⟨p, hp, rfl⟩ := List.mem_map.1 h
    obtain ⟨hget, rfl, ha⟩ := (mem_list hw).1 hp
    exact ⟨p, hget, ha⟩
  · rintro ⟨p, hp, ha⟩
    have hkey := hw.pod _ p hp
    refine List.mem_map.2 ⟨p, (mem_list hw).2 ⟨by rwa [hkey], by rw [hkey], ha⟩, ?_⟩
    exact congrArg ObjectKey.name hkey

end Cluster

end PodRules
