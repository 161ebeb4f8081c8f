import PodRules.Proofs.Stage.Merge
import PodRules.Stage.Tasks

namespace PodRules

open Completion

def mergeInOrder (outcomes : List (String × Option StageResult)) : PipelineResult :=
  ((outcomes.zipIdx.filterMap fun e => e.1.2.map fun r => (e.2, e.1.1, r)).foldl
    (fun a e => a.add e.1 e.2.1 e.2.2) Tally.empty).total

/-- Combining what the stages' tasks report is merging the reports in the order of the stages. -/
theorem combine_pipeline (outcomes : List (String × Option StageResult)) :
    combine (pipeline outcomes) = mergeInOrder outcomes := by
  have hfold : ∀ (es : List ((String × Option StageResult) × Nat)) (a : Tally),
      (es.map fun e => (⟨e.2, e.1.1, e.1.2⟩ : Completion)).foldl addTo a =
        (es.filterMap fun e => e.1.2.map fun r => (e.2, e.1.1, r)).foldl
          (fun a e => a.add e.1 e.2.1 e.2.2) a := by
    intro es
    induction es with
    | nil => exact fun _ => rfl
    | cons e es ih =>
      intro a
      obtain ⟨⟨stage, report⟩, position⟩ := e
      cases report with
      | none => exact ih a
      | some r => exact ih _
  exact congrArg Tally.total (hfold outcomes.zipIdx .empty)

theorem nodup_positions_pipeline (outcomes : List (String × Option StageResult)) :
    ((pipeline outcomes).map (·.position)).Nodup := by
  have hpos : (pipeline outcomes).map (·.position) = List.range' 0 outcomes.length := by
    rw [pipeline, List.map_map]
    exact List.zipIdx_map_snd 0 outcomes
  rw [hpos]
  exact List.nodup_range'

/-- Completions of a pipeline combine to the same result in every order. -/
theorem combine_of_perm_pipeline {outcomes : List (String × Option StageResult)}
    {cs : List Completion} (h : cs.Perm (pipeline outcomes)) :
    combine cs = mergeInOrder outcomes := by
  rw [← combine_pipeline]
  exact (combine_eq_of_perm h.symm (nodup_positions_pipeline outcomes)).symm

namespace StageRun

variable {tasks : List Completion} {s t : StageRun}

structure Consistent (tasks finished : List Completion) (s : StageRun) : Prop where
  perm : (s.running ++ s.reporting ++ finished).Perm tasks
  tally : s.tally = finished.foldl addTo .empty
  reports : ∀ c ∈ s.reporting, c.report.isSome = true
  awaited : s.awaited = s.running.length + s.reporting.length + s.ended.length
  result : ∀ m, s.result = some m → s.awaited = 0 ∧ m = s.tally.total

theorem consistent_start (tasks : List Completion) : Consistent tasks [] (start tasks) := by
  refine ⟨?_, rfl, ?_, rfl, ?_⟩
  · simp [start]
  · intro c hc
    cases hc
  · intro m hm
    cases hm

theorem perm_of_count {as bs : List Completion} (h : ∀ c, as.count c = bs.count c) : as.Perm bs :=
  List.perm_iff_count.2 h

/-- A step of the tasks loses no report and makes none up. -/
theorem Step.consistent {finished : List Completion} (hst : Step s t)
    (h : Consistent tasks finished s) : ∃ finished', Consistent tasks finished' t := by
  obtain ⟨hperm, htally, hreports, hawaited, hresult⟩ := h
  -- A task moves from one list to the next, so every task is counted as often as before. While one
  -- is on its way nothing was returned, for the number of awaited tasks is not zero.
  have hcount (x : Completion) := hperm.count_eq x
  simp only [List.count_append] at hcount
  have hbusy (hpos : 0 < s.running.length + s.reporting.length + s.ended.length)
      (m : PipelineResult) : s.result ≠ some m := by
    intro hm
    have hzero := (hresult m hm).1
    omega
  cases hst with
  | evaluated before c after hc hr =>
    refine ⟨finished, perm_of_count fun x => ?_, htally, ?_, ?_, fun m hm => ?_⟩
    · have hx := hcount x
      simp only [hc, List.count_append, List.count_cons] at hx ⊢
      omega
    · intro d hd
      rcases List.mem_cons.1 hd with rfl | hd
      · exact hr
      · exact hreports d hd
    · simp only [hc, List.length_append, List.length_cons] at hawaited ⊢
      omega
    · refine absurd hm (hbusy ?_ m)
      simp only [hc, List.length_append, List.length_cons]
      omega
  | died before c after hc hr =>
    refine ⟨finished ++ [c], perm_of_count fun x => ?_, ?_, hreports, ?_, fun m hm => ?_⟩
    · have hx := hcount x
      simp only [hc, List.count_append, List.count_cons, List.count_nil] at hx ⊢
      omega
    · -- A task that died adds nothing to the tally.
      rw [List.foldl_append, ← htally]
      simp [addTo, hr]
    · simp only [hc, List.length_append, List.length_cons] at hawaited ⊢
      omega
    · refine absurd hm (hbusy ?_ m)
      simp only [hc, List.length_append, List.length_cons]
      omega
  | merged before c after hc =>
    -- The only step that adds a report to the tally, behind all that ended before.
    refine ⟨finished ++ [c], perm_of_count fun x => ?_, ?_, fun d hd => ?_, ?_, fun m hm => ?_⟩
    · have hx := hcount x
      simp only [hc, List.count_append, List.count_cons, List.count_nil] at hx ⊢
      omega
    · rw [List.foldl_append, ← htally]
      rfl
    · apply hreports
      rw [hc]
      rcases List.mem_append.1 hd with hd | hd
      · exact List.mem_append_left _ hd
      · exact List.mem_append_right _ (List.mem_cons_of_mem _ hd)
    · simp only [hc, List.length_append, List.length_cons] at hawaited ⊢
      omega
    · refine absurd hm (hbusy ?_ m)
      simp only [hc, List.length_append, List.length_cons]
      omega
  | takenIn before c after hc =>
    -- An end is taken in: one task less is awaited.
    refine ⟨finished, hperm, htally, hreports, ?_, fun m hm => ?_⟩
    · simp only [hc, List.length_append, List.length_cons] at hawaited ⊢
      omega
    · refine absurd hm (hbusy ?_ m)
      simp only [hc, List.length_append, List.length_cons]
      omega
  | returned ha hr =>
    refine ⟨finished, hperm, htally, hreports, hawaited, ?_⟩
    rintro m ⟨⟩
    exact ⟨ha, rfl⟩

/-- What was reported, what is to be reported and what is running are together the tasks. -/
theorem Reachable.consistent (h : Reachable tasks s) : ∃ finished, Consistent tasks finished s := by
  induction h with
  | start => exact ⟨[], consistent_start tasks⟩
  | step _ hst ih =>
    obtain ⟨finished, hf⟩ := ih
    exact hst.consistent hf

/-- As long as nothing was returned, something may happen. -/
theorem exists_step {finished : List Completion} (h : Consistent tasks finished s)
    (hr : s.result = none) : ∃ t, Step s t := by
  -- Some list has a task, or all are empty and then none is awaited.
  obtain ⟨-, -, -, hawaited, -⟩ := h
  cases hrunning : s.running with
  | cons c rest =>
    cases hc : c.report with
    | some r => exact ⟨_, .evaluated [] c rest hrunning (by simp [hc])⟩
    | none => exact ⟨_, .died [] c rest hrunning hc⟩
  | nil =>
    cases hreporting : s.reporting with
    | cons c rest => exact ⟨_, .merged [] c rest hreporting⟩
    | nil =>
      cases hended : s.ended with
      | cons c rest => exact ⟨_, .takenIn [] c rest hended⟩
      | nil =>
        refine ⟨_, .returned ?_ hr⟩
        rw [hawaited, hrunning, hreporting, hended]
        rfl

def remaining (s : StageRun) : Nat :=
  3 * s.running.length + 2 * s.reporting.length + s.ended.length +
    (if s.result.isNone then 1 else 0)

/-- Every step leaves less to do, so every schedule ends. -/
theorem Step.remaining_lt (hst : Step s t) : t.remaining < s.remaining := by
  cases hst with
  | evaluated before c after hc hr => simp [remaining, hc]; omega
  | died before c after hc hr => simp [remaining, hc]; omega
  | merged before c after hc => simp [remaining, hc]; omega
  | takenIn before c after hc => simp [remaining, hc]
  | returned ha hr => simp [remaining, hr]

/-- Stage tasks always come to an end, and whoever waits for them returns no earlier: then every
task has ended and was taken in, and the result is the reports of the tasks that did not die, merged
one after the other in the order of the pipeline. So any two runs return the same. -/
theorem stage_tasks_return_pipeline_merge (outcomes : List (String × Option StageResult)) :
    (∀ s, Reachable (pipeline outcomes) s → s.result = none → ∃ t, Step s t) ∧
      (∀ s t, Step s t → t.remaining < s.remaining) ∧
      (∀ s m, Reachable (pipeline outcomes) s → s.result = some m →
        s.running = [] ∧ s.reporting = [] ∧ s.ended = [] ∧ m = mergeInOrder outcomes) ∧
      ∀ cs, cs.Perm (pipeline outcomes) → combine cs = mergeInOrder outcomes := by
  refine ⟨fun s hs hr => ?_, fun s t => Step.remaining_lt, fun s m hs hm => ?_,
    fun cs => combine_of_perm_pipeline⟩
  · obtain ⟨finished, hf⟩ := hs.consistent
    exact exists_step hf hr
  · obtain ⟨finished, hf⟩ := hs.consistent
    obtain ⟨hzero, rfl⟩ := hf.result m hm
    have hawaited := hf.awaited
    have hrunning : s.running = [] := List.length_eq_zero_iff.1 (by omega)
    have hreporting : s.reporting = [] := List.length_eq_zero_iff.1 (by omega)
    have hended : s.ended = [] := List.length_eq_zero_iff.1 (by omega)
    refine ⟨hrunning, hreporting, hended, ?_⟩
    -- All tasks have finished, in some order.
    have hperm := hf.perm
    rw [hrunning, hreporting, List.nil_append, List.nil_append] at hperm
    rw [hf.tally]
    exact combine_of_perm_pipeline hperm

def threeStages : List (String × Option StageResult) :=
  [("a", some { StageResult.empty with interval := some (.ofSeconds 2) }), ("b", none),
    ("a", some { StageResult.empty with interval := some (.ofSeconds 1), retry := true })]

theorem last_stage_may_report_first :
    ∃ s m, Reachable (pipeline threeStages) s ∧ s.result = some m ∧
      m = mergeInOrder threeStages := by
  have h₀ : Reachable (pipeline threeStages) (start (pipeline threeStages)) := .start
  have h₁ := h₀.step (.evaluated [_, _] _ [] rfl rfl)
  have h₂ := h₁.step (.merged [] _ [] rfl)
  have h₃ := h₂.step (.died [_] _ [] rfl rfl)
  have h₄ := h₃.step (.takenIn [] _ [_] rfl)
  have h₅ := h₄.step (.evaluated [] _ [] rfl rfl)
  have h₆ := h₅.step (.merged [] _ [] rfl)
  have h₇ := h₆.step (.takenIn [_] _ [] rfl)
  have h₈ := h₇.step (.takenIn [] _ [] rfl)
  have h₉ := h₈.step (.returned rfl rfl)
  exact ⟨_, _, h₉, rfl, ((stage_tasks_return_pipeline_merge threeStages).2.2.1 _ _ h₉ rfl).2.2.2⟩

end StageRun

end PodRules
