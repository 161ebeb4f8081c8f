import PodRules.Stage.Tally

namespace PodRules

def Completion.pipeline (outcomes : List (String × Option StageResult)) : List Completion :=
  outcomes.zipIdx.map fun e => ⟨e.2, e.1.1, e.1.2⟩

structure StageRun where
  /-- Tasks that evaluate their stage. -/
  running : List Completion
  /-- Tasks that have their report and wait for the tally. -/
  reporting : List Completion
  /-- Tasks that have ended and were not taken in. -/
  ended : List Completion
  tally : Tally
  /-- How many tasks have not been taken in. -/
  awaited : Nat
  result : Option PipelineResult

namespace StageRun

def start (tasks : List Completion) : StageRun := ⟨tasks, [], [], .empty, tasks.length, none⟩

inductive Step : StageRun → StageRun → Prop
  | evaluated {s : StageRun} (before : List Completion) (c : Completion) (after : List Completion)
      (hc : s.running = before ++ c :: after) (hr : c.report.isSome = true) :
      Step s { s with running := before ++ after, reporting := c :: s.reporting }
  | died {s : StageRun} (before : List Completion) (c : Completion) (after : List Completion)
      (hc : s.running = before ++ c :: after) (hr : c.report = none) :
      Step s { s with running := before ++ after, ended := c :: s.ended }
  | merged {s : StageRun} (before : List Completion) (c : Completion) (after : List Completion)
      (hc : s.reporting = before ++ c :: after) :
      Step s { s with
        reporting := before ++ after, ended := c :: s.ended, tally := c.addTo s.tally }
  | takenIn {s : StageRun} (before : List Completion) (c : Completion) (after : List Completion)
      (hc : s.ended = before ++ c :: after) :
      Step s { s with ended := before ++ after, awaited := s.awaited - 1 }
  | returned {s : StageRun} (ha : s.awaited = 0) (hr : s.result = none) :
      Step s { s with result := some s.tally.total }

inductive Reachable (tasks : List Completion) : StageRun → Prop
  | start : Reachable tasks (start tasks)
  | step {s t : StageRun} (h : Reachable tasks s) (hst : Step s t) : Reachable tasks t

end StageRun

end PodRules
