import PodRules.Stage.Tally

namespace PodRules

structure StageScript where
  delayMillis : Nat
  dies : Bool
  report : StageResult
  deriving Inhabited

namespace StageScript

def silent : StageScript := ⟨0, false, .empty⟩

def millis (s : StageScript) : Nat := min s.delayMillis Duration.longestWaitMillis

end StageScript

inductive Evaluator where
  /-- Every stage follows its script; one without a script is silent. -/
  | scripted (scripts : SortedMap String StageScript)
  /-- Every stage passes all targets on the rules declared for it. -/
  | declared
  deriving Inhabited

namespace Evaluator

def script (e : Evaluator) (stage : String) (rs : RuleSet) (targets : List Pod) : StageScript :=
  match e with
  | .scripted scripts => (scripts.get? stage).getD .silent
  | .declared => ⟨0, false, .declared stage rs targets⟩

def tasks (e : Evaluator) (stages : List String) (rs : RuleSet) (targets : List Pod) :
    List (StageScript × Completion) :=
  stages.zipIdx.map fun (stage, position) =>
    let script := e.script stage rs targets
    (script, ⟨position, stage, if script.dies then none else some script.report⟩)

def evaluate (e : Evaluator) (stages : List String) (rs : RuleSet) (targets : List Pod) :
    List Completion × Nat :=
  let tasks := e.tasks stages rs targets
  ((sortBy (fun a b => decide (a.1.millis ≤ b.1.millis)) tasks).map (·.2),
    tasks.foldl (fun n t => max n t.1.millis) 0)

end Evaluator

end PodRules
