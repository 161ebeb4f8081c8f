import PodRules.Pass.Basic
import PodRules.Retry.Loop

namespace PodRules

def Pass.retry {α : Type} (b : RetryBackoff) (key : ObjectKey)
    (attempt : Pass (Except StoreError α)) : Pass α :=
  retryConflicts (fun d => .call (.sleep d)) b key attempt

inductive TargetEdit where
  /-- The target as stored, and the version that the write started from. -/
  | written (base : String) (pod : Pod)
  | unchanged (pod : Pod)
  | gone
  deriving DecidableEq

namespace TargetEdit

def pod? : TargetEdit → Option Pod
  | .written _ pod => some pod
  | .unchanged pod => some pod
  | .gone => none

end TargetEdit

def editOnce (key : ObjectKey) (edit : Pod → Pod × Bool) :
    Pass (Except StoreError TargetEdit) :=
  .ask (.store (.getTarget key)) fun
    | .error (.notFound _) => .done (.ok .gone)
    | .error e => .done (.error e)
    | .ok pod =>
      if (edit pod).2 then
        .ask (.store (.updateTarget (edit pod).1)) fun
          | .ok stored => .done (.ok (.written pod.version stored))
          | .error (.notFound _) => .done (.ok .gone)
          | .error e => .done (.error e)
      else .done (.ok (.unchanged (edit pod).1))

def editTarget (b : RetryBackoff) (key : ObjectKey) (edit : Pod → Pod × Bool) :
    Pass TargetEdit :=
  .retry b key (editOnce key edit)

end PodRules
