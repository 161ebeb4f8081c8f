import PodRules.Pass.Basic
import PodRules.Stage.Snapshot

namespace PodRules

inductive StatusRecord where
  | unchanged
  | written (ruleSet : RuleSet)
  deriving DecidableEq

def recordStatus (rs : RuleSet) (next : RuleSetStatus) : Pass StatusRecord :=
  if rs.recordedStatus.equalButTime next then .done .unchanged
  else
    .ask (.arm rs.key rs.version) fun _ =>
      .ask (.store (.updateStatus { rs with status := some next })) fun
        | .ok stored => .done (.written stored)
        | .error e => .ask (.disarm rs.key) fun _ => .failed (.store e)

end PodRules
