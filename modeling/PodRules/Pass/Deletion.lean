import PodRules.Pass.Claims

namespace PodRules

inductive DeletionVerdict where
  /-- The rule set is not being deleted. -/
  | active
  /-- The deletion waits for running targets. -/
  | blocked (running : Nat)
  /-- Nothing holds the deletion back. -/
  | ready
  deriving DecidableEq, Repr

namespace RuleSet

def deletionVerdict (rs : RuleSet) (selected : List Pod) : DeletionVerdict :=
  if rs.isTerminating then
    let running := selected.countP Pod.isRunning
    if running = 0 || rs.isForced then .ready else .blocked running
  else .active

def blockedNote (rs : RuleSet) : String :=
  "can not delete ruleset " ++ rs.key.text ++
    ": some pods are still waiting to be processed by it. " ++
    "Terminate those pods first or label the ruleset " ++ terminatingLabel ++
    "=true to force deletion"

end RuleSet

def blockedReason : String := "BlockProtection"

def holdOnce (key : ObjectKey) : Pass (Except StoreError RuleSet) :=
  .ask (.store (.getRuleSet key)) fun
    | .error e => .done (.error e)
    | .ok stored =>
      if stored.isHeld then .done (.ok stored)
      else .ask (.store (.updateRuleSet stored.addFinalizer)) .done

/-- The rule set with the cleanup finalizer: the given one if it has it, else as stored. -/
def holdRuleSet (b : RetryBackoff) (rs : RuleSet) : Pass RuleSet :=
  if rs.isHeld then .done rs else .retry b rs.key (holdOnce rs.key)

def letGoOnce (key : ObjectKey) : Pass (Except StoreError Unit) :=
  .ask (.store (.getRuleSet key)) fun
    | .error (.notFound _) => .done (.ok ())
    | .error e => .done (.error e)
    | .ok stored =>
      if stored.isHeld then
        .ask (.store (.updateRuleSet stored.dropFinalizer)) fun
          | .ok _ => .done (.ok ())
          | .error (.notFound _) => .done (.ok ())
          | .error e => .done (.error e)
      else .done (.ok ())

def letGo (b : RetryBackoff) (rs : RuleSet) : Pass Unit :=
  .retry b rs.key (letGoOnce rs.key)

def finishDeletion (b : RetryBackoff) (rs : RuleSet) : Pass Unit :=
  (releaseTargets b rs.key.namespaceName rs.key.name rs.recordedStatus.targets).bind fun _ =>
    letGo b rs

end PodRules
