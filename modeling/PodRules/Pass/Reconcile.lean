import PodRules.Pass.Deletion
import PodRules.Pass.Settings
import PodRules.Pass.StatusRecord

namespace PodRules

structure Outcome where
  requeue : Bool
  requeueAfter : Option Duration
  deriving DecidableEq, Repr

namespace Outcome

def done : Outcome := ⟨false, none⟩

def after (d : Duration) : Outcome := ⟨false, some d⟩

end Outcome

inductive Action where
  | awaitChange
  | requeue (after : Duration)
  deriving DecidableEq, Repr

namespace Action

/-- A wait that the outcome names comes before a plain wish to be repeated. -/
def ofOutcome (s : Settings) (o : Outcome) : Action :=
  match o.requeueAfter with
  | some d => .requeue d
  | none => if o.requeue then .requeue s.requeueBackoff else .awaitChange

def ofFailure (s : Settings) (_ : Failure) : Action := .requeue s.errorBackoff

end Action

/-- The names of some targets, unless the view of one of them is stale. Targets after that one are
not looked at. -/
def trustedNames : List Pod → SortedSet String → Pass (Option (SortedSet String))
  | [], names => .done (some names)
  | pod :: pods, names =>
    .ask (.trust pod.key pod.version) fun trusted =>
      if trusted then trustedNames pods (names.insert pod.metadata.anyName) else .done none

def evaluateStages (rs : RuleSet) (targets : List Pod) : Pass PipelineResult :=
  .ask .stages fun stages =>
    .ask (.evaluate stages rs targets) fun completions => .done (Completion.combine completions)

def recordOutcome (ns : String) (rs : RuleSet) (names : SortedSet String) (merged : PipelineResult) :
    Pass Outcome :=
  .ask .now fun now =>
    let next := statusSnapshot names (rs.metadata.generation.getD 0) merged.details.values
      merged.ruleStates now
    (recordStatus rs next).bind fun _ =>
      .ask (.notify ns rs.recordedStatus.details next.details) fun _ =>
        .done ⟨merged.retry, merged.interval⟩

def processTargets (s : Settings) (key : ObjectKey) (rs : RuleSet) (selected : List Pod) :
    Pass Outcome :=
  (trustedNames selected ∅).bind fun
    | none => .done .done
    | some names =>
      (carryOut s.retry key.namespaceName key.name
        (.ofSelection rs.recordedStatus.targets names)).bind fun targets =>
      (evaluateStages rs targets).bind fun merged =>
      recordOutcome key.namespaceName rs names merged

def afterListing (s : Settings) (key : ObjectKey) (rs : RuleSet) (selected : List Pod) :
    Pass Outcome :=
  match rs.deletionVerdict selected with
  | .active => (holdRuleSet s.retry rs).bind fun held => processTargets s key held selected
  | .ready =>
    if rs.isHeld then (finishDeletion s.retry rs).bind fun _ => .done .done else .done .done
  | .blocked _ =>
    if rs.isHeld then
      .ask (.warn rs blockedReason rs.blockedNote) fun _ => .done (.after s.deletionRecheck)
    else .done .done

def reconcile (s : Settings) (key : ObjectKey) : Pass Outcome :=
  .ask (.store (.getRuleSet key)) fun
    | .error (.notFound _) => .done .done
    | .error e => .failed (.store e)
    | .ok rs =>
      .ask (.trust key rs.version) fun trusted =>
        if trusted then
          match rs.spec.selector.query? with
          | .error e => .failed (.invalidSelector key e)
          | .ok _ =>
            (Pass.storeOrFail (.listTargets key.namespaceName rs.spec.selector)).bind fun selected =>
              afterListing s key rs selected
        else .done .done

def scheduledPass (s : Settings) (key : ObjectKey) : Pass Action :=
  (reconcile s key).bind fun o => .done (.ofOutcome s o)

end PodRules
