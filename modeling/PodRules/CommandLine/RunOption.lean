import PodRules.CommandLine.Usage
import PodRules.Pass.Settings
import PodRules.Stage.Names
import PodRules.Text.Decimal

namespace PodRules.CommandLine

inductive RunOption where
  | namespaceName
  | stages
  | concurrency
  | deletionRecheckSecs
  | requeueBackoffMs
  | errorBackoffSecs
  | expectationTtlSecs
  | retrySteps
  deriving DecidableEq, Repr

namespace RunOption

def all : List RunOption := [.namespaceName, .stages, .concurrency, .deletionRecheckSecs,
  .requeueBackoffMs, .errorBackoffSecs, .expectationTtlSecs, .retrySteps]

def name : RunOption → String
  | .namespaceName => "namespace"
  | .stages => "stages"
  | .concurrency => "concurrency"
  | .deletionRecheckSecs => "deletion-recheck-secs"
  | .requeueBackoffMs => "requeue-backoff-ms"
  | .errorBackoffSecs => "error-backoff-secs"
  | .expectationTtlSecs => "expectation-ttl-secs"
  | .retrySteps => "retry-steps"

def ofName? (s : String) : Option RunOption := all.find? (·.name = s)

def environmentName : RunOption → String
  | .namespaceName => "RULEGATE_NAMESPACE"
  | .stages => "RULEGATE_STAGES"
  | .concurrency => "RULEGATE_CONCURRENCY"
  | .deletionRecheckSecs => "RULEGATE_DELETION_RECHECK_SECS"
  | .requeueBackoffMs => "RULEGATE_REQUEUE_BACKOFF_MS"
  | .errorBackoffSecs => "RULEGATE_ERROR_BACKOFF_SECS"
  | .expectationTtlSecs => "RULEGATE_EXPECTATION_TTL_SECS"
  | .retrySteps => "RULEGATE_RETRY_STEPS"

/-- The bound of a number that is read as a signed one and then has to fit. -/
def smallBound? : RunOption → Option Nat
  | .concurrency => some (Nat.pow 2 16)
  | .retrySteps => some (Nat.pow 2 32)
  | _ => none

def number? (o : RunOption) (value : String) : Option Nat :=
  match o.smallBound? with
  | some bound =>
    (Decimal.signed? (-(Int.pow 2 63)) (Int.pow 2 63 - 1) value.toList).bind fun i =>
      if 0 ≤ i ∧ i < bound then some i.toNat else none
  | none => Decimal.unsigned? (Nat.pow 2 64) value.toList

def isText : RunOption → Bool
  | .namespaceName => true
  | .stages => true
  | _ => false

def admits (o : RunOption) (value : String) : Bool := o.isText || (o.number? value).isSome

end RunOption

structure RunArguments where
  /-- The only namespace to watch; all of them when absent. -/
  namespaceName : Option String
  stages : List String
  settings : Settings

def standardStages : String := "PreCheck,PostCheck"

def RunArguments.ofValues (value? : RunOption → Option String) : RunArguments :=
  let number (o : RunOption) (standard : Nat) : Nat :=
    ((value? o).bind o.number?).getD standard
  { namespaceName := value? .namespaceName
    stages := stageNames ((value? .stages).getD standardStages)
    settings :=
      { deletionRecheck := .ofSeconds (number .deletionRecheckSecs 5)
        requeueBackoff := .ofMillis (number .requeueBackoffMs 1000)
        errorBackoff := .ofSeconds (number .errorBackoffSecs 5)
        concurrency := number .concurrency 10
        expectationTtl := .ofSeconds (number .expectationTtlSecs 300)
        retry := { RetryBackoff.standard with steps := number .retrySteps 5 } } }

end PodRules.CommandLine
