import PodRules.Retry.Backoff

namespace PodRules

structure Settings where
  /-- The wait before a blocked deletion is looked at again. -/
  deletionRecheck : Duration
  /-- The wait after a pass that asks to be repeated. -/
  requeueBackoff : Duration
  /-- The wait after a pass that failed. -/
  errorBackoff : Duration
  /-- How many rule sets may be worked on at once. -/
  concurrency : Nat
  expectationTtl : Duration
  retry : RetryBackoff
  deriving Inhabited

namespace Settings

def standard : Settings where
  deletionRecheck := .ofSeconds 5
  requeueBackoff := .ofSeconds 1
  errorBackoff := .ofSeconds 5
  concurrency := 10
  expectationTtl := .ofSeconds 300
  retry := .standard

end Settings

end PodRules
