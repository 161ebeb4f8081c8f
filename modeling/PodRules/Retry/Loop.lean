import PodRules.Retry.Backoff
import PodRules.Store.Error

namespace PodRules

variable {m : Type → Type} [Monad m] [MonadExcept Failure m] {α : Type}

def retryFrom (wait : Duration → m PUnit) (b : RetryBackoff) (key : ObjectKey)
    (attempt : m (Except StoreError α)) : (left number : Nat) → m α
  | 0, number => throw (.retryExhausted key (number - 1))
  | left + 1, number => do
    match ← attempt with
    | .ok v => pure v
    | .error (.conflict _) =>
      if left = 0 then retryFrom wait b key attempt left (number + 1)
      else do
        wait (b.delay number)
        retryFrom wait b key attempt left (number + 1)
    | .error e => throw (.store e)

def retryConflicts (wait : Duration → m PUnit) (b : RetryBackoff) (key : ObjectKey)
    (attempt : m (Except StoreError α)) : m α :=
  retryFrom wait b key attempt b.attempts 1

end PodRules
