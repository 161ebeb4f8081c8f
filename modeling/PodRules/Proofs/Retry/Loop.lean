import PodRules.Retry.Loop

namespace PodRules

variable {α : Type}

inductive RetryEvent
  | attempt (start : Nat)
  | wait (span : Duration)
  deriving DecidableEq

structure RetryLog where
  attempts : Nat
  clock : Nat
  events : List RetryEvent
  deriving DecidableEq

namespace RetryLog

def empty : RetryLog := ⟨0, 0, []⟩

def attempted (log : RetryLog) : RetryLog :=
  { log with attempts := log.attempts + 1, events := log.events ++ [.attempt log.clock] }

def waited (log : RetryLog) (span : Duration) : RetryLog :=
  { log with clock := log.clock + span.nanos, events := log.events ++ [.wait span] }

end RetryLog

abbrev Retried := ExceptT Failure (StateM RetryLog)

def attemptFrom (outcomes : Nat → Except StoreError α) : Retried (Except StoreError α) := do
  let log ← get
  set log.attempted
  pure (outcomes log.attempts)

def waitFor (span : Duration) : Retried PUnit := modify (·.waited span)

def followOutcomes (b : RetryBackoff) (key : ObjectKey) (outcomes : Nat → Except StoreError α) :
    Except Failure α × RetryLog :=
  (retryConflicts waitFor b key (attemptFrom outcomes)).run.run .empty

def MetConflict (outcome : Except StoreError α) : Prop := ∃ m, outcome = .error (.conflict m)

namespace RetryBackoff

def elapsed (b : RetryBackoff) : (waits : Nat) → Nat
  | 0 => 0
  | waits + 1 => b.elapsed waits + (b.delay (waits + 1)).nanos

def afterConflicts (b : RetryBackoff) (conflicts : Nat) : RetryLog :=
  ⟨conflicts, b.elapsed conflicts,
    (List.range conflicts).flatMap fun i => [.attempt (b.elapsed i), .wait (b.delay (i + 1))]⟩

/-- One more conflict is one more attempt and the delay that goes with its number. -/
theorem afterConflicts_succ (b : RetryBackoff) (conflicts : Nat) :
    b.afterConflicts (conflicts + 1) =
      (b.afterConflicts conflicts).attempted.waited (b.delay (conflicts + 1)) := by
  simp [afterConflicts, RetryLog.attempted, RetryLog.waited, elapsed, List.range_succ]

end RetryBackoff

/-! ## One attempt -/

section Steps

variable {b : RetryBackoff} {key : ObjectKey} {outcomes : Nat → Except StoreError α}
  {log : RetryLog} {left number : Nat}

theorem run_attemptFrom_bind (next : Except StoreError α → Retried α) :
    (attemptFrom outcomes >>= next).run.run log =
      (next (outcomes log.attempts)).run.run log.attempted :=
  rfl

theorem run_waitFor_bind (span : Duration) (next : PUnit → Retried α) :
    (waitFor span >>= next).run.run log = (next ()).run.run (log.waited span) :=
  rfl

/-- An attempt that did not meet a conflict decides. -/
theorem retryFrom_of_settled (h : ¬ MetConflict (outcomes log.attempts)) :
    (retryFrom waitFor b key (attemptFrom outcomes) (left + 1) number).run.run log =
      ((outcomes log.attempts).mapError .store, log.attempted) := by
  rw [retryFrom, run_attemptFrom_bind]
  cases hout : outcomes log.attempts with
  | ok v => rfl
  | error e =>
    cases e with
    | conflict m => exact absurd ⟨m, hout⟩ h
    | notFound m | transient m => rfl

/-- A conflict in the last attempt exhausts the retries. -/
theorem retryFrom_of_last_conflict (h : MetConflict (outcomes log.attempts)) :
    (retryFrom waitFor b key (attemptFrom outcomes) 1 number).run.run log =
      (.error (.retryExhausted key number), log.attempted) := by
  obtain ⟨m, hout⟩ := h
  rw [retryFrom, run_attemptFrom_bind, hout]
  rfl

/-- A conflict with attempts left is slept over, and the next attempt is made. -/
theorem retryFrom_of_conflict (h : MetConflict (outcomes log.attempts)) :
    (retryFrom waitFor b key (attemptFrom outcomes) (left + 2) number).run.run log =
      (retryFrom waitFor b key (attemptFrom outcomes) (left + 1) (number + 1)).run.run
        (log.attempted.waited (b.delay number)) := by
  obtain ⟨m, hout⟩ := h
  rw [retryFrom, run_attemptFrom_bind, hout]
  show (if left + 1 = 0 then retryFrom waitFor b key (attemptFrom outcomes) (left + 1) (number + 1)
    else waitFor (b.delay number) >>= fun _ =>
      retryFrom waitFor b key (attemptFrom outcomes) (left + 1) (number + 1)).run.run _ = _
  rw [if_neg (Nat.succ_ne_zero left), run_waitFor_bind]

end Steps

/-! ## The loop -/

section Run

variable {b : RetryBackoff} {key : ObjectKey} {outcomes : Nat → Except StoreError α}

/-- Conflicts bring the loop to its next attempt as long as one is left. -/
theorem retryFrom_of_conflicts {conflicts : Nat}
    (h : ∀ i < conflicts, MetConflict (outcomes i)) (left : Nat) :
    (retryFrom waitFor b key (attemptFrom outcomes) (conflicts + left + 1) 1).run.run .empty =
      (retryFrom waitFor b key (attemptFrom outcomes) (left + 1) (conflicts + 1)).run.run
        (b.afterConflicts conflicts) := by
  -- On the conflicts: the last of them takes one of the attempts that are left.
  induction conflicts generalizing left with
  | zero =>
    rw [Nat.zero_add]
    rfl
  | succ conflicts ih =>
    have hlast : MetConflict (outcomes (b.afterConflicts conflicts).attempts) :=
      h conflicts (Nat.lt_succ_self conflicts)
    have hleft : conflicts + 1 + left + 1 = conflicts + (left + 1) + 1 := by omega
    rw [hleft, ih (fun i hi => h i (Nat.lt_succ_of_lt hi)), retryFrom_of_conflict hlast,
      RetryBackoff.afterConflicts_succ]

/-- After some conflicts the loop stands where it would have started with so many attempts less, and
the log has the attempts and delays so far. -/
theorem followOutcomes_of_conflicts {conflicts : Nat} (left : Nat)
    (hattempts : conflicts + left + 1 = max 1 b.steps)
    (h : ∀ i < conflicts, MetConflict (outcomes i)) :
    followOutcomes b key outcomes =
      (retryFrom waitFor b key (attemptFrom outcomes) (left + 1) (conflicts + 1)).run.run
        (b.afterConflicts conflicts) := by
  rw [followOutcomes, retryConflicts, RetryBackoff.attempts, ← hattempts]
  exact retryFrom_of_conflicts h left

/-- The loop makes the attempts up to the first one that meets no conflict and returns what that one
returned, an error wrapped; when all its attempts meet conflicts, it says so with their number,
which is at least one. Between two attempts it waits for the delay with the number of the first of
them, so that an attempt begins at the sum of the delays before it, and after the last one it ends.
-/
theorem retryConflicts_exact (b : RetryBackoff) (key : ObjectKey)
    (outcomes : Nat → Except StoreError α) :
    (∀ conflicts < max 1 b.steps, (∀ i < conflicts, MetConflict (outcomes i)) →
      ¬ MetConflict (outcomes conflicts) →
        followOutcomes b key outcomes =
          ((outcomes conflicts).mapError .store, (b.afterConflicts conflicts).attempted)) ∧
      ((∀ i < max 1 b.steps, MetConflict (outcomes i)) →
        followOutcomes b key outcomes =
          (.error (.retryExhausted key (max 1 b.steps)),
            (b.afterConflicts (max 1 b.steps - 1)).attempted)) := by
  constructor
  · intro conflicts hlt hconflicts hsettled
    have hleft : conflicts + (max 1 b.steps - conflicts - 1) + 1 = max 1 b.steps := by omega
    rw [followOutcomes_of_conflicts _ hleft hconflicts]
    exact retryFrom_of_settled hsettled
  · intro hconflicts
    have hlast : max 1 b.steps - 1 + 1 = max 1 b.steps := by omega
    have hbefore : ∀ i < max 1 b.steps - 1, MetConflict (outcomes i) :=
      fun i hi => hconflicts i (by omega)
    have hmet : MetConflict (outcomes (b.afterConflicts (max 1 b.steps - 1)).attempts) :=
      hconflicts (max 1 b.steps - 1) (by omega)
    rw [followOutcomes_of_conflicts 0 hlast hbefore, retryFrom_of_last_conflict hmet, hlast]

end Run

namespace Contended

def key : ObjectKey := ⟨"ns", "p"⟩

def growing : RetryBackoff := ⟨4, .ofMillis 10, 2.0⟩

def stepless : RetryBackoff := ⟨0, .zero, 1.0⟩

def outcomes : Nat → Except StoreError String
  | 2 => .ok "written"
  | _ => .error (.conflict "busy")

end Contended

open Contended in
theorem contended_write_ends_with_third_attempt :
    followOutcomes growing key outcomes =
        (.ok "written",
          ⟨3, (growing.delay 1).nanos + (growing.delay 2).nanos,
            [.attempt 0, .wait (growing.delay 1), .attempt (growing.delay 1).nanos,
              .wait (growing.delay 2),
              .attempt ((growing.delay 1).nanos + (growing.delay 2).nanos)]⟩) ∧
      followOutcomes stepless key outcomes =
        (.error (.retryExhausted key 1), ⟨1, 0, [.attempt 0]⟩) := by
  have hbusy (i : Nat) (hi : i < 2) : MetConflict (outcomes i) := by
    match i with
    | 0 => exact ⟨"busy", rfl⟩
    | 1 => exact ⟨"busy", rfl⟩
  have hvalue : ¬ MetConflict (outcomes 2) := by
    rintro ⟨m, hm⟩
    cases hm
  have hlog : (growing.afterConflicts 2).attempted =
      ⟨3, (growing.delay 1).nanos + (growing.delay 2).nanos,
        [.attempt 0, .wait (growing.delay 1), .attempt (growing.delay 1).nanos,
          .wait (growing.delay 2),
          .attempt ((growing.delay 1).nanos + (growing.delay 2).nanos)]⟩ := by
    simp [RetryBackoff.afterConflicts, RetryBackoff.elapsed, RetryLog.attempted, List.range_succ]
  constructor
  · rw [← hlog]
    exact (retryConflicts_exact growing key outcomes).1 2 (by decide) hbusy hvalue
  · exact (retryConflicts_exact stepless key outcomes).2
      fun i hi => hbusy i (Nat.lt_trans hi (by decide))

end PodRules
