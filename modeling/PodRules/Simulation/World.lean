import PodRules.Cluster.Faults
import PodRules.Pass.Basic
import PodRules.Simulation.Evaluator
import PodRules.Store.Expectations

namespace PodRules

structure LoggedCall where
  method : StoreMethod
  subject : String
  error : Option StoreError

def StoreCall.subject : StoreCall → String
  | .getRuleSet key => key.text
  | .updateRuleSet rs => rs.key.text
  | .updateStatus rs => rs.key.text
  | .listTargets ns _ => ns
  | .getTarget key => key.text
  | .updateTarget p => p.key.text

structure Evaluation where
  stage : String
  ruleSet : RuleSet
  targets : List Pod

structure Warning where
  ruleSet : RuleSet
  reason : String
  note : String

structure World where
  store : FaultyCluster
  guard : Expectations
  sinks : List KeyQueue
  stages : List String
  evaluator : Evaluator
  recordsWarnings : Bool
  /-- The milliseconds since the beginning. -/
  clock : Nat
  /-- The time of the day, which stands still. -/
  today : Instant
  calls : List LoggedCall
  evaluations : List Evaluation
  warnings : List Warning

namespace World

def initial (ttl : Duration) (sinks : Nat) (recordsWarnings : Bool) (today : Instant) : World where
  store := .empty
  guard := .fresh ttl
  sinks := List.replicate sinks .empty
  stages := []
  evaluator := .scripted ∅
  recordsWarnings
  clock := 0
  today
  calls := []
  evaluations := []
  warnings := []

def cluster (w : World) : Cluster := w.store.cluster

def editAll (w : World) (edits : List Edit) : World := { w with store := w.store.editAll edits }

def clearRecord (w : World) : World := { w with calls := [], evaluations := [], warnings := [] }

def answer (c : StoreCall) (w : World) : c.Answer × World :=
  let (a, store) := w.store.answer c
  let error := match a with
    | .ok _ => none
    | .error e => some e
  (a, { w with store, calls := w.calls ++ [⟨c.method, c.subject, error⟩] })

/-- The time on the clock of the table of pending writes, which is not the clock of the waits. -/
def guardTime : Nat := 0

def handle : (c : Call) → World → c.Reply × World
  | .store c, w => w.answer c
  | .trust key version, w =>
    let (trusted, guard) := w.guard.trust guardTime key version
    (trusted, { w with guard })
  | .arm key base, w => ((), { w with guard := w.guard.arm guardTime key base })
  | .disarm key, w => ((), { w with guard := w.guard.disarm key })
  | .sleep span, w => ((), { w with clock := w.clock + span.waitMillis })
  | .stages, w => (w.stages, w)
  | .evaluate stages rs targets, w =>
    let (completions, millis) := w.evaluator.evaluate stages rs targets
    (completions,
      { w with
        clock := w.clock + millis
        evaluations := w.evaluations ++ stages.map fun stage => ⟨stage, rs, targets⟩ })
  | .now, w => (w.today, w)
  | .warn rs reason note, w =>
    ((), if w.recordsWarnings then { w with warnings := w.warnings ++ [⟨rs, reason, note⟩] } else w)
  | .notify ns old new, w => ((), { w with sinks := (notifyChanges w.sinks ns old new).1 })

def run {α : Type} (w : World) (p : Pass α) : Except Failure α × World := p.run handle w

def drainSink (w : World) (index : Nat) : List ObjectKey × World :=
  match w.sinks[index]? with
  | some q =>
    let (keys, q) := q.drain
    (keys, { w with sinks := w.sinks.set index q })
  | none => ([], w)

def shutDownSink (w : World) (index : Nat) : World :=
  { w with sinks := w.sinks.modify index KeyQueue.shutDown }

end World

end PodRules
