import PodRules.Program.Basic
import PodRules.Simulation.Controller

namespace PodRules.Program

abbrev EventRow := List String

structure PhaseView where
  cluster : Cluster
  /-- All different events since the start, in ascending order. -/
  events : List EventRow

def eventType : String := "Warning"

def eventRow (w : Warning) : EventRow :=
  let m := w.ruleSet.metadata
  [m.namespaceName.getD "", m.name.getD "", eventType, w.reason, w.note]

def eventRows (ws : List Warning) : List EventRow :=
  (sortBy (fun a b => (List.compareLex compare a b).isLE) (ws.map eventRow)).eraseReps

def passBound : Nat := 10000

def initialScene (a : CommandLine.RunArguments) (today : Instant) : Watched where
  world :=
    { World.initial a.settings.expectationTtl 1 true today with
      stages := a.stages, evaluator := .declared }
  scope := a.namespaceName
  due := ∅

def runPhases (a : CommandLine.RunArguments) : Watched → List (List Edit) → List PhaseView × Watched
  | w, [] => ([], w)
  | w, edits :: rest =>
    let rested := (w.edit edits).settle a.settings passBound
    let (views, last) := runPhases a rested rest
    (⟨rested.world.cluster, eventRows rested.world.warnings⟩ :: views, last)

def workLines (a : CommandLine.RunArguments) (w : Watched) : List LogLine :=
  let keys := (w.world.drainSink 0).1
  startLine a :: (keys.map changeLine ++ [stopLine])

end PodRules.Program
