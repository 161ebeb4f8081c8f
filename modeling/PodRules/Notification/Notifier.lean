import PodRules.Notification.Queue
import PodRules.Stage.Snapshot

namespace PodRules

def notifyKey (sinks : List KeyQueue) (key : ObjectKey) : List KeyQueue :=
  sinks.map fun q => if q.shuttingDown then q else q.push key

def notifyChanges (sinks : List KeyQueue) (ns : String) (old new : List Detail) :
    List KeyQueue × Nat :=
  if sinks.isEmpty then (sinks, 0)
  else
    let changed := changedOutcomes old new
    (changed.toList.foldl (fun qs n => notifyKey qs ⟨ns, n⟩) sinks, changed.size)

end PodRules
