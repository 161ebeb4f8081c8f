import PodRules.Cluster.Changes
import PodRules.Pass.Reconcile
import PodRules.Simulation.World
import PodRules.Watch.Wakeup

namespace PodRules

structure Watched where
  world : World
  /-- The only namespace that is watched. -/
  scope : Option String
  due : SortedSet ObjectKey

namespace Watched

/-- The rule sets that a change of one object concerns. A rule set that was removed concerns
nobody; a pod that was removed counts as it was. -/
def concerned (before after : Cluster) : ObjectChange → List ObjectKey
  | .ruleSet key (some _) => [key]
  | .ruleSet _ none => []
  | .pod _ (some p) => (p.wakes after.ruleSets.values).map RuleSetRef.key
  | .pod key none =>
    match before.pods.get? key with
    | some p => (p.wakes after.ruleSets.values).map RuleSetRef.key
    | none => []

def observe (w : Watched) (world : World) : Watched :=
  let before := w.world.cluster
  let keys := (before.changes world.cluster).flatMap (concerned before world.cluster)
  let watched := keys.filter fun k => w.scope.all fun ns => decide (k.namespaceName = ns)
  { w with world, due := watched.foldl (fun s k => s.insert k) w.due }

def edit (w : Watched) (edits : List Edit) : Watched :=
  edits.foldl (fun w e => w.observe (w.world.editAll [e])) w

def differs (a b : World) : Bool :=
  a.cluster ≠ b.cluster || a.store.faults.length ≠ b.store.faults.length || a.guard ≠ b.guard

def step (settings : Settings) (w : Watched) (key : ObjectKey) : Watched :=
  let w := { w with due := w.due.erase key }
  match w.world.run (reconcile settings key) with
  | (.ok _, world) => w.observe world
  | (.error _, world) =>
    let again := differs w.world world
    let w := w.observe world
    if again then { w with due := w.due.insert key } else w

def settle (settings : Settings) : Nat → Watched → Watched
  | 0, w => w
  | n + 1, w =>
    match w.due.toList with
    | [] => w
    | key :: _ => settle settings n (w.step settings key)

end Watched

end PodRules
