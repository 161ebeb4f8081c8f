import PodRules.Object.Metadata
import PodRules.Object.PodShape

namespace PodRules

structure Pod where
  metadata : Metadata
  /-- The other members, in their normal form. -/
  others : List (String × Json)
  deriving DecidableEq, Inhabited

namespace Pod

def key (p : Pod) : ObjectKey := p.metadata.key

def version (p : Pod) : String := p.metadata.version

def labels (p : Pod) : SortedMap String String := p.metadata.labelMap

def isRunning (p : Pod) : Bool := !p.metadata.isTerminating

end Pod

instance : JsonForm Pod where
  toJson p := .ofMembers ([
    Json.field "apiVersion" "v1",
    Json.field "kind" "Pod",
    Json.field "metadata" p.metadata] ++ p.others.map some)
  ofJson?
    | .object ms => do
      let is (name value : String) : Bool :=
        (ms.filter (·.1 = name)).all fun m => (ofJson? m.2 : Option String) = some value
      if !is "apiVersion" "v1" || !is "kind" "Pod" then none
      let metadata ← Json.lenient? "metadata" ms
      let others ← Shape.normalFields? Shape.otherPodFields ms
      pure ⟨metadata.getD default, others⟩
    | _ => none

end PodRules
