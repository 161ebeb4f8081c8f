import PodRules.Json.Equality
import PodRules.Object.Key
import PodRules.Object.MetadataShape

namespace PodRules

/-- The metadata of an object. Every part may be absent, which is not the same as empty. -/
structure Metadata where
  name : Option String
  generateName : Option String
  namespaceName : Option String
  labels : Option (SortedMap String String)
  annotations : Option (SortedMap String String)
  finalizers : Option (List String)
  generation : Option Int64
  resourceVersion : Option String
  deletionTimestamp : Option Instant
  uid : Option String
  /-- The members that nothing here looks at, in their normal form. -/
  others : List (String × Json)
  deriving DecidableEq, Inhabited

namespace Metadata

def anyName (m : Metadata) : String := (m.name.or m.generateName).getD ""

def key (m : Metadata) : ObjectKey := ⟨m.namespaceName.getD "", m.anyName⟩

def version (m : Metadata) : String := m.resourceVersion.getD ""

def isTerminating (m : Metadata) : Bool := m.deletionTimestamp.isSome

def labelMap (m : Metadata) : SortedMap String String := m.labels.getD ∅

def finalizerList (m : Metadata) : List String := m.finalizers.getD []

end Metadata

/-- Metadata is an object in which null counts as absent and the last occurrence of a member
counts. -/
instance : JsonForm Metadata where
  toJson m := .ofMembers ([
    Json.present "name" m.name,
    Json.present "generateName" m.generateName,
    Json.present "namespace" m.namespaceName,
    Json.present "labels" m.labels,
    Json.present "annotations" m.annotations,
    Json.present "finalizers" m.finalizers,
    Json.present "generation" m.generation,
    Json.present "resourceVersion" m.resourceVersion,
    Json.present "deletionTimestamp" m.deletionTimestamp,
    Json.present "uid" m.uid] ++ m.others.map some)
  ofJson?
    | .object ms => do
      let name ← Json.lenient? "name" ms
      let generateName ← Json.lenient? "generateName" ms
      let namespaceName ← Json.lenient? "namespace" ms
      let labels ← Json.lenient? "labels" ms
      let annotations ← Json.lenient? "annotations" ms
      let finalizers ← Json.lenient? "finalizers" ms
      let generation ← Json.lenient? "generation" ms
      let resourceVersion ← Json.lenient? "resourceVersion" ms
      let deletionTimestamp ← Json.lenient? "deletionTimestamp" ms
      let uid ← Json.lenient? "uid" ms
      let others ← Shape.normalFields? Shape.otherMetadata ms
      pure { name, generateName, namespaceName, labels, annotations, finalizers, generation,
             resourceVersion, deletionTimestamp, uid, others }
    | _ => none

end PodRules
