import PodRules.Json.Shape

namespace PodRules.Shape

/-! ## Common shapes -/

def name : Shape := .required .text

def texts : Shape := .list .text

def textMap : Shape := .map .text

def nameRecord (field : String) : Shape := .record [(field, name)]

def localReference : Shape := .record [("name", .text)]

def selectorRequirement : Shape :=
  .record [("key", name), ("operator", name), ("values", texts)]

def labelSelector : Shape :=
  .record [("matchExpressions", .list selectorRequirement), ("matchLabels", textMap)]

/-! ## Metadata -/

def ownerReference : Shape :=
  .record [("apiVersion", name), ("blockOwnerDeletion", .flag), ("controller", .flag),
    ("kind", name), ("name", name), ("uid", name)]

def managedFields : Shape :=
  .record [("apiVersion", .text), ("fieldsType", .text), ("fieldsV1", .any), ("manager", .text),
    ("operation", .text), ("subresource", .text), ("time", .time)]

def otherMetadata : List (String × Shape) :=
  [("creationTimestamp", .time), ("deletionGracePeriodSeconds", .int64),
    ("managedFields", .list managedFields), ("ownerReferences", .list ownerReference),
    ("selfLink", .text)]

def metadata : Shape :=
  .record (otherMetadata ++
    [("annotations", textMap), ("deletionTimestamp", .time), ("finalizers", texts),
      ("generateName", .text), ("generation", .int64), ("labels", textMap), ("name", .text),
      ("namespace", .text), ("resourceVersion", .text), ("uid", .text)])

end PodRules.Shape
