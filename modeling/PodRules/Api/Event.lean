import PodRules.Api.Request

namespace PodRules.Api

structure Reporter where
  controller : String
  instanceName : Option String

def systemNamespace : String := "kube-system"

def eventsPath (ns : String) : String := "/apis/events.k8s.io/v1/namespaces/" ++ ns ++ "/events"

def warningEvent (reporter : Reporter) (rs : RuleSet) (reason note : String) : Json :=
  let m := rs.metadata
  .ofMembers [
    Json.field "action" "Reconcile",
    Json.field "apiVersion" "events.k8s.io/v1",
    Json.field "kind" "Event",
    some ("metadata", .ofMembers [
      Json.field "generateName" (reporter.controller ++ "-"),
      Json.present "namespace" m.namespaceName]),
    Json.field "note" note,
    Json.field "reason" reason,
    some ("regarding", .ofMembers [
      Json.field "apiVersion" RuleSet.apiVersion,
      Json.field "kind" RuleSet.kind,
      Json.present "name" m.name,
      Json.present "namespace" m.namespaceName,
      Json.present "uid" m.uid]),
    Json.field "reportingController" reporter.controller,
    Json.field "reportingInstance" (reporter.instanceName.getD reporter.controller),
    Json.field "type" "Warning"]

def warningRequest? (reporter : Reporter) (rs : RuleSet) (reason note : String) :
    Except Failure Request :=
  Request.post? (eventsPath (rs.metadata.namespaceName.getD systemNamespace))
    (warningEvent reporter rs reason note)

end PodRules.Api
