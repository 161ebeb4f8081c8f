import PodRules.RuleSet.Basic

namespace PodRules.RuleSet

def group : String := "apps.rulegate.io"

def servedVersion : String := "v1alpha1"

def definition : Json :=
  .object [
    ("apiVersion", .string "apiextensions.k8s.io/v1"),
    ("kind", .string "CustomResourceDefinition"),
    ("metadata", .object [("name", .string ("rulesets." ++ group))]),
    ("spec", .object [
      ("group", .string group),
      ("names", .object [
        ("categories", .array []),
        ("kind", .string kind),
        ("plural", .string "rulesets"),
        ("shortNames", .array [.string "rset"]),
        ("singular", .string "ruleset")]),
      ("scope", .string "Namespaced"),
      ("versions", .array [.object [
        ("additionalPrinterColumns", .array []),
        ("name", .string servedVersion),
        ("schema", .object []),
        ("served", .bool true),
        ("storage", .bool true),
        ("subresources", .object [("status", .object [])])]])])]

end PodRules.RuleSet
