import PodRules.CommandLine.Parser
import PodRules.Kubeconfig.Client
import PodRules.Log.Filter
import PodRules.Network.Address
import PodRules.RuleSet.Definition
import PodRules.Text.Quoted
import PodRules.Yaml.Printer

namespace PodRules.Program

def name : String := "rulegatectl"

def versionText : String := name ++ " 0.0.0"

def logTarget : String := name

def controllerName : String := "ruleset-controller"

def logVariable : String := "RULEGATE_LOG"

def metricsVariable : String := "RULEGATE_METRICS_ADDR"

structure LogLine where
  level : Log.Level
  message : String
  fields : List (String × String)
  deriving DecidableEq, Repr

namespace LogLine

def text (l : LogLine) : String :=
  " ".intercalate (l.level.text :: l.message :: l.fields.map fun f => f.1 ++ "=" ++ f.2)

def fieldNames (l : LogLine) : List String := "message" :: l.fields.map (·.1)

end LogLine

def isShown (filter : Option String) (l : LogLine) : Bool :=
  Log.shows filter logTarget l.fieldNames l.level

def shown (filter : Option String) (lines : List LogLine) : List LogLine :=
  lines.filter (isShown filter)

def metricsLines (address : Option String) : List LogLine :=
  match address with
  | none => []
  | some text =>
    match Network.SocketAddress.parse? text with
    | none => [⟨.warn, "invalid " ++ metricsVariable ++ "; expected host:port", [("addr", text)]⟩]
    | some a =>
      if a.host.isLocal then
        [⟨.info, "Prometheus metrics exporter listening", [("addr", text)]⟩]
      else
        [⟨.warn, "failed to install metrics exporter",
          [("error", "the address is not one of this host")]⟩]

def optionText : Option String → String
  | some s => "Some(" ++ Text.quote s ++ ")"
  | none => "None"

def startLine (a : CommandLine.RunArguments) : LogLine :=
  ⟨.info, "starting " ++ controllerName, [
    ("stages", Text.quoteList a.stages),
    ("ns", optionText a.namespaceName),
    ("concurrency", toString a.settings.concurrency)]⟩

def changeLine (key : ObjectKey) : LogLine :=
  ⟨.info, "target outcome changed", [("pod", key.text)]⟩

def stopLine : LogLine := ⟨.info, "controller stopped; draining notifications", []⟩

inductive ConsumerEnd where
  | finished
  | crashed
  | cancelled
  deriving DecidableEq, Repr

def ConsumerEnd.isClean (e : ConsumerEnd) : Bool := e = .finished

def definitionText : String := Yaml.text RuleSet.definition

def usageText : String :=
  "Usage: " ++ name ++ " <COMMAND>\n\nCommands:\n" ++
    "  run   Run the RuleSet controller until interrupted\n" ++
    "  crd   Print the RuleSet CustomResourceDefinition as YAML\n" ++
    "  help  Print this message or the help of the given subcommand(s)\n"

def usageReply : CommandLine.UsageError → String
  | .version => versionText ++ "\n"
  | _ => usageText

inductive Plan where
  | print (text : String) (exitCode : Nat)
  /-- Ends because there is no client. -/
  | noClient
  | run (arguments : CommandLine.RunArguments)

def plan (environment : String → Option String) (clientNamespace : Option String)
    (args : List String) : Plan :=
  match CommandLine.parse environment args with
  | .error e => .print (usageReply e) e.exitCode
  | .ok .definition => .print definitionText 0
  | .ok (.run a) => if clientNamespace.isSome then .run a else .noClient

def Plan.exitCode : Plan → Nat
  | .print _ code => code
  | .noClient => 1
  | .run _ => 0

end PodRules.Program
