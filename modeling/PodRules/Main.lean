import PodRules.Api.Event
import PodRules.Api.Response
import PodRules.Pass.Reconcile
import PodRules.Program.Basic
import PodRules.Store.Expectations

namespace PodRules.Program

structure Session where
  arguments : CommandLine.RunArguments
  filter : Option String
  reporter : Api.Reporter
  /-- The time of the day, as the gateway told it last. -/
  now : IO.Ref Instant
  guard : IO.Ref Expectations
  queue : IO.Ref KeyQueue

def log (filter : Option String) (line : LogLine) : IO Unit :=
  if isShown filter line then IO.eprintln line.text else pure ()

def send (j : Json) : IO Unit := do
  let out ← IO.getStdout
  out.putStr (j.text ++ "\n")
  out.flush

def receive : IO Json := do
  let line ← (← IO.getStdin).getLine
  pure ((Json.parse? line).getD .null)

def requestLine (r : Api.Request) : Json :=
  .ofMembers [
    Json.field "method" r.verb.text,
    Json.field "path" r.path,
    Json.present "labelSelector" r.labelSelector,
    r.body.map fun b => ("body", b)]

def responseOf (j : Json) : Api.Response where
  code :=
    match j.get? "code" with
    | some (.int i) => i.toNat
    | _ => 503
  text :=
    match j.get? "text" with
    | some (.string s) => s
    | _ => ""

def exchange (r : Api.Request) : IO Api.Response := do
  send (requestLine r)
  return responseOf (← receive)

def askServer (c : StoreCall) : IO c.Answer := do
  let result ←
    match Api.request? c with
    | .error e => pure (.error e)
    | .ok r => do
      let response ← exchange r
      pure (Api.readResponse c response)
  pure (result.mapError (Api.Failure.storeError c))

def report (reporter : Api.Reporter) (rs : RuleSet) (reason note : String) : IO Unit :=
  match Api.warningRequest? reporter rs reason note with
  | .ok r => discard (exchange r)
  | .error _ => pure ()

def Session.reply (s : Session) : (c : Call) → IO c.Reply
  | .store c => askServer c
  | .trust key version => do
    let time ← IO.monoNanosNow
    s.guard.modifyGet fun t => t.trust time key version
  | .arm key base => do
    let time ← IO.monoNanosNow
    s.guard.modify fun t => t.arm time key base
  | .disarm key => s.guard.modify fun t => t.disarm key
  | .sleep span => IO.sleep (min span.waitMillis (Nat.pow 2 32 - 1)).toUInt32
  | .stages => pure s.arguments.stages
  | .evaluate stages rs targets =>
    pure (stages.zipIdx.map fun (stage, position) =>
      ⟨position, stage, some (.declared stage rs targets)⟩)
  | .now => s.now.get
  | .warn rs reason note => report s.reporter rs reason note
  | .notify ns old new =>
    s.queue.modify fun q => ((notifyChanges [q] ns old new).1).headD q

def actionLine : Action → Json
  | .awaitChange => .ofMembers [Json.field "action" "await_change"]
  | .requeue d =>
    .ofMembers [Json.field "action" "requeue", some ("millis", .int d.ceilMillis)]

def Session.pass (s : Session) (key : ObjectKey) : IO Unit := do
  let settings := s.arguments.settings
  let action ←
    match ← (scheduledPass settings key).perform s.reply with
    | .ok a => pure a
    | .error e => pure (.ofFailure settings e)
  let keys ← s.queue.modifyGet KeyQueue.drain
  keys.forM fun k => log s.filter (changeLine k)
  send (actionLine action)

/-- Runs passes until the gateway has no more lines. -/
partial def Session.loop (s : Session) : IO Unit := do
  let line ← receive
  match line.get? "key" with
  | some (.string key) =>
    match (line.get? "now").bind fun j => (ofJson? j : Option Instant) with
    | some t => s.now.set t
    | none => pure ()
    s.pass (.ofText key)
    s.loop
  | _ => pure ()

def serve (a : CommandLine.RunArguments) (filter instanceName : Option String) : IO Unit := do
  let now ← IO.mkRef (⟨0, 0⟩ : Instant)
  let guard ← IO.mkRef (Expectations.fresh a.settings.expectationTtl)
  let queue ← IO.mkRef KeyQueue.empty
  log filter (startLine a)
  Session.loop ⟨a, filter, ⟨controllerName, instanceName⟩, now, guard, queue⟩
  log filter stopLine

def readKubeconfig (path : Option String) : IO (Option String) :=
  match path with
  | none => pure none
  | some path =>
    try
      return some (← IO.FS.readFile path)
    catch _ => pure none

def readEnvironment (names : List String) : IO (String → Option String) := do
  let values ← names.mapM fun n => do return (n, ← IO.getEnv n)
  pure fun n => (values.lookup n).join

def runProgram (args : List String) : IO UInt32 := do
  let filter ← IO.getEnv logVariable
  (metricsLines (← IO.getEnv metricsVariable)).forM (log filter)
  let environment ← readEnvironment (CommandLine.RunOption.all.map (·.environmentName))
  let kubeconfig ← readKubeconfig (← IO.getEnv "KUBECONFIG")
  let plan := plan environment (clientNamespace? kubeconfig) args
  match plan with
  | .print text _ => IO.print text
  | .noClient => IO.eprintln "Error: no usable configuration of a client"
  | .run a => serve a filter (← IO.getEnv "POD_NAME")
  pure plan.exitCode.toUInt32

end PodRules.Program

def main (args : List String) : IO UInt32 := PodRules.Program.runProgram args
