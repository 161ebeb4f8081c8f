import PodRules.Api.Reason
import PodRules.Api.Request
import PodRules.Json.Parser
import PodRules.Text.Quoted

namespace PodRules.Api

structure Response where
  code : Nat
  text : String

namespace Response

def isError (r : Response) : Bool := 400 ≤ r.code && r.code < 600

end Response

structure ErrorStatus where
  status : String
  message : String
  reason : String
  code : Nat
  deriving DecidableEq, Repr

namespace ErrorStatus

def code? : Json → Option Nat
  | .int i => if 0 ≤ i ∧ i < Nat.pow 2 16 then some i.toNat else none
  | _ => none

def ofJson? (j : Json) : Option ErrorStatus :=
  match j.fields? ["status", "message", "reason", "code"] with
  | some [status, message, reason, code] => do
    let status ← Json.required? status
    let message ← Json.defaulted? "" message
    let reason ← Json.defaulted? "" reason
    let code ← code.bind code?
    pure ⟨status, message, reason, code⟩
  | _ => none

def ofPlain (r : Response) : ErrorStatus :=
  ⟨statusText r.code, Text.quote r.text, "Failed to parse error data", r.code⟩

def ofResponse (r : Response) : ErrorStatus :=
  ((Json.parse? r.text).bind ofJson?).getD (ofPlain r)

def details (s : ErrorStatus) : String :=
  "ApiError: " ++ s.message ++ ": " ++ s.reason ++ " (ErrorResponse \x7b status: " ++
    Text.quote s.status ++ ", message: " ++ Text.quote s.message ++ ", reason: " ++
    Text.quote s.reason ++ ", code: " ++ toString s.code ++ " \x7d)"

def storeError (what : String) (s : ErrorStatus) : StoreError :=
  if s.code = 404 then .notFound (what ++ ": " ++ s.message)
  else if s.code = 409 then .conflict (what ++ ": " ++ s.message)
  else .transient (what ++ ": " ++ s.details)

end ErrorStatus

def Failure.storeError (c : StoreCall) : Failure → StoreError
  | .reported e => e
  | .untargetable => .transient (purpose c ++ ": no path leads to it")
  | .undecodable => .transient (purpose c ++ ": the response is no value of its kind")

def listMetadata : Shape :=
  .record [("continue", .text), ("remainingItemCount", .int64), ("resourceVersion", .text),
    ("selfLink", .text)]

def listMembers : List String := ["metadata", "items"]

/-- The items of a list of pods; null stands for none. Members that a list does not have are read
whole all the same. -/
def podItems? : Json → Option (List Pod)
  | .object ms => do
    let others := ms.filter (·.1 ∉ listMembers)
    let _ ← others.mapM fun m => m.2.whole? (Json.depthLimit - 1)
    match (Json.object ms).fields? listMembers with
    | some [metadata, items] => do
      let _ ← metadata.bind listMetadata.normal?
      match items with
      | some .null => pure []
      | items => Json.required? items
    | _ => none
  | _ => none

def value? : (c : StoreCall) → Json → Option c.Value
  | .getRuleSet _, j => ofJson? j
  | .updateRuleSet _, j => ofJson? j
  | .updateStatus _, j => ofJson? j
  | .listTargets _ _, j => podItems? j
  | .getTarget _, j => ofJson? j
  | .updateTarget _, j => ofJson? j

def readResponse (c : StoreCall) (r : Response) : Except Failure c.Value :=
  if r.isError then .error (.reported ((ErrorStatus.ofResponse r).storeError (purpose c)))
  else
    match (Json.parse? r.text).bind (value? c) with
    | some v => .ok v
    | none => .error .undecodable

end PodRules.Api
