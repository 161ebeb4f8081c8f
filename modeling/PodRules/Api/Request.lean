import PodRules.Network.Query
import PodRules.Network.Uri
import PodRules.Store.Call

namespace PodRules.Api

inductive Verb where
  | get
  | put
  | post
  deriving DecidableEq, Repr

def Verb.text : Verb → String
  | .get => "GET"
  | .put => "PUT"
  | .post => "POST"

structure Request where
  verb : Verb
  target : Network.Target
  body : Option Json

inductive Failure where
  | reported (error : StoreError)
  | untargetable
  | undecodable
  deriving DecidableEq, Repr

namespace Request

def make? (verb : Verb) (target : String) (body : Option Json) : Except Failure Request :=
  match Network.Uri.parse? target with
  | some ⟨_, _, some t⟩ => .ok ⟨verb, t, body⟩
  | _ => .error .untargetable

def get? (path : String) : Except Failure Request := make? .get path none

def put? (path : String) (body : Json) : Except Failure Request :=
  make? .put (path ++ "?") (some body)

def post? (path : String) (body : Json) : Except Failure Request :=
  make? .post (path ++ "?") (some body)

def selectorParameter : String := "labelSelector"

def list? (path : String) (selector : String) : Except Failure Request :=
  get? (path ++ "?&" ++ selectorParameter ++ "=" ++ Network.Query.encode selector)

def path (r : Request) : String := r.target.path

def labelSelector (r : Request) : Option String :=
  (Network.Query.parameters (r.target.query.getD "")).lookup selectorParameter

end Request

def ruleSetsPath (ns : String) : String :=
  "/apis/" ++ RuleSet.apiVersion ++ "/namespaces/" ++ ns ++ "/rulesets"

def ruleSetPath (key : ObjectKey) : String := ruleSetsPath key.namespaceName ++ "/" ++ key.name

def podsPath (ns : String) : String := "/api/v1/namespaces/" ++ ns ++ "/pods"

def podPath (key : ObjectKey) : String := podsPath key.namespaceName ++ "/" ++ key.name

/-- A request about one object. Without a name its path would be the one of all objects. -/
def named? (key : ObjectKey) (request : Except Failure Request) : Except Failure Request :=
  if key.name.isEmpty then .error .untargetable else request

def request? : StoreCall → Except Failure Request
  | .getRuleSet key => named? key (Request.get? (ruleSetPath key))
  | .updateRuleSet rs => named? rs.key (Request.put? (ruleSetPath rs.key) (toJson rs))
  | .updateStatus rs => Request.put? (ruleSetPath rs.key ++ "/status") (toJson rs)
  | .getTarget key => named? key (Request.get? (podPath key))
  | .updateTarget p => named? p.key (Request.put? (podPath p.key) (toJson p))
  | .listTargets ns selector =>
    match selector.query? with
    | .ok query => Request.list? (podsPath ns) query
    | .error e => .error (.reported (.transient ("invalid selector: " ++ e.message)))

def purpose : StoreCall → String
  | .getRuleSet key => "get ruleset " ++ key.text
  | .updateRuleSet rs => "update ruleset " ++ rs.key.text
  | .updateStatus rs => "update ruleset status " ++ rs.key.text
  | .listTargets ns _ => "list pods in " ++ ns
  | .getTarget key => "get pod " ++ key.text
  | .updateTarget p => "update pod " ++ p.key.text

end PodRules.Api
