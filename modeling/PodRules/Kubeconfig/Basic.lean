import PodRules.Yaml.Record

namespace PodRules

structure Named (α : Type) where
  name : String
  value : Option α

structure ClusterAccess where
  address : Option String
  proxy : Option String
  /-- A file with the certificates of the authorities that are trusted. -/
  authorityFile : Option String
  /-- The same certificates in base64, which go before the file. -/
  authorityData : Option String

structure AuthProvider where
  name : String
  settings : SortedMap String String

structure AuthCommand where
  command : Option String
  args : List String

structure UserAccess where
  username : Option String
  password : Option String
  token : Option String
  tokenFile : Option String
  certificateData : Option String
  keyData : Option String
  actingAs : Option String
  actingGroups : List String
  provider : Option AuthProvider
  command : Option AuthCommand

structure AccessContext where
  cluster : String
  user : String
  namespaceName : Option String

structure Kubeconfig where
  kind : Option String
  apiVersion : Option String
  currentContext : Option String
  clusters : List (Named ClusterAccess)
  users : List (Named UserAccess)
  contexts : List (Named AccessContext)

namespace Kubeconfig

open Yaml (Value)
open Yaml.Value (text? flag? textMap? fields? list?)

/-! ## Reading -/

mutual

/-- Whether a value can be kept as it is: no part of it is tagged, and every key is a text. -/
def isFree : Value → Bool
  | .tagged _ _ => false
  | .sequence vs => areFree vs
  | .mapping es => areFreeEntries es
  | _ => true

def areFree : List Value → Bool
  | [] => true
  | v :: vs => isFree v && areFree vs

def areFreeEntries : List (Value × Value) → Bool
  | [] => true
  | (k, v) :: es => k.text?.isSome && isFree v && areFreeEntries es

end

def extension? (v : Value) : Option Unit := do
  let fs ← fields? ["name", "extension"] v
  let _ ← fs.required? "name" text?
  fs.required? "extension" fun v => if isFree v then some () else none

def extensions? (v : Value) : Option (List Unit) := list? extension? v

def named? {α : Type} (field : String) (read? : Value → Option α) (v : Value) :
    Option (Named α) := do
  let fs ← fields? ["name", field] v
  let name ← fs.required? "name" text?
  let value ← fs.optional? field read?
  pure ⟨name, value⟩

def cluster? (v : Value) : Option ClusterAccess := do
  let fs ← fields? ["server", "insecure-skip-tls-verify", "certificate-authority",
    "certificate-authority-data", "proxy-url", "tls-server-name", "extensions"] v
  let address ← fs.optional? "server" text?
  let _ ← fs.optional? "insecure-skip-tls-verify" flag?
  let authorityFile ← fs.optional? "certificate-authority" text?
  let authorityData ← fs.optional? "certificate-authority-data" text?
  let proxy ← fs.optional? "proxy-url" text?
  let _ ← fs.optional? "tls-server-name" text?
  let _ ← fs.optional? "extensions" extensions?
  pure { address, proxy, authorityFile, authorityData }

def provider? (v : Value) : Option AuthProvider := do
  let fs ← fields? ["name", "config"] v
  let name ← fs.required? "name" text?
  let settings ← fs.defaulted? "config" textMap? ∅
  pure ⟨name, settings⟩

def interactiveModes : List String := ["Never", "IfAvailable", "Always"]

def interactiveMode? : Value → Option String
  | .string s => if s ∈ interactiveModes then some s else none
  | .tagged s .null => if s ∈ interactiveModes then some s else none
  | _ => none

def command? (v : Value) : Option AuthCommand := do
  let fs ← fields? ["apiVersion", "command", "args", "env", "interactiveMode",
    "provideClusterInfo"] v
  let _ ← fs.optional? "apiVersion" text?
  let command ← fs.optional? "command" text?
  let args ← fs.optional? "args" (list? text?)
  let _ ← fs.optional? "env" (list? textMap?)
  let _ ← fs.optional? "interactiveMode" interactiveMode?
  let _ ← fs.defaulted? "provideClusterInfo" flag? false
  pure ⟨command, args.getD []⟩

def user? (v : Value) : Option UserAccess := do
  let fs ← fields? ["username", "password", "token", "tokenFile", "client-certificate",
    "client-certificate-data", "client-key", "client-key-data", "as", "as-groups",
    "auth-provider", "exec"] v
  let username ← fs.optional? "username" text?
  let password ← fs.optional? "password" text?
  let token ← fs.optional? "token" text?
  let tokenFile ← fs.optional? "tokenFile" text?
  let _ ← fs.optional? "client-certificate" text?
  let certificateData ← fs.optional? "client-certificate-data" text?
  let _ ← fs.optional? "client-key" text?
  let keyData ← fs.optional? "client-key-data" text?
  let actingAs ← fs.optional? "as" text?
  let actingGroups ← fs.optional? "as-groups" (list? text?)
  let provider ← fs.optional? "auth-provider" provider?
  let command ← fs.optional? "exec" command?
  pure { username, password, token, tokenFile, certificateData, keyData, actingAs,
         actingGroups := actingGroups.getD [], provider, command }

def context? (v : Value) : Option AccessContext := do
  let fs ← fields? ["cluster", "user", "namespace", "extensions"] v
  let cluster ← fs.required? "cluster" text?
  let user ← fs.required? "user" text?
  let namespaceName ← fs.optional? "namespace" text?
  let _ ← fs.optional? "extensions" extensions?
  pure ⟨cluster, user, namespaceName⟩

def preferences? (v : Value) : Option Unit := do
  let fs ← fields? ["colors", "extensions"] v
  let _ ← fs.optional? "colors" flag?
  let _ ← fs.optional? "extensions" extensions?
  pure ()

def ofValue? (v : Value) : Option Kubeconfig := do
  let fs ← fields? ["preferences", "clusters", "users", "contexts", "current-context",
    "extensions", "kind", "apiVersion"] v
  let _ ← fs.optional? "preferences" preferences?
  let clusters ← fs.list? "clusters" (named? "cluster" cluster?)
  let users ← fs.list? "users" (named? "user" user?)
  let contexts ← fs.list? "contexts" (named? "context" context?)
  let currentContext ← fs.optional? "current-context" text?
  let _ ← fs.optional? "extensions" extensions?
  let kind ← fs.optional? "kind" text?
  let apiVersion ← fs.optional? "apiVersion" text?
  pure { kind, apiVersion, currentContext, clusters, users, contexts }

/-! ## Several documents -/

def empty : Kubeconfig := ⟨none, none, none, [], [], []⟩

def agree (a b : Option String) : Bool := a.isNone || b.isNone || a = b

def merge? (a b : Kubeconfig) : Option Kubeconfig :=
  if agree a.kind b.kind && agree a.apiVersion b.apiVersion then
    some
      { kind := a.kind.or b.kind
        apiVersion := a.apiVersion.or b.apiVersion
        currentContext := a.currentContext.or b.currentContext
        clusters := a.clusters ++ b.clusters
        users := a.users ++ b.users
        contexts := a.contexts ++ b.contexts }
  else none

def parse? (s : String) : Option Kubeconfig := do
  let documents ← Yaml.values? s
  let configs ← documents.mapM ofValue?
  configs.foldlM merge? empty

def find? {α : Type} (name : String) (xs : List (Named α)) : Option α :=
  (xs.find? (·.name = name)).bind (·.value)

end Kubeconfig

end PodRules
