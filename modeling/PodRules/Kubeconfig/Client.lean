import PodRules.Kubeconfig.Basic
import PodRules.Kubeconfig.Certificate
import PodRules.Network.Uri

namespace PodRules

namespace ClusterAccess

def isReachable (c : ClusterAccess) : Bool :=
  (c.address.bind Network.Uri.parse?).isSome &&
    c.proxy.all fun p => p.isEmpty || (Network.Uri.parse? p).isSome

def isTrusted (c : ClusterAccess) : Bool :=
  match c.authorityData with
  | some data => (Kubeconfig.decoded? data).any Kubeconfig.isAuthorityData
  | none => c.authorityFile.isNone

end ClusterAccess

namespace AuthProvider

def hasToken (p : AuthProvider) : Bool :=
  (p.name = "oidc" || p.name = "gcp") && (p.settings.get? "id-token").isSome

end AuthProvider

namespace UserAccess

/-- Whether there are usable credentials or none. A provider goes before everything else, a name
with a password or a token before a file or a command. -/
def hasCredentials (u : UserAccess) : Bool :=
  match u.provider with
  | some p => p.hasToken
  | none =>
    (u.username.isSome && u.password.isSome) || u.token.isSome ||
      (u.tokenFile.isNone && u.command.isNone)

def isIdentified (u : UserAccess) : Bool :=
  match u.keyData.bind Kubeconfig.decoded?, u.certificateData.bind Kubeconfig.decoded? with
  | some key, some certificate => Kubeconfig.isIdentity (key ++ '\n' :: certificate)
  | _, _ => true

def isHeaderChar (c : Char) : Bool := c = '\t' || (0x20 ≤ c.toNat && c.toNat ≠ 0x7f)

def isActing (u : UserAccess) : Bool :=
  (u.actingAs.toList ++ u.actingGroups).all fun s => s.toList.all isHeaderChar

def isUsable (u : UserAccess) : Bool := u.hasCredentials && u.isIdentified && u.isActing

end UserAccess

namespace Kubeconfig

def standardNamespace : String := "default"

def defaultNamespace? (c : Kubeconfig) : Option String := do
  let name ← c.currentContext
  let context ← find? name c.contexts
  let cluster ← find? context.cluster c.clusters
  let user ← find? context.user c.users
  if cluster.isReachable && cluster.isTrusted && user.isUsable then
    some (context.namespaceName.getD standardNamespace)
  else none

end Kubeconfig

def clientNamespace? (file : Option String) : Option String :=
  (file.bind Kubeconfig.parse?).bind Kubeconfig.defaultNamespace?

end PodRules
