import PodRules.Object.MetadataShape

namespace PodRules.Shape

/-! ## Where to run -/

def nodeSelectorTerm : Shape :=
  .record [("matchExpressions", .list selectorRequirement),
    ("matchFields", .list selectorRequirement)]

def nodeAffinity : Shape :=
  .record [
    ("preferredDuringSchedulingIgnoredDuringExecution", .list (.record [
      ("preference", .required nodeSelectorTerm), ("weight", .required .int32)])),
    ("requiredDuringSchedulingIgnoredDuringExecution", .record [
      ("nodeSelectorTerms", .required (.list nodeSelectorTerm))])]

def podAffinityTerm : Shape :=
  .record [("labelSelector", labelSelector), ("matchLabelKeys", texts),
    ("mismatchLabelKeys", texts), ("namespaceSelector", labelSelector), ("namespaces", texts),
    ("topologyKey", name)]

def podAffinity : Shape :=
  .record [
    ("preferredDuringSchedulingIgnoredDuringExecution", .list (.record [
      ("podAffinityTerm", .required podAffinityTerm), ("weight", .required .int32)])),
    ("requiredDuringSchedulingIgnoredDuringExecution", .list podAffinityTerm)]

def affinity : Shape :=
  .record [("nodeAffinity", nodeAffinity), ("podAffinity", podAffinity),
    ("podAntiAffinity", podAffinity)]

def toleration : Shape :=
  .record [("effect", .text), ("key", .text), ("operator", .text), ("tolerationSeconds", .int64),
    ("value", .text)]

def topologySpread : Shape :=
  .record [("labelSelector", labelSelector), ("matchLabelKeys", texts),
    ("maxSkew", .required .int32), ("minDomains", .int32), ("nodeAffinityPolicy", .text),
    ("nodeTaintsPolicy", .text), ("topologyKey", name), ("whenUnsatisfiable", name)]

/-! ## Rights -/

def seLinux : Shape :=
  .record [("level", .text), ("role", .text), ("type", .text), ("user", .text)]

def seccomp : Shape := .record [("localhostProfile", .text), ("type", name)]

def windowsOptions : Shape :=
  .record [("gmsaCredentialSpec", .text), ("gmsaCredentialSpecName", .text),
    ("hostProcess", .flag), ("runAsUserName", .text)]

def containerRights : Shape :=
  .record [("allowPrivilegeEscalation", .flag),
    ("capabilities", .record [("add", texts), ("drop", texts)]), ("privileged", .flag),
    ("procMount", .text), ("readOnlyRootFilesystem", .flag), ("runAsGroup", .int64),
    ("runAsNonRoot", .flag), ("runAsUser", .int64), ("seLinuxOptions", seLinux),
    ("seccompProfile", seccomp), ("windowsOptions", windowsOptions)]

def podRights : Shape :=
  .record [("fsGroup", .int64), ("fsGroupChangePolicy", .text), ("runAsGroup", .int64),
    ("runAsNonRoot", .flag), ("runAsUser", .int64), ("seLinuxOptions", seLinux),
    ("seccompProfile", seccomp), ("supplementalGroups", .list .int64),
    ("sysctls", .list (.record [("name", name), ("value", name)])),
    ("windowsOptions", windowsOptions)]

/-! ## Containers -/

def fieldSource : Shape := .record [("apiVersion", .text), ("fieldPath", name)]

def resourceSource : Shape :=
  .record [("containerName", .text), ("divisor", .text), ("resource", name)]

def keySource : Shape := .record [("key", name), ("name", .text), ("optional", .flag)]

def optionalSource : Shape := .record [("name", .text), ("optional", .flag)]

def environmentVariable : Shape :=
  .record [("name", name), ("value", .text), ("valueFrom", .record [
    ("configMapKeyRef", keySource), ("fieldRef", fieldSource),
    ("resourceFieldRef", resourceSource), ("secretKeyRef", keySource)])]

def environmentSource : Shape :=
  .record [("configMapRef", optionalSource), ("prefix", .text), ("secretRef", optionalSource)]

def command : Shape := .record [("command", texts)]

def httpGet : Shape :=
  .record [("host", .text),
    ("httpHeaders", .list (.record [("name", name), ("value", name)])), ("path", .text),
    ("port", .required .numberOrText), ("scheme", .text)]

def tcpSocket : Shape := .record [("host", .text), ("port", .required .numberOrText)]

def handler : Shape :=
  .record [("exec", command), ("httpGet", httpGet),
    ("sleep", .record [("seconds", .required .int64)]), ("tcpSocket", tcpSocket)]

def probe : Shape :=
  .record [("exec", command), ("failureThreshold", .int32),
    ("grpc", .record [("port", .required .int32), ("service", .text)]), ("httpGet", httpGet),
    ("initialDelaySeconds", .int32), ("periodSeconds", .int32), ("successThreshold", .int32),
    ("tcpSocket", tcpSocket), ("terminationGracePeriodSeconds", .int64),
    ("timeoutSeconds", .int32)]

def resources : Shape :=
  .record [("claims", .list (nameRecord "name")), ("limits", textMap), ("requests", textMap)]

def containerFields : List (String × Shape) :=
  [("args", texts), ("command", texts), ("env", .list environmentVariable),
    ("envFrom", .list environmentSource), ("image", .text), ("imagePullPolicy", .text),
    ("lifecycle", .record [("postStart", handler), ("preStop", handler)]),
    ("livenessProbe", probe), ("name", name),
    ("ports", .list (.record [("containerPort", .required .int32), ("hostIP", .text),
      ("hostPort", .int32), ("name", .text), ("protocol", .text)])),
    ("readinessProbe", probe),
    ("resizePolicy", .list (.record [("resourceName", name), ("restartPolicy", name)])),
    ("resources", resources), ("restartPolicy", .text), ("securityContext", containerRights),
    ("startupProbe", probe), ("stdin", .flag), ("stdinOnce", .flag),
    ("terminationMessagePath", .text), ("terminationMessagePolicy", .text), ("tty", .flag),
    ("volumeDevices", .list (.record [("devicePath", name), ("name", name)])),
    ("volumeMounts", .list (.record [("mountPath", name), ("mountPropagation", .text),
      ("name", name), ("readOnly", .flag), ("subPath", .text), ("subPathExpr", .text)])),
    ("workingDir", .text)]

def container : Shape := .record containerFields

def lateContainer : Shape := .record (containerFields ++ [("targetContainerName", .text)])

/-! ## Volumes -/

def keyPath : Shape := .record [("key", name), ("mode", .int32), ("path", name)]

def downwardFile : Shape :=
  .record [("fieldRef", fieldSource), ("mode", .int32), ("path", name),
    ("resourceFieldRef", resourceSource)]

def volumeClaim : Shape :=
  .record [("accessModes", texts),
    ("dataSource", .record [("apiGroup", .text), ("kind", name), ("name", name)]),
    ("dataSourceRef", .record [("apiGroup", .text), ("kind", name), ("name", name),
      ("namespace", .text)]),
    ("resources", .record [("limits", textMap), ("requests", textMap)]),
    ("selector", labelSelector), ("storageClassName", .text),
    ("volumeAttributesClassName", .text), ("volumeMode", .text), ("volumeName", .text)]

def volumeProjection : Shape :=
  .record [
    ("clusterTrustBundle", .record [("labelSelector", labelSelector), ("name", .text),
      ("optional", .flag), ("path", name), ("signerName", .text)]),
    ("configMap", .record [("items", .list keyPath), ("name", .text), ("optional", .flag)]),
    ("downwardAPI", .record [("items", .list downwardFile)]),
    ("secret", .record [("items", .list keyPath), ("name", .text), ("optional", .flag)]),
    ("serviceAccountToken", .record [("audience", .text), ("expirationSeconds", .int64),
      ("path", name)])]

def discs : List (String × Shape) :=
  [("awsElasticBlockStore", .record [("fsType", .text), ("partition", .int32),
      ("readOnly", .flag), ("volumeID", name)]),
    ("azureDisk", .record [("cachingMode", .text), ("diskName", name), ("diskURI", name),
      ("fsType", .text), ("kind", .text), ("readOnly", .flag)]),
    ("azureFile", .record [("readOnly", .flag), ("secretName", name), ("shareName", name)]),
    ("cephfs", .record [("monitors", .required texts), ("path", .text), ("readOnly", .flag),
      ("secretFile", .text), ("secretRef", localReference), ("user", .text)]),
    ("cinder", .record [("fsType", .text), ("readOnly", .flag), ("secretRef", localReference),
      ("volumeID", name)]),
    ("fc", .record [("fsType", .text), ("lun", .int32), ("readOnly", .flag),
      ("targetWWNs", texts), ("wwids", texts)]),
    ("flexVolume", .record [("driver", name), ("fsType", .text), ("options", textMap),
      ("readOnly", .flag), ("secretRef", localReference)]),
    ("flocker", .record [("datasetName", .text), ("datasetUUID", .text)]),
    ("gcePersistentDisk", .record [("fsType", .text), ("partition", .int32), ("pdName", name),
      ("readOnly", .flag)]),
    ("glusterfs", .record [("endpoints", name), ("path", name), ("readOnly", .flag)]),
    ("iscsi", .record [("chapAuthDiscovery", .flag), ("chapAuthSession", .flag),
      ("fsType", .text), ("initiatorName", .text), ("iqn", name), ("iscsiInterface", .text),
      ("lun", .required .int32), ("portals", texts), ("readOnly", .flag),
      ("secretRef", localReference), ("targetPortal", name)]),
    ("nfs", .record [("path", name), ("readOnly", .flag), ("server", name)]),
    ("photonPersistentDisk", .record [("fsType", .text), ("pdID", name)]),
    ("portworxVolume", .record [("fsType", .text), ("readOnly", .flag), ("volumeID", name)]),
    ("quobyte", .record [("group", .text), ("readOnly", .flag), ("registry", name),
      ("tenant", .text), ("user", .text), ("volume", name)]),
    ("rbd", .record [("fsType", .text), ("image", name), ("keyring", .text),
      ("monitors", .required texts), ("pool", .text), ("readOnly", .flag),
      ("secretRef", localReference), ("user", .text)]),
    ("scaleIO", .record [("fsType", .text), ("gateway", name), ("protectionDomain", .text),
      ("readOnly", .flag), ("secretRef", .required localReference), ("sslEnabled", .flag),
      ("storageMode", .text), ("storagePool", .text), ("system", name), ("volumeName", .text)]),
    ("storageos", .record [("fsType", .text), ("readOnly", .flag), ("secretRef", localReference),
      ("volumeName", .text), ("volumeNamespace", .text)]),
    ("vsphereVolume", .record [("fsType", .text), ("storagePolicyID", .text),
      ("storagePolicyName", .text), ("volumePath", name)])]

def volume : Shape :=
  .record (discs ++ [
    ("configMap", .record [("defaultMode", .int32), ("items", .list keyPath), ("name", .text),
      ("optional", .flag)]),
    ("csi", .record [("driver", name), ("fsType", .text), ("nodePublishSecretRef", localReference),
      ("readOnly", .flag), ("volumeAttributes", textMap)]),
    ("downwardAPI", .record [("defaultMode", .int32), ("items", .list downwardFile)]),
    ("emptyDir", .record [("medium", .text), ("sizeLimit", .text)]),
    ("ephemeral", .record [("volumeClaimTemplate", .record [("metadata", metadata),
      ("spec", .required volumeClaim)])]),
    ("gitRepo", .record [("directory", .text), ("repository", name), ("revision", .text)]),
    ("hostPath", .record [("path", name), ("type", .text)]),
    ("name", name),
    ("persistentVolumeClaim", .record [("claimName", name), ("readOnly", .flag)]),
    ("projected", .record [("defaultMode", .int32), ("sources", .list volumeProjection)]),
    ("secret", .record [("defaultMode", .int32), ("items", .list keyPath), ("optional", .flag),
      ("secretName", .text)])])

/-! ## Pods -/

def podSpec : Shape :=
  .record [("activeDeadlineSeconds", .int64), ("affinity", affinity),
    ("automountServiceAccountToken", .flag), ("containers", .required (.list container)),
    ("dnsConfig", .record [("nameservers", texts),
      ("options", .list (.record [("name", .text), ("value", .text)])), ("searches", texts)]),
    ("dnsPolicy", .text), ("enableServiceLinks", .flag),
    ("ephemeralContainers", .list lateContainer),
    ("hostAliases", .list (.record [("hostnames", texts), ("ip", .text)])), ("hostIPC", .flag),
    ("hostNetwork", .flag), ("hostPID", .flag), ("hostUsers", .flag), ("hostname", .text),
    ("imagePullSecrets", .list localReference), ("initContainers", .list container),
    ("nodeName", .text), ("nodeSelector", textMap), ("os", nameRecord "name"),
    ("overhead", textMap), ("preemptionPolicy", .text), ("priority", .int32),
    ("priorityClassName", .text), ("readinessGates", .list (nameRecord "conditionType")),
    ("resourceClaims", .list (.record [("name", name), ("source", .record [
      ("resourceClaimName", .text), ("resourceClaimTemplateName", .text)])])),
    ("restartPolicy", .text), ("runtimeClassName", .text), ("schedulerName", .text),
    ("schedulingGates", .list (nameRecord "name")), ("securityContext", podRights),
    ("serviceAccount", .text), ("serviceAccountName", .text), ("setHostnameAsFQDN", .flag),
    ("shareProcessNamespace", .flag), ("subdomain", .text),
    ("terminationGracePeriodSeconds", .int64), ("tolerations", .list toleration),
    ("topologySpreadConstraints", .list topologySpread), ("volumes", .list volume)]

def containerState : Shape :=
  .record [("running", .record [("startedAt", .time)]),
    ("terminated", .record [("containerID", .text), ("exitCode", .required .int32),
      ("finishedAt", .time), ("message", .text), ("reason", .text), ("signal", .int32),
      ("startedAt", .time)]),
    ("waiting", .record [("message", .text), ("reason", .text)])]

def containerStatus : Shape :=
  .record [("allocatedResources", textMap), ("containerID", .text), ("image", name),
    ("imageID", name), ("lastState", containerState), ("name", name), ("ready", .required .flag),
    ("resources", resources), ("restartCount", .required .int32), ("started", .flag),
    ("state", containerState)]

def podCondition : Shape :=
  .record [("lastProbeTime", .time), ("lastTransitionTime", .time), ("message", .text),
    ("reason", .text), ("status", name), ("type", name)]

def podStatus : Shape :=
  .record [("conditions", .list podCondition), ("containerStatuses", .list containerStatus),
    ("ephemeralContainerStatuses", .list containerStatus), ("hostIP", .text),
    ("hostIPs", .list (.record [("ip", .text)])),
    ("initContainerStatuses", .list containerStatus), ("message", .text),
    ("nominatedNodeName", .text), ("phase", .text), ("podIP", .text),
    ("podIPs", .list (.record [("ip", .text)])), ("qosClass", .text), ("reason", .text),
    ("resize", .text),
    ("resourceClaimStatuses", .list (.record [("name", name), ("resourceClaimName", .text)])),
    ("startTime", .time)]

def otherPodFields : List (String × Shape) := [("spec", podSpec), ("status", podStatus)]

end PodRules.Shape
