import Mathlib.Data.List.Sort
import IsvValidation.Host.Text
import IsvValidation.Library.OrderedMap
import IsvValidation.Validation.Report

/-!
# The check of the credentials of storage drivers

The check lists the pods of a cluster and takes those with the image of a CSI sidecar. Secrets which these
pods and the persistent volumes name are to live where the drivers do and to carry no mark of a shared
cluster, and no role bound across the cluster is to give secrets to a controller. Where a listing cannot be
read as one, it counts as a listing of nothing.
-/

namespace IsvValidation.K8s.Csi

open Host Library Validation

/-- How Python writes a list of texts, and a text. -/
structure PyText where
  list : List String → String
  repr : String → String

/-! ## Objects -/

/-- A namespace, and a name in it. -/
abbrev Ref := String × String

/-- A field which is not empty. -/
def given (field : Option String) : Option String := field.filter (· ≠ "")

/-- The secret which an entry of `envFrom` names, and the one whose key is the value of an entry of `env`. -/
structure Container where
  image : String := ""
  envFrom : List (Option String) := []
  env : List (Option String) := []

/-- A volume of a pod. Its source names a secret, several which are projected together, or one which is for
the driver alone, as `nodePublishSecretRef` of an inline volume is. -/
structure Volume where
  name : String := ""
  keys : List String := []
  secretName : Option String := none
  projected : List (Option String) := []
  driverSecret : Option String := none

structure Pod where
  name : String := ""
  ns : Option String := none
  containers : List Container := []
  initContainers : List Container := []
  ephemeralContainers : List Container := []
  volumes : List Volume := []
  imagePullSecrets : List (Option String) := []
  serviceAccountName : Option String := none
  serviceAccount : Option String := none

structure SecretReference where
  ns : Option String := none
  name : Option String := none

/-- `spec.csi` of a persistent volume. -/
structure CsiSource where
  controllerPublishSecretRef : SecretReference := {}
  nodePublishSecretRef : SecretReference := {}
  nodeStageSecretRef : SecretReference := {}
  controllerExpandSecretRef : SecretReference := {}
  nodeExpandSecretRef : SecretReference := {}

structure PersistentVolume where
  csi : Option CsiSource := none

structure Secret where
  labels : OrderedMap String String := .empty
  annotations : OrderedMap String String := .empty

structure Subject where
  kind : String := ""
  ns : String := ""
  name : String := ""

structure RoleRef where
  kind : String := ""
  name : String := ""

structure ClusterRoleBinding where
  name : String := ""
  subjects : List Subject := []
  roleRef : RoleRef := {}

structure PolicyRule where
  apiGroups : List String := []
  resources : List String := []
  verbs : List String := []
  resourceNames : List String := []

structure ClusterRole where
  name : String := ""
  rules : List PolicyRule := []

/-! ## What the cluster answers -/

/-- What `kubectl get … -o json` prints: nothing, no JSON, JSON which is no object, an object without a list
of items, or a list whose items are objects or not. -/
inductive Payload (α : Type) where
  | empty
  | unparsable
  | notObject (type : String)
  | noList
  | items (items : List (Option α))

/-- A listing; the command may fail. -/
abbrev Listing (α : Type) := Option (Payload α)

inductive SecretRead where
  | failed
  | missing
  | unparsable
  | null
  | notObject (type : String)
  | found (secret : Secret)

structure Cluster where
  csiDrivers : Listing Unit
  pods : Listing Pod
  persistentVolumes : Listing PersistentVolume
  clusterRoleBindings : Listing ClusterRoleBinding
  clusterRoles : Listing ClusterRole
  secret : Ref → SecretRead

/-- What Python raises where a value which is no object is read as one. -/
def attributeError (type : String) : String := s!"'{type}' object has no attribute 'get'"

/-- `_load_items`. -/
def loadItems {α : Type} : Payload α → Except String (List α)
  | .notObject type => .error (attributeError type)
  | .items items => .ok (items.filterMap id)
  | .empty | .unparsable | .noList => .ok []

/-- `_list_csi_drivers`, `_list_all_pods` and `_list_pvs`; there is no list where the command fails. -/
def listItems {α : Type} : Listing α → Except String (Option (List α))
  | none => .ok none
  | some payload => (loadItems payload).map some

/-! ## Pods of the drivers -/

def csiControllerImageTokens : List String :=
  ["csi-provisioner", "csi-attacher", "csi-resizer", "csi-snapshotter", "external-provisioner",
    "external-attacher", "external-resizer", "external-snapshotter"]

def csiNodeImageTokens : List String := ["csi-node-driver-registrar", "node-driver-registrar"]

def csiImageTokens : List String := csiControllerImageTokens ++ csiNodeImageTokens

/-- Some container has an image with one of the tokens. -/
def hasImage (tokens : List String) (pod : Pod) : Bool :=
  (pod.containers ++ pod.initContainers).any fun container ↦ tokens.any (Text.contains container.image)

def podHasCsiImage : Pod → Bool := hasImage csiImageTokens

def podIsController : Pod → Bool := hasImage csiControllerImageTokens

def podIsNodePlugin : Pod → Bool := hasImage csiNodeImageTokens

/-- `pods_by_ns`: the pods of the drivers; one without a namespace is left out. -/
def podsByNs (pods : List Pod) : OrderedMap String (List Pod) :=
  .groupWith (· ++ ·) (pods.filterMap fun pod ↦
    if podHasCsiImage pod then (given pod.ns).map fun ns ↦ (ns, [pod]) else none)

/-! ## Secrets -/

/-- Both parts of the reference are there. -/
def SecretReference.ref (reference : SecretReference) : Option Ref :=
  (given reference.ns).bind fun ns ↦ (given reference.name).map fun name ↦ (ns, name)

def CsiSource.secretRefs (csi : CsiSource) : List Ref :=
  [csi.controllerPublishSecretRef, csi.nodePublishSecretRef, csi.nodeStageSecretRef,
    csi.controllerExpandSecretRef, csi.nodeExpandSecretRef].filterMap SecretReference.ref

/-- `_collect_pv_secret_refs`. -/
def collectPvSecretRefs (volumes : List PersistentVolume) : List Ref :=
  volumes.flatMap fun volume ↦ (volume.csi.map CsiSource.secretRefs).getD []

def Container.secretNames (container : Container) : List String :=
  container.envFrom.filterMap given ++ container.env.filterMap given

def Volume.secretNames (volume : Volume) : List String :=
  (given volume.secretName).toList ++ volume.projected.filterMap given

def Pod.secretNames (pod : Pod) : List String :=
  (pod.containers ++ pod.initContainers).flatMap Container.secretNames ++
    pod.volumes.flatMap Volume.secretNames

/-- `_collect_pod_secret_refs`. -/
def collectPodSecretRefs (pods : OrderedMap String (List Pod)) : List Ref :=
  pods.entries.flatMap fun entry ↦ (entry.2.filter podHasCsiImage).flatMap fun pod ↦
    pod.secretNames.map fun name ↦ (entry.1, name)

/-- The order of pairs of texts. -/
def refLe (first second : Ref) : Prop := first.1 < second.1 ∨ first.1 = second.1 ∧ first.2 ≤ second.2

instance : DecidableRel refLe := fun _ _ ↦ inferInstanceAs (Decidable (_ ∨ _))

/-- `sorted` of a set of references. -/
def sortedRefs (refs : List Ref) : List Ref := refs.dedup.insertionSort refLe

def discoveredSecrets (volumes : List PersistentVolume) (pods : List Pod) : List Ref :=
  sortedRefs (collectPvSecretRefs volumes ++ collectPodSecretRefs (podsByNs pods))

def showRef (ref : Ref) : String := s!"{ref.1}/{ref.2}"

def showRefs (refs : List Ref) : String := ", ".intercalate (refs.map showRef)

/-! ## Configuration -/

structure CheckConfig where
  csiDriverNamespaces : List String := []
  allowedWorkloadNamespaces : List String := []
  forbiddenLabels : List String := []

/-- The configured entries, or the default where there are none. -/
def orDefault (entries defaults : List String) : List String := if entries = [] then defaults else entries

variable (unicode : Unicode) (text : PyText) (config : CheckConfig) (cluster : Cluster)

/-- An entry of `_parse_label_pairs`; without an equals sign it asks for any value. -/
def parseLabelPair (entry : String) : String × String :=
  let key := entry.toList.takeWhile (· ≠ '=')
  let value := (entry.toList.dropWhile (· ≠ '=')).drop 1
  (unicode.strip (.ofList key), unicode.strip (.ofList value))

def forbiddenLabels : List (String × String) :=
  (orDefault config.forbiddenLabels ["shared-across-clusters=true"]).map (parseLabelPair unicode)

def permittedNamespaces (pods : List Pod) : List String :=
  orDefault config.csiDriverNamespaces ["kube-system"] ++ config.allowedWorkloadNamespaces ++
    (podsByNs pods).keys

/-! ## Marks of a shared cluster -/

def sharedClusterAnnotations : List String :=
  ["csi.nvidia.com/shared", "csi.nvidia.com/shared-across-clusters"]

def labelMarker (secret : Secret) (pair : String × String) : Option String :=
  (secret.labels.get? pair.1).bind fun actual ↦
    if pair.2 = "" ∨ actual = pair.2 then some s!"label {pair.1}={actual}" else none

def annotationMarker (secret : Secret) (key : String) : Option String :=
  (secret.annotations.get? key).bind fun value ↦
    if value ≠ "" ∧ unicode.lower value = "true" then some s!"annotation {key}={value}" else none

/-- `_find_shared_cluster_marker`; no text is found where there is no mark. -/
def findSharedClusterMarker (secret : Secret) (forbidden : List (String × String)) : String :=
  ((forbidden.findSome? (labelMarker secret)).or
    (sharedClusterAnnotations.findSome? (annotationMarker unicode secret))).getD ""

/-- The two lists which the loop over the secrets fills. -/
structure Markers where
  markerFailures : List String := []
  missingSecrets : List String := []

/-- One round of the loop. -/
def checkMarker (markers : Markers) (ref : Ref) : Except String Markers :=
  match cluster.secret ref with
  | .missing => .ok { markers with missingSecrets := markers.missingSecrets ++ [showRef ref] }
  | .failed | .unparsable | .null =>
    .ok { markers with markerFailures := markers.markerFailures ++ [s!"{showRef ref} (unreadable)"] }
  | .notObject type => .error (attributeError type)
  | .found secret =>
    let marker := findSharedClusterMarker unicode secret (forbiddenLabels unicode config)
    if marker ≠ "" then
      .ok { markers with markerFailures := markers.markerFailures ++ [s!"{showRef ref} ({marker})"] }
    else .ok markers

def checkMarkers (refs : List Ref) : Except String Markers :=
  refs.foldlM (checkMarker unicode config cluster) {}

/-! ## Roles -/

def secretVerbs : List String :=
  ["*", "get", "list", "watch", "create", "update", "patch", "delete", "deletecollection"]

/-- `_rule_grants_unrestricted_secrets`. -/
def ruleGrantsUnrestrictedSecrets (rule : PolicyRule) : Bool :=
  if !rule.resources.contains "secrets" && !rule.resources.contains "*" then false
  else if rule.apiGroups ≠ [] ∧ !rule.apiGroups.any ["", "*"].contains then false
  else if !rule.verbs.any secretVerbs.contains then false
  else if rule.resourceNames ≠ [] then false
  else true

/-- The account of a pod. -/
def Pod.account (pod : Pod) : String :=
  ((given pod.serviceAccountName).or (given pod.serviceAccount)).getD "default"

/-- `_collect_controller_service_accounts`. -/
def collectControllerServiceAccounts (pods : OrderedMap String (List Pod)) : List Ref :=
  (pods.entries.flatMap fun entry ↦ (entry.2.filter podIsController).map fun pod ↦
    (entry.1, pod.account)).dedup

/-- The subjects of a binding which name one of the accounts. -/
def matchedSubjects (accounts : List Ref) (binding : ClusterRoleBinding) : List Ref :=
  (binding.subjects.filter fun subject ↦
    subject.kind = "ServiceAccount" ∧ (subject.ns, subject.name) ∈ accounts).map fun subject ↦
      (subject.ns, subject.name)

/-- One round of `_find_cluster_secret_grants`. -/
def violation (roles : OrderedMap String ClusterRole) (accounts : List Ref) (binding : ClusterRoleBinding) :
    Option String :=
  let matched := matchedSubjects accounts binding
  if matched = [] then none
  else if binding.roleRef.kind ≠ "ClusterRole" then none
  else (roles.get? binding.roleRef.name).bind fun role ↦
    if role.rules.any ruleGrantsUnrestrictedSecrets then
      some (s!"ClusterRoleBinding {text.repr binding.name} → ClusterRole {text.repr binding.roleRef.name} " ++
        s!"(subjects: {showRefs (matched.insertionSort refLe)})")
    else none

/-- `_find_cluster_secret_grants`. -/
def findClusterSecretGrants (bindings : List ClusterRoleBinding) (roles : OrderedMap String ClusterRole)
    (accounts : List Ref) : List String := bindings.filterMap (violation text roles accounts)

/-- The roles by name; the last one of a name counts. -/
def rolesByName (roles : List ClusterRole) : OrderedMap String ClusterRole :=
  .ofList (roles.map fun role ↦ (role.name, role))

/-- `_check_controller_rbac`; there is no list where a command fails. -/
def checkControllerRbac (accounts : List Ref) : Except String (Option (List String)) :=
  match cluster.clusterRoleBindings, cluster.clusterRoles with
  | some bindingsPayload, some rolesPayload => do
    let bindings ← loadItems bindingsPayload
    let roles ← loadItems rolesPayload
    return some (findClusterSecretGrants text bindings (rolesByName roles) accounts)
  | _, _ => .ok none

/-! ## Volumes of the node plugins -/

def nodePluginAllowedVolumeKeys : List String :=
  ["hostPath", "emptyDir", "secret", "configMap", "projected", "downwardAPI", "serviceAccountToken", "csi"]

def badKeys (volume : Volume) : List String :=
  (volume.keys.filter (· ≠ "name")).dedup.filter fun key ↦ !nodePluginAllowedVolumeKeys.contains key

def volumeViolation (ns : String) (pod : Pod) (volume : Volume) : Option String :=
  if badKeys volume ≠ [] then
    some (s!"{ns}/{pod.name} volume {text.repr volume.name} uses " ++
      s!"{text.list ((badKeys volume).insertionSort (· ≤ ·))}")
  else none

/-- The node plugins among the pods of the drivers, with their namespaces. -/
def nodePlugins (pods : OrderedMap String (List Pod)) : List (String × Pod) :=
  pods.entries.flatMap fun entry ↦ (entry.2.filter podIsNodePlugin).map fun pod ↦ (entry.1, pod)

/-- `_check_node_plugin_volumes`; there is no list where there is no node plugin. -/
def checkNodePluginVolumes (pods : OrderedMap String (List Pod)) : Option (List String) :=
  if nodePlugins pods = [] then none
  else some ((nodePlugins pods).flatMap fun plugin ↦
    plugin.2.volumes.filterMap (volumeViolation text plugin.1 plugin.2))

end IsvValidation.K8s.Csi
