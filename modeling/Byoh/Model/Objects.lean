import Byoh.Foundation.MergePatch
import Mathlib.Data.Fintype.Basic

/-!
# The API objects

The objects that the controllers and the host agent read and write, with the fields the modelled
functions use (`apis/infrastructure/v1beta1`, and the parts of cluster-api's types that the code
reads). `ns` stands for the field `Namespace`. A `DeletionTimestamp` is only ever compared with
zero, so it is a flag.

Label and annotation keys are an enumeration of the keys the repository reserves and `other` for
every other key. Conditions are a map from condition type to condition; `LastTransitionTime` is
left out.
-/

set_option autoImplicit false

namespace Byoh.Model

open Byoh.Foundation

/-! ## Metadata -/

/-- `types.NamespacedName`. -/
structure NamespacedName where
  ns : String
  name : String
  deriving DecidableEq, Repr

/-- `corev1.ObjectReference`; an empty string is an absent field. -/
structure ObjectReference where
  apiVersion : String := ""
  kind : String := ""
  ns : String := ""
  name : String := ""
  uid : String := ""
  deriving DecidableEq, Repr

/-- `metav1.OwnerReference`. -/
structure OwnerReference where
  apiVersion : String
  kind : String
  name : String
  uid : String := ""
  controller : Bool := false
  deriving DecidableEq, Repr

/-- Label keys. -/
inductive LabelKey where
  /-- `clusterv1.ClusterNameLabel`, `cluster.x-k8s.io/cluster-name`. -/
  | clusterName
  /-- `AttachedByoMachineLabel`, `byoh.infrastructure.cluster.x-k8s.io/byomachine-name`. -/
  | attachedByoMachine
  /-- `ClusterLabel`, `kaapi.pf9.io/cluster-name`. -/
  | cluster
  /-- `ClusterLabelCP`, `kaapi.pf9.io/cluster-name-cp`. -/
  | clusterCP
  | other (key : String)
  deriving DecidableEq, Repr

/-- Annotation keys. -/
inductive AnnotationKey where
  /-- `HostCleanupAnnotation`, `byoh.infrastructure.cluster.x-k8s.io/unregistering`. -/
  | hostCleanup
  /-- `EndPointIPAnnotation`, `byoh.infrastructure.cluster.x-k8s.io/endpointip`. -/
  | endPointIP
  /-- `K8sVersionAnnotation`, `byoh.infrastructure.cluster.x-k8s.io/k8sversion`. -/
  | k8sVersion
  /-- `BundleLookupBaseRegistryAnnotation`, `byoh.infrastructure.cluster.x-k8s.io/bundle-registry`. -/
  | bundleLookupBaseRegistry
  /-- `clusterv1.PausedAnnotation`, `cluster.x-k8s.io/paused`. -/
  | paused
  /-- `barista.platform9.io/upgrade-in-progress`. -/
  | upgradeInProgress
  /-- `clusterv1.TemplateClonedFromNameAnnotation`, `cluster.x-k8s.io/cloned-from-name`. -/
  | clonedFromName
  /-- `clusterv1.TemplateClonedFromGroupKindAnnotation`, `cluster.x-k8s.io/cloned-from-groupkind`. -/
  | clonedFromGroupKind
  | other (key : String)
  deriving DecidableEq, Repr

abbrev Labels := GoMap LabelKey String

abbrev Annotations := GoMap AnnotationKey String

/-- `infrav1.GroupVersion`. -/
def groupVersion : String := "infrastructure.cluster.x-k8s.io/v1beta1"

/-- The group of `infrav1.GroupVersion`. -/
def group : String := "infrastructure.cluster.x-k8s.io"

/-- The group of `clusterv1.GroupVersion`. -/
def clusterGroup : String := "cluster.x-k8s.io"

/-- `MachineFinalizer`. -/
def machineFinalizer : String := "byomachine.infrastructure.cluster.x-k8s.io"

/-- `ClusterFinalizer`. -/
def clusterFinalizer : String := "byocluster.infrastructure.cluster.x-k8s.io"

/-- `K8sInstallerConfigFinalizer`. -/
def k8sInstallerConfigFinalizer : String := "k8sinstallerconfig.infrastructure.cluster.x-k8s.io"

/-- `controllerutil.AddFinalizer`. -/
def addFinalizer (fs : List String) (f : String) : List String := if f ∈ fs then fs else fs ++ [f]

/-- `controllerutil.RemoveFinalizer`. -/
def removeFinalizer (fs : List String) (f : String) : List String := fs.filter (· ≠ f)

/-! ## Conditions -/

/-- Condition types of `ByoHost` and `ByoMachine`. -/
inductive ConditionType where
  | k8sNodeBootstrapSucceeded
  | k8sComponentsInstallationSucceeded
  | byoHostReady
  deriving DecidableEq, Repr

instance : Fintype ConditionType where
  elems := {.k8sNodeBootstrapSucceeded, .k8sComponentsInstallationSucceeded, .byoHostReady}
  complete t := by cases t <;> decide

/-- `corev1.ConditionStatus`. -/
inductive ConditionStatus where
  | conditionTrue
  | conditionFalse
  | conditionUnknown
  deriving DecidableEq, Repr

/-- `clusterv1.ConditionSeverity`; `none` is the severity of a true condition. -/
inductive ConditionSeverity where
  | error
  | warning
  | info
  | none
  deriving DecidableEq, Repr

/-- The reasons of `condition_consts.go`. -/
inductive Reason where
  | waitingForMachineRef
  | bootstrapDataSecretUnavailable
  | k8sInstallationSecretUnavailable
  | cleanK8sDirectoriesFailed
  | cloudInitExecutionFailed
  | k8sNodeAbsent
  | k8sComponentsInstallationFailed
  | waitingForClusterInfrastructure
  | waitingForBootstrapDataSecret
  | byoHostsUnavailable
  | installationSecretNotAvailable
  | clusterOrResourcePaused
  deriving DecidableEq, Repr

/-- `clusterv1.Condition`; the reason `none` is the empty string. -/
structure Condition where
  status : ConditionStatus
  severity : ConditionSeverity
  reason : Option Reason
  message : String
  deriving DecidableEq, Repr

/-- `clusterv1.Conditions`. -/
abbrev Conditions := ConditionType → Option Condition

namespace Conditions

/-- `conditions.MarkTrue`. -/
def markTrue (cs : Conditions) (t : ConditionType) : Conditions :=
  Function.update cs t (some ⟨.conditionTrue, .none, none, ""⟩)

/-- `conditions.MarkFalse`. -/
def markFalse (cs : Conditions) (t : ConditionType) (reason : Reason)
    (severity : ConditionSeverity) (message : String) : Conditions :=
  Function.update cs t (some ⟨.conditionFalse, severity, some reason, message⟩)

/-- `conditions.IsTrue`. -/
def isTrue (cs : Conditions) (t : ConditionType) : Bool :=
  match cs t with
  | some c => c.status = .conditionTrue
  | none => false

/-- `conditions.GetReason`. -/
def getReason (cs : Conditions) (t : ConditionType) : Option Reason := (cs t).bind (·.reason)

@[simp] theorem isTrue_markTrue (cs : Conditions) (t t' : ConditionType) :
    (cs.markTrue t).isTrue t' = if t' = t then true else cs.isTrue t' := by
  by_cases h : t' = t
  · subst h
    simp [markTrue, isTrue]
  · simp [markTrue, isTrue, h]

@[simp] theorem isTrue_markFalse (cs : Conditions) (t t' : ConditionType) (reason : Reason)
    (severity : ConditionSeverity) (message : String) :
    (cs.markFalse t reason severity message).isTrue t' = if t' = t then false else cs.isTrue t' := by
  by_cases h : t' = t
  · subst h
    simp [markFalse, isTrue]
  · simp [markFalse, isTrue, h]

@[simp] theorem getReason_markFalse (cs : Conditions) (t : ConditionType) (reason : Reason)
    (severity : ConditionSeverity) (message : String) :
    (cs.markFalse t reason severity message).getReason t = some reason := by
  simp [markFalse, getReason]

end Conditions

/-! ## Hosts -/

/-- `HostInfo`; the zero value has every field empty. -/
structure HostInfo where
  osName : String := ""
  osImage : String := ""
  architecture : String := ""
  deriving DecidableEq, Repr

/-- `NetworkStatus`. -/
structure NetworkStatus where
  connected : Bool := false
  ipAddrs : List String := []
  macAddr : String := ""
  networkInterfaceName : String := ""
  isDefault : Bool := false
  deriving DecidableEq, Repr

/-- `ByoHost`: metadata, then `Spec`, then `Status`. -/
structure ByoHost where
  ns : String
  name : String
  labels : Labels := none
  annotations : Annotations := none
  deletionTimestamp : Bool := false
  bootstrapSecret : Option ObjectReference := none
  installationSecret : Option ObjectReference := none
  uninstallationSecret : Option ObjectReference := none
  machineRef : Option ObjectReference := none
  conditions : Conditions := fun _ => none
  hostDetails : HostInfo := {}
  network : List NetworkStatus := []

namespace ByoHost

/-- The key under which the API server stores the host. -/
def key (h : ByoHost) : NamespacedName := ⟨h.ns, h.name⟩

/-- The host carries the annotation `k`. -/
def carries (h : ByoHost) (k : AnnotationKey) : Bool := (h.annotations.get k).isSome

end ByoHost

/-! ## Machines -/

/-- The operators of `metav1.LabelSelectorRequirement`. -/
inductive LabelSelectorOperator where
  | opIn
  | opNotIn
  | opExists
  | opDoesNotExist
  | other (op : String)
  deriving DecidableEq, Repr

/-- `metav1.LabelSelectorRequirement`. -/
structure LabelSelectorRequirement where
  key : LabelKey
  operator : LabelSelectorOperator
  values : List String
  deriving DecidableEq, Repr

/-- `metav1.LabelSelector`. -/
structure LabelSelector where
  matchLabels : List (LabelKey × String) := []
  matchExpressions : List LabelSelectorRequirement := []
  deriving DecidableEq, Repr

/-- `ByoMachine`. -/
structure ByoMachine where
  ns : String
  name : String
  uid : String := ""
  labels : Labels := none
  annotations : Annotations := none
  ownerReferences : List OwnerReference := []
  finalizers : List String := []
  deletionTimestamp : Bool := false
  selector : Option LabelSelector := none
  providerID : String := ""
  installerRef : Option ObjectReference := none
  hostInfo : HostInfo := {}
  ready : Bool := false
  conditions : Conditions := fun _ => none

namespace ByoMachine

/-- The key under which the API server stores the machine. -/
def key (m : ByoMachine) : NamespacedName := ⟨m.ns, m.name⟩

/-- `TypeMeta.Kind`, filled in by the client when it reads the object. -/
def kind (_ : ByoMachine) : String := "ByoMachine"

/-- `TypeMeta.APIVersion`, filled in by the client when it reads the object. -/
def apiVersion (_ : ByoMachine) : String := groupVersion

end ByoMachine

/-- cluster-api's `Machine`. -/
structure Machine where
  ns : String
  name : String
  version : Option String := none
  dataSecretName : Option String := none
  deriving DecidableEq, Repr

/-- cluster-api's `Cluster`. -/
structure Cluster where
  ns : String
  name : String
  paused : Bool := false
  infrastructureRef : Option ObjectReference := none
  controlPlaneEndpointHost : String := ""
  infrastructureReady : Bool := false
  deriving DecidableEq, Repr

/-- `ByoCluster`. -/
structure ByoCluster where
  ns : String
  name : String
  annotations : Annotations := none
  ownerReferences : List OwnerReference := []
  finalizers : List String := []
  deletionTimestamp : Bool := false
  bundleLookupBaseRegistry : String := ""
  controlPlaneEndpointPort : Int := 0
  ready : Bool := false

/-- The key under which the API server stores the cluster. -/
def ByoCluster.key (c : ByoCluster) : NamespacedName := ⟨c.ns, c.name⟩

/-- `annotations.IsPaused` for an object with these annotations. -/
def isPaused (c : Cluster) (as : Annotations) : Bool := c.paused || (as.get .paused).isSome

/-! ## Installer configurations and secrets -/

/-- A nested field of an unstructured object. A `malformed` field has the wrong shape: not a
boolean for `ready`, not a map for a secret reference. An `inconvertible` reference is a map whose
fields do not have the types of an object reference. -/
inductive Nested (α : Type) where
  | absent
  | malformed
  | inconvertible
  | value (a : α)
  deriving DecidableEq, Repr

/-- Where the API server stores an installer configuration or its template. -/
structure InstallerKey where
  apiVersion : String
  kind : String
  ns : String
  name : String
  deriving DecidableEq, Repr

/-- An installer configuration as the ByoMachine controller sees it: an unstructured object of any
kind. A `K8sInstallerConfig` is the case with `kind := "K8sInstallerConfig"`. -/
structure InstallerConfig where
  apiVersion : String
  kind : String
  ns : String
  name : String
  uid : String := ""
  annotations : Annotations := none
  ownerReferences : List OwnerReference := []
  finalizers : List String := []
  deletionTimestamp : Bool := false
  bundleRepo : String := ""
  bundleType : String := ""
  ready : Nested Bool := .absent
  installationSecret : Nested ObjectReference := .absent
  uninstallationSecret : Nested ObjectReference := .absent

/-- The key under which the API server stores the configuration. -/
def InstallerConfig.key (c : InstallerConfig) : InstallerKey :=
  ⟨c.apiVersion, c.kind, c.ns, c.name⟩

/-- What `spec.template` of an installer configuration template holds. -/
structure InstallerTemplateSpec where
  annotations : Annotations := none
  bundleRepo : String := ""
  bundleType : String := ""

/-- An installer configuration template; `template` is absent when `spec.template` is. -/
structure InstallerTemplate where
  apiVersion : String
  kind : String
  ns : String
  name : String
  template : Option InstallerTemplateSpec

/-- `corev1.Secret`. -/
structure Secret where
  ns : String
  name : String
  labels : Labels := none
  ownerReferences : List OwnerReference := []
  data : GoMap String String := none
  type : String := ""

/-- The key under which the API server stores the secret. -/
def Secret.key (s : Secret) : NamespacedName := ⟨s.ns, s.name⟩

/-! ## Errors and results -/

/-- The errors of an API call; `other` is every failure that leaves no more specific status. -/
inductive ApiError where
  | notFound
  | alreadyExists
  | conflict
  | other
  deriving DecidableEq, Repr

/-- A Go error. -/
inductive Err where
  | api (e : ApiError)
  /-- A command on the host failed. -/
  | command
  | text (msg : String)
  /-- An error with a message in front of it; its cause stays visible to `errors.As`. -/
  | wrap (msg : String) (cause : Err)
  deriving DecidableEq, Repr

/-- `apierrors.IsNotFound`. -/
def Err.isNotFound : Err → Bool
  | .api e => e = .notFound
  | .wrap _ cause => cause.isNotFound
  | _ => false

/-- `ctrl.Result`, with the delay in seconds. -/
structure Result where
  requeueAfter : Nat := 0
  deriving DecidableEq, Repr

end Byoh.Model
