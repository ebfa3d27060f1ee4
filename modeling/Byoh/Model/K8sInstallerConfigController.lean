import Byoh.Model.ClusterApi
import Byoh.Model.Installer

/-!
# The K8sInstallerConfig controller

`controllers/infrastructure/k8sinstallerconfig_controller.go`. A configuration is filled in while
its machine waits for it: the install and the uninstall script are stored in two secrets, and
their references and `Ready` are written by the deferred patch.
-/

set_option autoImplicit false

namespace Byoh.Model.K8sInstallerConfigReconciler

open Byoh.Foundation

/-- Where the API server stores the `K8sInstallerConfig` of a request. -/
def configKey (req : NamespacedName) : InstallerKey :=
  ⟨groupVersion, "K8sInstallerConfig", req.ns, req.name⟩

/-- `clusterv1.ClusterSecretType`. -/
def clusterSecretType : String := "cluster.x-k8s.io/secret"

abbrev ConfigM := ApiM InstallerConfig

/-- `GetOwnerByoMachine`; nil when there is no such owner. -/
def getOwnerByoMachine (config : InstallerConfig) : ApiProg (Except Err (Option ByoMachine)) :=
  match findOwner "ByoMachine" group config.ownerReferences with
  | .error e => pure (.error e)
  | .ok none => pure (.ok none)
  | .ok (some name) => do
      match ← call (.getByoMachine ⟨config.ns, name⟩) with
      | .error e => pure (.error (.api e))
      | .ok byoMachine => pure (.ok (some byoMachine))

/-! ## Secrets -/

/-- The reference to the install secret of a configuration. -/
def installSecretRef (config : InstallerConfig) : ObjectReference :=
  { ns := config.ns, name := "byoh-install-" ++ config.name }

/-- The reference to the uninstall secret of a configuration. -/
def uninstallSecretRef (config : InstallerConfig) : ObjectReference :=
  { ns := config.ns, name := "byoh-uninstall-" ++ config.name }

/-- The install secret, owned by the configuration. -/
def installSecret (config : InstallerConfig) (cluster : Cluster) (install : String) : Secret where
  ns := config.ns
  name := "byoh-install-" ++ config.name
  labels := GoMap.insert none .clusterName cluster.name
  ownerReferences := [{ apiVersion := groupVersion, kind := config.kind, name := config.name
                        uid := config.uid, controller := true }]
  data := GoMap.insert none "install" install
  type := clusterSecretType

/-- The uninstall secret, which has no owner. -/
def uninstallSecret (config : InstallerConfig) (cluster : Cluster) (uninstall : String) :
    Secret where
  ns := config.ns
  name := "byoh-uninstall-" ++ config.name
  labels := GoMap.insert none .clusterName cluster.name
  data := GoMap.insert none "uninstall" uninstall
  type := clusterSecretType

/-- Create a secret, or update it when it exists. -/
def storeSecret (what : String) (config : InstallerConfig) (secret : Secret) : ConfigM Unit := do
  let failed (verb : String) (e : ApiError) : Err :=
    .wrap ("failed to " ++ verb ++ " " ++ what ++ " secret for K8sInstallerConfig " ++ config.ns
      ++ "/" ++ config.name) (.api e)
  match ← GoM.lift (call (.createSecret secret)) with
  | none => pure ()
  | some .alreadyExists => do
      match ← GoM.lift (call (.updateSecret secret)) with
      | none => pure ()
      | some e => GoM.throw (failed "update" e)
  | some e => GoM.throw (failed "create" e)

/-- `storeInstallationData`. -/
def storeInstallationData (cluster : Cluster) (install uninstall : String) : ConfigM Unit := do
  let config ← GoM.get
  storeSecret "installation" config (installSecret config cluster install)
  GoM.modify fun c => { c with installationSecret := .value (installSecretRef config) }
  storeSecret "uninstallation" config (uninstallSecret config cluster uninstall)
  GoM.modify fun c => { c with uninstallationSecret := .value (uninstallSecretRef config) }
  GoM.modify fun c => { c with ready := .value true }

/-! ## Reconcile -/

/-- The value of an exit, or the error or panic. -/
def ofExit {α : Type} : Exit Err α → ConfigM α
  | .ok a => pure a
  | .err e => GoM.throw e
  | .panic m => GoM.panic m

/-- `reconcileNormal`. -/
def reconcileNormal (skipKernelModuleCleanup : Bool) (byoMachine : ByoMachine)
    (cluster : Cluster) : ConfigM Result := do
  let config ← GoM.get
  let k8sVersion := (config.annotations.get .k8sVersion).getD ""
  let installerObj ← ofExit (Installer.newInstaller byoMachine.hostInfo.osImage
    byoMachine.hostInfo.architecture k8sVersion config.bundleRepo skipKernelModuleCleanup)
  storeInstallationData cluster installerObj.install installerObj.uninstall
  return {}

/-- `reconcileDelete`. -/
def reconcileDelete : ConfigM Result := do
  GoM.modify fun c => { c with
    finalizers := removeFinalizer c.finalizers k8sInstallerConfigFinalizer }
  return {}

/-- The part of `Reconcile` under the deferred patch. -/
def reconcileConfig (skipKernelModuleCleanup : Bool) (byoMachine : Option ByoMachine) :
    ConfigM Result := do
  GoM.modify fun c => { c with finalizers := addFinalizer c.finalizers k8sInstallerConfigFinalizer }
  let config ← GoM.get
  if config.deletionTimestamp then reconcileDelete
  else match byoMachine with
    | none => return {}
    | some byoMachine => do
        let cluster ← GoM.ofExcept (← GoM.lift (getClusterFromMetadata byoMachine))
        if isPaused cluster config.annotations then return {}
        if byoMachine.conditions.getReason .byoHostReady ≠ some .installationSecretNotAvailable then
          return {}
        if config.ready = .value true then return {}
        reconcileNormal skipKernelModuleCleanup byoMachine cluster

/-- `Reconcile`. -/
def reconcile (skipKernelModuleCleanup : Bool) (req : NamespacedName) :
    ApiProg (Exit Err Result) := do
  match ← call (.getInstallerConfig (configKey req)) with
  | .error .notFound => pure (.ok {})
  | .error e => pure (.err (.api e))
  | .ok config =>
  let run (byoMachine : Option ByoMachine) : ApiProg (Exit Err Result) := do
    let r ← GoM.deferred (reconcileConfig skipKernelModuleCleanup byoMachine)
      (fun c => patchInstallerConfig config c) config
    pure r.1
  match ← getOwnerByoMachine config with
  | .error e => if e.isNotFound then run none else pure (.err e)
  | .ok byoMachine => run byoMachine

/-! ## Requests for the configurations of a machine -/

/-- `hasOwnerReferenceFrom`. -/
def hasOwnerReferenceFrom (ownerReferences : List OwnerReference) (kind name : String) : Bool :=
  ownerReferences.any fun o => o.kind = kind && o.name = name

/-- The request for a configuration. -/
def requestFor (config : InstallerConfig) : NamespacedName := ⟨config.ns, config.name⟩

/-- `ByoMachineToK8sInstallerConfigMapFunc`; `configList` is the answer of the API server to the list
call for the namespace of the machine. A group version is the text `group/version`. -/
def byoMachineToK8sInstallerConfigMapFunc (m : ByoMachine)
    (configList : Except ApiError (List InstallerConfig)) : List NamespacedName :=
  match m.installerRef with
  | none => []
  | some ref =>
      if ref.apiVersion = groupVersion ∧ ref.kind = "K8sInstallerConfigTemplate" then
        match configList with
        | .error _ => []
        | .ok items => (items.filter fun config =>
            hasOwnerReferenceFrom config.ownerReferences "ByoMachine" m.name).map requestFor
      else []

end Byoh.Model.K8sInstallerConfigReconciler
