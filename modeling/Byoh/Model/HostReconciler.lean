import Byoh.Model.ClusterApi

/-!
# The host agent

`agent/reconciler/host_reconciler.go`. The agent installs and bootstraps a host that is attached
to a machine, and cleans it up when it carries the cleanup annotation. The host object in memory
is patched when a reconcile ends in any way.

The bootstrap script is one command here; `ScriptExecutor.Execute` has its own model.
-/

set_option autoImplicit false

namespace Byoh.Model.HostReconciler

open Byoh.Foundation

/-- The fields of `HostReconciler` that change what it does. -/
structure Config where
  skipK8sInstallation : Bool := false
  downloadPath : String := ""
  deriving DecidableEq, Repr

abbrev HostM := ApiM ByoHost

/-- Run a command on the host; its error is returned. -/
def runCmd (command : HostCommand) : HostM Unit := do
  let byoHost ← GoM.get
  if ← GoM.lift (call (.hostCommand command byoHost)) then pure () else GoM.throw .command

/-- `conditions.MarkFalse`. -/
def markFalse (t : ConditionType) (reason : Reason) (severity : ConditionSeverity) : HostM Unit :=
  GoM.modify fun h => { h with conditions := h.conditions.markFalse t reason severity "" }

/-- `conditions.MarkTrue`. -/
def markTrue (t : ConditionType) : HostM Unit :=
  GoM.modify fun h => { h with conditions := h.conditions.markTrue t }

/-- Read a secret. -/
def getSecret (ref : ObjectReference) : HostM Secret := do
  match ← GoM.lift (call (.getSecret ⟨ref.ns, ref.name⟩)) with
  | .error e => GoM.throw (.api e)
  | .ok secret => pure secret

/-- `parseScript`. -/
def parseScript (cfg : Config) (script : String) : HostM String := do
  match ← GoM.lift (call (.parseTemplate cfg.downloadPath script)) with
  | some data => pure data
  | none => GoM.throw (.text "unable to apply install parsed template to the data object")

/-! ## Commands -/

/-- `resetNode`, in `hostCleanUp` or after a failed bootstrap. -/
def resetNode (inCleanup : Bool) : HostM Unit := do
  match ← GoM.attempt (runCmd (.kubeadmReset inCleanup)) with
  | .error e => GoM.throw (.wrap "failed to exec kubeadm reset" e)
  | .ok _ => pure ()

/-- `getBootstrapScript`; a secret without a value gives the empty script. -/
def getBootstrapScript (ref : ObjectReference) : HostM String := do
  let secret ← getSecret ref
  return (secret.data.get "value").getD ""

/-- `executeInstallerController`. -/
def executeInstallerController (cfg : Config) : HostM Unit := do
  let byoHost ← GoM.get
  match byoHost.installationSecret with
  | none => GoM.throw (.text ("InstallationSecret not found in ByoHost " ++ byoHost.name))
  | some ref => do
      let secret ← getSecret ref
      match secret.data.get "install" with
      | none => GoM.throw (.text ("install script not found in secret " ++ secret.name))
      | some installScript => do
          let installScript ← parseScript cfg installScript
          match ← GoM.attempt (runCmd (.install installScript)) with
          | .ok _ => pure ()
          | .error e => do
              markFalse .k8sComponentsInstallationSucceeded .k8sComponentsInstallationFailed .info
              GoM.throw e

/-- The directories that `cleank8sdirectories` empties. -/
def k8sDirectories : List String := ["/run/kubeadm/*", "/etc/cni/net.d/*"]

/-- The loop of `cleank8sdirectories`: every directory is tried; were all of them cleaned? -/
def removeGlobs (byoHost : ByoHost) : List String → ApiProg Bool
  | [] => pure true
  | dir :: dirs => do
      let ok ← call (.hostCommand (.removeGlob dir) byoHost)
      let rest ← removeGlobs byoHost dirs
      pure (ok && rest)

/-- `cleank8sdirectories`. -/
def cleank8sdirectories : HostM Unit := do
  let byoHost ← GoM.get
  if ← GoM.lift (removeGlobs byoHost k8sDirectories) then pure ()
  else GoM.throw (.wrap "not all k8s directories are cleaned up" .command)

/-- `removeSentinelFile`. -/
def removeSentinelFile : HostM Unit := do
  if ← GoM.lift (call .sentinelFileExists) then
    match ← GoM.attempt (runCmd .removeSentinelFile) with
    | .error e => GoM.throw (.wrap
        "failed to delete sentinel file /run/cluster-api/bootstrap-success.complete" e)
    | .ok _ => pure ()

/-- `deleteEndpointIP`; an address that gives no network configuration is skipped. -/
def deleteEndpointIP : HostM Unit := do
  let byoHost ← GoM.get
  match byoHost.annotations.get .endPointIP with
  | none => pure ()
  | some ip => do
      if ← GoM.lift (call (.newVipConfig ip)) then runCmd (.deleteIP ip)

/-! ## Cleanup -/

/-- `removeAnnotations`. -/
def removeAnnotations (h : ByoHost) : ByoHost :=
  { h with
    machineRef := none
    bootstrapSecret := none
    labels := (h.labels.delete .clusterName).delete .attachedByoMachine
    annotations := (((h.annotations.delete .endPointIP).delete .hostCleanup).delete
      .k8sVersion).delete .bundleLookupBaseRegistry }

/-- The uninstall script of `hostCleanUp`. -/
def uninstall (cfg : Config) (ref : ObjectReference) : HostM Unit := do
  let secret ← getSecret ref
  match secret.data.get "uninstall" with
  | none => GoM.throw (.text ("uninstall script not found in secret " ++ secret.name))
  | some uninstallScript => do
      let uninstallScript ← parseScript cfg uninstallScript
      runCmd (.uninstall uninstallScript)

/-- The reset of `hostCleanUp`, behind the installation condition. -/
def resetInstalledNode : HostM Unit := do
  let byoHost ← GoM.get
  if byoHost.conditions.isTrue .k8sComponentsInstallationSucceeded then
    resetNode true
    markFalse .k8sComponentsInstallationSucceeded .k8sNodeAbsent .info

/-- The uninstallation of `hostCleanUp`, behind `UninstallationSecret`. -/
def uninstallNode (cfg : Config) : HostM Unit := do
  let byoHost ← GoM.get
  if !cfg.skipK8sInstallation then
    match byoHost.uninstallationSecret with
    | some ref => uninstall cfg ref
    | none => pure ()

/-- `hostCleanUp`. -/
def hostCleanUp (cfg : Config) : HostM Unit := do
  resetInstalledNode
  uninstallNode cfg
  markFalse .k8sNodeBootstrapSucceeded .k8sNodeAbsent .info
  removeSentinelFile
  deleteEndpointIP
  GoM.modify fun h => { h with installationSecret := none }
  GoM.modify removeAnnotations
  markFalse .k8sNodeBootstrapSucceeded .k8sNodeAbsent .info

/-! ## Reconcile -/

/-- The installation of `reconcileNormal`; `false` when it has to wait for its secret. -/
def installComponents (cfg : Config) : HostM Bool := do
  let byoHost ← GoM.get
  if cfg.skipK8sInstallation then return true
  if byoHost.conditions.isTrue .k8sComponentsInstallationSucceeded then return true
  if byoHost.installationSecret.isNone then
    markFalse .k8sComponentsInstallationSucceeded .k8sInstallationSecretUnavailable .info
    return false
  executeInstallerController cfg
  markTrue .k8sComponentsInstallationSucceeded
  return true

/-- The bootstrap of `reconcileNormal`, on cleaned directories. -/
def bootstrap (bootstrapScript : String) : HostM Unit := do
  match ← GoM.attempt cleank8sdirectories with
  | .error e => do
      markFalse .k8sNodeBootstrapSucceeded .cleanK8sDirectoriesFailed .error
      GoM.throw e
  | .ok _ => do
      match ← GoM.attempt (runCmd (.bootstrap bootstrapScript)) with
      | .error e => do
          -- the error of the reset is ignored
          let _ ← GoM.attempt (resetNode false)
          markFalse .k8sNodeBootstrapSucceeded .cloudInitExecutionFailed .error
          GoM.throw e
      | .ok _ => markTrue .k8sNodeBootstrapSucceeded

/-- `reconcileNormal`. -/
def reconcileNormal (cfg : Config) : HostM Result := do
  let byoHost ← GoM.get
  if byoHost.machineRef.isNone then
    markFalse .k8sNodeBootstrapSucceeded .waitingForMachineRef .info
    return {}
  match byoHost.bootstrapSecret with
  | none => do
      markFalse .k8sNodeBootstrapSucceeded .bootstrapDataSecretUnavailable .info
      return {}
  | some bootstrapSecret => do
      GoM.when (!byoHost.conditions.isTrue .k8sNodeBootstrapSucceeded) do
        let bootstrapScript ← getBootstrapScript bootstrapSecret
        let installed ← installComponents cfg
        GoM.when installed (bootstrap bootstrapScript)
      return {}

/-- The part of `Reconcile` under the deferred patch. -/
def reconcileHost (cfg : Config) : HostM Result := do
  let byoHost ← GoM.get
  if byoHost.carries .hostCleanup then
    hostCleanUp cfg
    return {}
  else if byoHost.deletionTimestamp then return {}
  else reconcileNormal cfg

/-- What a reconcile did: its result, and the host as it was read and as it was left in memory. -/
structure Report where
  exit : Exit Err Result
  read : Option ByoHost := none
  left : Option ByoHost := none

/-- `Reconcile`, with a report. -/
def reconcileReport (cfg : Config) (req : NamespacedName) : ApiProg Report := do
  match ← call (.getByoHost req) with
  | .error e => pure { exit := .err (.api e) }
  | .ok byoHost => do
      let r ← GoM.deferred (reconcileHost cfg) (fun h => patchByoHost byoHost h) byoHost
      pure { exit := r.1, read := some byoHost, left := some r.2 }

/-- `Reconcile`. -/
def reconcile (cfg : Config) (req : NamespacedName) : ApiProg (Exit Err Result) := do
  let report ← reconcileReport cfg req
  pure report.exit

end Byoh.Model.HostReconciler
