import Byoh.Model.ClusterApi

/-!
# The ByoMachine controller

`controllers/infrastructure/byomachine_controller.go`. `reconcile` reads the machine, its owner
and its cluster; the rest runs on a `Scope` in memory, and the machine is patched when the scope
is left in any way. Logging and recorded events are left out.

An expression that dereferences a nil pointer, writes to a nil map or fails a type assertion is a
panic (`GoM.panic`).
-/

set_option autoImplicit false

namespace Byoh.Model.ByoMachineReconciler

open Byoh.Foundation

/-- `ProviderIDPrefix`. -/
def providerIDPrefix : String := "byoh://"

/-- `ProviderIDSuffixLength`. -/
def providerIDSuffixLength : Nat := 6

/-- `RequeueForbyohost`, in seconds. -/
def requeueForByoHost : Nat := 10

/-- `RequeueInstallerConfigTime`, in seconds. -/
def requeueInstallerConfigTime : Nat := 10

/-- `byoMachineScope`: the objects of a reconcile in memory. -/
structure Scope where
  cluster : Cluster
  machine : Machine
  byoCluster : ByoCluster
  byoMachine : ByoMachine
  byoHost : Option ByoHost := none

abbrev ScopeM := ApiM Scope

/-- Set a condition of the machine in memory to false. -/
def markFalse (reason : Reason) : ScopeM Unit :=
  GoM.modify fun s => { s with byoMachine := { s.byoMachine with
    conditions := s.byoMachine.conditions.markFalse .byoHostReady reason .info "" } }

/-! ## The attached host -/

/-- `FetchAttachedByoHost`: the first host with the label value of the machine, in any
namespace. -/
def fetchAttachedByoHost (name ns : String) : ScopeM (Option ByoHost) :=
  match newRequirement .attachedByoMachine .opIn [generateSafeLabelValue ns name] with
  | .error _ => GoM.panic "invalid memory address: byohostLabels"
  | .ok byohostLabels => do
      match ← GoM.lift (call (.listByoHosts [byohostLabels] none)) with
      | .error e => GoM.throw (.api e)
      | .ok hostsList => pure hostsList.head?

/-- The host with the paused annotation set or removed. -/
def pausedHost (isPaused : Bool) (h : ByoHost) : ByoHost :=
  if isPaused then { h with annotations := h.annotations.make.insert .paused "" }
  else { h with annotations := h.annotations.delete .paused }

/-- Patch the host of the scope from `before` and keep the host `after` in memory. -/
def patchHost (before after : ByoHost) : ScopeM Unit := do
  GoM.modify fun s => { s with byoHost := some after }
  match ← GoM.lift (patchByoHost before after) with
  | some e => GoM.throw e
  | none => pure ()

/-- `setPausedConditionForByoHost`. -/
def setPausedConditionForByoHost (isPaused : Bool) : ScopeM Unit := do
  let s ← GoM.get
  let byoHost ← GoM.deref "invalid memory address: machineScope.ByoHost" s.byoHost
  patchHost byoHost (pausedHost isPaused byoHost)

/-- The host with the cleanup annotation, and without the pf9 cluster labels unless an upgrade is
in progress. -/
def markedHost (upgradeInProgress : Bool) (h : ByoHost) : ByoHost :=
  { h with
    annotations := h.annotations.make.insert .hostCleanup ""
    labels := if upgradeInProgress then h.labels
      else (h.labels.delete .cluster).delete .clusterCP }

/-- `markHostForCleanup`. -/
def markHostForCleanup : ScopeM Unit := do
  let s ← GoM.get
  let byoHost ← GoM.deref "invalid memory address: machineScope.ByoHost" s.byoHost
  let upgradeInProgress := s.byoMachine.annotations.get .upgradeInProgress
  patchHost byoHost (markedHost (upgradeInProgress = some "true") byoHost)

/-! ## Attachment -/

/-- What `attachByoHost` writes to the host it picked. -/
structure Attachment where
  machineRef : ObjectReference
  clusterName : String
  byoMachineLabel : String
  bootstrapSecret : ObjectReference
  endPointIP : String
  k8sVersion : String
  bundleLookupBaseRegistry : String
  deriving DecidableEq, Repr

/-- The host with an attachment. -/
def Attachment.apply (a : Attachment) (h : ByoHost) : ByoHost :=
  { h with
    machineRef := some a.machineRef
    labels := (h.labels.make.insert .clusterName a.clusterName).insert .attachedByoMachine
      a.byoMachineLabel
    bootstrapSecret := some a.bootstrapSecret
    annotations := ((h.annotations.make.insert .endPointIP a.endPointIP).insert .k8sVersion
      a.k8sVersion).insert .bundleLookupBaseRegistry a.bundleLookupBaseRegistry }

/-- The values that `attachByoHost` takes from its scope. -/
def attachmentFor (s : Scope) (dataSecretName version : String) : Attachment where
  machineRef := {
    apiVersion := s.byoMachine.apiVersion
    kind := s.byoMachine.kind
    ns := s.byoMachine.ns
    name := s.byoMachine.name
    uid := s.byoMachine.uid }
  clusterName := (s.byoMachine.labels.get .clusterName).getD ""
  byoMachineLabel := generateSafeLabelValue s.byoMachine.ns s.byoMachine.name
  bootstrapSecret := { kind := "Secret", ns := s.byoMachine.ns, name := dataSecretName }
  endPointIP := s.cluster.controlPlaneEndpointHost
  k8sVersion := Text.splitFirst version '+'
  bundleLookupBaseRegistry := s.byoCluster.bundleLookupBaseRegistry

/-- The requirement that a host is in the capacity pool. -/
def notInCluster : Requirement := ⟨.clusterName, .opDoesNotExist, []⟩

/-- The selector of the machine, or everything. -/
def machineSelector (m : ByoMachine) : Except Err Selector :=
  match m.selector with
  | some sel => labelSelectorAsSelector sel
  | none => .ok []

/-- `attachByoHost`. The host stays out of the scope when its patch fails. -/
def attachByoHost : ScopeM Result := do
  let s ← GoM.get
  if s.byoHost.isSome then return {}
  let selector ← GoM.ofExcept (machineSelector s.byoMachine)
  match ← GoM.lift (call (.listByoHosts (selector ++ [notInCluster]) (some s.byoMachine.ns))) with
  | .error e => GoM.throw (.api e)
  | .ok [] => do
      markFalse .byoHostsUnavailable
      GoM.throw (.text "no hosts found")
  | .ok (host :: _) => do
      let dataSecretName ← GoM.deref
        "invalid memory address: machineScope.Machine.Spec.Bootstrap.DataSecretName"
        s.machine.dataSecretName
      let version ← GoM.deref "invalid memory address: machineScope.Machine.Spec.Version"
        s.machine.version
      let attachment := attachmentFor s dataSecretName version
      match ← GoM.lift (patchByoHost host (attachment.apply host)) with
      | some e => GoM.throw e
      | none => do
          GoM.modify fun s => { s with byoHost := some (attachment.apply host) }
          return {}

/-! ## Installer configuration -/

/-- The key under which `getInstallerConfig` looks for the installer configuration. -/
def installerConfigKey (m : ByoMachine) (ref : ObjectReference) : InstallerKey :=
  ⟨ref.apiVersion, Text.deleteAll ref.kind "Template", m.ns, m.name⟩

/-- `getInstallerConfig`. -/
def getInstallerConfig (m : ByoMachine) : ScopeM InstallerConfig := do
  let ref ← GoM.deref "invalid memory address: byoMachine.Spec.InstallerRef" m.installerRef
  match ← GoM.lift (call (.getInstallerConfig (installerConfigKey m ref))) with
  | .error e => GoM.throw (.api e)
  | .ok installerConfig => pure installerConfig

/-- The installer configuration that `createInstallerConfig` generates. -/
def installerConfigFor (m : ByoMachine) (ref : ObjectReference) (template : InstallerTemplate)
    (version : String) : Except Err InstallerConfig :=
  generateTemplate template ref m.ns m.name [(.k8sVersion, Text.splitFirst version '+')]
    { apiVersion := m.apiVersion, kind := m.kind, name := m.name, uid := m.uid, controller := true }

/-- `createInstallerConfig`. -/
def createInstallerConfig : ScopeM Unit := do
  let s ← GoM.get
  match ← GoM.attempt (getInstallerConfig s.byoMachine) with
  | .ok _ => pure ()
  | .error e =>
      if !e.isNotFound then GoM.throw e
      else do
        let ref ← GoM.deref "invalid memory address: machineScope.ByoMachine.Spec.InstallerRef"
          s.byoMachine.installerRef
        match ← GoM.lift (call (.getInstallerTemplate ⟨ref.apiVersion, ref.kind, ref.ns, ref.name⟩)) with
        | .error e => GoM.throw (.api e)
        | .ok template => do
            let version ← GoM.deref "invalid memory address: machineScope.Machine.Spec.Version"
              s.machine.version
            let installerConfig ← GoM.ofExcept
              (installerConfigFor s.byoMachine ref template version)
            match ← GoM.lift (call (.createInstallerConfig installerConfig)) with
            | some e => GoM.throw (.api e)
            | none => pure ()

/-- `getInstallerConfigAndStatus` and `getInstallerConfigAndHelper`: the configuration once it is
ready, or the result to return while it is not. -/
def getInstallerConfigAndHelper : ScopeM (Except Result InstallerConfig) := do
  let s ← GoM.get
  let installerConfig ← getInstallerConfig s.byoMachine
  let ready ← GoM.ofExcept installerConfig.isReady
  if ready then pure (.ok installerConfig)
  else pure (.error { requeueAfter := requeueInstallerConfigTime })

/-- The secret reference in a status field of the configuration. -/
def secretRef (config : InstallerConfig) (field : Nested ObjectReference)
    (what convert : String) : ScopeM ObjectReference :=
  match field with
  | .absent => GoM.throw (.text (what ++ " not set on ready installerconfig " ++ config.kind ++ " "
      ++ config.name))
  | .malformed => GoM.panic "interface conversion: secret is not a map"
  | .inconvertible => GoM.throw (.text convert)
  | .value ref => pure ref

/-- `setInstallationSecretForByoHost` and `setUninstallationSecretForByoHost`, for the status
field that `field` reads and the reference that `set` writes. -/
def setSecretForByoHost (field : InstallerConfig → Nested ObjectReference)
    (set : ObjectReference → ByoHost → ByoHost) (what convert : String) : ScopeM Result := do
  match ← getInstallerConfigAndHelper with
  | .error result => return result
  | .ok installerConfig => do
      let ref ← secretRef installerConfig (field installerConfig) what convert
      let s ← GoM.get
      let byoHost ← GoM.deref "invalid memory address: machineScope.ByoHost" s.byoHost
      patchHost byoHost (set ref byoHost)
      return {}

/-- The host with an installation secret. -/
def withInstallationSecret (ref : ObjectReference) (h : ByoHost) : ByoHost :=
  { h with installationSecret := some ref }

/-- The host with an uninstallation secret. -/
def withUninstallationSecret (ref : ObjectReference) (h : ByoHost) : ByoHost :=
  { h with uninstallationSecret := some ref }

/-- `setInstallationSecretForByoHost`. -/
def setInstallationSecretForByoHost : ScopeM Result :=
  setSecretForByoHost (·.installationSecret) withInstallationSecret "installation secret"
    "failed to convert unstructured field"

/-- `setUninstallationSecretForByoHost`. -/
def setUninstallationSecretForByoHost : ScopeM Result :=
  setSecretForByoHost (·.uninstallationSecret) withUninstallationSecret "uninstallation secret"
    "failed to convert unstructured uninstallationSecret"

/-! ## Provider ID -/

/-- `setNodeProviderID`. -/
def setNodeProviderID (cluster : NamespacedName) (host : ByoHost) : ScopeM String := do
  match ← GoM.lift (call (.getNode cluster host.name)) with
  | .error e => GoM.throw (.api e)
  | .ok providerID =>
      if providerID ≠ "" then
        if Text.matchString (providerIDPrefix ++ host.name ++ "/.+") providerID then
          return providerID
        else GoM.throw (.text "invalid format for node.Spec.ProviderID")
      else do
        let suffix ← GoM.lift (call (.randomString providerIDSuffixLength))
        let providerID := providerIDPrefix ++ host.name ++ "/" ++ suffix
        match ← GoM.lift (call (.patchNode cluster host.name "" providerID)) with
        | some e => GoM.throw (.api e)
        | none => return providerID

/-- `getRemoteClient`: the key of the workload cluster that the client is for. -/
def getRemoteClient (m : ByoMachine) : ScopeM NamespacedName := do
  let cluster ← GoM.ofExcept (← GoM.lift (getClusterFromMetadata m))
  match ← GoM.lift (call (.getRemoteClient ⟨cluster.ns, cluster.name⟩)) with
  | some e => GoM.throw (.api e)
  | none => pure ⟨cluster.ns, cluster.name⟩

/-- `updateNodeProviderID`. -/
def updateNodeProviderID : ScopeM Result := do
  let s ← GoM.get
  let remoteClient ← getRemoteClient s.byoMachine
  let byoHost ← GoM.deref "invalid memory address: machineScope.ByoHost" s.byoHost
  let providerID ← setNodeProviderID remoteClient byoHost
  GoM.modify fun s => { s with byoMachine := { s.byoMachine with
    providerID := providerID
    ready := true
    conditions := s.byoMachine.conditions.markTrue .byoHostReady } }
  return {}

/-! ## Reconcile -/

/-- `reconcileDelete`. -/
def reconcileDelete : ScopeM Result := do
  let s ← GoM.get
  GoM.when s.byoHost.isSome markHostForCleanup
  GoM.modify fun s => { s with byoMachine := { s.byoMachine with
    finalizers := removeFinalizer s.byoMachine.finalizers machineFinalizer } }
  return {}

/-- Set the installation secret of a host that has none. -/
def publishInstallationSecret (m : ByoMachine) (byoHost : ByoHost) : ScopeM Result :=
  if m.installerRef.isSome && byoHost.installationSecret.isNone then setInstallationSecretForByoHost
  else pure {}

/-- Set the uninstallation secret of a host that has none. -/
def publishUninstallationSecret (m : ByoMachine) (byoHost : ByoHost) : ScopeM Result :=
  if m.installerRef.isSome && byoHost.uninstallationSecret.isNone then
    setUninstallationSecretForByoHost
  else pure {}

/-- The part of `reconcileNormal` that needs the attached host: host info, secrets and provider
ID. -/
def reconcileAttached : ScopeM Result := do
  let s ← GoM.get
  let byoHost ← GoM.deref "invalid memory address: machineScope.ByoHost" s.byoHost
  GoM.when (s.byoMachine.hostInfo = {}) (GoM.modify fun s =>
    { s with byoMachine := { s.byoMachine with hostInfo := byoHost.hostDetails } })
  let res ← publishInstallationSecret s.byoMachine byoHost
  if res.requeueAfter > 0 then return res
  let res ← publishUninstallationSecret s.byoMachine byoHost
  if res.requeueAfter > 0 then return res
  updateNodeProviderID

/-- The reservation of a host in `reconcileNormal`, when the machine has none yet. -/
def reserveHost : ScopeM Unit := do
  let s ← GoM.get
  GoM.when s.byoHost.isNone do
    let _ ← attachByoHost
    markFalse .installationSecretNotAvailable

/-- `reconcileNormal`. -/
def reconcileNormal : ScopeM Result := do
  GoM.modify fun s => { s with byoMachine := { s.byoMachine with
    finalizers := addFinalizer s.byoMachine.finalizers machineFinalizer } }
  let s ← GoM.get
  GoM.when s.byoHost.isSome (setPausedConditionForByoHost false)
  GoM.when s.byoMachine.installerRef.isSome createInstallerConfig
  if !s.cluster.infrastructureReady then
    markFalse .waitingForClusterInfrastructure
    return {}
  if s.machine.dataSecretName.isNone then
    markFalse .waitingForBootstrapDataSecret
    return {}
  reserveHost
  reconcileAttached

/-- The early return of `Reconcile` when the machine or its cluster is paused. -/
def reconcilePaused (refByoHost : Option ByoHost) : ScopeM Result := do
  GoM.when refByoHost.isSome do
    -- an error is logged and otherwise ignored
    let _ ← GoM.attempt (setPausedConditionForByoHost true)
  markFalse .clusterOrResourcePaused
  return {}

/-- The part of `Reconcile` under the deferred patch. -/
def reconcileScope : ScopeM Result := do
  let s ← GoM.get
  let refByoHost ← fetchAttachedByoHost s.byoMachine.name s.byoMachine.ns
  GoM.modify fun s => { s with byoHost := refByoHost }
  if isPaused s.cluster s.byoMachine.annotations then reconcilePaused refByoHost
  else if s.byoMachine.deletionTimestamp then reconcileDelete
  else reconcileNormal

/-- `Reconcile`. -/
def reconcile (req : NamespacedName) : ApiProg (Exit Err Result) := do
  match ← call (.getByoMachine req) with
  | .error .notFound => pure (.ok {})
  | .error e => pure (.err (.api e))
  | .ok byoMachine =>
  match ← getOwnerMachine byoMachine with
  | .error e => pure (.err e)
  | .ok none => pure (.ok {})
  | .ok (some machine) =>
  match ← getClusterFromMetadata byoMachine with
  | .error e => pure (.err e)
  | .ok cluster =>
  match cluster.infrastructureRef with
  | none => pure (.panic "invalid memory address: cluster.Spec.InfrastructureRef")
  | some infrastructureRef =>
  match ← call (.getByoCluster ⟨byoMachine.ns, infrastructureRef.name⟩) with
  | .error _ => pure (.ok {})
  | .ok byoCluster => do
      let r ← GoM.deferred reconcileScope (fun s => patchByoMachine byoMachine s.byoMachine)
        { cluster, machine, byoCluster, byoMachine }
      pure r.1

end Byoh.Model.ByoMachineReconciler
