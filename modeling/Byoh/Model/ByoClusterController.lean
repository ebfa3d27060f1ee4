import Byoh.Model.ClusterApi

/-!
# The ByoCluster controller

`controllers/infrastructure/byocluster_controller.go`. A ByoCluster is ready as soon as it is
reconciled, and holds its finalizer while machines carry the label of its own name. The summary
condition that is set before the patch is left out: no condition of a ByoCluster is set that it
could summarize.
-/

set_option autoImplicit false

namespace Byoh.Model.ByoClusterReconciler

open Byoh.Foundation

/-- `DefaultAPIEndpointPort`. -/
def defaultAPIEndpointPort : Int := 6443

/-- The delay of the check for machines, in seconds. -/
def requeueForByoMachines : Nat := 10

/-- The name of the owner that `util.GetOwnerCluster` looks for. -/
def findOwnerCluster : List OwnerReference → Except Err (Option String)
  | [] => .ok none
  | ref :: refs =>
      if ref.kind ≠ "Cluster" then findOwnerCluster refs
      else match parseGroup ref.apiVersion with
        | .error e => .error e
        | .ok g => if g = clusterGroup then .ok (some ref.name) else findOwnerCluster refs

/-- `util.GetOwnerCluster`. -/
def getOwnerCluster (c : ByoCluster) : ApiProg (Except Err (Option Cluster)) :=
  match findOwnerCluster c.ownerReferences with
  | .error e => pure (.error e)
  | .ok none => pure (.ok none)
  | .ok (some name) => do
      match ← call (.getCluster ⟨c.ns, name⟩) with
      | .error e => pure (.error (.wrap ("failed to get Cluster/" ++ name) (.api e)))
      | .ok cluster => pure (.ok (some cluster))

/-- `patchByoCluster`. -/
def patchByoCluster (before after : ByoCluster) : ApiProg (Option Err) := do
  let e₂ ← sendIf (before.finalizers ≠ after.finalizers ||
      before.controlPlaneEndpointPort ≠ after.controlPlaneEndpointPort)
    (call (.patchByoCluster after.key before after))
  let e₃ ← sendIf (before.ready ≠ after.ready) (call (.patchByoClusterStatus after.key before after))
  pure ((e₂.or e₃).map .api)

/-- `reconcileDelete`. -/
def reconcileDelete : ApiM ByoCluster Result := do
  let byoCluster ← GoM.get
  match ← GoM.lift (call (.listByoMachines byoCluster.ns byoCluster.name)) with
  | .error e => GoM.throw (.wrap ("unable to list ByoMachines part of ByoCluster " ++ byoCluster.ns ++
      "/" ++ byoCluster.name) (.api e))
  | .ok byoMachines => do
      if byoMachines.length > 0 then return { requeueAfter := requeueForByoMachines }
      GoM.modify fun c => { c with finalizers := removeFinalizer c.finalizers clusterFinalizer }
      return {}

/-- `reconcileNormal`. -/
def reconcileNormal : ApiM ByoCluster Result := do
  GoM.modify fun c => { c with finalizers := addFinalizer c.finalizers clusterFinalizer }
  GoM.modify fun c =>
    if c.controlPlaneEndpointPort = 0 then { c with controlPlaneEndpointPort := defaultAPIEndpointPort }
    else c
  GoM.modify fun c => { c with ready := true }
  return {}

/-- The part of `Reconcile` under the deferred patch. -/
def reconcileCluster : ApiM ByoCluster Result := do
  let byoCluster ← GoM.get
  if byoCluster.deletionTimestamp then reconcileDelete else reconcileNormal

/-- `Reconcile`. -/
def reconcile (req : NamespacedName) : ApiProg (Exit Err Result) := do
  match ← call (.getByoCluster req) with
  | .error .notFound => pure (.ok {})
  | .error e => pure (.err (.api e))
  | .ok byoCluster =>
  match ← getOwnerCluster byoCluster with
  | .error e => pure (.err e)
  | .ok none => pure (.ok {})
  | .ok (some cluster) =>
  if isPaused cluster byoCluster.annotations then pure (.ok {})
  else do
    let r ← GoM.deferred reconcileCluster (fun c => patchByoCluster byoCluster c) byoCluster
    pure r.1

end Byoh.Model.ByoClusterReconciler
