import Byoh.Model.ClusterApi

/-!
# The ByoHost controller

`controllers/infrastructure/byohost_controller.go`. Once a host is cleaned up (no machine
reference and no cleanup annotation), the manager deletes its uninstall secret and clears the
reference to it.
-/

set_option autoImplicit false

namespace Byoh.Model.ByoHostReconciler

open Byoh.Foundation

/-- The reference to the uninstall secret of a host that has been cleaned up. -/
def staleReference (byoHost : ByoHost) : Option ObjectReference :=
  if byoHost.machineRef.isNone && !byoHost.carries .hostCleanup then
    byoHost.uninstallationSecret
  else none

/-- The host without its uninstall secret. -/
def clearedHost (byoHost : ByoHost) : ByoHost := { byoHost with uninstallationSecret := none }

/-- Clear the stale reference. -/
def clearReference (byoHost : ByoHost) : ApiProg (Exit Err Result) := do
  match ← patchByoHost byoHost (clearedHost byoHost) with
  | some e => pure (.err (.wrap "failed to clear uninstallationSecret reference on ByoHost" e))
  | none => pure (.ok {})

/-- Delete the uninstall secret if it exists, then clear the reference to it. -/
def deleteUninstallSecret (byoHost : ByoHost) (ref : ObjectReference) :
    ApiProg (Exit Err Result) := do
  match ← call (.getSecret ⟨ref.ns, ref.name⟩) with
  | .error .notFound => clearReference byoHost
  | .error e => pure (.err (.api e))
  | .ok secret =>
  match ← call (.deleteSecret secret.key) with
  | none | some .notFound => clearReference byoHost
  | some e =>
      pure (.err (.wrap ("failed to delete uninstallation secret " ++ secret.name) (.api e)))

/-- `Reconcile`. -/
def reconcile (req : NamespacedName) : ApiProg (Exit Err Result) := do
  match ← call (.getByoHost req) with
  | .error .notFound => pure (.ok {})
  | .error e => pure (.err (.api e))
  | .ok byoHost =>
  match staleReference byoHost with
  | none => pure (.ok {})
  | some ref => deleteUninstallSecret byoHost ref

end Byoh.Model.ByoHostReconciler
