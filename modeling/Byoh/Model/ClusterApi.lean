import Byoh.Model.Api

/-!
# Functions of cluster-api that the controllers call

Owner and cluster lookup, `external.GenerateTemplate` and `external.IsReady`, and the patch
helper. `patch.NewHelper` keeps the object as it is; `Helper.Patch` compares it with the object in
memory and sends one request for conditions, one for metadata and spec and one for the rest of the
status, each only when something in it changed. All of them are tried, and the errors are
collected. The object in memory is not updated from the responses.
-/

set_option autoImplicit false

namespace Byoh.Model

open Byoh.Foundation

/-! ## Lookup -/

/-- The group that `schema.ParseGroupVersion` returns. -/
def parseGroup (apiVersion : String) : Except Err String :=
  let cs := apiVersion.toList
  if cs.isEmpty || cs = ['/'] then .ok ""
  else match cs.count '/' with
    | 0 => .ok ""
    | 1 => .ok (Text.splitFirst apiVersion '/')
    | _ => .error (.text ("unexpected GroupVersion string: " ++ apiVersion))

/-- The name of the first owner of the given kind and group. -/
def findOwner (kind ownerGroup : String) : List OwnerReference → Except Err (Option String)
  | [] => .ok none
  | ref :: refs =>
      match parseGroup ref.apiVersion with
      | .error e => .error e
      | .ok g => if ref.kind = kind && g = ownerGroup then .ok (some ref.name)
          else findOwner kind ownerGroup refs

/-- `util.GetOwnerMachine`. -/
def getOwnerMachine (m : ByoMachine) : ApiProg (Except Err (Option Machine)) :=
  match findOwner "Machine" clusterGroup m.ownerReferences with
  | .error e => pure (.error e)
  | .ok none => pure (.ok none)
  | .ok (some name) => do
      match ← call (.getMachine ⟨m.ns, name⟩) with
      | .error e => pure (.error (.api e))
      | .ok machine => pure (.ok (some machine))

/-- `util.GetClusterFromMetadata`. -/
def getClusterFromMetadata (m : ByoMachine) : ApiProg (Except Err Cluster) :=
  match m.labels.get .clusterName with
  | none | some "" => pure (.error (.text "no cluster label present"))
  | some name => do
      match ← call (.getCluster ⟨m.ns, name⟩) with
      | .error e => pure (.error (.api e))
      | .ok cluster => pure (.ok cluster)

/-! ## Installer configurations -/

/-- `external.IsReady`. -/
def InstallerConfig.isReady (c : InstallerConfig) : Except Err Bool :=
  match c.ready with
  | .absent => .ok false
  | .value b => .ok b
  | .malformed | .inconvertible => .error (.text "failed to determine if object is ready")

/-- `external.GenerateTemplate`, with the name that its caller sets. -/
def generateTemplate (template : InstallerTemplate) (ref : ObjectReference) (ns name : String)
    (annotations : List (AnnotationKey × String)) (owner : OwnerReference) :
    Except Err InstallerConfig :=
  match template.template with
  | none => .error (.text ("missing Spec.Template on " ++ template.kind ++ " " ++ template.name))
  | some spec =>
      let given := annotations.foldl (fun as kv => as.insert kv.1 kv.2) spec.annotations.make
      let groupKind := match parseGroup ref.apiVersion with
        | .ok g => if g = "" then ref.kind else ref.kind ++ "." ++ g
        | .error _ => ref.kind
      .ok {
        apiVersion := template.apiVersion
        kind := Text.trimSuffix template.kind "Template"
        ns := ns
        name := name
        annotations := (given.insert .clonedFromName ref.name).insert .clonedFromGroupKind groupKind
        ownerReferences := [owner]
        bundleRepo := spec.bundleRepo
        bundleType := spec.bundleType }

/-! ## The patch helper -/

/-- Send a request when it has something to write. -/
def sendIf (changed : Bool) (request : ApiProg (Option ApiError)) : ApiProg (Option ApiError) :=
  if changed then request else pure none

/-- Metadata or spec of a host changed. -/
def ByoHost.changed (before after : ByoHost) : Bool :=
  !(before.labels.same after.labels && before.annotations.same after.annotations &&
    before.bootstrapSecret = after.bootstrapSecret &&
    before.installationSecret = after.installationSecret &&
    before.uninstallationSecret = after.uninstallationSecret)

/-- The status of a host changed, its conditions apart. -/
def ByoHost.statusChanged (before after : ByoHost) : Bool :=
  !(before.machineRef = after.machineRef && before.hostDetails = after.hostDetails &&
    before.network = after.network)

/-- `Helper.Patch` of a host. -/
def patchByoHost (before after : ByoHost) : ApiProg (Option Err) := do
  let e₁ ← sendIf (before.conditions ≠ after.conditions)
    (call (.patchByoHostConditions after.key before after))
  let e₂ ← sendIf (before.changed after) (call (.patchByoHost after.key before after))
  let e₃ ← sendIf (before.statusChanged after)
    (call (.patchByoHostStatus after.key before after))
  pure ((e₁.or (e₂.or e₃)).map .api)

/-- Metadata or spec of a machine changed. -/
def ByoMachine.changed (before after : ByoMachine) : Bool :=
  !(before.finalizers = after.finalizers && before.providerID = after.providerID)

/-- The status of a machine changed, its conditions apart. -/
def ByoMachine.statusChanged (before after : ByoMachine) : Bool :=
  !(before.hostInfo = after.hostInfo && before.ready = after.ready)

/-- `Helper.Patch` of a machine. -/
def patchByoMachine (before after : ByoMachine) : ApiProg (Option Err) := do
  let e₁ ← sendIf (before.conditions ≠ after.conditions)
    (call (.patchByoMachineConditions after.key before after))
  let e₂ ← sendIf (before.changed after) (call (.patchByoMachine after.key before after))
  let e₃ ← sendIf (before.statusChanged after)
    (call (.patchByoMachineStatus after.key before after))
  pure ((e₁.or (e₂.or e₃)).map .api)

/-- The status of an installer configuration changed. -/
def InstallerConfig.statusChanged (before after : InstallerConfig) : Bool :=
  !(before.ready = after.ready && before.installationSecret = after.installationSecret &&
    before.uninstallationSecret = after.uninstallationSecret)

/-- `Helper.Patch` of an installer configuration. -/
def patchInstallerConfig (before after : InstallerConfig) : ApiProg (Option Err) := do
  let e₂ ← sendIf (before.finalizers ≠ after.finalizers)
    (call (.patchInstallerConfig after.key before after))
  let e₃ ← sendIf (before.statusChanged after)
    (call (.patchInstallerConfigStatus after.key before after))
  pure ((e₂.or e₃).map .api)

end Byoh.Model
