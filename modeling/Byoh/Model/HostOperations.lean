import Byoh.Foundation.GoFunction
import Byoh.Foundation.Versioned
import Byoh.Model.Clients
import Byoh.Model.Objects

/-!
# Deauthorising and decommissioning a host

`cmd/byohctl/pkg/host_operations.go` and the calls of it in `cmd/byohctl/client/k8s.go`. The
command marks the Machine of its host for deletion, scales its MachineDeployment down by one and
waits until the MachineRef of the host is unset.

An outcome says what others did since the previous call, whether the call is answered, and how
long it took. A write whose answer is lost has taken effect all the same. Updates carry the
resourceVersion that was read. The conversion between unstructured and typed objects does not
fail here.
-/

set_option autoImplicit false

namespace Byoh.Model.HostOperations

open Byoh.Foundation

/-- `HostOperationType`. -/
inductive HostOperationType where
  | operationDeauthorise
  | operationDecommission
  deriving DecidableEq, Repr

/-- A Machine, as far as the command reads and writes it. -/
structure MachineObject where
  labels : GoMap String String := none
  annotations : GoMap String String := none

/-- A MachineDeployment; `replicas` is `Spec.Replicas`. -/
structure MachineDeployment where
  replicas : Option Int
  deriving DecidableEq, Repr

/-- A write of a MachineDeployment by the command, with the replicas before and after it. -/
structure ScaleDown where
  deployment : NamespacedName
  before : Option Int
  after : Option Int
  deriving DecidableEq, Repr

/-- The management cluster, the name of the machine that the command runs on and its clock in
milliseconds. `scaleDowns` are the updates of MachineDeployments by the command that took effect,
latest first. -/
structure CtlStore where
  hostname : String
  clock : Nat := 0
  hosts : AList fun _ : NamespacedName => ByoHost
  machines : VersionedStore NamespacedName MachineObject
  deployments : VersionedStore NamespacedName MachineDeployment
  scaleDowns : List ScaleDown := []

/-- What others do. -/
inductive CtlEnv where
  | register (h : ByoHost)
  | attach (k : NamespacedName) (ref : ObjectReference)
  | release (k : NamespacedName)
  | deleteHost (k : NamespacedName)
  | putMachine (k : NamespacedName) (m : MachineObject)
  | deleteMachine (k : NamespacedName)
  | putDeployment (k : NamespacedName) (d : MachineDeployment)
  | deleteDeployment (k : NamespacedName)

/-- Set the MachineRef of a host that exists. -/
def CtlStore.setMachineRef (s : CtlStore) (k : NamespacedName) (ref : Option ObjectReference) :
    CtlStore :=
  match s.hosts.lookup k with
  | some h => { s with hosts := s.hosts.insert k { h with machineRef := ref } }
  | none => s

/-- An action of others. A host registers without a MachineRef. -/
def ctlEnv (s : CtlStore) : CtlEnv → CtlStore
  | .register h =>
      if (s.hosts.lookup h.key).isSome then s
      else { s with hosts := s.hosts.insert h.key { h with machineRef := none } }
  | .attach k ref => s.setMachineRef k (some ref)
  | .release k => s.setMachineRef k none
  | .deleteHost k => { s with hosts := s.hosts.erase k }
  | .putMachine k m => { s with machines := s.machines.put k m }
  | .deleteMachine k => { s with machines := s.machines.erase k }
  | .putDeployment k d => { s with deployments := s.deployments.put k d }
  | .deleteDeployment k => { s with deployments := s.deployments.erase k }

/-! ## Calls -/

/-- The environment's choices for one call; `line` is what the user types, and whether the line is
too long for the reader. -/
structure CtlOutcome where
  meanwhile : List CtlEnv := []
  fate : Fate String := .answered
  elapsed : Nat := 0
  line : String × Bool := ("y", false)

instance : Inhabited CtlOutcome := ⟨{}⟩

/-- The calls of the command. The error of `statKubeconfig` is the path at which there is no
file; `readLine` asks a question and reads the answer. -/
inductive CtlCall where
  | statKubeconfig
  | getK8sClient
  | hostname
  | now
  | sleep (ms : Nat)
  | readLine (question : String)
  | purgeDebianPackage
  | getByoHost (k : NamespacedName)
  | deleteByoHost (k : NamespacedName)
  | getMachine (k : NamespacedName)
  | updateMachine (k : NamespacedName) (m : Versioned MachineObject)
  | getMachineDeployment (k : NamespacedName)
  | updateMachineDeployment (k : NamespacedName) (d : Versioned MachineDeployment)

@[reducible] def CtlResp : CtlCall → Type
  | .statKubeconfig => Except String Unit
  | .hostname => Except String String
  | .now => Nat
  | .sleep _ => Unit
  | .readLine _ => Except String (String × Bool)
  | .getByoHost _ => Except String ByoHost
  | .getMachine _ => Except String (Versioned MachineObject)
  | .getMachineDeployment _ => Except String (Versioned MachineDeployment)
  | .getK8sClient | .purgeDebianPackage | .deleteByoHost _ | .updateMachine _ _
  | .updateMachineDeployment _ _ => Option String

/-- Answer a read. -/
def readCtl {α : Type} (o : CtlOutcome) (x : Option α) : Except String α :=
  match o.fate.error with
  | some msg => .error msg
  | none => match x with
    | some a => .ok a
    | none => .error "not found"

/-- Answer a write; `x` is the store after it, or none when the server refuses it. -/
def writeCtl (o : CtlOutcome) (s : CtlStore) (x : Option CtlStore) : Option String × CtlStore :=
  if o.fate.applies then
    match x with
    | some s' => (o.fate.error, s')
    | none => (some (o.fate.error.getD "conflict"), s)
  else (o.fate.error, s)

/-- The store when a call arrives. -/
def CtlStore.after (s : CtlStore) (o : CtlOutcome) : CtlStore :=
  let s' := o.meanwhile.foldl ctlEnv s
  { s' with clock := s'.clock + o.elapsed }

/-- Answer a call that has arrived. -/
def answer (o : CtlOutcome) : (c : CtlCall) → CtlStore → CtlResp c × CtlStore
  | .statKubeconfig, s => (readCtl o (some ()), s)
  | .getK8sClient, s => (o.fate.error, s)
  | .hostname, s => (readCtl o (some s.hostname), s)
  | .now, s => (s.clock, s)
  | .sleep ms, s => ((), { s with clock := s.clock + ms })
  | .readLine _, s => (readCtl o (some o.line), s)
  | .purgeDebianPackage, s => (o.fate.error, s)
  | .getByoHost k, s => (readCtl o (s.hosts.lookup k), s)
  | .deleteByoHost k, s =>
      writeCtl o s ((s.hosts.lookup k).map fun _ => { s with hosts := s.hosts.erase k })
  | .getMachine k, s => (readCtl o (s.machines.get k), s)
  | .updateMachine k m, s =>
      writeCtl o s ((s.machines.update k m).map fun machines => { s with machines := machines })
  | .getMachineDeployment k, s => (readCtl o (s.deployments.get k), s)
  | .updateMachineDeployment k d, s =>
      writeCtl o s ((s.deployments.update k d).map fun deployments => { s with
        deployments := deployments
        scaleDowns := ⟨k, (s.deployments.get k).bind (·.value.replicas), d.value.replicas⟩ ::
          s.scaleDowns })

/-- A call: what others did meanwhile, then the call. -/
def execCtl (o : CtlOutcome) (c : CtlCall) (s : CtlStore) : CtlResp c × CtlStore :=
  answer o c (s.after o)

/-! ## The command -/

/-- A function of the command; its errors are texts. -/
abbrev CtlM (α : Type) := GoM CtlCall CtlResp String Unit α

/-- Make one call. -/
def ctl (c : CtlCall) : CtlM (CtlResp c) := GoM.lift (Prog.perform c)

/-- `if err != nil { return fmt.Errorf(text + "%v", err) }`. -/
def orWrap {α : Type} (text : String) (x : CtlM α) : CtlM α := do
  match ← GoM.attempt x with
  | .ok a => pure a
  | .error e => GoM.throw (text ++ e)

/-- A response with a value. -/
def valueOf {α : Type} (r : Except String α) : CtlM α := GoM.ofExcept r

/-- A response that is an error or nothing. -/
def errorOf : Option String → CtlM Unit
  | none => pure ()
  | some e => GoM.throw e

/-- `GetByoHostObject`. -/
def getByoHostObject (ns : String) : CtlM ByoHost := do
  let hostName ← orWrap "error getting hostname: " (ctl .hostname >>= valueOf)
  orWrap "error getting ByoHosts: " (ctl (.getByoHost ⟨ns, hostName⟩) >>= valueOf)

/-- `DeleteByoHostObject`. -/
def deleteByoHostObject (ns : String) : CtlM Unit := do
  let hostName ← orWrap "error getting hostname: " (ctl .hostname >>= valueOf)
  ctl (.deleteByoHost ⟨ns, hostName⟩) >>= errorOf

/-- `GetUnstructuredMachineObject`. -/
def getUnstructuredMachineObject (ns machineName : String) : CtlM (Versioned MachineObject) :=
  orWrap "error getting machine object: " (ctl (.getMachine ⟨ns, machineName⟩) >>= valueOf)

/-- `AnnotateMachineObject`. -/
def annotateMachineObject (machineName : String) (machineObj : Versioned MachineObject)
    (ns annotationKey annotationValue : String) : CtlM Unit :=
  orWrap "error updating machine object: "
    (ctl (.updateMachine ⟨ns, machineName⟩ { machineObj with
      value := { machineObj.value with
        annotations := machineObj.value.annotations.insert annotationKey annotationValue } }) >>=
      errorOf)

/-- The name of the MachineDeployment of a Machine; a missing label reads as the empty string. -/
def machineDeploymentName (machineObj : Versioned MachineObject) : CtlM String :=
  let name := (machineObj.value.labels.get "cluster.x-k8s.io/deployment-name").getD ""
  if name = "" then
    GoM.throw "machine object does not have a machine deployment name as a label."
  else pure name

/-- `GetMachineDeploymentReplicaCount`. -/
def getMachineDeploymentReplicaCount (machineObj : Versioned MachineObject) (ns : String) :
    CtlM Int := do
  let name ← machineDeploymentName machineObj
  let deployment ← orWrap "error getting machine deployment object: "
    (ctl (.getMachineDeployment ⟨ns, name⟩) >>= valueOf)
  GoM.deref "Spec.Replicas" deployment.value.replicas

/-- `ScaleDownMachineDeployment`. -/
def scaleDownMachineDeployment (machineObj : Versioned MachineObject) (ns : String) :
    CtlM Unit := do
  let name ← machineDeploymentName machineObj
  let deployment ← orWrap "error getting machine deployment object: "
    (ctl (.getMachineDeployment ⟨ns, name⟩) >>= valueOf)
  let replicas ← GoM.deref "Spec.Replicas" deployment.value.replicas
  orWrap "error updating machine deployment object: "
    (ctl (.updateMachineDeployment ⟨ns, name⟩
      { deployment with value := ⟨some (replicas - 1)⟩ }) >>= errorOf)

/-- `WaitForMachineRefToBeUnsetTimeout`, in milliseconds. -/
def waitForMachineRefToBeUnsetTimeout : Nat := 5 * 60 * 1000

/-- The pause between two polls, in milliseconds. -/
def pollInterval : Nat := 5 * 1000

/-- The polls of `WaitForMachineRefToBeUnset`, at most `n` of them. -/
def pollMachineRef (ns : String) (startTime : Nat) : Nat → CtlM Unit
  | 0 => GoM.panic "out of polls"
  | n + 1 => do
      let now ← ctl .now
      if now - startTime > waitForMachineRefToBeUnsetTimeout then
        GoM.throw "timeout waiting for machineRef to be unset"
      else
      let byoHost ← orWrap "error getting byohost object: " (getByoHostObject ns)
      if byoHost.machineRef.isNone then pure ()
      else do
        ctl (.sleep pollInterval)
        pollMachineRef ns startTime n

/-- As many rounds as the timeout leaves room for: `pollMachineRef` with so many never runs out of
them. -/
def maxPolls : Nat := waitForMachineRefToBeUnsetTimeout / pollInterval + 2

/-- `WaitForMachineRefToBeUnset`. The host that is passed is not looked at: in the loop its name
stands for the host that was just read. -/
def waitForMachineRefToBeUnset (_byoHost : ByoHost) (ns : String) : CtlM Unit := do
  let startTime ← ctl .now
  pollMachineRef ns startTime maxPolls

/-- `AskBool`. A line that is too long comes without an error, whose text is asked for. -/
def askBool (msg : String) : CtlM Bool := do
  match ← ctl (.readLine msg) with
  | .error e => GoM.throw ("Unable to read i/p: " ++ e)
  | .ok (resp, isPrefix) =>
      if isPrefix then GoM.panic "err.Error()"
      else if resp = "y" ∨ resp = "Y" then pure true
      else if resp = "n" ∨ resp = "N" then pure false
      else GoM.throw ("Please provide input as y or n, provided: " ++ resp)

/-- `performHostDecommissionWithNoMachineRef`. -/
def performHostDecommissionWithNoMachineRef (ns : String) : CtlM Unit := do
  orWrap "failed to delete ByoHosts object: " (deleteByoHostObject ns)
  orWrap "failed to run dpkg purge: " (ctl .purgeDebianPackage >>= errorOf)

/-- The branch of `PerformHostOperation` for a host that could not be read. -/
def withoutByoHost : HostOperationType → CtlM Unit
  | .operationDecommission => do
      let continueDecommission ← orWrap "failed to get user input: "
        (askBool "Do you want to proceed with host cleanup? (y/n)")
      if continueDecommission then
        orWrap "failed to run dpkg purge: " (ctl .purgeDebianPackage >>= errorOf)
  | .operationDeauthorise =>
      GoM.throw ("Cannot proceed ahead with the deauthorisation. Either restart the " ++
        "pf9-byohost-agent service or decommission and re-onboard.")

/-- The question before the last node of a MachineDeployment is removed. -/
def lastNodeQuestion : String := "Do you want to continue with de-auth? (y/n)"

/-- The last node of a MachineDeployment is removed without a drain, and only when the user agrees. -/
def confirmLastNode (machineName : String) (machineObj : Versioned MachineObject) (ns : String) :
    CtlM Unit := do
  let continueDeauth ← orWrap "failed to get user input: " (askBool lastNodeQuestion)
  if continueDeauth then
    orWrap "failed to annotate the last machine object to be deauth: "
      (annotateMachineObject machineName machineObj ns
        "machine.cluster.x-k8s.io/exclude-node-draining" "")
  else GoM.throw "Info: De-auth cancelled by user."

/-- The part of `PerformHostOperation` that takes the Machine out of its MachineDeployment. -/
def removeMachine (ns machineName : String) : CtlM Unit := do
  let machineObj ← orWrap "failed to get machine object: "
    (getUnstructuredMachineObject ns machineName)
  let replicaCount ← orWrap "failed to get machine deployment replica count: "
    (getMachineDeploymentReplicaCount machineObj ns)
  GoM.when (replicaCount = 1) (confirmLastNode machineName machineObj ns)
  let machineObj ← orWrap "failed to get machine object: "
    (getUnstructuredMachineObject ns machineName)
  orWrap "failed to annotate machine object: "
    (annotateMachineObject machineName machineObj ns "cluster.x-k8s.io/delete-machine" "yes")
  orWrap "failed to scale down machine deployment: " (scaleDownMachineDeployment machineObj ns)

/-- `PerformHostOperation`. -/
def performHostOperation (operationType : HostOperationType) (ns : String) : CtlM Unit := do
  match ← ctl .statKubeconfig with
  | .error kubeconfigFilePath =>
      GoM.throw ("kubeconfig file not found at " ++ kubeconfigFilePath ++
        ". Please onboard the host first.")
  | .ok () =>
  orWrap "failed to get Kubernetes client: " (ctl .getK8sClient >>= errorOf)
  match ← GoM.attempt (getByoHostObject ns) with
  | .error _ => withoutByoHost operationType
  | .ok byoHost =>
  match byoHost.machineRef with
  | none =>
      match operationType with
      | .operationDecommission => performHostDecommissionWithNoMachineRef ns
      | .operationDeauthorise =>
          GoM.throw ("machineRef is not set for the byohost object. This host is not part of the " ++
            "cluster. Cannot proceed ahead with de-auth")
  | some machineRef => do
      removeMachine ns machineRef.name
      orWrap "failed to wait for machineRef to be unset: " (waitForMachineRefToBeUnset byoHost ns)
      GoM.when (operationType = .operationDecommission)
        (performHostDecommissionWithNoMachineRef ns)

/-! ## Runs of the command -/

/-- A run of the command with the outcomes of its calls, or an action of others. -/
inductive CtlAction where
  | run (operationType : HostOperationType) (os : List CtlOutcome)
  | env (e : CtlEnv)

/-- Take an action; the command is run in the namespace `ns`. -/
def ctlAct (ns : String) (s : CtlStore) : CtlAction → CtlStore
  | .run operationType os => (Prog.run execCtl os (performHostOperation operationType ns ()) s).2
  | .env e => ctlEnv s e

end Byoh.Model.HostOperations
