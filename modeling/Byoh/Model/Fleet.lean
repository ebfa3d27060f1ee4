import Byoh.Foundation.Interface
import Byoh.Foundation.Pool
import Byoh.Model.HostOperations

/-!
# byohctl on several hosts

Runs of `PerformHostOperation` on any number of machines at the same time, on one management
cluster. The calls of the runs interleave in any order; every machine has its own name and clock.

A `Fleet` also keeps the history that statements about the runs are about: the replicas that a run
found when it checked for the last node, and the runs whose user agreed to remove the last node. No
call reads it.
-/

set_option autoImplicit false

namespace Byoh.Model.HostOperations

open Byoh.Foundation

/-- A run of the command on a machine; a machine may have several. -/
structure HostRun where
  hostname : String
  operationType : HostOperationType
  session : Nat := 0
  deriving DecidableEq, Repr

/-- The management cluster, the clocks of the machines and the history of the runs. -/
structure Fleet where
  ctl : CtlStore
  clock : String → Nat := fun _ => 0
  /-- The replicas that the check of a run has read. -/
  checked : HostRun → Option Int := fun _ => none
  /-- The runs whose user answered yes to the question about the last node. -/
  confirmed : List HostRun := []

/-- What the calls of a run meet: the cluster, and the name and the clock of its machine. -/
def Fleet.on (f : Fleet) (t : HostRun) : CtlStore :=
  { f.ctl with hostname := t.hostname, clock := f.clock t.hostname }

/-- The answer to a question is yes, as `AskBool` reads it. -/
def saysYes : Except String (String × Bool) → Bool
  | .ok (resp, isPrefix) => !isPrefix && (resp = "y" || resp = "Y")
  | .error _ => false

/-- The history after a call: a run begins with `statKubeconfig`, the first MachineDeployment that it
reads is the one of its check. -/
def Fleet.note (f : Fleet) (t : HostRun) : (c : CtlCall) → CtlResp c → Fleet
  | .statKubeconfig, _ => { f with checked := Function.update f.checked t none }
  | .getMachineDeployment _, .ok d =>
      if (f.checked t).isNone then
        { f with checked := Function.update f.checked t d.value.replicas }
      else f
  | .readLine question, r =>
      if question = lastNodeQuestion && saysYes r then { f with confirmed := t :: f.confirmed } else f
  | _, _ => f

/-- A call of a run. -/
def execFleet (o : CtlOutcome) (c : HostRun × CtlCall) (f : Fleet) : CtlResp c.2 × Fleet :=
  let r := execCtl o c.2 (f.on c.1)
  let f' := { f with ctl := r.2, clock := Function.update f.clock c.1.hostname r.2.clock }
  (r.1, f'.note c.1 c.2 r.1)

/-- Interleaved runs in the namespace `ns`, and others. -/
def fleet (ns : String) :
    PoolSystem (HostRun × CtlCall) (fun c => CtlResp c.2) CtlOutcome Fleet HostRun CtlEnv where
  prog t := ((performHostOperation t.operationType ns ()).tag t).bind fun _ => .ret ()
  exec := execFleet
  env e f := some { f with ctl := ctlEnv f.ctl e }

end Byoh.Model.HostOperations
