import Byoh.Foundation.Interface
import Byoh.Model.HostOperations

/-!
# The calls of byohctl

Which calls the functions of `PerformHostOperation` make. Most of them only read the host, read and
annotate the Machine, or wait; these calls are `isPlain`. The others are the first call of a run, the
questions to the user, and the reads and updates of the MachineDeployment.

Every lemma is for a class `p` of calls that contains the plain ones, so that each property of the
command chooses what it tells apart.
-/

set_option autoImplicit false

namespace Byoh.Model.HostOperations

open Byoh.Foundation

/-- The calls that neither begin a run nor ask the user nor touch a MachineDeployment. -/
def isPlain : CtlCall → Bool
  | .statKubeconfig | .readLine _ | .getMachineDeployment _ | .updateMachineDeployment _ _ => false
  | _ => true

variable {p : CtlCall → Prop} {ns : String} {α β : Type}

/-- Wrapping an error makes no call. -/
theorem orWrap_only {text : String} {x : CtlM α} (hx : x.Only p) : (orWrap text x).Only p := by
  refine .bind hx.attempt fun r => ?_
  cases r with
  | ok a => exact .pure a
  | error e => exact .throw _

theorem valueOf_only (r : Except String α) : (valueOf r).Only p := by
  cases r with
  | ok a => exact .pure a
  | error e => exact .throw e

theorem errorOf_only (r : Option String) : (errorOf r).Only p := by
  cases r with
  | none => exact .pure ()
  | some e => exact .throw e

theorem machineDeploymentName_only (m : Versioned MachineObject) :
    (machineDeploymentName m).Only p := by
  rw [machineDeploymentName]
  split
  · exact .throw _
  · exact .pure _

theorem getMachineDeploymentReplicaCount_only (hget : ∀ k, p (.getMachineDeployment k))
    (m : Versioned MachineObject) : (getMachineDeploymentReplicaCount m ns).Only p := by
  refine .bind (machineDeploymentName_only m) fun name => ?_
  refine .bind (orWrap_only (.call (hget _) valueOf_only)) fun deployment => ?_
  cases deployment.value.replicas with
  | none => exact .panic _
  | some n => exact .pure n

theorem askBool_only {msg : String} (hask : p (.readLine msg)) : (askBool msg).Only p := by
  refine .call hask fun r => ?_
  match r with
  | .error e => exact .throw _
  | .ok (resp, isPrefix) =>
    dsimp only
    split_ifs
    · exact .panic _
    · exact .pure _
    · exact .pure _
    · exact .throw _

section Plain

variable (hp : ∀ c, isPlain c = true → p c)
include hp

theorem getByoHostObject_only : (getByoHostObject ns).Only p := by
  refine .bind (orWrap_only (.call (hp _ rfl) valueOf_only)) fun name => ?_
  exact orWrap_only (.call (hp _ rfl) valueOf_only)

theorem getUnstructuredMachineObject_only (name : String) :
    (getUnstructuredMachineObject ns name).Only p :=
  orWrap_only (.call (hp _ rfl) valueOf_only)

theorem annotateMachineObject_only (name : String) (m : Versioned MachineObject)
    (key value : String) : (annotateMachineObject name m ns key value).Only p :=
  orWrap_only (.call (hp _ rfl) errorOf_only)

/-- The question about the last node reads, and asks the operator. -/
theorem confirmLastNode_only (hask : p (.readLine lastNodeQuestion)) (name : String)
    (m : Versioned MachineObject) : (confirmLastNode name m ns).Only p := by
  refine .bind (orWrap_only (askBool_only hask)) fun continueDeauth => ?_
  split
  · exact orWrap_only (annotateMachineObject_only hp name m _ _)
  · exact .throw _

theorem purge_only :
    (orWrap "failed to run dpkg purge: " (ctl .purgeDebianPackage >>= errorOf)).Only p :=
  orWrap_only (.call (hp _ rfl) errorOf_only)

theorem performHostDecommissionWithNoMachineRef_only :
    (performHostDecommissionWithNoMachineRef ns).Only p := by
  refine .bind (orWrap_only ?_) fun _ => purge_only hp
  exact .bind (orWrap_only (.call (hp _ rfl) valueOf_only)) fun _ => .call (hp _ rfl) errorOf_only

/-- Without a host object the command asks before it cleans up. -/
theorem withoutByoHost_only
    (hask : p (.readLine "Do you want to proceed with host cleanup? (y/n)"))
    (op : HostOperationType) : (withoutByoHost op).Only p := by
  cases op with
  | operationDeauthorise => exact .throw _
  | operationDecommission =>
    refine .bind (orWrap_only (askBool_only hask)) fun continueDecommission => ?_
    split
    · exact purge_only hp
    · exact .pure _

theorem pollMachineRef_only (startTime n : Nat) : (pollMachineRef ns startTime n).Only p := by
  induction n with
  | zero => exact .panic _
  | succ n ih =>
    refine .call (hp _ rfl) fun now => ?_
    split
    · exact .throw _
    · refine .bind (orWrap_only (getByoHostObject_only hp)) fun byoHost => ?_
      split
      · exact .pure _
      · exact .call (hp _ rfl) fun _ => ih

/-- Waiting for the machine reference only reads. -/
theorem waitForMachineRefToBeUnset_only (byoHost : ByoHost) :
    (waitForMachineRefToBeUnset byoHost ns).Only p :=
  .call (hp _ rfl) fun startTime => pollMachineRef_only hp startTime maxPolls

end Plain

/-! ## Phases -/

section Phases

variable {Q : Type} {next : Q → (c : CtlCall) → CtlResp c → Q → Prop} {silent : Q → Q → Prop}
  {q : Q} {x : CtlM α}

/-- An error is passed on in the phase it was returned in. -/
theorem orWrap_follows {post : Exit String α → Unit → Q → Prop} {text : String}
    (hx : x.Follows next silent (fun e _ q' => match e with
      | .ok a => post (.ok a) () q'
      | .err e => post (.err (text ++ e)) () q'
      | .panic m => post (.panic m) () q') () q) :
    (orWrap text x).Follows next silent post () q := by
  refine .attempt_bind (hx.mono ?_)
  rintro e ⟨⟩ q' he
  cases e with
  | ok a => exact .pure he
  | err e => exact .throw he
  | panic m => exact he

/-- A function whose calls the phase does not distinguish may end a run. -/
theorem ends_of_only (hx : x.Only p) (hnext : ∀ c r, p c → next q c r q) :
    x.Follows next silent (fun _ _ _ => True) () q :=
  (hx.follows hnext ()).mono fun _ _ _ _ => trivial

/-- A function whose calls the phase does not distinguish, then the rest of a run. -/
theorem then_of_only {f : α → CtlM β} (hx : x.Only p) (hnext : ∀ c r, p c → next q c r q)
    (hf : ∀ a, (f a).Follows next silent (fun _ _ _ => True) () q) :
    (x >>= f).Follows next silent (fun _ _ _ => True) () q := by
  refine .bind ((hx.follows hnext ()).mono ?_)
  rintro e ⟨⟩ q' rfl
  cases e with
  | ok a => exact hf a
  | err e => trivial
  | panic m => trivial

/-- The read and the update of the MachineDeployment. -/
theorem scaleDownMachineDeployment_follows {failed settled : Q}
    {scaling : NamespacedName → Versioned MachineDeployment → Q} (m : Versioned MachineObject)
    (hread : ∀ k d, next q (.getMachineDeployment k) (.ok d) (scaling k d))
    (hfailed : ∀ k e, next q (.getMachineDeployment k) (.error e) failed)
    (hscaled : ∀ k d n r, d.value.replicas = some n →
      next (scaling k d) (.updateMachineDeployment k { d with value := ⟨some (n - 1)⟩ }) r settled) :
    (scaleDownMachineDeployment m ns).Follows next silent (fun _ _ _ => True) () q := by
  refine then_of_only (p := fun _ => False) (machineDeploymentName_only m)
    (fun _ _ h => h.elim) fun name => ?_
  refine .bind (orWrap_follows (.lift_bind (.call
    (fun r : Except String (Versioned MachineDeployment) => match r with
      | .ok d => scaling ⟨ns, name⟩ d
      | .error _ => failed) (fun r => ?_) fun r => .ret ?_)))
  · cases r with
    | ok d => exact hread _ d
    | error e => exact hfailed _ e
  cases r with
  | error e => exact .throw trivial
  | ok d =>
    refine .pure (.bind ?_)
    cases hn : d.value.replicas with
    | none => exact .panic trivial
    | some n =>
      refine .pure (orWrap_follows (.lift_bind (.call (fun _ => settled)
        (fun r => hscaled _ d n r hn) fun r => .ret ?_)))
      cases r with
      | none => exact .pure trivial
      | some e => exact .throw trivial

/-- A run, when the phases only tell the calls for its host and for the Machine of this host apart. -/
theorem performHostOperation_follows {R : Exit String ByoHost → Q → Prop} {q₁ : Q}
    (op : HostOperationType) (hp : ∀ c, isPlain c = true → p c)
    (hask : p (.readLine "Do you want to proceed with host cleanup? (y/n)"))
    (hnext : ∀ {q} c r, p c → next q c r q) (hbegun : ∀ r, next q .statKubeconfig r q₁)
    (hhost : (getByoHostObject ns).Follows next silent (fun e _ => R e) () q₁)
    (hremove : ∀ h machineRef q, R (.ok h) q → h.machineRef = some machineRef →
      (removeMachine ns machineRef.name).Follows next silent (fun _ _ _ => True) () q) :
    (performHostOperation op ns).Follows next silent (fun _ _ _ => True) () q := by
  refine .lift_bind (.call (fun _ => q₁) hbegun fun r => .ret ?_)
  cases r with
  | error path => exact .throw trivial
  | ok _ =>
  refine then_of_only (orWrap_only (.call (hp _ rfl) errorOf_only)) hnext fun _ => ?_
  refine .attempt_bind (hhost.mono ?_)
  rintro e ⟨⟩ q hq
  cases e with
  | panic m => trivial
  | err e => exact ends_of_only (withoutByoHost_only hp hask op) hnext
  | ok h =>
    dsimp only
    cases href : h.machineRef with
    | none =>
      cases op with
      | operationDeauthorise => exact .throw trivial
      | operationDecommission =>
        exact ends_of_only (performHostDecommissionWithNoMachineRef_only hp) hnext
    | some machineRef =>
      refine .bind ((hremove h machineRef q hq href).mono ?_)
      rintro e ⟨⟩ q -
      cases e with
      | err e => trivial
      | panic m => trivial
      | ok _ =>
        refine then_of_only (orWrap_only (waitForMachineRefToBeUnset_only hp h)) hnext fun _ => ?_
        exact ends_of_only (.when (performHostDecommissionWithNoMachineRef_only hp)) hnext

end Phases

end Byoh.Model.HostOperations
