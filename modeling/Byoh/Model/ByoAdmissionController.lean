import Byoh.Foundation.WorkQueue
import Byoh.Model.Api

/-!
# The admission controller

`controllers/infrastructure/byoadmission_controller.go`. The controller approves the certificate
signing requests that it is asked to reconcile, unless they are approved or denied already. Which
requests it is asked for is decided by the event filter alone.

The store keeps, next to the signing requests, the names of those that the controller approved.
-/

set_option autoImplicit false

namespace Byoh.Model.ByoAdmissionReconciler

open Byoh.Foundation

/-! ## Signing requests and the calls on them -/

/-- `certv1.RequestConditionType`. -/
inductive RequestConditionType where
  | approved
  | denied
  | failed
  deriving DecidableEq, Repr

/-- `certv1.CertificateSigningRequestCondition`. -/
structure CSRCondition where
  type : RequestConditionType
  status : ConditionStatus
  reason : String
  deriving DecidableEq, Repr

/-- `certv1.CertificateSigningRequest`. -/
structure CSR where
  name : String
  conditions : List CSRCondition := []
  deriving DecidableEq, Repr

/-- The signing requests, and the names of those that were approved by `UpdateApproval`, latest
first. -/
structure CSRStore where
  csrs : AList fun _ : String => CSR
  approvals : List String := []

/-- The calls of the controller. -/
inductive CSRCall where
  | get (name : String)
  | updateApproval (csr : CSR)

@[reducible] def CSRResp : CSRCall → Type
  | .get _ => Except ApiError CSR
  | .updateApproval _ => Option ApiError

/-- Answer a call. -/
def execCSR (o : Outcome) : (c : CSRCall) → CSRStore → CSRResp c × CSRStore
  | .get name, s => (readObject o (s.csrs.lookup name), s)
  | .updateApproval csr, s =>
      if o.writeOk then
        match s.csrs.lookup csr.name with
        | some cur => (none, {
            csrs := s.csrs.insert csr.name { cur with conditions := csr.conditions }
            approvals := csr.name :: s.approvals })
        | none => (some .notFound, s)
      else (some .other, s)

/-- The program that makes one call. -/
abbrev csrCall (c : CSRCall) : Prog CSRCall CSRResp (CSRResp c) := Prog.perform c

/-! ## Reconcile -/

/-- `checkCSRCondition`. -/
def checkCSRCondition (conditions : List CSRCondition) (conditionType : RequestConditionType) :
    Bool :=
  conditions.any (·.type = conditionType)

/-- The condition that approves a signing request. -/
def approvedCondition : CSRCondition :=
  ⟨.approved, .conditionTrue, "Approved by ByoAdmission Controller"⟩

/-- `Reconcile`. -/
def reconcile (name : String) : Prog CSRCall CSRResp (Exit Err Result) := do
  match ← csrCall (.get name) with
  | .error .notFound => pure (.ok {})
  | .error e => pure (.err (.api e))
  | .ok csr =>
  if checkCSRCondition csr.conditions .approved || checkCSRCondition csr.conditions .denied then
    pure (.ok {})
  else
  match ← csrCall (.updateApproval { csr with
      conditions := csr.conditions ++ [approvedCondition] }) with
  | some e => pure (.err (.api e))
  | none => pure (.ok {})

/-! ## The controller -/

/-- `strings.HasPrefix(name, "byoh-csr-")`. -/
def isByohName (name : String) : Bool := "byoh-csr-".toList.isPrefixOf name.toList

/-- The event filter of `SetupWithManager`; deletions have no function. -/
def eventFilter : PredicateFuncs CSR where
  createFunc := some fun object => isByohName object.name
  updateFunc := some fun objectOld _ => isByohName objectOld.name

/-- What others do to signing requests. -/
inductive CSRAction where
  | create (csr : CSR)
  | update (name : String) (conditions : List CSRCondition)
  | delete (name : String)

/-- An action of others and its event; `none` when it is not possible. -/
def csrStep : CSRAction → CSRStore → Option (CSRStore × List (WatchEvent CSR))
  | .create csr, s =>
      if (s.csrs.lookup csr.name).isSome then none
      else some ({ s with csrs := s.csrs.insert csr.name csr }, [.create csr])
  | .update name conditions, s =>
      (s.csrs.lookup name).map fun old =>
        let new := { old with conditions := conditions }
        ({ s with csrs := s.csrs.insert name new }, [.update old new])
  | .delete name, s =>
      (s.csrs.lookup name).map fun old => ({ s with csrs := s.csrs.erase name }, [.delete old])

/-- The event of a change of one signing request. -/
def updateEvent (old new : Option CSR) : List (WatchEvent CSR) :=
  match old, new with
  | some old, some new => if old = new then [] else [.update old new]
  | _, _ => []

/-- The controller behind its watch and its work queue. -/
def controller : WatchSystem CSRStore String CSR CSRAction (List Outcome) where
  key := (·.name)
  filter := eventFilter
  env := csrStep
  reconcile name os s :=
    let r := Prog.run execCSR os (reconcile name) s
    (r.2, updateEvent (s.csrs.lookup name) (r.2.csrs.lookup name),
      match r.1 with | .err _ => true | _ => false)

end Byoh.Model.ByoAdmissionReconciler
