import Byoh.Model.System

/-!
# The ByoHost webhook, and deletions

`ByoHostValidator` admits or denies requests on hosts. An attached host may not be deleted, unless
the machine it names is not found in the namespace of the host.

The objects of the management cluster are deleted by users, who may delete hosts as far as the
webhook admits it, and by the garbage collector of the API server, which deletes configurations
whose machine is gone. A configuration that has a finalizer is only marked for deletion; its
controller removes the finalizer.
-/

set_option autoImplicit false

namespace Byoh.Model

open Byoh.Foundation

namespace ByoHostValidator

/-! ## Requests -/

inductive Operation where
  | create
  | update
  | delete
  | connect
  deriving DecidableEq, Repr

/-- `admission.Request`; an object that cannot be decoded is `none`. -/
structure Request where
  operation : Operation
  userName : String := ""
  object : Option ByoHost := none
  oldObject : Option ByoHost := none

/-- `admission.Response`: `Allowed`, `Denied`, or `Errored` with a bad request. -/
inductive Response where
  | allowed
  | denied (message : String)
  | errored
  deriving DecidableEq, Repr

def managerServiceAccounts : List String :=
  ["system:serviceaccount:kaapi:byoh-controller-manager",
    "system:serviceaccount:byoh-system:byoh-controller-manager"]

/-- `[a-zA-Z0-9._%+-]+` -/
def isLocalPart (cs : List Char) : Bool :=
  !cs.isEmpty && cs.all fun c => c.isAlphanum || ['.', '_', '%', '+', '-'].contains c

/-- `[a-zA-Z0-9.-]+\.[a-zA-Z]{2,}`. The last part has no dot, so it starts after the last one. -/
def isDomain (cs : List Char) : Bool :=
  let tld := (cs.reverse.takeWhile (· ≠ '.')).reverse
  let dotted := cs.take (cs.length - tld.length)
  2 ≤ tld.length && tld.all Char.isAlpha && 2 ≤ dotted.length &&
    dotted.all fun c => c.isAlphanum || ['.', '-'].contains c

/-- `emailLikeUserRegex.MatchString`. -/
def isEmailLike (userName : String) : Bool :=
  match userName.toList.splitOn '@' with
  | [localPart, domain] => isLocalPart localPart && isDomain domain
  | _ => false

/-- `handleCreateUpdate`. -/
def handleCreateUpdate (req : Request) : Response :=
  match req.object with
  | none => .errored
  | some _ =>
    if managerServiceAccounts.contains req.userName then .allowed
    else if isEmailLike req.userName then .allowed
    else if (req.userName.toList.splitOn ':').length < 2 then
      .denied (req.userName ++ " is not a valid agent username")
    else .allowed

/-- `handleDelete`. -/
def handleDelete (req : Request) : ApiProg Response :=
  match req.oldObject with
  | none => pure .errored
  | some byoHost =>
    match byoHost.machineRef with
    | none => pure .allowed
    | some machineRef => do
      match ← call (.getByoMachine ⟨byoHost.ns, machineRef.name⟩) with
      | .error .notFound => pure .allowed
      | .error _ => pure (.denied "cannot delete ByoHost when byomachine exists")
      | .ok _ => pure (.denied "cannot delete ByoHost when MachineRef is assigned")

/-- `Handle`. -/
def handle (req : Request) : ApiProg Response :=
  match req.operation with
  | .create | .update => pure (handleCreateUpdate req)
  | .delete => handleDelete req
  | .connect => pure .allowed

end ByoHostValidator

/-! ## Deletions -/

/-- All owners of the configuration are machines that are gone. An owner is the object with its
name and its UID. -/
def InstallerConfig.isOrphan (c : InstallerConfig) (w : World) : Bool :=
  !c.ownerReferences.isEmpty && c.ownerReferences.all fun owner => owner.kind == "ByoMachine" &&
    !(w.machines.lookup ⟨c.ns, owner.name⟩).any fun m => m.uid == owner.uid

/-- A step of a site, or a deletion. -/
inductive DeletionAction where
  | site (a : Action)
  | deleteByoHost (key : NamespacedName) (userName : String) (os : List Outcome)
  | collectGarbage (key : InstallerKey)

/-- A user deletes a host; nothing happens unless the webhook admits it. Hosts have no finalizers.
An informer is not told, so this is for worlds in which hosts are read from the server. -/
def World.deleteByoHost (w : World) (key : NamespacedName) (userName : String) (os : List Outcome) :
    World :=
  match w.hosts.lookup key with
  | none => w
  | some byoHost =>
    match (Prog.run exec os (ByoHostValidator.handle
      { operation := .delete, userName, oldObject := some byoHost }) w).1 with
    | .allowed => { w with hosts := w.hosts.erase key }
    | _ => w

/-- The garbage collector deletes a configuration whose owner is gone. -/
def World.collectGarbage (w : World) (key : InstallerKey) : World :=
  match w.installerConfigs.lookup key with
  | none => w
  | some c =>
    if c.isOrphan w then w.setInstallerConfig key { c with deletionTimestamp := true } else w

/-- One step. -/
def Setup.actOrDelete (setup : Setup) (s : Site) : DeletionAction → Site
  | .site a => setup.act s a
  | .deleteByoHost key userName os => { s with world := s.world.deleteByoHost key userName os }
  | .collectGarbage key => { s with world := s.world.collectGarbage key }

end Byoh.Model
