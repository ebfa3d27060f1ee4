import Byoh.Model.ByoMachineController
import Byoh.Model.ByoHostController
import Byoh.Model.HostReconciler

/-!
# Edits of hosts and their effect on the API server

Every write of the controllers to a host is the patch from the host in memory to an edit of it.
The patch is applied to the host as it is on the server by then, so its effect is stated for an
arbitrary current host: `ByoHost.merge` for metadata and spec, `ByoHost.mergeStatus` for the
status.
-/

set_option autoImplicit false

namespace Byoh.Model

open Byoh.Foundation

/-! ## Merging references -/

@[simp] theorem mergeRef_self (r cur : Option ObjectReference) : mergeRef r r cur = cur := by
  simp [mergeRef]

@[simp] theorem mergeRef_before (before after : Option ObjectReference) :
    mergeRef before after before = after := by
  unfold mergeRef
  split
  · assumption
  · cases after with
    | none => rfl
    | some a => simp

theorem mergeRef_some_none {before : ObjectReference} (cur : Option ObjectReference) :
    mergeRef (some before) none cur = none := by
  simp [mergeRef]

/-- A patch that removes a reference, or does not touch it. -/
theorem mergeRef_none (before cur : Option ObjectReference) :
    mergeRef before none cur = if before = none then cur else none := by
  cases before <;> simp [mergeRef]

/-! ## Labels of hosts -/

namespace ByoHost

/-- The value of `AttachedByoMachineLabel`. -/
def attachedLabel (h : ByoHost) : Option String := h.labels.get .attachedByoMachine

/-- The value of `ClusterNameLabel`. -/
def clusterLabel (h : ByoHost) : Option String := h.labels.get .clusterName

@[simp] theorem merge_key (before after cur : ByoHost) :
    (before.merge after cur).key = cur.key := rfl

@[simp] theorem mergeStatus_key (before after cur : ByoHost) :
    (before.mergeStatus after cur).key = cur.key := rfl

theorem merge_attachedLabel (before after cur : ByoHost) :
    (before.merge after cur).attachedLabel =
      mergeField before.attachedLabel after.attachedLabel cur.attachedLabel :=
  GoMap.get_merge ..

theorem merge_clusterLabel (before after cur : ByoHost) :
    (before.merge after cur).clusterLabel =
      mergeField before.clusterLabel after.clusterLabel cur.clusterLabel :=
  GoMap.get_merge ..

theorem merge_carries (before after cur : ByoHost) (k : AnnotationKey) :
    (before.merge after cur).carries k =
      (mergeField (before.annotations.get k) (after.annotations.get k)
        (cur.annotations.get k)).isSome := by
  simp [carries, merge]

@[simp] theorem mergeStatus_attachedLabel (before after cur : ByoHost) :
    (before.mergeStatus after cur).attachedLabel = cur.attachedLabel := rfl

@[simp] theorem mergeStatus_clusterLabel (before after cur : ByoHost) :
    (before.mergeStatus after cur).clusterLabel = cur.clusterLabel := rfl

@[simp] theorem mergeStatus_carries (before after cur : ByoHost) (k : AnnotationKey) :
    (before.mergeStatus after cur).carries k = cur.carries k := rfl

/-- Metadata and spec are the same when no patch of them is sent. -/
theorem spec_of_not_changed {before after : ByoHost} (hsame : before.changed after = false) :
    (∀ k, before.labels.get k = after.labels.get k) ∧
      (∀ k, before.annotations.get k = after.annotations.get k) ∧
      before.bootstrapSecret = after.bootstrapSecret ∧
      before.installationSecret = after.installationSecret ∧
      before.uninstallationSecret = after.uninstallationSecret := by
  simp only [ByoHost.changed, Bool.not_eq_false', Bool.and_eq_true, GoMap.same_iff,
    decide_eq_true_eq] at hsame
  obtain ⟨⟨⟨⟨hl, ha⟩, hb⟩, hi⟩, hu⟩ := hsame
  exact ⟨hl, ha, hb, hi, hu⟩

/-- The status is the same when no patch of it is sent. -/
theorem status_of_not_changed {before after : ByoHost}
    (hsame : before.statusChanged after = false) :
    before.machineRef = after.machineRef ∧ before.hostDetails = after.hostDetails ∧
      before.network = after.network := by
  simp only [ByoHost.statusChanged, Bool.not_eq_false', Bool.and_eq_true, decide_eq_true_eq] at hsame
  exact ⟨hsame.1.1, hsame.1.2, hsame.2⟩

/-- A patch that is not sent leaves the annotations as they are. -/
theorem annotations_of_not_changed {before after : ByoHost} (hsame : before.changed after = false)
    (key : AnnotationKey) : after.annotations.get key = before.annotations.get key :=
  ((spec_of_not_changed hsame).2.1 key).symm

/-- The host is in a cluster exactly when it names a machine. -/
def LabelsPaired (h : ByoHost) : Prop := h.clusterLabel = none ↔ h.attachedLabel = none

end ByoHost

end Byoh.Model

namespace Byoh.Protocol

open Byoh.Foundation Byoh.Model Byoh.Model.ByoMachineReconciler

/-- The next request of a deferred patch. -/
inductive PatchPart where
  | conditions
  | spec
  | status
  deriving DecidableEq, Repr

/-- The next request of a patch without conditions. -/
inductive HostPart where
  | spec
  | status
  | done
  deriving DecidableEq, Repr

/-! ## Edits of the ByoMachine controller -/

/-- What the ByoMachine controller writes to a host. -/
inductive HostEdit where
  | pause (isPaused : Bool)
  | mark (upgradeInProgress : Bool)
  | attach (attachment : Attachment)
  | install (ref : ObjectReference)
  | uninstall (ref : ObjectReference)
  deriving DecidableEq, Repr

namespace HostEdit

/-- The edited host. -/
def apply : HostEdit → ByoHost → ByoHost
  | .pause isPaused => pausedHost isPaused
  | .mark upgradeInProgress => markedHost upgradeInProgress
  | .attach attachment => attachment.apply
  | .install ref => withInstallationSecret ref
  | .uninstall ref => withUninstallationSecret ref

/-- The edit attaches the host. -/
def isAttach : HostEdit → Bool
  | .attach _ => true
  | _ => false

@[simp] theorem apply_conditions (e : HostEdit) (h : ByoHost) :
    (e.apply h).conditions = h.conditions := by
  cases e <;> simp [apply, pausedHost, markedHost, Attachment.apply, withInstallationSecret,
    withUninstallationSecret, apply_ite]

@[simp] theorem apply_key (e : HostEdit) (h : ByoHost) : (e.apply h).key = h.key := by
  cases e <;> simp [apply, pausedHost, markedHost, Attachment.apply, withInstallationSecret,
    withUninstallationSecret, apply_ite, ByoHost.key]

@[simp] theorem apply_hostDetails (e : HostEdit) (h : ByoHost) :
    (e.apply h).hostDetails = h.hostDetails := by
  cases e <;> simp [apply, pausedHost, markedHost, Attachment.apply, withInstallationSecret,
    withUninstallationSecret, apply_ite]

/-- Only an attachment sets the machine reference. -/
theorem apply_machineRef {e : HostEdit} (he : e.isAttach = false) (h : ByoHost) :
    (e.apply h).machineRef = h.machineRef := by
  cases e with
  | attach a => cases he
  | _ => simp [apply, pausedHost, markedHost, withInstallationSecret, withUninstallationSecret,
      apply_ite]

/-- Only an attachment sets the bootstrap secret. -/
theorem apply_bootstrapSecret {e : HostEdit} (he : e.isAttach = false) (h : ByoHost) :
    (e.apply h).bootstrapSecret = h.bootstrapSecret := by
  cases e with
  | attach a => cases he
  | _ => simp [apply, pausedHost, markedHost, withInstallationSecret, withUninstallationSecret,
      apply_ite]

end HostEdit

end Byoh.Protocol
