import Byoh.Protocol.MachinePhases
import Byoh.Protocol.ControllerPhases
import Byoh.Protocol.SiteSteps

/-!
# What the manager writes to hosts

Whatever the manager's reconciles do and however their calls fail, a host changes by a sequence of
`ManagerWrite`s. None of them touches a condition or takes the cleanup annotation away.
-/

set_option autoImplicit false

namespace Byoh.Protocol

open Byoh.Foundation Byoh.Model Byoh.Model.ByoHostReconciler

/-- A write of the manager to the host `cur` on the server; the host in the manager's memory may
be any older version. -/
inductive ManagerWrite (cur : ByoHost) : ByoHost → Prop
  | spec (e : HostEdit) (before : ByoHost) : ManagerWrite cur (before.merge (e.apply before) cur)
  | status (e : HostEdit) (before : ByoHost) :
      ManagerWrite cur (before.mergeStatus (e.apply before) cur)
  | clear (before : ByoHost) : ManagerWrite cur (before.merge (clearedHost before) cur)

/-! ## The calls of the manager -/

/-- A call that changes hosts by manager writes only. -/
def IsManagerCall (c : Call) : Prop :=
  c.writes ≠ some .hosts ∨ (∃ k e before, c = .patchByoHost k before (HostEdit.apply e before)) ∨
    (∃ k e before, c = .patchByoHostStatus k before (HostEdit.apply e before)) ∨
    ∃ k before, c = .patchByoHost k before (clearedHost before)

theorem isManagerCall_of_isQuiet {c : Call} (hc : isQuiet c = true) : IsManagerCall c := by
  left
  cases c <;> simp_all [isQuiet, Call.writes]

/-- The reconciler of machines makes only calls of the manager. -/
theorem MachineNext.isManagerCall {k : NamespacedName} {q q' : MachinePhase} {c : Call} {r : Resp c}
    (h : MachineNext k q c r q') : IsManagerCall c := by
  cases h with
  | quiet hc => exact isManagerCall_of_isQuiet hc
  | specWritten _ => exact .inr (.inl ⟨_, _, _, rfl⟩)
  | statusWritten _ _ => exact .inr (.inr (.inl ⟨_, _, _, rfl⟩))
  | _ => exact .inl (by simp [Call.writes])

theorem ConfigNext.isManagerCall {k : NamespacedName} {q q' : ConfigPhase} {c : Call} {r : Resp c}
    (h : ConfigNext k q c r q') : IsManagerCall c := by
  cases h <;> exact .inl (by simp [Call.writes])

theorem HostNext.isManagerCall {k : NamespacedName} {q q' : HostPhase} {c : Call} {r : Resp c}
    (h : HostNext k q c r q') : IsManagerCall c := by
  cases h with
  | cleared => exact .inr (.inr (.inr ⟨_, _, rfl⟩))
  | _ => exact .inl (by simp [Call.writes])

/-- Any number of manager writes. -/
abbrev ManagerWrites : ByoHost → ByoHost → Prop := Relation.ReflTransGen ManagerWrite

/-- A call of the manager writes to hosts only what the manager writes. -/
theorem IsManagerCall.hostsVia {c : Call} (hc : IsManagerCall c) (o : Outcome) (w : World) :
    HostsVia ManagerWrites w (exec o c w).2 := by
  have hrefl : ∀ h : ByoHost, ManagerWrites h h := fun _ => .refl
  rcases hc with hc | ⟨k, e, b, rfl⟩ | ⟨k, e, b, rfl⟩ | ⟨k, b, rfl⟩
  · exact .of_hosts_eq hrefl (exec_hosts o w hc)
  · rcases exec_patchByoHost o w k b (e.apply b) with ⟨cur, hcur, hw⟩ | ⟨_, hw, _⟩ <;> rw [hw]
    · exact .setHost hrefl hcur (.single (.spec e b))
    · exact .refl hrefl w
  · rcases exec_patchByoHostStatus o w k b (e.apply b) with ⟨cur, hcur, hw⟩ | ⟨_, hw, _⟩ <;> rw [hw]
    · exact .setHost hrefl hcur (.single (.status e b))
    · exact .refl hrefl w
  · rcases exec_patchByoHost o w k b (clearedHost b) with ⟨cur, hcur, hw⟩ | ⟨_, hw, _⟩ <;> rw [hw]
    · exact .setHost hrefl hcur (.single (.clear b))
    · exact .refl hrefl w

/-- A program whose calls are all manager calls changes hosts by manager writes only. -/
theorem run_hostsVia {Q α : Type} {next : Q → (c : Call) → Resp c → Q → Prop}
    {silent : Q → Q → Prop} (hnext : ∀ {q c r q'}, next q c r q' → IsManagerCall c)
    {p : ApiProg α} {q : Q} (hp : Prog.Follows next silent (fun _ _ => True) p q)
    (os : List Outcome) (w : World) : HostsVia ManagerWrites w (Prog.run exec os p w).2 := by
  obtain ⟨_, _, h⟩ := hp.run exec (J := fun w' _ => HostsVia ManagerWrites w w')
    (fun o w' c q q' hJ hn => hJ.trans .trans ((hnext hn).hostsVia o w')) (fun _ _ _ hJ _ => hJ)
    (.refl (fun _ => .refl) w) os
  exact h

/-- The reconcile belongs to the manager. -/
def isManager : Tid → Bool
  | .agent _ => false
  | _ => true

/-- So does a whole reconcile of any of its controllers. -/
theorem manager_hostsVia (setup : Setup) {t : Tid} (ht : isManager t = true) (os : List Outcome)
    (w : World) : HostsVia ManagerWrites w (Prog.run exec os (setup.program t) w).2 := by
  cases t with
  | byoMachine k =>
    exact run_hostsVia MachineNext.isManagerCall
      (.bind ((reconcile_follows k).mono fun _ _ _ => .ret trivial)) os w
  | k8sInstallerConfig k =>
    exact run_hostsVia ConfigNext.isManagerCall
      (.bind ((configReconcile_follows _ k).mono fun _ _ _ => .ret trivial)) os w
  | byoHost k =>
    exact run_hostsVia HostNext.isManagerCall
      (.bind ((hostReconcile_follows k).mono fun _ _ _ => .ret trivial)) os w
  | agent k => cases ht

/-- The environment does not touch hosts. -/
theorem envStep_hosts {a : EnvAction} {w w' : World} (h : envStep a w = some w') :
    w'.hosts = w.hosts := by
  cases a <;> simp only [envStep, Option.map_eq_some_iff, Option.some.injEq] at h
  case createByoMachine m =>
    split at h
    · cases h
    · cases h
      rfl
  case deleteByoMachine | pauseByoMachine | deliver =>
    obtain ⟨_, _, rfl⟩ := h
    rfl
  all_goals
    subst h
    rfl

/-! ## What manager writes keep -/

theorem ManagerWrite.key {h h' : ByoHost} (hw : ManagerWrite h h') : h'.key = h.key := by
  cases hw <;> rfl

/-- The manager writes no condition of a host. -/
theorem ManagerWrite.conditions {h h' : ByoHost} (hw : ManagerWrite h h') :
    h'.conditions = h.conditions := by
  cases hw <;> rfl

/-- No edit takes the cleanup annotation away. -/
theorem HostEdit.apply_cleanup (e : HostEdit) (h : ByoHost) :
    (e.apply h).annotations.get .hostCleanup = h.annotations.get .hostCleanup ∨
      (e.apply h).annotations.get .hostCleanup = some "" := by
  cases e with
  | pause b => cases b <;> simp [apply, ByoMachineReconciler.pausedHost]
  | mark u => simp [apply, ByoMachineReconciler.markedHost]
  | attach a => simp [apply, ByoMachineReconciler.Attachment.apply]
  | install ref => exact .inl rfl
  | uninstall ref => exact .inl rfl

/-- The manager does not remove the cleanup mark. -/
theorem ManagerWrite.cleanup {h h' : ByoHost} (hw : ManagerWrite h h')
    (hm : h.carries .hostCleanup = true) : h'.carries .hostCleanup = true := by
  cases hw with
  | spec e b =>
    rw [ByoHost.merge_carries]
    rcases e.apply_cleanup b with he | he <;> rw [he]
    · rwa [mergeField_self]
    · rw [mergeField]
      split
      · exact hm
      · rfl
  | status e b => exact hm
  | clear b => rwa [ByoHost.merge_carries, clearedHost, mergeField_self]

/-- What any number of manager writes keep. -/
theorem ManagerWrites.keeps {h h' : ByoHost} (hw : ManagerWrites h h') :
    h'.key = h.key ∧ h'.conditions = h.conditions ∧
      (h.carries .hostCleanup = true → h'.carries .hostCleanup = true) := by
  induction hw with
  | refl => exact ⟨rfl, rfl, id⟩
  | tail _ hlast ih =>
    exact ⟨hlast.key.trans ih.1, hlast.conditions.trans ih.2.1, hlast.cleanup ∘ ih.2.2⟩

/-- A patch that sets a reference, or leaves it alone, removes none. -/
theorem mergeRef_ne_none {before after cur : Option ObjectReference} (hcur : cur ≠ none)
    (h : after = before ∨ after ≠ none) : mergeRef before after cur ≠ none := by
  rcases h with rfl | h
  · rwa [mergeRef_self]
  · rw [mergeRef]
    split
    · exact hcur
    · simpa using h

/-- The manager does not unset the machine reference. -/
theorem ManagerWrites.machineRef {h h' : ByoHost} (hw : ManagerWrites h h')
    (href : h.machineRef ≠ none) : h'.machineRef ≠ none := by
  induction hw with
  | refl => exact href
  | tail _ hlast ih =>
    cases hlast with
    | spec e b => exact ih
    | clear b => exact ih
    | status e b =>
      refine mergeRef_ne_none ih ?_
      cases e with
      | pause isPaused => cases isPaused <;> exact .inl rfl
      | attach a => exact .inr (by simp [HostEdit.apply, ByoMachineReconciler.Attachment.apply])
      | _ => exact .inl rfl

theorem ManagerWrites.bootstrapSecret {h h' : ByoHost} (hw : ManagerWrites h h')
    (hs : h.bootstrapSecret ≠ none) : h'.bootstrapSecret ≠ none := by
  induction hw with
  | refl => exact hs
  | tail _ hlast ih =>
    cases hlast with
    | status e b => exact ih
    | clear b => exact mergeRef_ne_none ih (.inl rfl)
    | spec e b =>
      refine mergeRef_ne_none ih ?_
      cases e with
      | pause isPaused => cases isPaused <;> exact .inl rfl
      | attach a => exact .inr (by simp [HostEdit.apply, ByoMachineReconciler.Attachment.apply])
      | _ => exact .inl rfl

end Byoh.Protocol
