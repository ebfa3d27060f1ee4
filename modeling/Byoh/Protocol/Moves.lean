import Byoh.Protocol.AgentPhases
import Byoh.Protocol.ControllerPhases
import Byoh.Protocol.MachineMoves

/-!
# The moves of the agents and of the ByoHost controller

As for the ByoMachine controller: a call of a phase, together with its effect on the world. An
agent writes metadata, spec and status of its host only to release it, and the ByoHost controller
writes only the reference to the uninstall secret.
-/

set_option autoImplicit false

namespace Byoh.Protocol

open Byoh.Foundation Byoh.Model Byoh.Model.ByoHostReconciler

/-! ## Agents -/

/-- One call of the agent of `k` in the world `w`: the call, the phase after it and the world after
it. -/
inductive AgentMove (k : NamespacedName) (o : Outcome) (w : World) :
    AgentPhase → Call → AgentPhase → World → Prop
  | read {h : ByoHost} (hh : w.hosts.lookup k = some h) :
      AgentMove k o w .start (.getByoHost k) (.body h []) w
  | readFailed : AgentMove k o w .start (.getByoHost k) (.done none) w
  | work {h : ByoHost} {log log' : List HostEvent} {c : Call} :
      AgentMove k o w (.body h log) c (.body h log') w
  | conditionsWritten {h h' cur : ByoHost} {log : List HostEvent} {cs : Conditions}
      (hcur : w.hosts.lookup h.key = some cur) :
      AgentMove k o w (.finish h log h' .conditions) (.patchByoHostConditions h.key h h')
        (.finish h log h' .spec) (w.setHost h.key { cur with conditions := cs })
  | conditionsFailed {h h' : ByoHost} {log : List HostEvent} :
      AgentMove k o w (.finish h log h' .conditions) (.patchByoHostConditions h.key h h')
        (.finish h log h' .spec) w
  | specWritten {h h' cur : ByoHost} {log : List HostEvent} (hreleased : Released h h')
      (hcur : w.hosts.lookup h.key = some cur) :
      AgentMove k o w (.finish h log h' .spec) (.patchByoHost h.key h h')
        (.finish h log h' .status) (w.setHost h.key (h.merge h' cur))
  | specFailed {h h' : ByoHost} {log : List HostEvent} (hreleased : Released h h')
      (hfail : o.writeOk = true → w.hosts.lookup h.key = none) :
      AgentMove k o w (.finish h log h' .spec) (.patchByoHost h.key h h')
        (.finish h log h' .status) w
  | statusWritten {h h' cur : ByoHost} {log : List HostEvent} (hreleased : Released h h')
      (hchanged : h.statusChanged h' = true) (hcur : w.hosts.lookup h.key = some cur) :
      AgentMove k o w (.finish h log h' .status) (.patchByoHostStatus h.key h h')
        (.done (some (h, log, h'))) (w.setHost h.key (h.mergeStatus h' cur))
  | statusFailed {h h' : ByoHost} {log : List HostEvent} (hreleased : Released h h')
      (hchanged : h.statusChanged h' = true)
      (hfail : o.writeOk = true → w.hosts.lookup h.key = none) :
      AgentMove k o w (.finish h log h' .status) (.patchByoHostStatus h.key h h')
        (.done (some (h, log, h'))) w

theorem AgentNext.world_eq {log log' : List HostEvent} {c : Call} {r : Resp c}
    (h : AgentNext log c r log') (o : Outcome) (w : World) : (exec o c w).2 = w := by
  cases h with
  | command => rfl
  | look hc => cases c <;> first | rfl | cases hc

/-- Every call of an agent is a move. -/
theorem AgentCall.move {k : NamespacedName} {q q' : AgentPhase} {c : Call} {o : Outcome} {w : World}
    (h : AgentCall k q c (exec o c w).1 q') : AgentMove k o w q c q' (exec o c w).2 := by
  generalize hr : (exec o c w).1 = r at h
  cases h with
  | read => exact .read (readObject_ok hr)
  | readFailed => exact .readFailed
  | work hc =>
    rw [hc.world_eq]
    exact .work
  | @conditionsWritten h h' log r key hkey =>
    subst hkey
    rcases exec_patchByoHostConditions o w h.key h h' with ⟨cur, cs, hcur, -, hw⟩ | ⟨e, hw, -⟩ <;>
      rw [hw]
    · exact .conditionsWritten hcur
    · exact .conditionsFailed
  | @specWritten h h' log r key hkey hreleased =>
    subst hkey
    rcases exec_patchByoHost o w h.key h h' with ⟨cur, hcur, hw⟩ | ⟨e, hw, hfail⟩ <;> rw [hw]
    · exact .specWritten hreleased hcur
    · exact .specFailed hreleased hfail
  | @statusWritten h h' log r key hkey hreleased hchanged =>
    subst hkey
    rcases exec_patchByoHostStatus o w h.key h h' with ⟨cur, hcur, hw⟩ | ⟨e, hw, hfail⟩ <;> rw [hw]
    · exact .statusWritten hreleased hchanged hcur
    · exact .statusFailed hreleased hchanged hfail

/-! ## The ByoHost controller -/

/-- One call of the reconcile of the host `k` by the manager. -/
inductive HostMove (k : NamespacedName) (o : Outcome) (w : World) :
    HostPhase → Call → HostPhase → World → Prop
  | read {h : ByoHost} {ref : ObjectReference} (href : staleReference h = some ref)
      (hh : w.hosts.lookup k = some h) : HostMove k o w .start (.getByoHost k) (.found h ref) w
  | quit {q : HostPhase} {c : Call} : HostMove k o w q c .done w
  | gone {h : ByoHost} {ref : ObjectReference} :
      HostMove k o w (.found h ref) (.getSecret ⟨ref.ns, ref.name⟩) (.clear h ref) w
  | present {h : ByoHost} {ref : ObjectReference} {secret : Secret}
      (hsecret : w.secrets.lookup ⟨ref.ns, ref.name⟩ = some secret) :
      HostMove k o w (.found h ref) (.getSecret ⟨ref.ns, ref.name⟩) (.delete h ref secret) w
  | deleted {h : ByoHost} {ref : ObjectReference} {secret : Secret} :
      HostMove k o w (.delete h ref secret) (.deleteSecret secret.key) (.clear h ref)
        { w with secrets := w.secrets.erase secret.key }
  | notDeleted {h : ByoHost} {ref : ObjectReference} {secret : Secret} :
      HostMove k o w (.delete h ref secret) (.deleteSecret secret.key) (.clear h ref) w
  | cleared {h cur : ByoHost} {ref : ObjectReference} (hcur : w.hosts.lookup h.key = some cur) :
      HostMove k o w (.clear h ref) (.patchByoHost h.key h (clearedHost h)) .done
        (w.setHost h.key (h.merge (clearedHost h) cur))

/-- Every call of the reconcile is a move. -/
theorem HostNext.move {k : NamespacedName} {q q' : HostPhase} {c : Call} {o : Outcome} {w : World}
    (h : HostNext k q c (exec o c w).1 q') : HostMove k o w q c q' (exec o c w).2 := by
  generalize hr : (exec o c w).1 = r at h
  cases h with
  | read href => exact .read href (readObject_ok hr)
  | nothing => exact .quit
  | gone => exact .gone
  | present => exact .present (readObject_ok hr)
  | getFailed => exact .quit
  | @deleted h ref secret r =>
    rcases exec_deleteSecret o w secret.key with hw | ⟨e, hw⟩ <;> rw [hw]
    · exact .deleted
    · exact .notDeleted
  | @deleteFailed h ref secret e =>
    rcases exec_deleteSecret o w secret.key with hw | ⟨e', hw⟩ <;> rw [hw] at hr ⊢
    · cases hr
    · exact .quit
  | @cleared h ref r =>
    rcases exec_patchByoHost o w h.key h (clearedHost h) with ⟨cur, hcur, hw⟩ | ⟨e, hw, -⟩ <;> rw [hw]
    · exact .cleared hcur
    · exact .quit

/-! ## What other threads do to a host -/

/-- The host may have lost its label or its machine reference. -/
structure Sheds (h h' : ByoHost) : Prop where
  label : h'.attachedLabel = h.attachedLabel ∨ h'.attachedLabel = none
  machineRef : h'.machineRef = h.machineRef ∨ h'.machineRef = none

theorem Sheds.refl (h : ByoHost) : Sheds h h := ⟨.inl rfl, .inl rfl⟩

/-- An agent sheds both when it releases its host. -/
theorem AgentMove.sheds {k : NamespacedName} {o : Outcome} {w w' : World} {q q' : AgentPhase}
    {c : Call} (hmove : AgentMove k o w q c q' w') : HostsVia Sheds w w' := by
  cases hmove with
  | conditionsWritten hcur => exact .setHost .refl hcur ⟨.inl rfl, .inl rfl⟩
  | @specWritten h h' cur log hreleased hcur =>
    refine .setHost .refl hcur ⟨?_, .inl rfl⟩
    have hlabel : h'.attachedLabel = none := by
      rw [hreleased.2]
      simp [releasedHost, HostReconciler.removeAnnotations, ByoHost.attachedLabel]
    rw [ByoHost.merge_attachedLabel, hlabel, mergeField]
    split
    · exact .inl rfl
    · exact .inr rfl
  | @statusWritten h h' cur log hreleased _ hcur =>
    refine .setHost .refl hcur ⟨.inl rfl, ?_⟩
    have href : h'.machineRef = none := by
      rw [hreleased.2]
      rfl
    rw [ByoHost.mergeStatus, href, mergeRef_none]
    dsimp only
    split
    · exact .inl rfl
    · exact .inr rfl
  | _ => exact .refl .refl w

theorem HostMove.sheds {k : NamespacedName} {o : Outcome} {w w' : World} {q q' : HostPhase}
    {c : Call} (hmove : HostMove k o w q c q' w') : HostsVia Sheds w w' := by
  cases hmove with
  | cleared hcur =>
    refine .setHost .refl hcur ⟨.inl ?_, .inl rfl⟩
    rw [ByoHost.merge_attachedLabel]
    exact mergeField_self ..
  | _ => exact .of_hosts_eq .refl rfl

/-! ## Frames -/

/-- Reconciles of configurations touch neither hosts nor machines. -/
theorem ConfigNext.frame {k : NamespacedName} {q q' : ConfigPhase} {c : Call} {r : Resp c}
    (h : ConfigNext k q c r q') (o : Outcome) (w : World) :
    (exec o c w).2.hosts = w.hosts ∧ (exec o c w).2.machines = w.machines ∧
      (exec o c w).2.informer = w.informer := by
  cases h <;> exact ⟨exec_hosts o w (by simp [Call.writes]),
    exec_machines o w (by simp [Call.writes]), exec_informer o w (by simp [Call.writes])⟩

theorem AgentMove.machines_eq {k : NamespacedName} {o : Outcome} {w w' : World} {q q' : AgentPhase}
    {c : Call} (hmove : AgentMove k o w q c q' w') : w'.machines = w.machines := by
  cases hmove <;> rfl

theorem HostMove.machines_eq {k : NamespacedName} {o : Outcome} {w w' : World} {q q' : HostPhase}
    {c : Call} (hmove : HostMove k o w q c q' w') : w'.machines = w.machines := by
  cases hmove <;> rfl

end Byoh.Protocol
