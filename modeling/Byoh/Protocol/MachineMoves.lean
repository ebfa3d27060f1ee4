import Byoh.Protocol.Effects
import Byoh.Protocol.MachinePhases

/-!
# The moves of a ByoMachine reconcile

A phase and a call together with the effect of the call on the world. `MachineMove` says what a
reconcile learns from a read and what a write leaves on the server; invariants over interleaved
reconciles are proved by cases on the move.
-/

set_option autoImplicit false

namespace Byoh.Protocol

open Byoh.Foundation Byoh.Model Byoh.Model.ByoMachineReconciler

/-- The next phase of the deferred patch of a machine. -/
def afterPart (s : Scope) (how : Leave) (m : ByoMachine) : PatchPart → MachinePhase
  | .conditions => .finish s how m .spec
  | .spec => .finish s how m .status
  | .status => .done

/-- Nothing that reconciles decide on differs: only provider IDs of nodes may. -/
def SameObjects (w w' : World) : Prop := ∃ nodes, w' = { w with nodes := nodes }

/-- The reconcile has not yet read all objects of its scope. -/
def MachinePhase.isReading : MachinePhase → Bool
  | .start | .owner _ | .cluster _ _ | .infra _ _ _ => true
  | _ => false

/-- One call of the reconcile of `k` in the world `w`: the call, the phase after it and the world
after it. -/
inductive MachineMove (k : NamespacedName) (o : Outcome) (w : World) :
    MachinePhase → Call → MachinePhase → World → Prop
  | read {m : ByoMachine} (hm : w.machines.lookup k = some m) :
      MachineMove k o w .start (.getByoMachine k) (.owner m) w
  | owner {m : ByoMachine} {name : String} {machine : Machine}
      (hname : findOwner "Machine" clusterGroup m.ownerReferences = .ok (some name))
      (hmachine : w.capiMachines.lookup ⟨m.ns, name⟩ = some machine) :
      MachineMove k o w (.owner m) (.getMachine ⟨m.ns, name⟩) (.cluster m machine) w
  | cluster {m : ByoMachine} {machine : Machine} {name : String} {c : Cluster}
      (hname : m.labels.get .clusterName = some name)
      (hc : w.clusters.lookup ⟨m.ns, name⟩ = some c) :
      MachineMove k o w (.cluster m machine) (.getCluster ⟨m.ns, name⟩) (.infra m machine c) w
  | infra {m : ByoMachine} {machine : Machine} {c : Cluster} {key : NamespacedName}
      {byoCluster : ByoCluster} :
      MachineMove k o w (.infra m machine c) (.getByoCluster key)
        (.fetch { cluster := c, machine := machine, byoCluster := byoCluster, byoMachine := m }) w
  | quit {q : MachinePhase} {c : Call} (hq : q.isReading = true) : MachineMove k o w q c .done w
  | fetched {s : Scope} :
      MachineMove k o w (.fetch s) (.listByoHosts (attachedSelector s.byoMachine) none)
        (.body s (listHosts w (attachedSelector s.byoMachine) none o.pick).head?) w
  | fetchFailed {s : Scope} {c : Call} :
      MachineMove k o w (.fetch s) c (.finish s .unchanged s.byoMachine .conditions) w
  | look {s : Scope} {host : Option ByoHost} {c : Call} {w' : World} (hw : SameObjects w w') :
      MachineMove k o w (.body s host) c (.body s host) w'
  | template {s : Scope} {host : Option ByoHost} {c : Call} {ref : ObjectReference}
      {template : InstallerTemplate} {version : String} {config : InstallerConfig}
      (hs : isNormalScope s) (href : s.byoMachine.installerRef = some ref)
      (hversion : s.machine.version = some version)
      (htemplate : w.installerTemplates.lookup ⟨ref.apiVersion, ref.kind, ref.ns, ref.name⟩ =
        some template)
      (hconfig : installerConfigFor s.byoMachine ref template version = .ok config) :
      MachineMove k o w (.body s host) c (.create s host config) w
  | created {s : Scope} {host : Option ByoHost} {config : InstallerConfig}
      (hnone : w.installerConfigs.lookup config.key = none) :
      MachineMove k o w (.create s host config) (.createInstallerConfig config) (.body s host)
        { w with installerConfigs := w.installerConfigs.insert config.key config }
  | notCreated {s : Scope} {host : Option ByoHost} {config : InstallerConfig} {c : Call} :
      MachineMove k o w (.create s host config) c (.body s host) w
  | listed {s : Scope} {selector : Selector} {dataSecretName version : String} {h : ByoHost}
      (hs : isNormalScope s) (hdata : s.machine.dataSecretName = some dataSecretName)
      (hversion : s.machine.version = some version)
      (hh : (listHosts w (selector ++ [notInCluster]) (some s.byoMachine.ns) o.pick).head? =
        some h) :
      MachineMove k o w (.body s none)
        (.listByoHosts (selector ++ [notInCluster]) (some s.byoMachine.ns))
        (.write s (.attach (attachmentFor s dataSecretName version)) h .spec false) w
  | installReady {s : Scope} {h : ByoHost} {ref secret : ObjectReference} {config : InstallerConfig}
      (hs : isNormalScope s) (href : s.byoMachine.installerRef = some ref)
      (hnone : h.installationSecret = none)
      (hconfig : w.installerConfigs.lookup (installerConfigKey s.byoMachine ref) = some config)
      (hready : config.ready = .value true) (hsecret : config.installationSecret = .value secret) :
      MachineMove k o w (.body s (some h))
        (.getInstallerConfig (installerConfigKey s.byoMachine ref))
        (.write s (.install secret) h .spec false) w
  | uninstallReady {s : Scope} {h : ByoHost} {ref secret : ObjectReference}
      {config : InstallerConfig} (hs : isNormalScope s)
      (href : s.byoMachine.installerRef = some ref) (hnone : h.uninstallationSecret = none)
      (hconfig : w.installerConfigs.lookup (installerConfigKey s.byoMachine ref) = some config)
      (hready : config.ready = .value true)
      (hsecret : config.uninstallationSecret = .value secret) :
      MachineMove k o w (.body s (some h))
        (.getInstallerConfig (installerConfigKey s.byoMachine ref))
        (.write s (.uninstall secret) h .spec false) w
  | specWritten {s : Scope} {e : HostEdit} {h cur : ByoHost} {failed : Bool}
      (hcur : w.hosts.lookup h.key = some cur) :
      MachineMove k o w (.write s e h .spec failed) (.patchByoHost h.key h (e.apply h))
        (.write s e h .status failed) (w.setHost h.key (h.merge (e.apply h) cur))
  | specFailed {s : Scope} {e : HostEdit} {h : ByoHost} {failed : Bool}
      (hfail : o.writeOk = true → w.hosts.lookup h.key = none) :
      MachineMove k o w (.write s e h .spec failed) (.patchByoHost h.key h (e.apply h))
        (.write s e h .status true) w
  | statusWritten {s : Scope} {e : HostEdit} {h cur : ByoHost} {failed : Bool}
      (hchanged : h.statusChanged (e.apply h) = true) (hcur : w.hosts.lookup h.key = some cur) :
      MachineMove k o w (.write s e h .status failed) (.patchByoHostStatus h.key h (e.apply h))
        (.write s e h .done failed) (w.setHost h.key (h.mergeStatus (e.apply h) cur))
  | statusFailed {s : Scope} {e : HostEdit} {h : ByoHost} {failed : Bool}
      (hchanged : h.statusChanged (e.apply h) = true)
      (hfail : o.writeOk = true → w.hosts.lookup h.key = none) :
      MachineMove k o w (.write s e h .status failed) (.patchByoHostStatus h.key h (e.apply h))
        (.write s e h .done true) w
  | machineWritten {s : Scope} {how : Leave} {m cur m' : ByoMachine} {part : PatchPart} {c : Call}
      (hc : IsMachinePatch m.key c s.byoMachine m) (hcur : w.machines.lookup m.key = some cur)
      (hm' : MachinePatched s.byoMachine m cur m') :
      MachineMove k o w (.finish s how m part) c (afterPart s how m part) (w.setMachine m.key m')
  | machineFailed {s : Scope} {how : Leave} {m : ByoMachine} {part : PatchPart} {c : Call}
      (hc : IsMachinePatch m.key c s.byoMachine m) :
      MachineMove k o w (.finish s how m part) c (afterPart s how m part) w

/-- A request of the deferred patch. -/
theorem machinePatch_move {k : NamespacedName} {o : Outcome} {w : World} {s : Scope} {how : Leave}
    {m : ByoMachine} (part : PatchPart) {c : Call} (hc : IsMachinePatch m.key c s.byoMachine m) :
    MachineMove k o w (.finish s how m part) c (afterPart s how m part) (exec o c w).2 := by
  rcases hc.cases o w with hw | ⟨cur, m', hcur, hm', hw⟩ <;> rw [hw]
  · exact .machineFailed hc
  · exact .machineWritten hc hcur hm'

theorem sameObjects_of_isQuiet {c : Call} (hc : isQuiet c = true) (o : Outcome) (w : World) :
    SameObjects w (exec o c w).2 := by
  cases c
  case patchNode cluster name before after =>
    rcases writeObject_total o w (w.nodes.lookup (cluster, name)) (fun cur =>
      { w with nodes := w.nodes.insert (cluster, name) (mergeField before after cur) }) with
      ⟨cur, -, hw⟩ | ⟨e, hw, -⟩
    · exact ⟨_, congrArg Prod.snd hw⟩
    · exact ⟨w.nodes, congrArg Prod.snd hw⟩
  all_goals first | exact ⟨w.nodes, rfl⟩ | simp [isQuiet] at hc

/-- Every call of a reconcile is a move. -/
theorem MachineNext.move {k : NamespacedName} {q q' : MachinePhase} {c : Call} {o : Outcome}
    {w : World} (h : MachineNext k q c (exec o c w).1 q') :
    MachineMove k o w q c q' (exec o c w).2 := by
  generalize hr : (exec o c w).1 = r at h
  cases h with
  | read => exact .read (readObject_ok hr)
  | owner hname => exact .owner hname (readObject_ok hr)
  | cluster hname => exact .cluster hname (readObject_ok hr)
  | infra => exact .infra
  | readFailed | ownerFailed | clusterFailed | infraFailed => exact .quit rfl
  | fetched =>
    rw [exec_listByoHosts hr]
    exact .fetched
  | fetchFailed => exact .fetchFailed
  | quiet hc => exact .look (sameObjects_of_isQuiet hc o w)
  | template hs href hversion hconfig =>
    exact .template hs href hversion (readObject_ok hr) hconfig
  | @created s host config r =>
    -- an object of that key makes the server refuse the new one
    simp only [exec, createObject]
    split
    · split
      · exact .notCreated
      · rename_i hsome
        exact .created (by simpa using hsome)
    · exact .notCreated
  | @listed s selector dataSecretName version h hs hnormal hselector hdata hversion =>
    refine .listed hnormal hdata hversion ?_
    rw [← exec_listByoHosts hr]
    rfl
  | notListed => exact .look ⟨w.nodes, rfl⟩
  | installReady hs href hnone hready hsecret =>
    exact .installReady hs href hnone (readObject_ok hr) hready hsecret
  | uninstallReady hs href hnone hready hsecret =>
    exact .uninstallReady hs href hnone (readObject_ok hr) hready hsecret
  | @specWritten s e h failed r key hkey =>
    subst hkey
    rcases exec_patchByoHost o w h.key h (e.apply h) with ⟨cur, hcur, hw⟩ | ⟨err, hw, hfail⟩
    · rw [hw] at hr ⊢
      subst hr
      rw [Option.isSome_none, Bool.or_false]
      exact .specWritten hcur
    · rw [hw] at hr ⊢
      subst hr
      rw [Option.isSome_some, Bool.or_true]
      exact .specFailed hfail
  | @statusWritten s e h failed r key hkey hchanged =>
    subst hkey
    rcases exec_patchByoHostStatus o w h.key h (e.apply h) with ⟨cur, hcur, hw⟩ | ⟨err, hw, hfail⟩
    · rw [hw] at hr ⊢
      subst hr
      rw [Option.isSome_none, Bool.or_false]
      exact .statusWritten hchanged hcur
    · rw [hw] at hr ⊢
      subst hr
      rw [Option.isSome_some, Bool.or_true]
      exact .statusFailed hchanged hfail
  | @machineConditions s how m r => exact machinePatch_move .conditions (.inl rfl)
  | @machineSpec s how m r => exact machinePatch_move .spec (.inr (.inl rfl))
  | @machineStatus s how m r => exact machinePatch_move .status (.inr (.inr rfl))

/-! ## The deferred patch of the machine -/

theorem Leaves.key {s : Scope} {how : Leave} {m : ByoMachine} (h : Leaves s how m) :
    m.key = s.byoMachine.key := by
  cases how with
  | unchanged => rw [show m = s.byoMachine from h]
  | paused => rw [h.2]; rfl
  | released => rw [h.2]; rfl
  | reconciled host =>
    obtain ⟨_, _, _, _, hm, _⟩ := h.2
    rw [hm]
    rfl

/-- Only a release takes the finalizer out of the machine in memory. -/
theorem Leaves.finalizers {s : Scope} {how : Leave} {m : ByoMachine} (h : Leaves s how m)
    (hhow : how ≠ .released) :
    m.finalizers = s.byoMachine.finalizers ∨ machineFinalizer ∈ m.finalizers := by
  cases how with
  | unchanged => exact .inl (by rw [show m = s.byoMachine from h])
  | paused => exact .inl (by rw [h.2]; rfl)
  | released => exact absurd rfl hhow
  | reconciled host =>
    obtain ⟨_, _, _, _, hm, _⟩ := h.2
    right
    rw [hm]
    dsimp only [addFinalizer]
    split
    · assumption
    · simp

/-- A request of the deferred patch keeps the finalizer unless it releases the machine. -/
theorem Leaves.keeps_finalizer {s : Scope} {how : Leave} {m cur m' : ByoMachine}
    (hleaves : Leaves s how m) (hhow : how ≠ .released)
    (hm' : MachinePatched s.byoMachine m cur m') (hcur : machineFinalizer ∈ cur.finalizers) :
    machineFinalizer ∈ m'.finalizers := by
  rcases hm'.finalizers with hf | hf <;> rw [hf]
  · exact hcur
  · rw [mergeField]
    split
    · exact hcur
    · rename_i hne
      rcases hleaves.finalizers hhow with hsame | hmem
      · exact absurd hsame.symm hne
      · exact hmem

end Byoh.Protocol
