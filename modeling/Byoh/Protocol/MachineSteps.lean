import Byoh.Protocol.SiteSteps
import Byoh.Protocol.SystemPhases

/-!
# Reconciles of machines as single steps

What one reconcile of a machine does to the world when nothing happens in between and hosts are
read from the server (`machineStep_ran`). It writes to one host at most, edit by edit, and every
edit has its reason in the objects that were read (`EditReason`): hosts are paused, unpaused and
marked because they carry the label of the machine, picked because they are in no cluster, and get
the references that the configuration of the machine had when the reconcile began.
-/

set_option autoImplicit false

namespace Byoh.Protocol

open Byoh.Foundation Byoh.Model Byoh.Model.ByoMachineReconciler

/-! ## Edits of one host -/

/-- The host on the server is the one in memory. -/
def SameHost (h cur : ByoHost) : Prop := Patched h h true true true cur

theorem SameHost.refl (h : ByoHost) : SameHost h h := by
  constructor <;> simp

theorem SameHost.carries {b cur : ByoHost} (h : SameHost b cur) (key : AnnotationKey) :
    cur.carries key = b.carries key := by
  rw [ByoHost.carries, h.annotations]
  rfl

theorem SameHost.attachedLabel {b cur : ByoHost} (h : SameHost b cur) :
    cur.attachedLabel = b.attachedLabel := h.labels _

theorem SameHost.clusterLabel {b cur : ByoHost} (h : SameHost b cur) :
    cur.clusterLabel = b.clusterLabel := h.labels _

/-- The patch of a host that is on the server as in memory starts from there. -/
theorem SameHost.start {b cur : ByoHost} (h : SameHost b cur) (a : ByoHost) :
    Patched b a false false false cur :=
  { h with }

/-- Once metadata, spec and status have arrived, the edited host is on the server. -/
theorem SameHost.of_patched {b cur : ByoHost} {e : HostEdit} {c : Bool}
    (h : Patched b (e.apply b) c true true cur) : SameHost (e.apply b) cur where
  key := h.key.trans (e.apply_key b).symm
  deletionTimestamp := by
    rw [h.deletionTimestamp]
    cases e with
    | pause p => cases p <;> rfl
    | _ => rfl
  conditions := by
    rw [h.conditions, e.apply_conditions]
    split <;> rfl
  labels := h.labels
  annotations := h.annotations
  bootstrapSecret := h.bootstrapSecret
  installationSecret := h.installationSecret
  uninstallationSecret := h.uninstallationSecret
  machineRef := h.machineRef
  hostDetails := h.hostDetails
  network := h.network

/-- The host changes by edits with reasons; of each edit, metadata and spec or the status may not
have arrived. -/
inductive EditedBy (reason : HostEdit → ByoHost → Prop) (h : ByoHost) : ByoHost → Prop
  | refl : EditedBy reason h h
  | edit {b cur cur' : ByoHost} {e : HostEdit} {spec status : Bool} (hran : EditedBy reason h cur)
      (hsame : SameHost b cur) (hreason : reason e b)
      (hpatched : Patched b (e.apply b) false spec status cur') : EditedBy reason h cur'

/-- What holds of a host, and is kept by every part of every edit with a reason, is kept. -/
theorem EditedBy.invariant {reason : HostEdit → ByoHost → Prop} {P : ByoHost → Prop} {h h' : ByoHost}
    (hsame : ∀ {b cur}, SameHost b cur → P cur → P b)
    (hedit : ∀ {e b spec status cur}, reason e b → P b →
      Patched b (e.apply b) false spec status cur → P cur)
    (hran : EditedBy reason h h') (hP : P h) : P h' := by
  induction hran with
  | refl => exact hP
  | edit _ hs hr hp ih => exact hedit hr (hsame hs ih) hp

section Parts

variable {b cur : ByoHost} {e : HostEdit} {c spec status : Bool}

/-- Only the edit for it sets the reference to the install secret. -/
theorem Patched.edit_installationSecret (h : Patched b (e.apply b) c spec status cur) :
    cur.installationSecret = b.installationSecret ∨
      ∃ ref, e = .install ref ∧ cur.installationSecret = some ref := by
  rw [h.installationSecret]
  cases spec with
  | false => exact .inl rfl
  | true =>
    cases e with
    | pause p => cases p <;> exact .inl rfl
    | install ref => exact .inr ⟨ref, rfl, rfl⟩
    | _ => exact .inl rfl

/-- Only the edit for it sets the reference to the uninstall secret. -/
theorem Patched.edit_uninstallationSecret (h : Patched b (e.apply b) c spec status cur) :
    cur.uninstallationSecret = b.uninstallationSecret ∨
      ∃ ref, e = .uninstall ref ∧ cur.uninstallationSecret = some ref := by
  rw [h.uninstallationSecret]
  cases spec with
  | false => exact .inl rfl
  | true =>
    cases e with
    | pause p => cases p <;> exact .inl rfl
    | uninstall ref => exact .inr ⟨ref, rfl, rfl⟩
    | _ => exact .inl rfl

/-- Only a mark sets the cleanup annotation, and nothing removes it. -/
theorem Patched.edit_marked (h : Patched b (e.apply b) c spec status cur) :
    cur.carries .hostCleanup = b.carries .hostCleanup ∨
      (∃ u, e = .mark u) ∧ cur.carries .hostCleanup = true := by
  rw [ByoHost.carries, h.annotations]
  cases spec with
  | false => exact .inl rfl
  | true =>
    cases e with
    | pause p => cases p <;> simp [HostEdit.apply, pausedHost, ByoHost.carries]
    | mark u => simp [HostEdit.apply, markedHost, ByoHost.carries]
    | attach a => simp [HostEdit.apply, Attachment.apply, ByoHost.carries]
    | _ => exact .inl rfl

/-- Only a pause changes the paused annotation. -/
theorem Patched.edit_paused (h : Patched b (e.apply b) c spec status cur) :
    cur.carries .paused = b.carries .paused ∨
      ∃ isPaused, e = .pause isPaused ∧ cur.carries .paused = isPaused := by
  rw [ByoHost.carries, h.annotations]
  cases spec with
  | false => exact .inl rfl
  | true =>
    cases e with
    | pause p => cases p <;> simp [HostEdit.apply, pausedHost]
    | mark u => simp [HostEdit.apply, markedHost, ByoHost.carries]
    | attach a => simp [HostEdit.apply, Attachment.apply, ByoHost.carries]
    | _ => exact .inl rfl

/-- Only an attachment sets the machine reference. -/
theorem Patched.edit_machineRef (h : Patched b (e.apply b) c spec status cur) :
    cur.machineRef = b.machineRef ∨ ∃ a, e = .attach a ∧ cur.machineRef = some a.machineRef := by
  rw [h.machineRef]
  cases status with
  | false => exact .inl rfl
  | true =>
    cases he : e.isAttach with
    | false => exact .inl (e.apply_machineRef he b)
    | true =>
      cases e with
      | attach a => exact .inr ⟨a, rfl, rfl⟩
      | _ => cases he

/-- Only an attachment sets the labels of an attachment, and nothing removes them. -/
theorem Patched.edit_labels (h : Patched b (e.apply b) c spec status cur) :
    (cur.attachedLabel = b.attachedLabel ∧ cur.clusterLabel = b.clusterLabel) ∨
      ∃ a, e = .attach a ∧ cur.attachedLabel = some a.byoMachineLabel ∧
        cur.clusterLabel = some a.clusterName := by
  rw [ByoHost.attachedLabel, ByoHost.clusterLabel, h.labels, h.labels]
  cases spec with
  | false => exact .inl ⟨rfl, rfl⟩
  | true =>
    cases he : e.isAttach with
    | false => exact .inl (e.apply_labels he b)
    | true =>
      cases e with
      | attach a => exact .inr ⟨a, rfl, by simp [HostEdit.apply, Attachment.apply]⟩
      | _ => cases he

end Parts

/-- Why a reconcile with the objects `s`, begun in the world `w`, edits the host. -/
def EditReason (w : World) (s : Scope) : HostEdit → ByoHost → Prop
  | .pause isPaused, h => (if isPaused then isPausedScope s = true else isNormalScope s = true) ∧
      Labelled s.byoMachine.key h
  | .mark _, h => isDeleteScope s = true ∧ Labelled s.byoMachine.key h
  | .attach a, h => isNormalScope s = true ∧ h.clusterLabel = none ∧
      NoneLabelled s.byoMachine.key w ∧ ∃ dataSecretName version,
        s.machine.dataSecretName = some dataSecretName ∧ s.machine.version = some version ∧
          a = attachmentFor s dataSecretName version
  | .install ref, h => isNormalScope s = true ∧ Labelled s.byoMachine.key h ∧
      h.installationSecret = none ∧ ∃ template config, s.byoMachine.installerRef = some template ∧
        w.installerConfigs.lookup (installerConfigKey s.byoMachine template) = some config ∧
          config.ready = .value true ∧ config.installationSecret = .value ref
  | .uninstall ref, h => isNormalScope s = true ∧ Labelled s.byoMachine.key h ∧
      h.uninstallationSecret = none ∧ ∃ template config, s.byoMachine.installerRef = some template ∧
        w.installerConfigs.lookup (installerConfigKey s.byoMachine template) = some config ∧
          config.ready = .value true ∧ config.uninstallationSecret = .value ref

/-! ## The world during a reconcile -/

/-- The objects of the scope are those of the world. -/
structure ReadScope (w : World) (k : NamespacedName) (s : Scope) : Prop where
  byoMachine : w.machines.lookup k = some s.byoMachine
  machine : ∃ name, findOwner "Machine" clusterGroup s.byoMachine.ownerReferences =
    .ok (some name) ∧ w.capiMachines.lookup ⟨s.byoMachine.ns, name⟩ = some s.machine
  cluster : ∃ name, s.byoMachine.labels.get .clusterName = some name ∧
    w.clusters.lookup ⟨s.byoMachine.ns, name⟩ = some s.cluster

/-- The configuration that a reconcile created, if any. -/
inductive ConfigsMade (w : World) (s : Scope) : World → Prop
  | none {w' : World} (h : w'.installerConfigs = w.installerConfigs) : ConfigsMade w s w'
  | created {w' : World} {ref : ObjectReference} {template : InstallerTemplate} {version : String}
      {config : InstallerConfig} (hnormal : isNormalScope s = true)
      (href : s.byoMachine.installerRef = some ref)
      (htemplate : w.installerTemplates.lookup ⟨ref.apiVersion, ref.kind, ref.ns, ref.name⟩ =
        some template) (hversion : s.machine.version = some version)
      (hconfig : installerConfigFor s.byoMachine ref template version = .ok config)
      (hnone : w.installerConfigs.lookup config.key = none)
      (h : w'.installerConfigs = w.installerConfigs.insert config.key config) : ConfigsMade w s w'

/-- What a reconcile that has read the objects `s` in the world `w` has made of the rest of it. -/
structure MachineWorked (w : World) (k : NamespacedName) (s : Scope) (w' : World) : Prop where
  read : ReadScope w k s
  hosts : HostsVia (EditedBy (EditReason w s)) w w'
  configs : ConfigsMade w s w'
  secrets : w'.secrets = w.secrets
  informer : w'.informer = none
  static : w'.capiMachines = w.capiMachines ∧ w'.clusters = w.clusters ∧
    w'.installerTemplates = w.installerTemplates ∧ w'.byoClusters = w.byoClusters

/-- The host in the memory of a reconcile carries the label and is on the server; there is none
when no host carries the label. -/
def InMemory (w : World) (k : NamespacedName) (w' : World) : Option ByoHost → Prop
  | some h => Labelled k h ∧ ∃ cur, w'.hosts.lookup h.key = some cur ∧ SameHost h cur
  | none => NoneLabelled k w ∧ w'.hosts = w.hosts

/-- The machine on the server, patched from `s.byoMachine` to `m`; it is gone when it was being
deleted and its last finalizer went. -/
def MachineLeft (s : Scope) (how : Leave) (m : ByoMachine) (x : Option ByoMachine) : Prop :=
  Leaves s how m ∧ ((x = none ∧ s.byoMachine.deletionTimestamp = true ∧
      (how = .released ∨ s.byoMachine.finalizers = [])) ∨
    ∃ m', x = some m' ∧ Relation.ReflTransGen (MachinePatched s.byoMachine m) s.byoMachine m' ∧
      (m'.deletionTimestamp = true → m'.finalizers = [] → s.byoMachine.finalizers = []))

/-- Hosts other than `key` are as they were. -/
def HostsBut (key : NamespacedName) (w w' : World) : Prop :=
  ∀ k', k' ≠ key → w'.hosts.lookup k' = w.hosts.lookup k'

/-- The reconcile has read `s`, edited one host at most, and left the machine as `m` on the server.
What `m` knows about its host was read from a host with its label. -/
structure MachineRan (w : World) (k : NamespacedName) (s : Scope) (how : Leave) (m : ByoMachine)
    (w' : World) : Prop extends MachineWorked w k s w' where
  left : MachineLeft s how m (w'.machines.lookup k)
  others : ∀ k', k' ≠ k → w'.machines.lookup k' = w.machines.lookup k'
  oneHost : ∃ key, HostsBut key w w'
  hostInfo : m.hostInfo = s.byoMachine.hostInfo ∨
    ∃ key h, w'.hosts.lookup key = some h ∧ Labelled k h ∧ m.hostInfo = h.hostDetails

/-- The body of the reconcile is at work, with the machine untouched. -/
structure AtWork (w : World) (k : NamespacedName) (s : Scope) (host : Option ByoHost) (w' : World) :
    Prop extends MachineWorked w k s w' where
  machines : w'.machines = w.machines
  memory : InMemory w k w' host
  oneHost : ∀ h, host = some h → HostsBut h.key w w'

/-- The edit `e` of the host `h` in memory is being written; `spec` and `status` say what has
arrived. -/
structure Writing (w : World) (k : NamespacedName) (s : Scope) (e : HostEdit) (h : ByoHost)
    (spec status : Bool) (w' : World) : Prop extends MachineWorked w k s w' where
  machines : w'.machines = w.machines
  oneHost : HostsBut h.key w w'
  reason : EditReason w s e h
  before : ∃ h₀ cur, w.hosts.lookup h.key = some h₀ ∧ EditedBy (EditReason w s) h₀ cur ∧
    SameHost h cur
  now : ∃ cur, w'.hosts.lookup h.key = some cur ∧ Patched h (e.apply h) false spec status cur

/-- What holds in each phase of a reconcile of `k` that began in the world `w`. -/
def MachineAlone (w : World) (k : NamespacedName) (w' : World) : MachinePhase → Prop
  | .start => w' = w
  | .owner m => w' = w ∧ w.machines.lookup k = some m
  | .cluster m machine => w' = w ∧ w.machines.lookup k = some m ∧
      ∃ name, findOwner "Machine" clusterGroup m.ownerReferences = .ok (some name) ∧
        w.capiMachines.lookup ⟨m.ns, name⟩ = some machine
  | .infra m machine c => w' = w ∧
      ∀ byoCluster, ReadScope w k { cluster := c, machine, byoCluster, byoMachine := m }
  | .fetch s => w' = w ∧ ReadScope w k s
  | .body s host => AtWork w k s host w'
  | .create s host config => AtWork w k s host w' ∧ isNormalScope s = true ∧
      ∃ ref template version, s.byoMachine.installerRef = some ref ∧
        w.installerTemplates.lookup ⟨ref.apiVersion, ref.kind, ref.ns, ref.name⟩ = some template ∧
          s.machine.version = some version ∧
            installerConfigFor s.byoMachine ref template version = .ok config
  | .write s e h part failed => ∃ spec status, Writing w k s e h spec status w' ∧ match part with
      | .spec => spec = false ∧ status = false ∧ failed = false
      | .status => status = false ∧ (failed = false → spec = true)
      | .done => failed = false → spec = true ∧ status = true
  | .finish s how m _ => MachineRan w k s how m w'
  | .done => w' = w ∨ ∃ s how m, MachineRan w k s how m w'

section Steps

variable {w : World} {k : NamespacedName} {s : Scope} {w' : World} {e : HostEdit}
  {spec status : Bool} {h : ByoHost} {how : Leave} {m : ByoMachine}

/-- A reconcile that has only read so far. -/
theorem MachineWorked.init (hfresh : w.informer = none) (hread : ReadScope w k s) :
    MachineWorked w k s w :=
  ⟨hread, .refl (fun _ => .refl) w, .none rfl, rfl, hfresh, rfl, rfl, rfl, rfl⟩

/-- Changes of nodes and machines do not matter. -/
theorem MachineWorked.of_eq (h : MachineWorked w k s w') {w'' : World} (hhosts : w''.hosts = w'.hosts)
    (hconfigs : w''.installerConfigs = w'.installerConfigs) (hsecrets : w''.secrets = w'.secrets)
    (hinformer : w''.informer = w'.informer)
    (hstatic : w''.capiMachines = w'.capiMachines ∧ w''.clusters = w'.clusters ∧
      w''.installerTemplates = w'.installerTemplates ∧ w''.byoClusters = w'.byoClusters) :
    MachineWorked w k s w'' where
  read := h.read
  hosts k' := by
    rw [hhosts]
    exact h.hosts k'
  configs := by
    cases h.configs with
    | none heq => exact .none (hconfigs.trans heq)
    | created hn href ht hv hc hnone heq =>
      exact .created hn href ht hv hc hnone (hconfigs.trans heq)
  secrets := hsecrets.trans h.secrets
  informer := hinformer.trans h.informer
  static := ⟨hstatic.1.trans h.static.1, hstatic.2.1.trans h.static.2.1,
    hstatic.2.2.1.trans h.static.2.2.1, hstatic.2.2.2.trans h.static.2.2.2⟩

/-- A host of the server is written as the edit `e` of the one in memory. -/
theorem MachineWorked.setHost (h : MachineWorked w k s w') {b h₀ cur₀ cur : ByoHost}
    (hreason : EditReason w s e b) (hread : w.hosts.lookup b.key = some h₀)
    (hedited : EditedBy (EditReason w s) h₀ cur₀) (hsame : SameHost b cur₀)
    (hpatched : Patched b (e.apply b) false spec status cur) :
    MachineWorked w k s (w'.setHost b.key cur) where
  read := h.read
  hosts k' := by
    by_cases hk : k' = b.key
    · subst hk
      rw [hread, World.setHost, AList.lookup_insert]
      exact .some (.edit hedited hsame hreason hpatched)
    · rw [World.setHost, AList.lookup_insert_ne hk]
      exact h.hosts k'
  configs := by
    cases h.configs with
    | none heq => exact .none heq
    | created hn href ht hv hc hnone heq => exact .created hn href ht hv hc hnone heq
  secrets := h.secrets
  informer := by simp [World.setHost, h.informer]
  static := h.static

/-- A configuration that is ready was there before the reconcile. -/
theorem MachineWorked.readyConfig (h : MachineWorked w k s w') {key : InstallerKey}
    {config : InstallerConfig} (hconfig : w'.installerConfigs.lookup key = some config)
    (hready : config.ready = .value true) : w.installerConfigs.lookup key = some config := by
  cases h.configs with
  | none heq => rwa [heq] at hconfig
  | @created ref template version made _ _ _ _ hmade _ heq =>
    rw [heq] at hconfig
    rcases lookup_insert_some hconfig with ⟨-, rfl⟩ | ⟨-, hconfig⟩
    · rw [(installerConfigFor_ready hmade).1] at hready
      cases hready
    · exact hconfig

/-- The hosts that a reconcile lists are those of the server. -/
theorem MachineWorked.hostView (h : MachineWorked w k s w') : w'.hostView = w'.hosts := by
  rw [World.hostView, h.informer]

/-- The fetched host. -/
theorem inMemory_fetched (hkeys : WellKeyed w) (hfresh : w.informer = none)
    (hmachine : s.byoMachine.key = k) (pick : Nat) :
    InMemory w k w (listHosts w (attachedSelector s.byoMachine) none pick).head? := by
  have hview : w.hostView = w.hosts := by rw [World.hostView, hfresh]
  cases hh : (listHosts w (attachedSelector s.byoMachine) none pick).head? with
  | none =>
    refine ⟨fun k' h hk' => ?_, rfl⟩
    rw [← hmachine]
    exact not_labelled_of_fetched hh (hview ▸ hk')
  | some h =>
    obtain ⟨⟨k', hk'⟩, hlabelled⟩ := labelled_of_fetched hh
    rw [hview] at hk'
    refine ⟨hmachine ▸ hlabelled, h, ?_, .refl h⟩
    rw [hkeys k' h hk']
    exact hk'

/-- An edit of the host in memory begins. -/
theorem AtWork.write (hw : AtWork w k s (some h) w') (hreason : EditReason w s e h) :
    Writing w k s e h false false w' := by
  obtain ⟨-, cur, hcur, hsame⟩ := hw.memory
  obtain ⟨h₀, hh₀, hedited⟩ := hw.hosts.of_some hcur
  exact { hw with
    oneHost := hw.oneHost h rfl
    reason := hreason
    before := ⟨h₀, cur, hh₀, hedited, hsame⟩
    now := ⟨cur, hcur, hsame.start _⟩ }

/-- A part of the edit arrives. -/
theorem Writing.arrive {cur : ByoHost} {spec' status' : Bool}
    (hw : Writing w k s e h spec status w') (hp : Patched h (e.apply h) false spec' status' cur) :
    Writing w k s e h spec' status' (w'.setHost h.key cur) := by
  obtain ⟨h₀, cur₀, hh₀, hedited, hsame⟩ := hw.before
  exact {
    hw.toMachineWorked.setHost hw.reason hh₀ hedited hsame hp with
    machines := hw.machines
    oneHost := fun k' hk => (AList.lookup_insert_ne hk).trans (hw.oneHost k' hk)
    reason := hw.reason
    before := hw.before
    now := ⟨cur, AList.lookup_insert _, hp⟩ }

/-- A part of the edit that changes nothing is not sent. -/
theorem Writing.skip {spec' status' : Bool} (hw : Writing w k s e h spec status w')
    (hskip : ∀ cur, Patched h (e.apply h) false spec status cur →
      Patched h (e.apply h) false spec' status' cur) : Writing w k s e h spec' status' w' := by
  obtain ⟨cur, hcur, hp⟩ := hw.now
  exact { hw with now := ⟨cur, hcur, hskip cur hp⟩ }

/-- Every edit leaves a host with the label of the machine in memory. -/
theorem EditReason.labelled (hreason : EditReason w s e h) (hmachine : s.byoMachine.key = k) :
    Labelled k (e.apply h) := by
  subst hmachine
  cases e with
  | attach a =>
    obtain ⟨-, -, -, d, v, -, -, rfl⟩ := hreason
    simp only [Labelled, ByoHost.attachedLabel, HostEdit.apply, Attachment.apply]
    simp [attachmentFor, NamespacedName.labelValue, ByoMachine.key]
  | pause p => exact (HostEdit.apply_labels rfl h).1.trans hreason.2
  | mark u => exact (HostEdit.apply_labels rfl h).1.trans hreason.2
  | install ref => exact (HostEdit.apply_labels (e := .install ref) rfl h).1.trans hreason.2.1
  | uninstall ref => exact (HostEdit.apply_labels (e := .uninstall ref) rfl h).1.trans hreason.2.1

/-- The edit has arrived as a whole. -/
theorem Writing.wrote (hw : Writing w k s e h true true w') (hmachine : s.byoMachine.key = k) :
    AtWork w k s (some (e.apply h)) w' := by
  obtain ⟨cur, hcur, hp⟩ := hw.now
  refine { hw with
    memory := ⟨hw.reason.labelled hmachine, cur, ?_, .of_patched hp⟩
    oneHost := fun h' hh' => ?_ }
  · rwa [HostEdit.apply_key]
  · cases hh'
    rw [HostEdit.apply_key]
    exact hw.oneHost

/-- The machine is about to be patched. -/
theorem machineRan_finish (hw : MachineWorked w k s w') (hmachines : w'.machines = w.machines)
    (hleaves : Leaves s how m) (key : NamespacedName) (hone : HostsBut key w w')
    (hinfo : m.hostInfo = s.byoMachine.hostInfo ∨
      ∃ key h, w'.hosts.lookup key = some h ∧ Labelled k h ∧ m.hostInfo = h.hostDetails) :
    MachineRan w k s how m w' :=
  { hw with
    left := ⟨hleaves, .inr ⟨s.byoMachine, by rw [hmachines, hw.read.byoMachine], .refl,
      fun _ => id⟩⟩
    others := fun _ _ => by rw [hmachines]
    oneHost := ⟨key, hone⟩
    hostInfo := hinfo }

/-- The body is left. -/
theorem AtWork.finish {host : Option ByoHost} (hw : AtWork w k s host w') (hleaves : Leaves s how m)
    (hinfo : m.hostInfo = s.byoMachine.hostInfo ∨
      ∃ h, host = some h ∧ m.hostInfo = h.hostDetails) : MachineRan w k s how m w' := by
  cases host with
  | none =>
    refine machineRan_finish hw.toMachineWorked hw.machines hleaves k
      (fun k' _ => by rw [hw.memory.2]) (hinfo.imp_right ?_)
    rintro ⟨h, hh, -⟩
    cases hh
  | some h =>
    refine machineRan_finish hw.toMachineWorked hw.machines hleaves _ (hw.oneHost h rfl)
      (hinfo.imp_right ?_)
    rintro ⟨h', hh', heq⟩
    cases hh'
    obtain ⟨hlabelled, cur, hcur, hsame⟩ := hw.memory
    exact ⟨h.key, cur, hcur, hsame.attachedLabel.trans hlabelled, heq.trans hsame.hostDetails.symm⟩

/-- The body is left while a host is being written. -/
theorem Writing.finish (hw : Writing w k s e h spec status w') (hmachine : s.byoMachine.key = k)
    (hleaves : Leaves s how m) (hinfo : m.hostInfo = s.byoMachine.hostInfo ∨
      e.isAttach = false ∧ m.hostInfo = h.hostDetails) : MachineRan w k s how m w' := by
  refine machineRan_finish hw.toMachineWorked hw.machines hleaves _ hw.oneHost (hinfo.imp_right ?_)
  rintro ⟨hattach, heq⟩
  obtain ⟨cur, hcur, hp⟩ := hw.now
  have hlabel : cur.attachedLabel = h.attachedLabel := by
    rcases hp.edit_labels with ⟨hlabel, -⟩ | ⟨a, rfl, -⟩
    · exact hlabel
    · cases hattach
  refine ⟨h.key, cur, hcur, ?_, ?_⟩
  · rw [Labelled, hlabel, ← (HostEdit.apply_labels hattach h).1]
    exact hw.reason.labelled hmachine
  · rw [heq, hp.hostDetails, HostEdit.apply_hostDetails, ite_self]

/-- Patched from `b` to `a`, a machine differs from `b` in what patches write, and has the finalizers
of one of the two. -/
theorem machine_of_patched {b a : ByoMachine} (h : Relation.ReflTransGen (MachinePatched b a) b m) :
    m = { b with finalizers := m.finalizers, providerID := m.providerID, hostInfo := m.hostInfo
                 ready := m.ready, conditions := m.conditions } ∧
      (m.finalizers = b.finalizers ∨ m.finalizers = a.finalizers) := by
  induction h with
  | refl => exact ⟨rfl, .inl rfl⟩
  | @tail cur m _ hlast ih =>
    refine ⟨?_, ?_⟩
    · rw [hlast.rest, ih.1]
    · rcases hlast.finalizers with hf | hf
      · rw [hf]
        exact ih.2
      · rw [hf, mergeField]
        split
        · exact ih.2
        · exact .inr rfl

/-- Patched from `b` to `a`, a machine knows of its host what one of the two does. -/
theorem hostInfo_of_patched {b a : ByoMachine}
    (h : Relation.ReflTransGen (MachinePatched b a) b m) :
    m.hostInfo = b.hostInfo ∨ m.hostInfo = a.hostInfo := by
  induction h with
  | refl => exact .inl rfl
  | @tail cur m _ hlast ih =>
    rcases hlast.hostInfo with heq | heq
    · rw [heq]
      exact ih
    · right
      rw [heq]
      rcases ih with hcur | hcur <;> rw [hcur]
      · exact mergeHostInfo_before _ _
      · simp [mergeHostInfo, mergeField]

/-- A request of the patch of the machine. -/
theorem MachineRan.setMachine {cur m' : ByoMachine} (hran : MachineRan w k s how m w')
    (hcur : w'.machines.lookup k = some cur) (hm' : MachinePatched s.byoMachine m cur m') :
    MachineRan w k s how m (w'.setMachine k m') := by
  obtain ⟨hleaves, ⟨hnone, -⟩ | ⟨cur', hcur', hpatched, -⟩⟩ := hran.left
  · rw [hcur] at hnone
    cases hnone
  obtain rfl : cur = cur' := Option.some.inj (hcur.symm.trans hcur')
  have hpatched' : Relation.ReflTransGen (MachinePatched s.byoMachine m) s.byoMachine m' :=
    hpatched.tail hm'
  have hworked : MachineWorked w k s (w'.setMachine k m') :=
    hran.toMachineWorked.of_eq rfl rfl rfl rfl ⟨rfl, rfl, rfl, rfl⟩
  refine { hworked with
    left := ⟨hleaves, ?_⟩
    others := fun k' hk => (setMachine_lookup_ne _ hk _).trans (hran.others k' hk)
    oneHost := hran.oneHost
    hostInfo := hran.hostInfo }
  rw [setMachine_lookup_self]
  split
  next hgone =>
    left
    obtain ⟨hdeleting, hempty⟩ : m'.deletionTimestamp = true ∧ m'.finalizers = [] := by
      simpa using hgone
    refine ⟨rfl, ?_, ?_⟩
    · rw [← hdeleting, (machine_of_patched hpatched').1]
    · by_contra hnot
      obtain ⟨hhow, hfinalizers⟩ := not_or.1 hnot
      rcases (machine_of_patched hpatched').2 with hf | hf
      · exact hfinalizers (hf.symm.trans hempty)
      · rcases hleaves.finalizers hhow with hsame | hmem
        · exact hfinalizers (hsame.symm.trans (hf.symm.trans hempty))
        · rw [← hf, hempty] at hmem
          cases hmem
  next hstays =>
    refine .inr ⟨m', rfl, hpatched', fun hdeleting hempty => absurd ?_ hstays⟩
    simp [hdeleting, hempty]

/-! ## One call -/

variable {host : Option ByoHost} {h : ByoHost}

/-- The hosts with the label of the machine are listed. -/
theorem AtWork.fetched (hkeys : WellKeyed w) (hfresh : w.informer = none)
    (hmachine : s.byoMachine.key = k) (hread : ReadScope w k s) (pick : Nat) :
    AtWork w k s (listHosts w (attachedSelector s.byoMachine) none pick).head? w :=
  { MachineWorked.init hfresh hread with
    machines := rfl
    memory := inMemory_fetched hkeys hfresh hmachine pick
    oneHost := fun _ _ _ _ => rfl }

/-- Nodes do not matter. -/
theorem AtWork.setNodes (hwork : AtWork w k s host w') (nodes) :
    AtWork w k s host { w' with nodes := nodes } := by
  have hworked : MachineWorked w k s { w' with nodes := nodes } :=
    hwork.toMachineWorked.of_eq rfl rfl rfl rfl ⟨rfl, rfl, rfl, rfl⟩
  exact { hworked with
    machines := hwork.machines
    memory := by cases host <;> exact hwork.memory
    oneHost := hwork.oneHost }

/-- The configuration of the machine is created. -/
theorem AtWork.created {ref : ObjectReference} {template : InstallerTemplate} {version : String}
    {config : InstallerConfig} (hwork : AtWork w k s host w') (hnormal : isNormalScope s = true)
    (href : s.byoMachine.installerRef = some ref)
    (htemplate : w.installerTemplates.lookup ⟨ref.apiVersion, ref.kind, ref.ns, ref.name⟩ =
      some template) (hversion : s.machine.version = some version)
    (hconfig : installerConfigFor s.byoMachine ref template version = .ok config)
    (hnone : w'.installerConfigs.lookup config.key = none) :
    AtWork w k s host
      { w' with installerConfigs := w'.installerConfigs.insert config.key config } := by
  have hmade : w'.installerConfigs = w.installerConfigs := by
    cases hwork.configs with
    | none heq => exact heq
    | created _ href' htemplate' hversion' hconfig' _ heq =>
      -- the same template and version were used before, so the configuration is there
      cases href.symm.trans href'
      cases htemplate.symm.trans htemplate'
      cases hversion.symm.trans hversion'
      cases hconfig.symm.trans hconfig'
      rw [heq, AList.lookup_insert] at hnone
      cases hnone
  rw [hmade] at hnone
  exact { hwork with
    configs := .created hnormal href htemplate hversion hconfig hnone (by rw [hmade])
    memory := by cases host <;> exact hwork.memory
    oneHost := hwork.oneHost }

/-- A host of the capacity pool is picked. -/
theorem AtWork.pick {selector : Selector} {ns : Option String} {dataSecretName version : String}
    {pick : Nat} (hkeys : WellKeyed w) (hwork : AtWork w k s none w')
    (hmachine : s.byoMachine.key = k) (hs : isNormalScope s)
    (hdata : s.machine.dataSecretName = some dataSecretName)
    (hversion : s.machine.version = some version)
    (hh : (listHosts w' (selector ++ [notInCluster]) ns pick).head? = some h) :
    Writing w k s (.attach (attachmentFor s dataSecretName version)) h false false w' := by
  obtain ⟨⟨k', hk'⟩, hcluster⟩ := clusterLabel_of_listed (List.mem_of_head? hh)
  rw [hwork.hostView, hwork.memory.2] at hk'
  have hread : w.hosts.lookup h.key = some h := by rwa [hkeys k' h hk']
  exact { hwork with
    oneHost := fun _ _ => by rw [hwork.memory.2]
    reason := ⟨hs, hcluster, hmachine ▸ hwork.memory.1, _, _, hdata, hversion, rfl⟩
    before := ⟨h, h, hread, .refl, .refl h⟩
    now := ⟨h, by rwa [hwork.memory.2], .refl _ _⟩ }

/-- A call keeps what holds in each phase. -/
theorem machineAlone_call (hkeys : WellKeyed w) (hmachines : MachinesKeyed w)
    (hfresh : w.informer = none) (o : Outcome) (c : Call) (q q' : MachinePhase)
    (hJ : MachineAlone w k w' q) (hnext : MachineNext k q c (exec o c w').1 q') :
    MachineAlone w k (exec o c w').2 q' := by
  have hmove := hnext.move
  generalize (exec o c w').2 = w'' at hmove
  clear hnext
  cases hmove with
  | read hm =>
    obtain rfl : w' = w := hJ
    exact ⟨rfl, hm⟩
  | owner hname hmachine =>
    obtain ⟨rfl, hm⟩ := hJ
    exact ⟨rfl, hm, _, hname, hmachine⟩
  | cluster hname hc =>
    obtain ⟨rfl, hm, howner⟩ := hJ
    exact ⟨rfl, fun _ => ⟨hm, howner, _, hname, hc⟩⟩
  | infra =>
    obtain ⟨rfl, hread⟩ := hJ
    exact ⟨rfl, hread _⟩
  | quit hq =>
    -- nothing has been written before the scope is complete
    left
    cases q with
    | start => exact hJ
    | owner m => exact hJ.1
    | cluster m machine => exact hJ.1
    | infra m machine c => exact hJ.1
    | _ => cases hq
  | @fetched s =>
    obtain ⟨rfl, hread⟩ := hJ
    exact .fetched hkeys hfresh (hmachines k _ hread.byoMachine) hread o.pick
  | fetchFailed =>
    obtain ⟨rfl, hread⟩ := hJ
    exact machineRan_finish (.init hfresh hread) rfl rfl k (fun _ _ => rfl) (.inl rfl)
  | @look s host c w'' hw =>
    obtain ⟨nodes, rfl⟩ := hw
    exact AtWork.setNodes hJ nodes
  | template hs href hversion htemplate hconfig =>
    refine ⟨hJ, hs, _, _, _, href, ?_, hversion, hconfig⟩
    rwa [← (show AtWork w k _ _ w' from hJ).static.2.2.1]
  | @created s host config hnone =>
    obtain ⟨hwork, hnormal, ref, template, version, href, htemplate, hversion, hconfig⟩ := hJ
    exact hwork.created hnormal href htemplate hversion hconfig hnone
  | notCreated => exact hJ.1
  | @listed s selector dataSecretName version h hs hdata hversion hh =>
    -- the list gives the reason for the edit that the next phase carries
    have hwork : AtWork w k s none w' := hJ
    have hmachine : s.byoMachine.key = k := hmachines k _ hwork.read.byoMachine
    exact ⟨false, false, hwork.pick hkeys hmachine hs hdata hversion hh, rfl, rfl, rfl⟩
  | @installReady s h ref secret config hs href hnone hconfig hready hsecret =>
    have hwork : AtWork w k s (some h) w' := hJ
    have hmachine : s.byoMachine.key = k := hmachines k _ hwork.read.byoMachine
    exact ⟨false, false, hwork.write ⟨hs, hmachine ▸ hwork.memory.1, hnone, ref, config, href,
      hwork.readyConfig hconfig hready, hready, hsecret⟩, rfl, rfl, rfl⟩
  | @uninstallReady s h ref secret config hs href hnone hconfig hready hsecret =>
    have hwork : AtWork w k s (some h) w' := hJ
    have hmachine : s.byoMachine.key = k := hmachines k _ hwork.read.byoMachine
    exact ⟨false, false, hwork.write ⟨hs, hmachine ▸ hwork.memory.1, hnone, ref, config, href,
      hwork.readyConfig hconfig hready, hready, hsecret⟩, rfl, rfl, rfl⟩
  | specWritten hcur =>
    obtain ⟨spec, status, hwriting, rfl, rfl, -⟩ := hJ
    obtain ⟨cur', hcur', hp⟩ := hwriting.now
    cases hcur.symm.trans hcur'
    exact ⟨true, false, hwriting.arrive hp.writeSpec, rfl, fun _ => rfl⟩
  | specFailed hfail =>
    obtain ⟨spec, status, hwriting, rfl, rfl, -⟩ := hJ
    exact ⟨false, false, hwriting, rfl, nofun⟩
  | statusWritten hchanged hcur =>
    obtain ⟨spec, status, hwriting, rfl, hspec⟩ := hJ
    obtain ⟨cur', hcur', hp⟩ := hwriting.now
    cases hcur.symm.trans hcur'
    exact ⟨spec, true, hwriting.arrive hp.writeStatus, fun hf => ⟨hspec hf, rfl⟩⟩
  | statusFailed hchanged hfail =>
    obtain ⟨spec, status, hwriting, rfl, hspec⟩ := hJ
    exact ⟨spec, false, hwriting, nofun⟩
  | @machineWritten s how m cur m' part c hc hcur hm' =>
    have hran : MachineRan w k s how m w' := hJ
    have hmachine : m.key = k :=
      hran.left.1.key.trans (hmachines k _ hran.read.byoMachine)
    rw [hmachine] at hcur ⊢
    have hran' := hran.setMachine hcur hm'
    -- the request for the status is the last one of the patch
    cases part with
    | status => exact .inr ⟨s, how, m, hran'⟩
    | _ => exact hran'
  | @machineFailed s how m part c hc =>
    have hran : MachineRan w k s how m w' := hJ
    cases part with
    | status => exact .inr ⟨s, how, m, hran⟩
    | _ => exact hran

theorem machineAlone_silent (hmachines : MachinesKeyed w) (hfresh : w.informer = none) (q q' : MachinePhase)
    (hJ : MachineAlone w k w' q) (hsilent : MachineSilent q q') : MachineAlone w k w' q' := by
  have hkey : ∀ {s host}, AtWork w k s host w' → s.byoMachine.key = k := fun hwork =>
    hmachines k _ hwork.read.byoMachine
  cases hsilent with
  | noOwner => exact .inl hJ.1
  | noCluster => exact .inl hJ.1
  | noInfra => exact .inl hJ.1
  | invalidLabel =>
    obtain ⟨rfl, hread⟩ := hJ
    exact machineRan_finish (.init hfresh hread) rfl rfl k (fun _ _ => rfl) (.inl rfl)
  | @pause s h hs =>
    have hwork : AtWork w k s (some h) w' := hJ
    exact ⟨false, false, hwork.write ⟨hs, hkey hwork ▸ hwork.memory.1⟩, rfl, rfl, rfl⟩
  | @unpause s h hs =>
    have hwork : AtWork w k s (some h) w' := hJ
    exact ⟨false, false, hwork.write ⟨hs, hkey hwork ▸ hwork.memory.1⟩, rfl, rfl, rfl⟩
  | @mark s h u hs =>
    have hwork : AtWork w k s (some h) w' := hJ
    exact ⟨false, false, hwork.write ⟨hs, hkey hwork ▸ hwork.memory.1⟩, rfl, rfl, rfl⟩
  | skipSpec hsame =>
    obtain ⟨spec, status, hwriting, rfl, rfl, rfl⟩ := hJ
    exact ⟨true, false, hwriting.skip fun _ hp => hp.skipSpec hsame, rfl, fun _ => rfl⟩
  | skipStatus hsame =>
    obtain ⟨spec, status, hwriting, rfl, hspec⟩ := hJ
    exact ⟨spec, true, hwriting.skip fun _ hp => hp.skipStatus hsame, fun hf => ⟨hspec hf, rfl⟩⟩
  | wrote hs =>
    obtain ⟨spec, status, hwriting, hdone⟩ := hJ
    obtain ⟨rfl, rfl⟩ := hdone rfl
    exact hwriting.wrote (hmachines k _ hwriting.read.byoMachine)
  | @writeFailed s e h m' hs hm =>
    obtain ⟨spec, status, hwriting, -⟩ := hJ
    refine hwriting.finish (hmachines k _ hwriting.read.byoMachine) ⟨hs, hm⟩ ?_
    obtain ⟨-, hostInfo, -, -, rfl, hinfo⟩ := hm
    refine hinfo.imp_right ?_
    rintro ⟨h', hh', heq⟩
    -- the host of an attachment that failed is not in memory
    cases hattach : e.isAttach with
    | true =>
      rw [hattach] at hh'
      cases hh'
    | false =>
      rw [hattach] at hh'
      cases hh'
      exact ⟨rfl, heq⟩
  | @leave s host m' hs hm =>
    have hwork : AtWork w k s host w' := hJ
    refine hwork.finish ⟨hs, hm⟩ ?_
    obtain ⟨-, hostInfo, -, -, rfl, hinfo⟩ := hm
    exact hinfo
  | @pausedNoHost s hs =>
    have hwork : AtWork w k s none w' := hJ
    exact hwork.finish ⟨hs, rfl⟩ (.inl rfl)
  | pausedHost hs =>
    obtain ⟨spec, status, hwriting, -⟩ := hJ
    exact hwriting.finish (hmachines k _ hwriting.read.byoMachine) ⟨hs, rfl⟩ (.inl rfl)
  | @releasedNoHost s hs =>
    have hwork : AtWork w k s none w' := hJ
    exact hwork.finish ⟨hs, rfl⟩ (.inl rfl)
  | marked hs =>
    obtain ⟨spec, status, hwriting, -⟩ := hJ
    exact hwriting.finish (hmachines k _ hwriting.read.byoMachine) ⟨hs, rfl⟩ (.inl rfl)
  | markFailed hs =>
    obtain ⟨spec, status, hwriting, -⟩ := hJ
    exact hwriting.finish (hmachines k _ hwriting.read.byoMachine) rfl (.inl rfl)
  | skipConditions => exact hJ
  | skipMachineSpec => exact hJ
  | @skipMachineStatus s how m' => exact .inr ⟨s, how, m', hJ⟩

end Steps

/-- One reconcile of a machine, with any outcomes: it changes nothing, or it reads its objects,
edits hosts and patches the machine. -/
theorem machineStep_ran {w : World} (hkeys : WellKeyed w) (hmachines : MachinesKeyed w)
    (hfresh : w.informer = none) (k : NamespacedName) (os : List Outcome) :
    (Prog.run exec os (reconcile k) w).2 = w ∨
      ∃ s how m, MachineRan w k s how m (Prog.run exec os (reconcile k) w).2 := by
  obtain ⟨q, rfl, hq⟩ := (reconcile_follows k).run exec (J := fun w' q => MachineAlone w k w' q)
    (fun o w' c q q' hJ hnext => machineAlone_call hkeys hmachines hfresh o c q q' hJ hnext)
    (fun w' q q' hJ hsilent => machineAlone_silent hmachines hfresh q q' hJ hsilent)
    (s := w) rfl os
  exact hq

end Byoh.Protocol
