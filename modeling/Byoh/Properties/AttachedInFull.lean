import Byoh.Protocol.Lifecycle

/-!
# Attachments are complete

An attachment is stored in the labels and the bootstrap secret of a host, which one request
writes, and in its machine reference, which another request writes; the agent removes them again
with two requests. Reconciles of a machine look at the label only.

If the second request of an attachment fails, the host keeps the label without the reference
whatever happens next (`attached_without_machineRef`). If it does not fail, and hosts are picked
whose reference is cleared, then a host with the label of a machine and without a mark always has
the reference and the bootstrap secret of this machine, once no reconcile of the machine is in
flight (`attached_in_full`).
-/

set_option autoImplicit false

namespace Byoh.Properties

open Byoh.Foundation Byoh.Model Byoh.Protocol Byoh.Model.ByoMachineReconciler

/-! ## Statement -/

/-- The bootstrap data secret of the machine, with the objects of `w`. -/
def DataSecretOf (w : World) (k : NamespacedName) (name : String) : Prop :=
  ∃ m owner machine, w.machines.lookup k = some m ∧
    findOwner "Machine" clusterGroup m.ownerReferences = .ok (some owner) ∧
    w.capiMachines.lookup ⟨k.ns, owner⟩ = some machine ∧ machine.dataSecretName = some name

/-- The host has the bootstrap secret of the machine. -/
def HasSecret (w₀ : World) (k : NamespacedName) (h : ByoHost) : Prop :=
  ∃ name, DataSecretOf w₀ k name ∧
    h.bootstrapSecret = some { kind := "Secret", ns := k.ns, name := name }

/-- The host has the reference to the machine. -/
def HasRef (k : NamespacedName) (h : ByoHost) : Prop :=
  ∃ ref, h.machineRef = some ref ∧ NamesMachine k ref

/-- Hosts with the label of `k` and without a mark satisfy `P`. -/
def AllAttached (k : NamespacedName) (P : ByoHost → Prop) (w : World) : Prop :=
  ∀ key h, w.hosts.lookup key = some h → Labelled k h → h.carries .hostCleanup = false → P h

/-- No machine is created, and machines of cluster-api stay as they are. -/
def fixedMachines : EnvAction → Bool
  | .createByoMachine _ | .deliver _ | .putMachine _ => false
  | _ => true

/-- Machines are reconciled one after another; agents, the other controllers and users act at any
time, and any call may fail. -/
def attachRules (names : List NamespacedName) : Rules Call Outcome World Tid EnvAction where
  start := fun _ busy t => OneAtATime names busy t
  env := fun _ _ a => fixedMachines a = true

/-- A host is picked only if its machine reference is cleared, and the request that sets the
reference does not fail on a host that has the label. -/
def attachSucceeds (w : World) (t : Tid) (o : Outcome) : Call → Bool
  | .listByoHosts selector (some ns) =>
      (listHosts w selector (some ns) o.pick).head?.all fun h => h.machineRef.isNone
  | .patchByoHostStatus key _ _ =>
      match t with
      | .byoMachine k => o.writeOk || (w.hosts.lookup key).all fun h => !Labelled k h
      | _ => true
  | _ => true

/-- The same, when attachments do not fail half-way. -/
def fullRules (names : List NamespacedName) : Rules Call Outcome World Tid EnvAction :=
  { attachRules names with call := fun w t o c => attachSucceeds w t o c = true }

instance (names : List NamespacedName) : DecidableRules (attachRules names) where
  start _ busy t := inferInstanceAs (Decidable (OneAtATime names busy t))
  call _ _ _ _ := inferInstanceAs (Decidable True)
  env _ _ a := inferInstanceAs (Decidable (fixedMachines a = true))

instance (names : List NamespacedName) : DecidableRules (fullRules names) where
  start _ busy t := inferInstanceAs (Decidable (OneAtATime names busy t))
  call w t o c := inferInstanceAs (Decidable (attachSucceeds w t o c = true))
  env _ _ a := inferInstanceAs (Decidable (fixedMachines a = true))

/-! ## Facts about the server -/

/-- Every host of `k` without a mark has the reference. -/
def HasRefs (k : NamespacedName) (w : World) : Prop := AllAttached k (HasRef k) w

theorem hasRefs_of_noneLabelled {k : NamespacedName} {w : World} (h : NoneLabelled k w) :
    HasRefs k w := fun key b hb hl => absurd hl (h key b hb)

/-- What holds of every host. -/
structure FullHost (names : List NamespacedName) (w₀ : World) (h : ByoHost) : Prop where
  free : h.clusterLabel = none → h.bootstrapSecret = none
  secret : ∀ k ∈ names, Labelled k h → HasSecret w₀ k h

/-- What holds in every state of a run from `w₀`. -/
structure Full (names : List NamespacedName) (w₀ w : World) : Prop where
  capiMachines : w.capiMachines = w₀.capiMachines
  owners : ∀ k m, w.machines.lookup k = some m →
    ∃ m₀, w₀.machines.lookup k = some m₀ ∧ m.ownerReferences = m₀.ownerReferences
  each : ∀ key h, w.hosts.lookup key = some h → FullHost names w₀ h

/-! ## Assertions -/

/-- The machine was read with its owner references. -/
def Owned (w₀ : World) (k : NamespacedName) (m : ByoMachine) : Prop :=
  ∃ m₀, w₀.machines.lookup k = some m₀ ∧ m.ownerReferences = m₀.ownerReferences

/-- The machine of cluster-api that owns `k`. -/
def OwnerOf (w₀ : World) (k : NamespacedName) (machine : Machine) : Prop :=
  ∃ m₀ owner, w₀.machines.lookup k = some m₀ ∧
    findOwner "Machine" clusterGroup m₀.ownerReferences = .ok (some owner) ∧
    w₀.capiMachines.lookup ⟨k.ns, owner⟩ = some machine

/-- The host under `key` has no machine reference. -/
def NoRefAt (key : NamespacedName) (w : World) : Prop :=
  ∀ cur, w.hosts.lookup key = some cur → cur.machineRef = none

/-- The attachment is the one of `k`, and nothing of another one is left on the host. -/
structure Prepared (w₀ : World) (k : NamespacedName) (a : Attachment) (h : ByoHost) (w : World) :
    Prop where
  machineRef : NamesMachine k a.machineRef
  secret : ∃ name, DataSecretOf w₀ k name ∧
    a.bootstrapSecret = { kind := "Secret", ns := k.ns, name := name }
  noRef : h.machineRef = none
  noSecret : h.bootstrapSecret = none
  target : NoRefAt h.key w

/-- Between the two requests of the attachment. -/
structure HalfFull (k : NamespacedName) (a : Attachment) (h : ByoHost) (failed : Bool) (w : World) :
    Prop where
  machineRef : NamesMachine k a.machineRef
  noRef : h.machineRef = none
  target : NoRefAt h.key w
  only : failed = false → OnlyLabelled k h.key w

/-- What holds while the reconcile of `k` is in a phase. -/
def Completing (w₀ : World) (k : NamespacedName) (w : World) : MachinePhase → Prop
  | .owner m => HasRefs k w ∧ Owned w₀ k m
  | .cluster _ machine => HasRefs k w ∧ OwnerOf w₀ k machine
  | .infra _ machine _ => HasRefs k w ∧ OwnerOf w₀ k machine
  | .fetch s => HasRefs k w ∧ OwnerOf w₀ k s.machine
  | .body s none => HasRefs k w ∧ OwnerOf w₀ k s.machine
  | .create s none _ => HasRefs k w ∧ OwnerOf w₀ k s.machine
  | .write _ (.attach a) h .spec _ => Prepared w₀ k a h w
  | .write _ (.attach a) h .status failed => HalfFull k a h failed w
  | _ => HasRefs k w

/-- The machine reference that the agent of `k` is about to clear is not that of an attached
host. -/
def Clearing (k : NamespacedName) (w : World) : AgentPhase → Prop
  | .finish h _ _ .status =>
      h.carries .hostCleanup = true → h.machineRef ≠ none → ∀ cur, w.hosts.lookup k = some cur →
        cur.machineRef ≠ none ∧ (cur.attachedLabel = none ∨ cur.carries .hostCleanup = true)
  | _ => True

/-! ## Interference -/

/-- A host of `k` without a mark was one before, with the same reference. -/
def RefKept (k : NamespacedName) (h h' : ByoHost) : Prop :=
  Labelled k h' → h'.carries .hostCleanup = false →
    Labelled k h ∧ h.carries .hostCleanup = false ∧ h'.machineRef = h.machineRef

/-- What peers do to a host, as far as the reconcile of `k` relies on it. -/
structure PeerKeeps (k : NamespacedName) (h h' : ByoHost) : Prop where
  ref : RefKept k h h'
  noRef : h.machineRef = none → h'.machineRef = none
  label : Labelled k h' → Labelled k h

theorem PeerKeeps.refl (k : NamespacedName) (h : ByoHost) : PeerKeeps k h h :=
  ⟨fun hl hun => ⟨hl, hun, rfl⟩, id, id⟩

/-- What others do to a host, as far as its agent relies on it. -/
def ClearKept (h h' : ByoHost) : Prop :=
  h.machineRef ≠ none → h'.machineRef ≠ none ∧
    (h.attachedLabel = none ∨ h.carries .hostCleanup = true →
      h'.attachedLabel = none ∨ h'.carries .hostCleanup = true)

theorem ClearKept.refl (h : ByoHost) : ClearKept h h := fun href => ⟨href, id⟩

section Interference

variable {w₀ w w' : World} {k : NamespacedName}

theorem HasRefs.mono (h : HasRefs k w) (hw : HostsVia (RefKept k) w w') : HasRefs k w' := by
  intro key b' hb' hl hun
  obtain ⟨b, hb, hkept⟩ := hw.of_some hb'
  obtain ⟨hl₀, hun₀, href⟩ := hkept hl hun
  obtain ⟨ref, hr, hnames⟩ := h key b hb hl₀ hun₀
  exact ⟨ref, href.trans hr, hnames⟩

theorem NoRefAt.mono {key : NamespacedName} (h : NoRefAt key w)
    (hw : HostsVia (PeerKeeps k) w w') : NoRefAt key w' := by
  intro b' hb'
  obtain ⟨b, hb, hkept⟩ := hw.of_some hb'
  exact hkept.noRef (h b hb)

theorem OnlyLabelled.mono {key : NamespacedName} (h : OnlyLabelled k key w)
    (hw : HostsVia (PeerKeeps k) w w') : OnlyLabelled k key w' := by
  intro k' b' hb' hl
  obtain ⟨b, hb, hkept⟩ := hw.of_some hb'
  exact h k' b hb (hkept.label hl)

theorem Completing.mono {q : MachinePhase} (hH : Completing w₀ k w q)
    (hw : HostsVia (PeerKeeps k) w w') : Completing w₀ k w' q := by
  have href : HostsVia (RefKept k) w w' := hw.mono fun _ _ => PeerKeeps.ref
  cases q with
  | owner m => exact ⟨hH.1.mono href, hH.2⟩
  | cluster m machine => exact ⟨hH.1.mono href, hH.2⟩
  | infra m machine c => exact ⟨hH.1.mono href, hH.2⟩
  | fetch s => exact ⟨hH.1.mono href, hH.2⟩
  | body s host =>
    cases host with
    | none => exact ⟨hH.1.mono href, hH.2⟩
    | some h => exact HasRefs.mono hH href
  | create s host config =>
    cases host with
    | none => exact ⟨hH.1.mono href, hH.2⟩
    | some h => exact HasRefs.mono hH href
  | write s e h part failed =>
    cases e with
    | attach a =>
      cases part with
      | spec => exact ⟨hH.machineRef, hH.secret, hH.noRef, hH.noSecret, hH.target.mono hw⟩
      | status =>
        exact ⟨hH.machineRef, hH.noRef, hH.target.mono hw, fun hf => OnlyLabelled.mono (hH.only hf) hw⟩
      | done => exact HasRefs.mono hH href
    | _ => exact HasRefs.mono hH href
  | _ => exact HasRefs.mono hH href

theorem Clearing.mono {q : AgentPhase} (hH : Clearing k w q)
    (hkept : ∀ cur', w'.hosts.lookup k = some cur' →
      ∃ cur, w.hosts.lookup k = some cur ∧ ClearKept cur cur') : Clearing k w' q := by
  cases q with
  | finish h log h' part =>
    cases part with
    | status =>
      intro hm href cur' hcur'
      obtain ⟨cur, hcur, hk⟩ := hkept cur' hcur'
      obtain ⟨hr, hfree⟩ := hH hm href cur hcur
      obtain ⟨hr', hfree'⟩ := hk hr
      exact ⟨hr', hfree' hfree⟩
    | _ => trivial
  | _ => trivial

end Interference

/-! ## The reconcile of a machine -/

/-- What a call of the reconcile of `k` does to hosts, seen from other threads. -/
structure MachineEffect (names : List NamespacedName) (k : NamespacedName) (w w' : World) :
    Prop where
  refs : ∀ k' ∈ names, k' ≠ k → HostsVia (RefKept k') w w'
  clear : HostsVia ClearKept w w'

section Moves

variable {names : List NamespacedName} {w₀ w w' : World} {k : NamespacedName} {o : Outcome}
  {h cur : ByoHost} {s : Scope} {a : Attachment} {q : MachinePhase}

theorem refKept_refl (k : NamespacedName) (h : ByoHost) : RefKept k h h :=
  fun hl hun => ⟨hl, hun, rfl⟩

theorem MachineEffect.of_hosts_eq (h : w'.hosts = w.hosts) : MachineEffect names k w w' :=
  ⟨fun k' _ _ => .of_hosts_eq (refKept_refl k') h, .of_hosts_eq .refl h⟩

theorem Full.of_eq (hF : Full names w₀ w) (hh : w'.hosts = w.hosts)
    (hm : w'.machines = w.machines) (hc : w'.capiMachines = w.capiMachines) : Full names w₀ w' where
  capiMachines := hc.trans hF.capiMachines
  owners := by
    rw [hm]
    exact hF.owners
  each := by
    rw [hh]
    exact hF.each

theorem Full.setHost (hF : Full names w₀ w) {key : NamespacedName} (hfull : FullHost names w₀ h) :
    Full names w₀ (w.setHost key h) :=
  ⟨hF.capiMachines, hF.owners, forall_lookup_insert hF.each hfull⟩

theorem FullHost.of_same {h' : ByoHost} (hf : FullHost names w₀ h)
    (hlabel : h'.attachedLabel = h.attachedLabel) (hcluster : h'.clusterLabel = h.clusterLabel)
    (hsecret : h'.bootstrapSecret = h.bootstrapSecret) : FullHost names w₀ h' := by
  refine ⟨fun hc => ?_, fun k hk hl => ?_⟩
  · rw [hsecret]
    exact hf.free (hcluster.symm.trans hc)
  · rw [HasSecret, hsecret]
    exact hf.secret k hk (hlabel.symm.trans hl)

/-- A write to a machine that keeps its owner references. -/
theorem Full.setMachine (hF : Full names w₀ w) {key : NamespacedName} {cur m : ByoMachine}
    (hcur : w.machines.lookup key = some cur) (hm : m.ownerReferences = cur.ownerReferences) :
    Full names w₀ (w.setMachine key m) := by
  refine ⟨hF.capiMachines, fun k m' hm' => ?_, hF.each⟩
  by_cases hk : k = key
  · subst hk
    rw [setMachine_lookup_self] at hm'
    split at hm'
    · cases hm'
    · cases hm'
      obtain ⟨m₀, hm₀, ho⟩ := hF.owners k cur hcur
      exact ⟨m₀, hm₀, hm.trans ho⟩
  · rw [setMachine_lookup_ne w hk] at hm'
    exact hF.owners k m' hm'

/-- A write of metadata and spec that does not attach. -/
theorem plainSpec_full (hF : Full names w₀ w) {e : HostEdit} (he : e.isAttach = false)
    (hcur : w.hosts.lookup h.key = some cur) :
    Full names w₀ (w.setHost h.key (h.merge (e.apply h) cur)) ∧
      (∀ k', HostsVia (RefKept k') w (w.setHost h.key (h.merge (e.apply h) cur))) ∧
      HostsVia ClearKept w (w.setHost h.key (h.merge (e.apply h) cur)) := by
  obtain ⟨hlabel, hcluster⟩ := HostEdit.merge_labels he h cur
  have hsecret : (h.merge (e.apply h) cur).bootstrapSecret = cur.bootstrapSecret := by
    rw [ByoHost.merge, e.apply_bootstrapSecret he]
    exact mergeRef_self ..
  have hmark := (ManagerWrite.spec e h : ManagerWrite cur _).cleanup
  refine ⟨hF.setHost ((hF.each _ _ hcur).of_same hlabel hcluster hsecret), fun k' => ?_, ?_⟩
  · refine .setHost (refKept_refl k') hcur fun hl hun => ⟨hlabel.symm.trans hl, ?_, rfl⟩
    by_contra hm
    cases (hmark (by simpa using hm)).symm.trans hun
  · refine .setHost .refl hcur fun href => ⟨href, fun hfree => ?_⟩
    rw [hlabel]
    exact hfree.imp id hmark

/-- The request that writes labels and bootstrap secret of an attachment. -/
theorem Prepared.specWritten (hF : Full names w₀ w) (hdistinct : DistinctLabels names)
    (hk : k ∈ names) (hp : Picked k s a h w) (hpre : Prepared w₀ k a h w)
    (hcur : w.hosts.lookup h.key = some cur) :
    Full names w₀ (w.setHost h.key (h.merge ((HostEdit.attach a).apply h) cur)) ∧
      HalfFull k a h false (w.setHost h.key (h.merge ((HostEdit.attach a).apply h) cur)) ∧
      MachineEffect names k w (w.setHost h.key (h.merge ((HostEdit.attach a).apply h) cur)) := by
  obtain ⟨hl, hc, -⟩ := hp.merge hcur
  have hsecret : (h.merge ((HostEdit.attach a).apply h) cur).bootstrapSecret =
      some a.bootstrapSecret := by
    have hnone : cur.bootstrapSecret = none :=
      (hF.each h.key cur hcur).free (hp.target cur hcur).cluster
    rw [ByoHost.merge]
    dsimp only
    rw [hpre.noSecret, hnone]
    exact mergeRef_before ..
  have hself : ∀ k' ∈ names, Labelled k' (h.merge ((HostEdit.attach a).apply h) cur) → k' = k :=
    fun k' hk' hl' => hdistinct k' hk' k hk (Option.some.inj (hl'.symm.trans hl))
  refine ⟨hF.setHost ⟨fun hnone => absurd hnone hc, fun k' hk' hl' => ?_⟩,
    ⟨hpre.machineRef, hpre.noRef, fun b hb => ?_, fun _ k' b hb hlb => ?_⟩,
    fun k' hk' hne => .setHost (refKept_refl k') hcur fun hl' =>
      absurd (hself k' hk' hl') hne,
    .setHost .refl hcur fun href => absurd (hpre.target cur hcur) href⟩
  · obtain ⟨name, hname, ha⟩ := hpre.secret
    rw [hself k' hk' hl']
    exact ⟨name, hname, by rw [hsecret, ha]⟩
  · rw [World.setHost, AList.lookup_insert] at hb
    cases hb
    exact hpre.target cur hcur
  · by_contra hne
    rw [World.setHost, AList.lookup_insert_ne hne] at hb
    exact hp.unlabelled k' b hb hlb

/-- The request that writes the machine reference of an attachment. -/
theorem HalfFull.statusWritten (hF : Full names w₀ w) (hdistinct : DistinctLabels names)
    (hk : k ∈ names) {failed : Bool} (hh : HalfAttached k s h failed w)
    (hhalf : HalfFull k a h failed w) (hcur : w.hosts.lookup h.key = some cur) :
    Full names w₀ (w.setHost h.key (h.mergeStatus ((HostEdit.attach a).apply h) cur)) ∧
      HasRefs k (w.setHost h.key (h.mergeStatus ((HostEdit.attach a).apply h) cur)) ∧
      MachineEffect names k w
        (w.setHost h.key (h.mergeStatus ((HostEdit.attach a).apply h) cur)) := by
  have href : (h.mergeStatus ((HostEdit.attach a).apply h) cur).machineRef = some a.machineRef := by
    rw [ByoHost.mergeStatus]
    dsimp only
    rw [hhalf.noRef, hhalf.target cur hcur]
    exact mergeRef_before ..
  -- the host is labelled for no other machine
  have hself : ∀ k' ∈ names, Labelled k' cur → k' = k := by
    intro k' hk' hl'
    cases failed with
    | false =>
      have hl := (hh.attached rfl cur hcur).1
      exact hdistinct k' hk' k hk (Option.some.inj (hl'.symm.trans hl))
    | true => cases ((hh.unlabelled rfl).2 cur hcur).label.symm.trans hl'
  refine ⟨hF.setHost ((hF.each _ _ hcur).of_same rfl rfl rfl), fun k' b hb hl hun => ?_,
    fun k' hk' hne => .setHost (refKept_refl k') hcur fun hl' => absurd (hself k' hk' hl') hne,
    .setHost .refl hcur fun hr => absurd (hhalf.target cur hcur) hr⟩
  rcases lookup_insert_some hb with ⟨-, rfl⟩ | ⟨hkey, hb⟩
  · exact ⟨a.machineRef, href, hhalf.machineRef⟩
  · cases failed with
    | false => exact absurd (hhalf.only rfl k' b hb hl) hkey
    | true => exact absurd hl ((hh.unlabelled rfl).1 k' b hb)

/-- The request that writes the machine reference fails only when no host carries the label. -/
theorem HalfFull.statusFailed {failed : Bool} (hh : HalfAttached k s h failed w)
    (hhalf : HalfFull k a h failed w) (hfail : o.writeOk = true → w.hosts.lookup h.key = none)
    (hrule : attachSucceeds w (.byoMachine k) o
      (.patchByoHostStatus h.key h ((HostEdit.attach a).apply h)) = true) : HasRefs k w := by
  cases failed with
  | true => exact hasRefs_of_noneLabelled (hh.unlabelled rfl).1
  | false =>
    intro k' b hb hl _
    have hkey := hhalf.only rfl k' b hb hl
    subst hkey
    simp only [attachSucceeds, hb, Option.all_some, Bool.or_eq_true, Bool.not_eq_true',
      decide_eq_false_iff_not] at hrule
    rcases hrule with hok | hnot
    · cases (hfail hok).symm.trans hb
    · exact absurd hl hnot

/-- The host that was picked, by the rule for listings. -/
theorem prepared_listed (hG : Lifecycle names w) (hF : Full names w₀ w)
    (hread : ReadMachine k s.byoMachine w) (howner : OwnerOf w₀ k s.machine) {selector : Selector}
    {dataSecretName version : String} (hdata : s.machine.dataSecretName = some dataSecretName)
    (hh : (listHosts w (selector ++ [notInCluster]) (some s.byoMachine.ns) o.pick).head? = some h)
    (hrule : attachSucceeds w (.byoMachine k) o
      (.listByoHosts (selector ++ [notInCluster]) (some s.byoMachine.ns)) = true) :
    Prepared w₀ k (attachmentFor s dataSecretName version) h w := by
  obtain ⟨⟨key, hview⟩, hcluster⟩ := clusterLabel_of_listed (List.mem_of_head? hh)
  rw [World.hostView, hG.fresh] at hview
  have hkey : h.key = key := hG.hosts key h hview
  have hnoRef : h.machineRef = none := by
    simpa [attachSucceeds, hh] using hrule
  obtain ⟨m₀, owner, hm₀, hfind, hmachine⟩ := howner
  have hk : s.byoMachine.key = k := hread.key
  refine ⟨?_, ⟨dataSecretName, ⟨m₀, owner, s.machine, hm₀, hfind, hmachine, hdata⟩, ?_⟩, hnoRef,
    (hF.each key h hview).free hcluster, fun cur hcur => ?_⟩
  · rw [← hk]
    exact ⟨rfl, rfl, rfl⟩
  · rw [← hk]
    rfl
  · rw [hkey] at hcur
    cases hview.symm.trans hcur
    exact hnoRef

/-- The hosts of `k` have their references while nothing is being attached. -/
theorem Completing.hasRefs_of_reading (hH : Completing w₀ k w q) (hq : q.isReading = true) :
    HasRefs k w := by
  cases q with
  | start => exact hH
  | owner m => exact hH.1
  | cluster m machine => exact hH.1
  | infra m machine c => exact hH.1
  | _ => cases hq

theorem Completing.hasRefs_of_body {host : Option ByoHost} (hH : Completing w₀ k w (.body s host)) :
    HasRefs k w := by
  cases host with
  | none => exact hH.1
  | some h => exact hH

/-- One call of the reconcile of `k`. -/
theorem Completing.move (hG : Lifecycle names w) (hF : Full names w₀ w)
    (hdistinct : DistinctLabels names) (hk : k ∈ names) {q' : MachinePhase} {c : Call}
    (hold : Holding k w q) (hH : Completing w₀ k w q)
    (hrule : attachSucceeds w (.byoMachine k) o c = true) (hmove : MachineMove k o w q c q' w') :
    Full names w₀ w' ∧ Completing w₀ k w' q' ∧ MachineEffect names k w w' := by
  have hrefl : MachineEffect names k w w := .of_hosts_eq rfl
  cases hmove with
  | @read m hm => exact ⟨hF, ⟨hH, hF.owners k m hm⟩, hrefl⟩
  | @owner m name machine hname hmachine =>
    obtain ⟨href, m₀, hm₀, howners⟩ := hH
    refine ⟨hF, ⟨href, m₀, name, hm₀, by rw [← howners]; exact hname, ?_⟩, hrefl⟩
    -- machines of the cluster do not change, so this is the owner at the start
    rw [← hF.capiMachines, ← hold.key]
    exact hmachine
  | cluster _ _ => exact ⟨hF, hH, hrefl⟩
  | infra => exact ⟨hF, hH, hrefl⟩
  | quit hq => exact ⟨hF, hH.hasRefs_of_reading hq, hrefl⟩
  | @fetched s =>
    refine ⟨hF, ?_, hrefl⟩
    cases (listHosts w (attachedSelector s.byoMachine) none o.pick).head? with
    | none => exact hH
    | some h => exact hH.1
  | fetchFailed => exact ⟨hF, hH.1, hrefl⟩
  | look hw =>
    obtain ⟨nodes, rfl⟩ := hw
    have hpeer : HostsVia (PeerKeeps k) w { w with nodes := nodes } :=
      .of_hosts_eq (PeerKeeps.refl k) rfl
    exact ⟨hF.of_eq rfl rfl rfl, hH.mono hpeer, .of_hosts_eq rfl⟩
  | @template s host =>
    refine ⟨hF, ?_, hrefl⟩
    cases host <;> exact hH
  | @created s host config _ =>
    refine ⟨hF.of_eq rfl rfl rfl, ?_, .of_hosts_eq rfl⟩
    cases host <;> exact hH
  | @notCreated s host =>
    refine ⟨hF, ?_, hrefl⟩
    cases host <;> exact hH
  | listed _ hdata _ hh => exact ⟨hF, prepared_listed hG hF hold.1 hH.2 hdata hh hrule, hrefl⟩
  | installReady _ _ _ _ _ _ => exact ⟨hF, hH, hrefl⟩
  | uninstallReady _ _ _ _ _ _ => exact ⟨hF, hH, hrefl⟩
  | @specWritten s e h cur failed hcur =>
    cases he : e.isAttach with
    | false =>
      obtain ⟨hF', hrefs, hclear⟩ := plainSpec_full hF he hcur
      refine ⟨hF', ?_, fun k' _ _ => hrefs k', hclear⟩
      cases e with
      | attach a => cases he
      | _ => exact HasRefs.mono hH (hrefs k)
    | true =>
      cases e with
      | attach a =>
        obtain ⟨-, hp, rfl⟩ := hold
        exact Prepared.specWritten hF hdistinct hk hp hH hcur
      | _ => cases he
  | @specFailed s e h failed _ =>
    refine ⟨hF, ?_, hrefl⟩
    cases e with
    | attach a => exact ⟨hH.machineRef, hH.noRef, hH.target, nofun⟩
    | _ => exact hH
  | @statusWritten s e h cur failed hchanged hcur =>
    cases e with
    | attach a => exact HalfFull.statusWritten hF hdistinct hk hold.2 hH hcur
    -- only an attachment changes the status
    | _ => rw [HostEdit.statusChanged_eq_false rfl] at hchanged; cases hchanged
  | @statusFailed s e h failed hchanged hfail =>
    refine ⟨hF, ?_, hrefl⟩
    cases e with
    | attach a => exact HalfFull.statusFailed hold.2 hH hfail hrule
    | _ => exact hH
  | @machineWritten s how m cur m' part _ _ hcur hm' =>
    refine ⟨hF.setMachine hcur (by rw [hm'.rest]), ?_, .of_hosts_eq rfl⟩
    cases part <;> exact hH
  | @machineFailed s how m part =>
    refine ⟨hF, ?_, hrefl⟩
    cases part <;> exact hH

/-- What happens between calls. -/
theorem Completing.step {q' : MachinePhase} (hold : Holding k w q) (hH : Completing w₀ k w q)
    (hstep : MachineSilent q q') : Completing w₀ k w q' := by
  cases hstep with
  | noOwner | noCluster | noInfra | invalidLabel => exact hH.1
  | pause _ | unpause _ | mark _ => exact hH
  | @skipSpec s e h failed hsame =>
    cases e with
    | attach a => cases hsame.symm.trans hold.2.1.changed
    | _ => exact hH
  | @skipStatus s e h failed hsame =>
    cases e with
    | attach a =>
      -- the machine reference in memory was cleared
      simp [ByoHost.statusChanged, HostEdit.apply, Attachment.apply, hH.noRef] at hsame
    | _ => exact hH
  | @wrote s e h _ => cases e <;> exact hH
  | @writeFailed s e h m' _ _ => cases e <;> exact hH
  | leave _ _ => exact hH.hasRefs_of_body
  | pausedNoHost _ | releasedNoHost _ => exact hH.1
  | pausedHost _ | marked _ | markFailed _ => exact hH
  | skipConditions | skipMachineSpec _ | skipMachineStatus => exact hH

end Moves

/-! ## Agents and the ByoHost controller -/

section Peers

variable {names : List NamespacedName} {w₀ w w' : World} {k : NamespacedName} {o : Outcome}
  {h h' : ByoHost} {q q' : AgentPhase} {c : Call}

/-- A write that keeps labels, mark and machine reference. -/
theorem PeerKeeps.of_same (hs : SameAttachment h h') (href : h'.machineRef = h.machineRef)
    (k : NamespacedName) : PeerKeeps k h h' where
  ref := fun hl hun => ⟨hs.label.symm.trans hl, hs.carries.symm.trans hun, href⟩
  noRef := href.trans
  label := hs.label.symm.trans

/-- The request that clears the machine reference of a released host. -/
theorem released_machineRef (hreleased : Released h h') (cur : ByoHost) :
    (h.mergeStatus h' cur).machineRef = if h.machineRef = none then cur.machineRef else none := by
  have hafter : h'.machineRef = none := by
    rw [hreleased.2]
    rfl
  rw [ByoHost.mergeStatus, hafter, mergeRef_none]

/-- What a call of an agent does to the hosts. -/
theorem Clearing.effect (hF : Full names w₀ w) (hold : Releasing k w q) (hH : Clearing k w q)
    (hmove : AgentMove k o w q c q' w') :
    Full names w₀ w' ∧ ∀ k', HostsVia (PeerKeeps k') w w' := by
  cases hmove with
  | conditionsWritten hcur =>
    refine ⟨hF.setHost ((hF.each _ _ hcur).of_same rfl rfl rfl), fun k' => ?_⟩
    exact .setHost (PeerKeeps.refl k') hcur ⟨fun hl hun => ⟨hl, hun, rfl⟩, id, id⟩
  | @specWritten h h' cur log hreleased hcur =>
    obtain ⟨-, hfree⟩ := hold.release hreleased hcur
    have hnone : ∀ k', ¬Labelled k' (h.merge h' cur) := fun k' hl => by
      cases hfree.label.symm.trans hl
    refine ⟨hF.setHost ⟨fun _ => (hold.release_secrets hreleased hcur).1,
        fun k' _ hl => absurd hl (hnone k')⟩,
      fun k' => .setHost (PeerKeeps.refl k') hcur ⟨fun hl => absurd hl (hnone k'), id,
        fun hl => absurd hl (hnone k')⟩⟩
  | @statusWritten h h' cur log hreleased hchanged hcur =>
    have href := released_machineRef hreleased cur
    refine ⟨hF.setHost ((hF.each _ _ hcur).of_same rfl rfl rfl), fun k' => ?_⟩
    refine .setHost (PeerKeeps.refl k') hcur ⟨fun hl hun => ⟨hl, hun, ?_⟩, fun hnone => ?_, id⟩
    · by_cases hnone : h.machineRef = none
      · rw [href, if_pos hnone]
      · -- the host is not attached any more, or marked
        have hkey : h.key = k := hold
        obtain ⟨-, hgone | hmark⟩ := hH hreleased.1 hnone cur (hkey ▸ hcur)
        · cases hgone.symm.trans hl
        · cases hmark.symm.trans hun
    · rw [href, hnone, ite_self]
  | _ => exact ⟨hF, fun k' => .refl (PeerKeeps.refl k') w⟩

/-- The machine reference that the agent is about to clear, while the host is marked. -/
theorem StillMarked.clearing {log : List HostEvent} (hs : StillMarked k h w) :
    Clearing k w (.finish h log h' .status) := by
  intro hm href cur hcur
  have hkept := hs.kept hm cur hcur
  exact ⟨hkept.machineRef ▸ href, .inr hkept.marked⟩

/-- The assertion of an agent after its own call. -/
theorem Clearing.move (hold : Releasing k w q) (hmove : AgentMove k o w q c q' w') :
    Clearing k w' q' := by
  cases hmove with
  | @specWritten h h' cur log hreleased hcur =>
    intro hm href b hb
    have hkey : h.key = k := StillMarked.key hold
    rw [World.setHost, hkey, AList.lookup_insert] at hb
    cases hb
    have hkept : Kept h cur := StillMarked.kept hold hm cur (hkey ▸ hcur)
    exact ⟨hkept.machineRef ▸ href, .inl (hold.release hreleased hcur).2.label⟩
  | specFailed _ _ => exact StillMarked.clearing hold
  | _ => trivial

theorem Clearing.step {cfg : HostReconciler.Config} (hold : Releasing k w q)
    (hstep : AgentSilent cfg q q') : Clearing k w q' := by
  cases hstep with
  | skipSpec _ => exact StillMarked.clearing hold
  | _ => trivial

/-- What a call of the ByoHost controller does to the hosts. -/
theorem HostMove.full (hF : Full names w₀ w) {q q' : HostPhase} (hmove : HostMove k o w q c q' w') :
    Full names w₀ w' ∧ (∀ k', HostsVia (PeerKeeps k') w w') ∧ HostsVia ClearKept w w' := by
  cases hmove with
  | @cleared h cur ref hcur =>
    have hs := merge_cleared_same h cur
    refine ⟨hF.setHost ((hF.each _ _ hcur).of_same hs.label hs.cluster (mergeRef_self ..)),
      fun k' => .setHost (PeerKeeps.refl k') hcur (.of_same hs rfl k'),
      .setHost .refl hcur fun href => ⟨href, ?_⟩⟩
    rw [hs.label, hs.carries]
    exact id
  | _ => exact ⟨hF.of_eq rfl rfl rfl, fun k' => .of_hosts_eq (PeerKeeps.refl k') rfl,
      .of_hosts_eq .refl rfl⟩

end Peers

/-! ## All threads -/

section Threads

variable {names : List NamespacedName} {w₀ w w' : World} {k : NamespacedName} {o : Outcome}
  {t : Tid} {q : Option Phase}

/-- What holds while a thread is in a phase; the hosts of an idle machine are complete. -/
structure FullThread (names : List NamespacedName) (w₀ : World) (t : Tid) (w : World)
    (q : Option Phase) : Prop where
  idle : ∀ k ∈ names, t = .byoMachine k → q = none → HasRefs k w
  machine : ∀ k p, t = .byoMachine k → q = some (.machine p) → Completing w₀ k w p
  agent : ∀ k p, t = .agent k → q = some (.agent p) → Clearing k w p

theorem fullThread_machine {q : MachinePhase} (hH : Completing w₀ k w q) :
    FullThread names w₀ (.byoMachine k) w (some (.machine q)) := by
  constructor
  · rintro _ _ _ ⟨⟩
  · rintro _ _ ⟨⟩ ⟨⟩
    exact hH
  · rintro _ _ ⟨⟩

theorem fullThread_agent {q : AgentPhase} (hH : Clearing k w q) :
    FullThread names w₀ (.agent k) w (some (.agent q)) := by
  constructor
  · rintro _ _ ⟨⟩
  · rintro _ _ ⟨⟩
  · rintro _ _ ⟨⟩ ⟨⟩
    exact hH

/-- Threads of the other two controllers have no assertion. -/
theorem fullThread_other (hm : ∀ k, t ≠ .byoMachine k) (ha : ∀ k, t ≠ .agent k) :
    FullThread names w₀ t w q :=
  ⟨fun k _ ht => absurd ht (hm k), fun k _ ht => absurd ht (hm k), fun k _ ht => absurd ht (ha k)⟩

theorem FullThread.mono (hH : FullThread names w₀ t w q)
    (hpeer : ∀ k', HostsVia (PeerKeeps k') w w')
    (hagent : ∀ k, t = .agent k → ∀ cur', w'.hosts.lookup k = some cur' →
      ∃ cur, w.hosts.lookup k = some cur ∧ ClearKept cur cur') : FullThread names w₀ t w' q where
  idle := fun k hk ht hq => (hH.idle k hk ht hq).mono ((hpeer k).mono fun _ _ => PeerKeeps.ref)
  machine := fun k p ht hq => (hH.machine k p ht hq).mono (hpeer k)
  agent := fun k p ht hq => (hH.agent k p ht hq).mono (hagent k ht)

/-- A step that leaves the hosts alone. -/
theorem FullThread.of_hosts_eq (hH : FullThread names w₀ t w q) (hh : w'.hosts = w.hosts) :
    FullThread names w₀ t w' q :=
  hH.mono (fun k' => .of_hosts_eq (PeerKeeps.refl k') hh)
    fun _ _ cur' hcur' => ⟨cur', hh ▸ hcur', .refl cur'⟩

/-- A call of a thread: what holds on the server, of the thread itself and of the others. -/
theorem FullThread.call (hG : Lifecycle names w) (hF : Full names w₀ w)
    (hdistinct : DistinctLabels names) {q q' : Phase} {c : Call}
    (hold : LifecycleThread names t w (some q)) (hH : FullThread names w₀ t w (some q))
    (hrule : attachSucceeds w t o c = true) (hnext : Next t q c (exec o c w).1 q') :
    Full names w₀ (exec o c w).2 ∧ FullThread names w₀ t (exec o c w).2 (some q') ∧
      ∀ t' q₁, t' ≠ t → (q₁.isSome = true → NotBothMachines names t t') →
        LifecycleThread names t' w q₁ → FullThread names w₀ t' w q₁ →
          FullThread names w₀ t' (exec o c w).2 q₁ := by
  cases hnext with
  | @machine k q q' c _ h =>
    obtain ⟨hk, hp⟩ := hold.machine k q rfl rfl
    obtain ⟨hF', hq', heffect⟩ :=
      (hH.machine k q rfl rfl).move hG hF hdistinct hk hp hrule h.move
    refine ⟨hF', fullThread_machine hq', fun t' q₁ hne hcompat hold₁ hH₁ => ⟨?_, ?_, ?_⟩⟩
    · intro k' hk' ht' hq₁
      have hkne : k' ≠ k := fun heq => hne (by rw [ht', heq])
      exact (hH₁.idle k' hk' ht' hq₁).mono (heffect.refs k' hk' hkne)
    · -- two machines are not reconciled at the same time
      rintro k' p rfl rfl
      exact absurd rfl (hcompat rfl k hk k' (hold₁.machine k' p rfl rfl).1 rfl)
    · exact fun k' p ht' hq₁ => (hH₁.agent k' p ht' hq₁).mono fun _ hcur' =>
        heffect.clear.of_some hcur'
  | @config k q q' c _ h =>
    obtain ⟨hh, hm, -⟩ := h.frame o w
    exact ⟨hF.of_eq hh hm (exec_static o w c).1, fullThread_other (by simp) (by simp),
      fun _ _ _ _ _ hH₁ => hH₁.of_hosts_eq hh⟩
  | @host k q q' c _ h =>
    obtain ⟨hF', hpeer, hclear⟩ := HostMove.full hF h.move
    exact ⟨hF', fullThread_other (by simp) (by simp), fun _ _ _ _ _ hH₁ => hH₁.mono hpeer
      fun _ _ _ hcur' => hclear.of_some hcur'⟩
  | @agent k q q' c _ h =>
    have hp := hold.agent k q rfl rfl
    obtain ⟨hF', hpeer⟩ := (hH.agent k q rfl rfl).effect hF hp h.move
    refine ⟨hF', fullThread_agent (Clearing.move hp h.move), fun t' q₁ hne _ _ hH₁ =>
      hH₁.mono hpeer ?_⟩
    -- another agent has another host
    rintro k' rfl cur' hcur'
    rw [hp.only h.move fun heq => hne (congrArg Tid.agent heq)] at hcur'
    exact ⟨cur', hcur', .refl cur'⟩

theorem FullThread.step {setup : Setup} {q q' : Phase} (hold : LifecycleThread names t w (some q))
    (hH : FullThread names w₀ t w (some q)) (hstep : Silent setup t q q') :
    FullThread names w₀ t w (some q') := by
  cases hstep with
  | @machine k q q' h =>
    exact fullThread_machine
      ((hH.machine k q rfl rfl).step (hold.machine k q rfl rfl).2 h)
  | config h => exact fullThread_other (by simp) (by simp)
  | @agent k q q' h => exact fullThread_agent (Clearing.step (hold.agent k q rfl rfl) h)

end Threads

theorem noCreation_of_fixedMachines {a : EnvAction} (ha : fixedMachines a = true) :
    noCreation a = true := by
  cases a <;> first | rfl | cases ha

theorem Full.env {names : List NamespacedName} {w₀ w w' : World} {a : EnvAction}
    (hF : Full names w₀ w) (ha : fixedMachines a = true) (henv : envStep a w = some w') :
    Full names w₀ w' := by
  cases a <;> simp only [envStep, Option.map_eq_some_iff, Option.some.injEq] at henv
  case createByoMachine m => cases ha
  case deliver key => cases ha
  case putMachine m => cases ha
  case deleteByoMachine key | pauseByoMachine key paused =>
    obtain ⟨m, hm, rfl⟩ := henv
    exact hF.setMachine hm rfl
  all_goals
    subst henv
    exact hF.of_eq rfl rfl rfl

/-- All steps keep attachments complete. -/
theorem full_extension (setup : Setup) {names : List NamespacedName}
    (hdistinct : DistinctLabels names) (w₀ : World) :
    RelyGuarantee.Extension (system setup) (fullRules names) Next (Silent setup) firstPhase Done
      (NotBothMachines names) (Lifecycle names) (Full names w₀) (LifecycleThread names)
      (FullThread names w₀) where
  start := by
    intro w busy t _ _ _ hH hstart
    cases t with
    | byoMachine k => exact fullThread_machine (hH.idle k hstart.1 rfl rfl)
    | agent k => exact fullThread_agent trivial
    | k8sInstallerConfig k => exact fullThread_other (by simp) (by simp)
    | byoHost k => exact fullThread_other (by simp) (by simp)
  call := by
    intro w t q o c q' hG hF hold hH hrule hnext _ _
    obtain ⟨hF', hH', -⟩ := FullThread.call hG hF hdistinct hold hH hrule hnext
    exact ⟨hF', hH'⟩
  others := by
    intro w t q o c q' t' q₁ hG hF hold hH hrule hnext hne hcompat hold₁ hH₁
    exact (FullThread.call hG hF hdistinct hold hH hrule hnext).2.2 t' q₁ hne hcompat hold₁ hH₁
  silent := fun _ _ hold hH hstep => hH.step hold hstep
  finish := by
    intro w t q _ _ _ hH hdone
    refine ⟨?_, ?_, ?_⟩
    · -- in its last phase a reconcile has completed its attachment
      rintro k - rfl -
      rw [show q = .machine .done from hdone] at hH
      exact hH.machine k .done rfl rfl
    · rintro _ _ _ ⟨⟩
    · rintro _ _ _ ⟨⟩
  env := by
    intro w busy a w' _ hF ha henv
    exact ⟨hF.env ha henv, fun _ _ _ hH => hH.of_hosts_eq (envStep_hosts henv)⟩

theorem full_relyGuarantee (setup : Setup) {names : List NamespacedName}
    (hdistinct : DistinctLabels names) (w₀ : World) :
    RelyGuarantee (system setup) (fullRules names) Next (Silent setup) firstPhase Done
      (NotBothMachines names) (fun w => Lifecycle names w ∧ Full names w₀ w)
      (fun t w q => LifecycleThread names t w q ∧ FullThread names w₀ t w q) := by
  have hcycle : RelyGuarantee (system setup) (fullRules names) Next (Silent setup) firstPhase Done
      (NotBothMachines names) (Lifecycle names) (LifecycleThread names) :=
    (lifecycle_relyGuarantee setup hdistinct).restrict id (fun _ => trivial)
      noCreation_of_fixedMachines
  exact hcycle.extend (full_extension setup hdistinct w₀)

/-! ## Whole runs -/

theorem full_of_pristine {w : World} (hw : Pristine w) (names : List NamespacedName) :
    Full names w w where
  capiMachines := rfl
  owners := fun _ m hm => ⟨m, hm, rfl⟩
  each := fun key h hh => ⟨fun _ => (hw.bare key h hh).2.1, fun k _ hl => by
    cases (hw.free key h hh).label.symm.trans hl⟩

theorem fullThread_of_pristine {w : World} (hw : Pristine w) (names : List NamespacedName) (t : Tid) :
    FullThread names w t w none := by
  constructor
  · rintro k - - -
    refine hasRefs_of_noneLabelled fun key h hh hl => ?_
    cases (hw.free key h hh).label.symm.trans hl
  · rintro _ _ _ ⟨⟩
  · rintro _ _ _ ⟨⟩

/-- When attachments do not fail half-way, then in every state of every run in which a machine is
not being reconciled, its hosts have its reference and its bootstrap secret. -/
theorem attached_in_full (setup : Setup) {names : List NamespacedName}
    (hdistinct : DistinctLabels names) {w : World} (hw : Pristine w)
    {ls : List (Label Outcome Tid EnvAction)} {σ : Pool Call Resp World Tid}
    (hrun : (system setup).Steps (fullRules names) (.init w) ls σ) {k : NamespacedName}
    (hk : k ∈ names) (hidle : σ.thread (.byoMachine k) = none) :
    AllAttached k (fun h => HasRef k h ∧ HasSecret w k h) σ.store := by
  have hM := full_relyGuarantee setup hdistinct w
  have hstart : Lifecycle names w ∧ Full names w w := ⟨hw.lifecycle names, full_of_pristine hw names⟩
  have hthreads : ∀ t, LifecycleThread names t w none ∧ FullThread names w t w none :=
    fun t => ⟨lifecycleThread_none t, fullThread_of_pristine hw names t⟩
  have hfull : Full names w σ.store := (hM.holds hstart hthreads hrun).2
  have hrefs : HasRefs k σ.store :=
    (hM.holds_idle hstart hthreads hrun hidle).2.idle k hk rfl rfl
  intro key h hh hl hun
  exact ⟨hrefs key h hh hl hun, (hfull.each key h hh).secret k hk hl⟩

/-- The host carries the label of the machine without a mark; does it have a machine reference? -/
def attachedWith (w : World) (host machine : NamespacedName) (ref : Bool) : Bool :=
  (w.hosts.lookup host).any fun h =>
    Labelled machine h && !h.carries .hostCleanup && h.machineRef.isSome = ref

/-- A reconcile that attaches a host, with no call failing. -/
theorem attached_in_full_small : ∃ ls σ,
    (system {}).Steps (fullRules [Small.key "m1"]) (.init (Small.world ["h1"] ["m1"])) ls σ ∧
      attachedWith σ.store (Small.key "h1") (Small.key "m1") true = true ∧
      AllAttached (Small.key "m1") (fun h => HasRef (Small.key "m1") h ∧
        HasSecret (Small.world ["h1"] ["m1"]) (Small.key "m1") h) σ.store := by
  obtain ⟨σ, hsteps, hend⟩ := (system {}).exists_steps (fullRules [Small.key "m1"])
    (Small.calls (.byoMachine (Small.key "m1")) 15)
    (fun σ => attachedWith σ.store (Small.key "h1") (Small.key "m1") true &&
      !σ.busy (.byoMachine (Small.key "m1")))
    (σ := .init (Small.world ["h1"] ["m1"])) (by decide +kernel)
  simp only [Bool.and_eq_true, Bool.not_eq_true'] at hend
  have hidle : σ.thread (.byoMachine (Small.key "m1")) = none := by
    simpa [Pool.busy] using hend.2
  exact ⟨_, σ, hsteps, hend.1, attached_in_full {} (by decide) (small_pristine ["h1"] ["m1"]) hsteps
    (by decide) hidle⟩

/-- The reconcile of `m1` whose request to write the machine reference fails. -/
def halfAttachment : List (Label Outcome Tid EnvAction) :=
  Small.calls (.byoMachine (Small.key "m1")) 10 ++
    [.call (.byoMachine (Small.key "m1")) { writeOk := false },
      .call (.byoMachine (Small.key "m1")) {}]

/-- After it no call is in flight; one more reconcile, in which every call succeeds, leaves the
host with the label and without the machine reference. -/
theorem attached_without_machineRef : ∃ σ,
    (system {}).Steps (attachRules [Small.key "m1"]) (.init (Small.world ["h1"] ["m1"]))
      (halfAttachment ++ Small.calls (.byoMachine (Small.key "m1")) 8) σ ∧
      σ.busy (.byoMachine (Small.key "m1")) = false ∧
      ¬AllAttached (Small.key "m1") (HasRef (Small.key "m1")) σ.store := by
  obtain ⟨σ, hsteps, hend⟩ := (system {}).exists_steps (attachRules [Small.key "m1"])
    (halfAttachment ++ Small.calls (.byoMachine (Small.key "m1")) 8)
    (fun σ => attachedWith σ.store (Small.key "h1") (Small.key "m1") false &&
      !σ.busy (.byoMachine (Small.key "m1")))
    (σ := .init (Small.world ["h1"] ["m1"])) (by decide +kernel)
  simp only [Bool.and_eq_true, Bool.not_eq_true'] at hend
  refine ⟨σ, hsteps, hend.2, fun hall => ?_⟩
  obtain ⟨hattached, -⟩ := hend
  simp only [attachedWith, Option.any_eq_true, Bool.and_eq_true, decide_eq_true_eq,
    Bool.not_eq_true', Option.isSome_eq_false_iff, Option.isNone_iff_eq_none] at hattached
  obtain ⟨h, hh, ⟨hl, hun⟩, hnone⟩ := hattached
  obtain ⟨ref, href, -⟩ := hall _ h hh hl hun
  cases hnone.symm.trans href

end Byoh.Properties
