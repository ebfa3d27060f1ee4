import Byoh.Foundation.RelyGuarantee
import Byoh.Protocol.ManagerWrites
import Byoh.Protocol.SystemPhases

/-!
# Attached hosts and the finalizer of their machine

A host that is attached to a machine and not marked for cleanup should have a machine that still
exists and holds `MachineFinalizer`, so that the deletion of the machine cannot pass the host by.

`attachByoHost` writes the host before the deferred patch persists the finalizer. A machine that is
deleted in between disappears at once, and its host stays attached (`host_left_behind`). When the
finalizer is on the server before a host is picked, the property holds in every state of every
interleaving of reconciles, deletions and failed calls (`attached_host_guarded`).
-/

set_option autoImplicit false

namespace Byoh.Properties

open Byoh.Foundation Byoh.Model Byoh.Protocol Byoh.Model.ByoMachineReconciler

/-! ## Statement -/

/-- The machine exists and holds `MachineFinalizer`. -/
def HoldsFinalizer (k : NamespacedName) (w : World) : Prop :=
  ∃ m, w.machines.lookup k = some m ∧ machineFinalizer ∈ m.finalizers

instance (k : NamespacedName) (w : World) : Decidable (HoldsFinalizer k w) :=
  decidable_of_iff ((w.machines.lookup k).any fun m => machineFinalizer ∈ m.finalizers) (by
    simp [HoldsFinalizer, Option.any_eq_true])

/-- The machine of every host that carries the label of `k` and is not marked for cleanup exists
and holds the finalizer. -/
def Guarded (k : NamespacedName) (w : World) : Prop :=
  ∀ k' h, w.hosts.lookup k' = some h → Labelled k h → h.carries .hostCleanup = false →
    HoldsFinalizer k w

/-- Reconciles of the machines `names` in any interleaving, with any failures; machines are deleted
and paused, and clusters change, at any time. -/
def machineRules (names : List NamespacedName) : Rules Call Outcome World Tid EnvAction where
  start := fun _ _ t => ∃ k ∈ names, t = .byoMachine k
  env := fun _ _ a => noCreation a = true

/-- The listing of `attachByoHost`. -/
def isPick : Call → Bool
  | .listByoHosts _ (some _) => true
  | _ => false

/-- The same, when hosts are picked only for machines that already hold the finalizer. -/
def finalizerRules (names : List NamespacedName) : Rules Call Outcome World Tid EnvAction :=
  { machineRules names with
    call := fun w t _ c => ∀ k ∈ names, t = .byoMachine k → isPick c = true → HoldsFinalizer k w }

instance (names : List NamespacedName) : DecidableRules (machineRules names) where
  start _ _ t := inferInstanceAs (Decidable (∃ k ∈ names, t = .byoMachine k))
  call _ _ _ _ := inferInstanceAs (Decidable True)
  env _ _ a := inferInstanceAs (Decidable (noCreation a = true))

instance (names : List NamespacedName) : DecidableRules (finalizerRules names) where
  start _ _ t := inferInstanceAs (Decidable (∃ k ∈ names, t = .byoMachine k))
  call w t _ c := inferInstanceAs (Decidable
    (∀ k ∈ names, t = .byoMachine k → isPick c = true → HoldsFinalizer k w))
  env _ _ a := inferInstanceAs (Decidable (noCreation a = true))

/-- Hosts are read from the server, are stored under their keys, and none is attached. -/
structure Unattached (w : World) : Prop where
  fresh : w.informer = none
  hosts : WellKeyed w
  machines : MachinesKeyed w
  labels : ∀ k h, w.hosts.lookup k = some h → h.clusterLabel = none ∧ h.attachedLabel = none

/-! ## Facts about the server -/

/-- The host under `key` is marked for cleanup. -/
def MarkedAt (key : NamespacedName) (w : World) : Prop :=
  ∀ cur, w.hosts.lookup key = some cur → cur.carries .hostCleanup = true

/-- All hosts with the label of `k` are marked for cleanup. -/
def AllMarked (k : NamespacedName) (w : World) : Prop :=
  ∀ k' h, w.hosts.lookup k' = some h → Labelled k h → h.carries .hostCleanup = true

/-- What holds in every state, for the machines `names`. -/
structure Ownership (names : List NamespacedName) (w : World) : Prop where
  fresh : w.informer = none
  hosts : WellKeyed w
  machines : MachinesKeyed w
  paired : ∀ k h, w.hosts.lookup k = some h → h.LabelsPaired
  unique : ∀ k ∈ names, ∃ key, OnlyLabelled k key w
  guarded : ∀ k ∈ names, Guarded k w

/-- What holds while the reconcile of `k` is in a phase. -/
def Reconciling (k : NamespacedName) (w : World) : MachinePhase → Prop
  | .start => True
  | .owner m => m.key = k
  | .cluster m _ => m.key = k
  | .infra m _ _ => m.key = k
  | .fetch s => s.byoMachine.key = k
  | .body s none => s.byoMachine.key = k ∧ NoneLabelled k w
  | .create s none _ => s.byoMachine.key = k ∧ NoneLabelled k w
  | .body s (some h) => s.byoMachine.key = k ∧ (isDeleteScope s = true →
      OnlyLabelled k h.key w ∧ (h.carries .hostCleanup = true → MarkedAt h.key w))
  | .create s (some _) _ => s.byoMachine.key = k ∧ isDeleteScope s = false
  | .write s (.attach a) h .spec _ => s.byoMachine.key = k ∧ a.byoMachineLabel = k.labelValue ∧
      h.clusterLabel = none ∧ h.LabelsPaired ∧ NoneLabelled k w ∧ HoldsFinalizer k w
  | .write s (.mark _) h .spec failed => s.byoMachine.key = k ∧ OnlyLabelled k h.key w ∧
      failed = false ∧ (h.carries .hostCleanup = true → MarkedAt h.key w)
  | .write s (.mark _) h _ failed => s.byoMachine.key = k ∧ OnlyLabelled k h.key w ∧
      (failed = false → MarkedAt h.key w)
  | .write s _ _ _ _ => s.byoMachine.key = k
  | .finish s how m _ => s.byoMachine.key = k ∧ Leaves s how m ∧ (how = .released → AllMarked k w)
  | .done => True

/-! ## Interference -/

/-- The facts that the phases of the reconcile of `k` rely on carry over to another world. -/
structure Keeps (k : NamespacedName) (w w' : World) : Prop where
  none : NoneLabelled k w → NoneLabelled k w'
  only : ∀ key, OnlyLabelled k key w → OnlyLabelled k key w'
  marked : ∀ key, MarkedAt key w → MarkedAt key w'
  all : AllMarked k w → AllMarked k w'
  finalizer : HoldsFinalizer k w → HoldsFinalizer k w'
  guarded : Guarded k w → Guarded k w'

/-- Hosts keep their mark, no host gets the label of `k`, and the machine keeps its finalizer. -/
theorem Keeps.of_hosts {k : NamespacedName} {w w' : World}
    (hhosts : ∀ key h', w'.hosts.lookup key = some h' → ∃ h, w.hosts.lookup key = some h ∧
      (h.carries .hostCleanup = true → h'.carries .hostCleanup = true) ∧
        (Labelled k h' → Labelled k h))
    (hfinalizer : HoldsFinalizer k w → HoldsFinalizer k w') : Keeps k w w' := by
  refine ⟨?_, ?_, ?_, ?_, hfinalizer, ?_⟩
  · intro hn key h' hh' hl
    obtain ⟨h, hh, -, hlab⟩ := hhosts key h' hh'
    exact hn key h hh (hlab hl)
  · intro key ho key' h' hh' hl
    obtain ⟨h, hh, -, hlab⟩ := hhosts key' h' hh'
    exact ho key' h hh (hlab hl)
  · intro key hm cur hcur
    obtain ⟨h, hh, hmark, -⟩ := hhosts key cur hcur
    exact hmark (hm h hh)
  · intro ha key h' hh' hl
    obtain ⟨h, hh, hmark, hlab⟩ := hhosts key h' hh'
    exact hmark (ha key h hh (hlab hl))
  · intro hg key h' hh' hl hun
    obtain ⟨h, hh, hmark, hlab⟩ := hhosts key h' hh'
    refine hfinalizer (hg key h hh (hlab hl) ?_)
    by_contra hne
    exact absurd ((hmark (by simpa using hne)).symm.trans hun) (by simp)

theorem Reconciling.mono {k : NamespacedName} {w w' : World} (h : Keeps k w w') {q : MachinePhase}
    (hq : Reconciling k w q) : Reconciling k w' q := by
  cases q with
  | start | owner | cluster | infra | fetch | done => exact hq
  | body s host =>
    cases host with
    | none => exact ⟨hq.1, h.none hq.2⟩
    | some b =>
      exact ⟨hq.1, fun hs => ⟨h.only _ (hq.2 hs).1, fun hm => h.marked _ ((hq.2 hs).2 hm)⟩⟩
  | create s host config =>
    cases host with
    | none => exact ⟨hq.1, h.none hq.2⟩
    | some b => exact hq
  | write s e b part failed =>
    cases e with
    | attach a =>
      cases part with
      | spec =>
        obtain ⟨hk, ha, hc, hp, hn, hf⟩ := hq
        exact ⟨hk, ha, hc, hp, h.none hn, h.finalizer hf⟩
      | status => exact hq
      | done => exact hq
    | mark u =>
      cases part with
      | spec =>
        obtain ⟨hk, ho, hf, hm⟩ := hq
        exact ⟨hk, h.only _ ho, hf, fun hb => h.marked _ (hm hb)⟩
      | status => exact ⟨hq.1, h.only _ hq.2.1, fun hf => h.marked _ (hq.2.2 hf)⟩
      | done => exact ⟨hq.1, h.only _ hq.2.1, fun hf => h.marked _ (hq.2.2 hf)⟩
    | pause | install | uninstall => exact hq
  | finish s how m part => exact ⟨hq.1, hq.2.1, fun hhow => h.all (hq.2.2 hhow)⟩

/-- What the reconcile of `k` may do to the server, seen from other reconciles: hosts keep their
mark, and a new label is that of `k`; other machines are not touched. -/
structure Gentle (k : NamespacedName) (w w' : World) : Prop where
  hosts : ∀ key h', w'.hosts.lookup key = some h' → ∃ h, w.hosts.lookup key = some h ∧
    (h.carries .hostCleanup = true → h'.carries .hostCleanup = true) ∧
      (h'.attachedLabel = h.attachedLabel ∨ Labelled k h')
  machines : ∀ k', k' ≠ k → w'.machines.lookup k' = w.machines.lookup k'

/-- Another machine with another label value keeps its facts. -/
theorem Gentle.keeps {k k' : NamespacedName} {w w' : World} (h : Gentle k w w') (hne : k' ≠ k)
    (hlabel : k.labelValue ≠ k'.labelValue) : Keeps k' w w' := by
  refine .of_hosts (fun key h' hh' => ?_) ?_
  · obtain ⟨b, hb, hmark, hlab⟩ := h.hosts key h' hh'
    refine ⟨b, hb, hmark, fun hl => ?_⟩
    rcases hlab with hsame | hk
    · exact hsame.symm.trans hl
    · exact absurd (Option.some.inj (hk.symm.trans hl)) hlabel
  · rintro ⟨m, hm, hf⟩
    exact ⟨m, (h.machines k' hne).trans hm, hf⟩

theorem Gentle.refl (k : NamespacedName) (w : World) : Gentle k w w :=
  ⟨fun _ h' hh' => ⟨h', hh', id, .inl rfl⟩, fun _ _ => rfl⟩

/-- Worlds with the same hosts and machines. -/
theorem Gentle.of_eq {k : NamespacedName} {w w' : World} (hh : w'.hosts = w.hosts)
    (hm : w'.machines = w.machines) : Gentle k w w' := by
  refine ⟨fun key h' hh' => ⟨h', ?_, id, .inl rfl⟩, fun _ _ => by rw [hm]⟩
  rwa [hh] at hh'

/-- A write to one host. -/
theorem Gentle.setHost {k key : NamespacedName} {w : World} {cur h : ByoHost}
    (hcur : w.hosts.lookup key = some cur)
    (hmark : cur.carries .hostCleanup = true → h.carries .hostCleanup = true)
    (hlabel : h.attachedLabel = cur.attachedLabel ∨ Labelled k h) :
    Gentle k w (w.setHost key h) := by
  refine ⟨fun key' h' hh' => ?_, fun _ _ => rfl⟩
  rcases lookup_insert_some hh' with ⟨rfl, rfl⟩ | ⟨-, hh'⟩
  · exact ⟨cur, hcur, hmark, hlabel⟩
  · exact ⟨h', hh', id, .inl rfl⟩

/-- A write to the machine `k`. -/
theorem Gentle.setMachine (k : NamespacedName) (w : World) (m : ByoMachine) :
    Gentle k w (w.setMachine k m) :=
  ⟨fun _ h' hh' => ⟨h', hh', id, .inl rfl⟩, fun _ hk => setMachine_lookup_ne w hk m⟩

/-- A write to a host that leaves its label alone. -/
theorem Keeps.setHost {k key : NamespacedName} {w : World} {cur h : ByoHost}
    (hcur : w.hosts.lookup key = some cur)
    (hmark : cur.carries .hostCleanup = true → h.carries .hostCleanup = true)
    (hlabel : h.attachedLabel = cur.attachedLabel) : Keeps k w (w.setHost key h) := by
  refine .of_hosts (fun key' h' hh' => ?_) id
  rcases lookup_insert_some hh' with ⟨rfl, rfl⟩ | ⟨-, hh'⟩
  · exact ⟨cur, hcur, hmark, fun hl => hlabel.symm.trans hl⟩
  · exact ⟨h', hh', id, id⟩

/-- Worlds with the same hosts. -/
theorem Keeps.of_hosts_eq {k : NamespacedName} {w w' : World} (hh : w'.hosts = w.hosts)
    (hfinalizer : HoldsFinalizer k w → HoldsFinalizer k w') : Keeps k w w' :=
  .of_hosts (fun _ h' hh' => ⟨h', by rwa [hh] at hh', id, id⟩) hfinalizer

/-! ## One move -/

section Moves

variable {names : List NamespacedName} {k : NamespacedName} {w w' : World} {o : Outcome}
  {key : NamespacedName} {h cur : ByoHost} {s : Scope} {e : HostEdit} {failed : Bool}

/-- The other machines keep their part of the invariant when `k` moves. -/
theorem Ownership.mono (hG : Ownership names w) (hdistinct : DistinctLabels names) (hk : k ∈ names)
    (hgentle : Gentle k w w') (hfresh : w'.informer = none) (hhosts : WellKeyed w')
    (hmachines : MachinesKeyed w')
    (hpaired : ∀ k h, w'.hosts.lookup k = some h → h.LabelsPaired)
    (hunique : ∃ key, OnlyLabelled k key w') (hguarded : Guarded k w') : Ownership names w' := by
  have hkeeps : ∀ k₁ ∈ names, k₁ ≠ k → Keeps k₁ w w' := fun k₁ hk₁ hne =>
    hgentle.keeps hne fun heq => hne (hdistinct k hk k₁ hk₁ heq).symm
  refine ⟨hfresh, hhosts, hmachines, hpaired, fun k₁ hk₁ => ?_, fun k₁ hk₁ => ?_⟩
  · by_cases hne : k₁ = k
    · exact hne ▸ hunique
    · obtain ⟨key, hkey⟩ := hG.unique k₁ hk₁
      exact ⟨key, (hkeeps k₁ hk₁ hne).only key hkey⟩
  · by_cases hne : k₁ = k
    · exact hne ▸ hguarded
    · exact (hkeeps k₁ hk₁ hne).guarded (hG.guarded k₁ hk₁)

/-- A read changes nothing that the invariant is about. -/
theorem Ownership.of_eq (hG : Ownership names w) (hh : w'.hosts = w.hosts)
    (hi : w'.informer = w.informer) (hm : w'.machines = w.machines) : Ownership names w' := by
  have hkeeps : ∀ k₁, Keeps k₁ w w' := fun k₁ =>
    .of_hosts_eq hh fun ⟨m, hlookup, hf⟩ => ⟨m, by rwa [hm], hf⟩
  refine ⟨hi.trans hG.fresh, ?_, hG.machines.of_eq hm, ?_, fun k₁ hk₁ => ?_, fun k₁ hk₁ => ?_⟩
  · rw [WellKeyed, hh]
    exact hG.hosts
  · rw [hh]
    exact hG.paired
  · obtain ⟨key, hkey⟩ := hG.unique k₁ hk₁
    exact ⟨key, (hkeeps k₁).only key hkey⟩
  · exact (hkeeps k₁).guarded (hG.guarded k₁ hk₁)

theorem setHost_wellKeyed (hw : WellKeyed w) (hkey : h.key = key) :
    WellKeyed (w.setHost key h) :=
  forall_lookup_insert hw hkey

theorem setHost_paired (hw : ∀ k h, w.hosts.lookup k = some h → h.LabelsPaired)
    (hp : h.LabelsPaired) :
    ∀ k' h', (w.setHost key h).hosts.lookup k' = some h' → h'.LabelsPaired :=
  forall_lookup_insert hw hp

/-- A write to a host that leaves its labels alone. -/
theorem Ownership.setHost (hG : Ownership names w) (hdistinct : DistinctLabels names)
    (hk : k ∈ names) (hcur : w.hosts.lookup key = some cur) (hkey : h.key = cur.key)
    (hmark : cur.carries .hostCleanup = true → h.carries .hostCleanup = true)
    (hlabel : h.attachedLabel = cur.attachedLabel) (hcluster : h.clusterLabel = cur.clusterLabel) :
    Ownership names (w.setHost key h) := by
  have hpaired : h.LabelsPaired := by
    rw [ByoHost.LabelsPaired, hlabel, hcluster]
    exact hG.paired key cur hcur
  have hkeeps : Keeps k w (w.setHost key h) := .setHost hcur hmark hlabel
  obtain ⟨only, honly⟩ := hG.unique k hk
  exact hG.mono hdistinct hk (.setHost hcur hmark (.inl hlabel)) (by rw [World.setHost, hG.fresh]; rfl)
    (setHost_wellKeyed hG.hosts (hkey.trans (hG.hosts key cur hcur))) hG.machines
    (setHost_paired hG.paired hpaired) ⟨only, hkeeps.only only honly⟩
    (hkeeps.guarded (hG.guarded k hk))

/-- The write that attaches a host. -/
theorem Ownership.attach (hG : Ownership names w) (hdistinct : DistinctLabels names)
    (hk : k ∈ names) {a : Attachment} (hlabel : a.byoMachineLabel = k.labelValue)
    (hcluster : h.clusterLabel = none) (hpaired : h.LabelsPaired) (hnone : NoneLabelled k w)
    (hfinalizer : HoldsFinalizer k w) (hcur : w.hosts.lookup h.key = some cur) :
    Gentle k w (w.setHost h.key (h.merge ((HostEdit.attach a).apply h) cur)) ∧
      Ownership names (w.setHost h.key (h.merge ((HostEdit.attach a).apply h) cur)) := by
  set h' := h.merge ((HostEdit.attach a).apply h) cur with hh'
  have hl : Labelled k h' := by
    rw [Labelled, hh', (merge_attach_labels a hcluster hpaired cur).1, hlabel]
  have hmark := (ManagerWrite.spec (.attach a) h : ManagerWrite cur h').cleanup
  have hgentle : Gentle k w (w.setHost h.key h') := .setHost hcur hmark (.inr hl)
  refine ⟨hgentle, hG.mono hdistinct hk hgentle (by rw [World.setHost, hG.fresh]; rfl)
    (setHost_wellKeyed hG.hosts (hG.hosts h.key cur hcur)) hG.machines
    (setHost_paired hG.paired ((HostEdit.attach a).merge_paired (hG.paired _ _ hcur)
      fun _ => ⟨hcluster, hpaired⟩)) ⟨h.key, ?_⟩ fun _ _ _ _ _ => hfinalizer⟩
  -- no other host carries the label, because none did
  intro k' b hb hlb
  by_contra hne
  rw [World.setHost, AList.lookup_insert_ne hne] at hb
  exact hnone k' b hb hlb

/-- A request of the deferred patch of the machine. -/
theorem Ownership.setMachine (hG : Ownership names w) (hdistinct : DistinctLabels names)
    (hk : k ∈ names) {how : Leave} {m cur m' : ByoMachine} (hkey : m.key = k)
    (hleaves : Leaves s how m) (hreleased : how = .released → AllMarked k w)
    (hcur : w.machines.lookup m.key = some cur) (hm' : MachinePatched s.byoMachine m cur m') :
    Gentle k w (w.setMachine m.key m') ∧ Ownership names (w.setMachine m.key m') := by
  subst hkey
  have hgentle : Gentle m.key w (w.setMachine m.key m') := .setMachine m.key w m'
  obtain ⟨only, honly⟩ := hG.unique m.key hk
  have hkey : m'.key = m.key := by
    rw [hm'.rest]
    exact hG.machines m.key cur hcur
  refine ⟨hgentle, hG.mono hdistinct hk hgentle hG.fresh hG.hosts (hG.machines.setMachine hkey)
    hG.paired ⟨only, honly⟩ ?_⟩
  intro k' h hh hl hun
  by_cases hhow : how = .released
  · -- a released machine has no unmarked host
    rw [hreleased hhow k' h hh hl] at hun
    cases hun
  · obtain ⟨m₁, hm₁, hf⟩ := hG.guarded m.key hk k' h hh hl hun
    cases hcur.symm.trans hm₁
    have hf' := hleaves.keeps_finalizer hhow hm' hf
    exact ⟨m', setMachine_lookup_of_mem w m.key hf', hf'⟩

/-- The cleanup annotation is set on the edited host. -/
theorem markedAt_of_mark {u : Bool} (hcur : w.hosts.lookup h.key = some cur)
    (hmarked : h.carries .hostCleanup = true → MarkedAt h.key w) :
    MarkedAt h.key (w.setHost h.key (h.merge ((HostEdit.mark u).apply h) cur)) := by
  intro b hb
  rw [World.setHost, AList.lookup_insert] at hb
  cases hb
  by_cases hc : h.carries .hostCleanup = true
  · exact (ManagerWrite.spec (.mark u) h : ManagerWrite cur _).cleanup (hmarked hc cur hcur)
  · have hnone : h.annotations.get .hostCleanup = none := by
      simpa [ByoHost.carries] using hc
    rw [ByoHost.merge_carries, hnone]
    simp [HostEdit.apply, ByoMachineReconciler.markedHost, mergeField]

/-- The phase after a listing of the attached hosts. -/
theorem reconciling_fetched (hG : Ownership names w) (hk : k ∈ names) (hkey : s.byoMachine.key = k)
    (pick : Nat) :
    Reconciling k w (.body s (listHosts w (attachedSelector s.byoMachine) none pick).head?) := by
  have hview : w.hostView = w.hosts := by rw [World.hostView, hG.fresh]
  subst hkey
  cases hhead : (listHosts w (attachedSelector s.byoMachine) none pick).head? with
  | none =>
    refine ⟨rfl, fun k' h hh => ?_⟩
    rw [← hview] at hh
    exact not_labelled_of_fetched hhead hh
  | some h =>
    obtain ⟨⟨k', hh⟩, hl⟩ := labelled_of_fetched hhead
    rw [hview] at hh
    have hkey : h.key = k' := hG.hosts k' h hh
    subst hkey
    refine ⟨rfl, fun _ => ⟨?_, fun hmark cur hcur => ?_⟩⟩
    · obtain ⟨key, honly⟩ := hG.unique _ hk
      rwa [honly h.key h hh hl]
    · cases hh.symm.trans hcur
      exact hmark

theorem Reconciling.write_key {part : HostPart} (hH : Reconciling k w (.write s e h part failed)) :
    s.byoMachine.key = k := by
  cases e <;> cases part <;> first | exact hH | exact hH.1

/-- Between the requests of the deferred patch. -/
theorem Reconciling.afterPart {how : Leave} {m : ByoMachine} {part : PatchPart}
    (hH : Reconciling k w (.finish s how m part)) : Reconciling k w (afterPart s how m part) := by
  cases part with
  | conditions => exact hH
  | spec => exact hH
  | status => trivial

/-- The phase after a request of a patch of a host, unless it attaches or marks the host. -/
theorem Reconciling.write_next {part : HostPart} (hkey : s.byoMachine.key = k)
    (hpart : part ≠ .spec)
    (hmark : ∀ u, e = .mark u → OnlyLabelled k h.key w ∧ (failed = false → MarkedAt h.key w)) :
    Reconciling k w (.write s e h part failed) := by
  cases e with
  | mark u =>
    cases part with
    | spec => exact absurd rfl hpart
    | status => exact ⟨hkey, hmark u rfl⟩
    | done => exact ⟨hkey, hmark u rfl⟩
  | attach a =>
    cases part with
    | spec => exact absurd rfl hpart
    | status => exact hkey
    | done => exact hkey
  | pause _ => exact hkey
  | install _ => exact hkey
  | uninstall _ => exact hkey

/-- The request that writes metadata and spec of a host. -/
theorem specWritten_keeps (hG : Ownership names w) (hdistinct : DistinctLabels names)
    (hk : k ∈ names) (hH : Reconciling k w (.write s e h .spec failed))
    (hcur : w.hosts.lookup h.key = some cur) :
    Gentle k w (w.setHost h.key (h.merge (e.apply h) cur)) ∧
      Ownership names (w.setHost h.key (h.merge (e.apply h) cur)) ∧
      Reconciling k (w.setHost h.key (h.merge (e.apply h) cur)) (.write s e h .status failed) := by
  have hmark := (ManagerWrite.spec e h : ManagerWrite cur _).cleanup
  cases he : e.isAttach with
  | true =>
    cases e with
    | attach a =>
      obtain ⟨hkey, hlabel, hcluster, hpaired, hnone, hfinalizer⟩ := hH
      obtain ⟨hgentle, hG'⟩ := hG.attach hdistinct hk hlabel hcluster hpaired hnone hfinalizer hcur
      exact ⟨hgentle, hG', hkey⟩
    | _ => cases he
  | false =>
    obtain ⟨hlabel, hcluster⟩ := HostEdit.merge_labels he h cur
    have hkeeps : Keeps k w (w.setHost h.key (h.merge (e.apply h) cur)) :=
      .setHost hcur hmark hlabel
    refine ⟨.setHost hcur hmark (.inl hlabel),
      hG.setHost hdistinct hk hcur rfl hmark hlabel hcluster,
      .write_next hH.write_key (by decide) ?_⟩
    rintro u rfl
    obtain ⟨-, honly, -, hmarked⟩ := hH
    exact ⟨hkeeps.only _ honly, fun _ => markedAt_of_mark hcur hmarked⟩

/-- One call of the reconcile of `k`. -/
theorem Reconciling.move (hG : Ownership names w) (hdistinct : DistinctLabels names)
    (hk : k ∈ names) {q q' : MachinePhase} {c : Call} (hH : Reconciling k w q)
    (hpick : isPick c = true → HoldsFinalizer k w) (hmove : MachineMove k o w q c q' w') :
    Gentle k w w' ∧ Ownership names w' ∧ Reconciling k w' q' := by
  cases hmove with
  | read hm => exact ⟨.refl k w, hG, hG.machines k _ hm⟩
  | owner _ _ => exact ⟨.refl k w, hG, hH⟩
  | cluster _ _ => exact ⟨.refl k w, hG, hH⟩
  | infra => exact ⟨.refl k w, hG, hH⟩
  | quit => exact ⟨.refl k w, hG, trivial⟩
  | fetched => exact ⟨.refl k w, hG, reconciling_fetched hG hk hH _⟩
  | fetchFailed => exact ⟨.refl k w, hG, hH, rfl, fun h => by cases h⟩
  | @look s host _ _ hw =>
    obtain ⟨nodes, rfl⟩ := hw
    exact ⟨.of_eq rfl rfl, hG.of_eq rfl rfl rfl, hH.mono (.of_hosts_eq rfl id)⟩
  | @template s host _ _ _ _ _ hs =>
    refine ⟨.refl k w, hG, ?_⟩
    cases host with
    | none => exact hH
    | some h => exact ⟨hH.1, by simp_all [isNormalScope, isDeleteScope]⟩
  | @created s host config _ =>
    refine ⟨.of_eq rfl rfl, hG.of_eq rfl rfl rfl, ?_⟩
    cases host with
    | none => exact hH
    | some h => exact ⟨hH.1, fun hdel => absurd (hH.2.symm.trans hdel) (by decide)⟩
  | @notCreated s host =>
    refine ⟨.refl k w, hG, ?_⟩
    cases host with
    | none => exact hH
    | some h => exact ⟨hH.1, fun hdel => absurd (hH.2.symm.trans hdel) (by decide)⟩
  | @listed s selector dataSecretName version h _ _ _ hh =>
    obtain ⟨⟨k', hview⟩, hcluster⟩ := clusterLabel_of_listed (List.mem_of_head? hh)
    rw [World.hostView, hG.fresh] at hview
    exact ⟨.refl k w, hG, hH.1, attachmentFor_label hH.1 _ _, hcluster, hG.paired k' h hview, hH.2,
      hpick rfl⟩
  | installReady _ _ _ _ _ _ => exact ⟨.refl k w, hG, hH.1⟩
  | uninstallReady _ _ _ _ _ _ => exact ⟨.refl k w, hG, hH.1⟩
  | specWritten hcur => exact specWritten_keeps hG hdistinct hk hH hcur
  | specFailed _ =>
    refine ⟨.refl k w, hG, .write_next hH.write_key (by decide) ?_⟩
    -- a failed mark promises nothing
    rintro u rfl
    exact ⟨hH.2.1, fun h => by cases h⟩
  | @statusWritten s e h cur failed _ hcur =>
    have hkeeps : Keeps k w (w.setHost h.key (h.mergeStatus (e.apply h) cur)) :=
      .setHost hcur id rfl
    refine ⟨.setHost hcur id (.inl rfl), hG.setHost hdistinct hk hcur rfl id rfl rfl,
      .write_next hH.write_key (by decide) ?_⟩
    rintro u rfl
    exact ⟨hkeeps.only _ hH.2.1, fun hfailed => hkeeps.marked _ (hH.2.2 hfailed)⟩
  | statusFailed _ _ =>
    refine ⟨.refl k w, hG, .write_next hH.write_key (by decide) ?_⟩
    rintro u rfl
    exact ⟨hH.2.1, fun h => by cases h⟩
  | @machineWritten s how m _ _ _ _ _ hcur hm' =>
    obtain ⟨hkey, hleaves, hreleased⟩ : _ ∧ Leaves s how m ∧ _ := hH
    obtain ⟨hgentle, hG'⟩ :=
      hG.setMachine hdistinct hk (hleaves.key.trans hkey) hleaves hreleased hcur hm'
    exact ⟨hgentle, hG', Reconciling.afterPart ⟨hkey, hleaves, hreleased⟩⟩
  | machineFailed _ => exact ⟨.refl k w, hG, hH.afterPart⟩

/-- What happens between calls. -/
theorem Reconciling.step {q q' : MachinePhase} (hH : Reconciling k w q)
    (hstep : MachineSilent q q') : Reconciling k w q' := by
  cases hstep with
  | noOwner | noCluster | noInfra | skipMachineStatus => trivial
  | invalidLabel => exact ⟨hH, rfl, fun h => by cases h⟩
  | pause _ => exact hH.1
  | unpause _ => exact hH.1
  | mark hs =>
    obtain ⟨honly, hmarked⟩ := hH.2 hs
    exact ⟨hH.1, honly, rfl, hmarked⟩
  | @skipSpec s e h failed hsame =>
    refine .write_next hH.write_key (by decide) ?_
    rintro u rfl
    refine ⟨hH.2.1, fun _ => hH.2.2.2 ?_⟩
    -- nothing to write means that the annotation is already there
    rw [ByoHost.carries, ← ByoHost.annotations_of_not_changed hsame .hostCleanup]
    simp [HostEdit.apply, ByoMachineReconciler.markedHost]
  | @skipStatus s e h failed _ =>
    refine .write_next hH.write_key (by decide) ?_
    rintro u rfl
    exact hH.2
  | wrote hs =>
    exact ⟨hH.write_key, fun hdel => by simp_all [isNormalScope, isDeleteScope]⟩
  | writeFailed hs hm => exact ⟨hH.write_key, ⟨hs, hm⟩, fun h => by cases h⟩
  | @leave s host m' hs hm =>
    cases host with
    | none => exact ⟨hH.1, ⟨hs, hm⟩, fun h => by cases h⟩
    | some h => exact ⟨hH.1, ⟨hs, hm⟩, fun h => by cases h⟩
  | pausedNoHost hs => exact ⟨hH.1, ⟨hs, rfl⟩, fun h => by cases h⟩
  | pausedHost hs => exact ⟨hH, ⟨hs, rfl⟩, fun h => by cases h⟩
  | releasedNoHost hs =>
    exact ⟨hH.1, ⟨hs, rfl⟩, fun _ k' h hh hl => absurd hl (hH.2 k' h hh)⟩
  | marked hs =>
    obtain ⟨hkey, honly, hmarked⟩ := hH
    refine ⟨hkey, ⟨hs, rfl⟩, fun _ k' h hh hl => ?_⟩
    obtain rfl := honly k' h hh hl
    exact hmarked rfl h hh
  | markFailed _ => exact ⟨hH.1, rfl, fun h => by cases h⟩
  | skipConditions => exact hH
  | skipMachineSpec _ => exact hH

/-- Deletions, pauses and changes of clusters. -/
theorem Ownership.env {a : EnvAction} (hG : Ownership names w)
    (hrule : noCreation a = true) (henv : envStep a w = some w') :
    Ownership names w' ∧ ∀ k, Keeps k w w' := by
  have hset : ∀ (key : NamespacedName) (m m' : ByoMachine), w.machines.lookup key = some m →
      m'.key = m.key → m'.finalizers = m.finalizers → w' = w.setMachine key m' →
        Ownership names w' ∧ ∀ k, Keeps k w w' := by
    rintro key m m' hm hkey hf rfl
    have hkeeps : ∀ k, Keeps k w (w.setMachine key m') := by
      refine fun k => .of_hosts_eq rfl ?_
      rintro ⟨m₁, hm₁, hmem⟩
      by_cases hk : k = key
      · subst hk
        cases hm.symm.trans hm₁
        rw [← hf] at hmem
        exact ⟨m', setMachine_lookup_of_mem w k hmem, hmem⟩
      · exact ⟨m₁, (setMachine_lookup_ne w hk m').trans hm₁, hmem⟩
    exact ⟨⟨hG.fresh, hG.hosts, hG.machines.setMachine (hkey.trans (hG.machines key m hm)), hG.paired,
      hG.unique, fun k hk => (hkeeps k).guarded (hG.guarded k hk)⟩, hkeeps⟩
  cases a with
  | createByoMachine m => cases hrule
  | deliver key => cases hrule
  | deleteByoMachine key =>
    obtain ⟨m, hm, rfl⟩ := Option.map_eq_some_iff.1 henv
    exact hset key m { m with deletionTimestamp := true } hm rfl rfl rfl
  | pauseByoMachine key paused =>
    obtain ⟨m, hm, rfl⟩ := Option.map_eq_some_iff.1 henv
    exact hset key m (m.withPaused paused) hm rfl rfl rfl
  | putCluster c =>
    cases henv
    exact ⟨hG.of_eq rfl rfl rfl, fun _ => .of_hosts_eq rfl id⟩
  | deleteCluster key =>
    cases henv
    exact ⟨hG.of_eq rfl rfl rfl, fun _ => .of_hosts_eq rfl id⟩
  | putMachine m =>
    cases henv
    exact ⟨hG.of_eq rfl rfl rfl, fun _ => .of_hosts_eq rfl id⟩

end Moves

/-! ## Runs -/

/-- Only machines of `names` are reconciled, and their assertions hold. -/
def ReconcilingThread (names : List NamespacedName) (t : Tid) (w : World) (q : Option Phase) :
    Prop :=
  ∀ p, q = some p → ∃ k ∈ names, t = .byoMachine k ∧ ∃ p', p = .machine p' ∧ Reconciling k w p'

theorem reconcilingThread_none {names : List NamespacedName} {t : Tid} {w : World} :
    ReconcilingThread names t w none := by
  intro p hp
  cases hp

theorem ReconcilingThread.mono {names : List NamespacedName} {t : Tid} {w w' : World}
    {q : Option Phase} (hH : ReconcilingThread names t w q)
    (hkeeps : ∀ k ∈ names, t = .byoMachine k → Keeps k w w') : ReconcilingThread names t w' q := by
  intro p hp
  obtain ⟨k, hk, ht, p', hp', hR⟩ := hH p hp
  exact ⟨k, hk, ht, p', hp', hR.mono (hkeeps k hk ht)⟩

theorem reconcilingThread_machine {names : List NamespacedName} {k : NamespacedName} {w : World}
    {q : MachinePhase} (hk : k ∈ names) (hR : Reconciling k w q) :
    ReconcilingThread names (.byoMachine k) w (some (.machine q)) := by
  rintro p ⟨⟩
  exact ⟨k, hk, rfl, q, rfl, hR⟩

/-- The facts about the server and those of each reconcile, kept by all steps. -/
theorem ownership_relyGuarantee (setup : Setup) {names : List NamespacedName}
    (hdistinct : DistinctLabels names) :
    RelyGuarantee (system setup) (finalizerRules names) Next (Silent setup) firstPhase
      Done (fun _ _ => True) (Ownership names) (ReconcilingThread names) where
  follows := system_follows setup
  symm := id
  exclude := fun _ _ _ _ => trivial
  start := by
    rintro w busy t hG - ⟨k, hk, rfl⟩
    exact reconcilingThread_machine hk trivial
  call := by
    intro w t q o c q' hG hH hrule hnext
    obtain ⟨k, hk, rfl, q, rfl, hR⟩ := hH q rfl
    cases hnext with
    | machine hnext =>
      obtain ⟨-, hG', hH'⟩ := hR.move hG hdistinct hk (hrule _ hk rfl) hnext.move
      exact ⟨hG', reconcilingThread_machine hk hH'⟩
  others := by
    intro w t q o c q' t' q₁ hG hH hrule hnext hne _ hH₁
    obtain ⟨k, hk, rfl, q, rfl, hR⟩ := hH q rfl
    cases hnext with
    | machine hnext =>
      obtain ⟨hgentle, -, -⟩ := hR.move hG hdistinct hk (hrule _ hk rfl) hnext.move
      refine hH₁.mono fun k' hk' ht' => ?_
      have hkk : k' ≠ k := fun heq => hne (ht'.trans (congrArg Tid.byoMachine heq))
      exact hgentle.keeps hkk fun heq => hkk (hdistinct _ hk k' hk' heq).symm
  silent := by
    intro w t q q' hG hH hstep
    obtain ⟨k, hk, rfl, q, rfl, hR⟩ := hH q rfl
    cases hstep with
    | machine hstep => exact reconcilingThread_machine hk (hR.step hstep)
  finish := fun _ _ _ => reconcilingThread_none
  env := fun hG hrule henv => ⟨(hG.env hrule henv).1, fun _ _ hH =>
    hH.mono fun k _ _ => (hG.env hrule henv).2 k⟩

/-- Before anything is attached. -/
theorem Unattached.ownership {w : World} (hw : Unattached w) (names : List NamespacedName) :
    Ownership names w where
  fresh := hw.fresh
  hosts := hw.hosts
  machines := hw.machines
  paired := fun k h hh => iff_of_true (hw.labels k h hh).1 (hw.labels k h hh).2
  unique := fun k _ => ⟨k, fun k' h hh hl => by
    rw [Labelled, (hw.labels k' h hh).2] at hl
    cases hl⟩
  guarded := fun k _ k' h hh hl => by
    rw [Labelled, (hw.labels k' h hh).2] at hl
    cases hl

/-- If machines hold the finalizer before a host is picked for them, then in every state of every
run an attached host that is not marked for cleanup has a machine that exists and holds the
finalizer. -/
theorem attached_host_guarded (setup : Setup) {names : List NamespacedName}
    (hdistinct : DistinctLabels names) {w : World} (hw : Unattached w)
    {ls : List (Label Outcome Tid EnvAction)} {σ : Pool Call Resp World Tid}
    (hrun : (system setup).Steps (finalizerRules names) (.init w) ls σ) :
    ∀ k ∈ names, Guarded k σ.store :=
  ((ownership_relyGuarantee setup hdistinct).holds (hw.ownership names)
    (fun _ => reconcilingThread_none) hrun).guarded

theorem small_unattached (hosts machines : List String) :
    Unattached (Small.world hosts machines) where
  fresh := rfl
  hosts := by
    intro k h hh
    obtain ⟨name, rfl, rfl⟩ := Small.hosts_lookup hh
    rfl
  machines := by
    intro k m hm
    obtain ⟨name, rfl, rfl⟩ := Small.machines_lookup hm
    rfl
  labels := by
    intro k h hh
    obtain ⟨name, rfl, rfl⟩ := Small.hosts_lookup hh
    exact ⟨rfl, rfl⟩

/-- The host carries the label of the machine and is not marked for cleanup. -/
def isAttachedTo (w : World) (host machine : NamespacedName) : Bool :=
  (w.hosts.lookup host).any fun h => Labelled machine h && !h.carries .hostCleanup

theorem exists_of_isAttachedTo {w : World} {host machine : NamespacedName}
    (h : isAttachedTo w host machine = true) : ∃ b, w.hosts.lookup host = some b ∧
      Labelled machine b ∧ b.carries .hostCleanup = false := by
  simpa [isAttachedTo, Option.any_eq_true] using h

/-- The infrastructure is not ready at first, so that the first reconcile persists the finalizer
and nothing else; the second one attaches the host. -/
theorem attached_host_guarded_small : ∃ ls σ,
    (system {}).Steps (finalizerRules [Small.key "m1"]) (.init (Small.world ["h1"] ["m1"])) ls σ ∧
      isAttachedTo σ.store (Small.key "h1") (Small.key "m1") = true ∧
      Guarded (Small.key "m1") σ.store := by
  obtain ⟨σ, hsteps, hattached⟩ := (system {}).exists_steps (finalizerRules [Small.key "m1"])
    (.env (.putCluster { Small.cluster with infrastructureReady := false }) ::
      Small.calls (.byoMachine (Small.key "m1")) 10 ++
      .env (.putCluster Small.cluster) :: Small.calls (.byoMachine (Small.key "m1")) 12)
    (fun σ => isAttachedTo σ.store (Small.key "h1") (Small.key "m1"))
    (σ := .init (Small.world ["h1"] ["m1"])) (by decide +kernel)
  exact ⟨_, σ, hsteps, hattached, attached_host_guarded {} (by decide)
    (small_unattached ["h1"] ["m1"]) hsteps (Small.key "m1") (by decide)⟩

/-- The machine is deleted after its host was attached and before its finalizer was persisted: it
disappears, its reconcile ends, and the host stays attached. -/
theorem host_left_behind : ∃ ls σ,
    (system {}).Steps (machineRules [Small.key "m1"]) (.init (Small.world ["h1"] ["m1"])) ls σ ∧
      σ.busy (.byoMachine (Small.key "m1")) = false ∧ ¬Guarded (Small.key "m1") σ.store := by
  obtain ⟨σ, hsteps, hend⟩ := (system {}).exists_steps (machineRules [Small.key "m1"])
    (Small.calls (.byoMachine (Small.key "m1")) 11 ++
      .env (.deleteByoMachine (Small.key "m1")) ::
      List.replicate 4 (.call (.byoMachine (Small.key "m1")) {}))
    (fun σ => isAttachedTo σ.store (Small.key "h1") (Small.key "m1") &&
      !σ.busy (.byoMachine (Small.key "m1")) && !HoldsFinalizer (Small.key "m1") σ.store)
    (σ := .init (Small.world ["h1"] ["m1"])) (by decide +kernel)
  simp only [Bool.and_eq_true, Bool.not_eq_true', decide_eq_false_iff_not] at hend
  obtain ⟨⟨hattached, hidle⟩, hgone⟩ := hend
  refine ⟨_, σ, hsteps, hidle, fun hguarded => hgone ?_⟩
  obtain ⟨h, hh, hl, hun⟩ := exists_of_isAttachedTo hattached
  exact hguarded _ h hh hl hun

end Byoh.Properties
