import Byoh.Protocol.SiteRuns

/-!
# Paused hosts that wait for their cleanup

The agent does not act on paused hosts. A host that is paused while it is marked for cleanup stays
as it is until someone unpauses it, and only a reconcile of its machine can do that. So such a host
must not outlive its machine.

A reconcile unpauses the host only if the machine is not being deleted. When pause, deletion and the
end of the pause come in this order, the host is marked while it is paused, and the machine goes
away (`host_stranded`). The same happens when a new machine takes over the name of a deleted one,
with its marked host, and is paused and deleted. In runs without the two
(`UnpausedBeforeDelete`), no host is stranded (`none_stranded`).
-/

set_option autoImplicit false

namespace Byoh.Properties

open Byoh.Foundation Byoh.Model Byoh.Protocol

/-! ## Stranded hosts -/

/-- The host is marked for cleanup, but its agent ignores it. -/
def Stuck (h : ByoHost) : Prop := h.carries .hostCleanup = true ∧ h.carries .paused = true

instance (h : ByoHost) : Decidable (Stuck h) := inferInstanceAs (Decidable (_ ∧ _))

/-- Every stuck host has its machine. -/
def NoneStranded (names : List NamespacedName) (w : World) : Prop :=
  ∀ key h, w.hosts.lookup key = some h → Stuck h → ∀ k ∈ names, Labelled k h →
    ∃ m, w.machines.lookup k = some m

/-- The cluster that a reconcile of the machine reads. -/
def clusterOf (w : World) (m : ByoMachine) : Option Cluster :=
  (m.labels.get .clusterName).bind fun name => w.clusters.lookup ⟨m.ns, name⟩

/-- A machine that is being deleted and is not paused is reconciled only while its host is not
paused either; a machine is created under one of the names, and no host carries its label yet. -/
def UnpausedBeforeDelete (names : List NamespacedName) (s : Site) : Action → Prop
  | .reconcile (.byoMachine k) _ => ∀ m, s.world.machines.lookup k = some m →
      ∀ c, clusterOf s.world m = some c → m.deletionTimestamp = true →
        isPaused c m.annotations = false → ∀ key h, s.world.hosts.lookup key = some h →
          Labelled k h → h.carries .paused = false
  | .env (.createByoMachine m) => m.key ∈ names ∧
      ∀ key h, s.world.hosts.lookup key = some h → ¬Labelled m.key h
  | _ => True

instance (names : List NamespacedName) (s : Site) :
    (a : Action) → Decidable (UnpausedBeforeDelete names s a)
  | .reconcile (.byoMachine k) _ => inferInstanceAs (Decidable (∀ m ∈ s.world.machines.lookup k,
      ∀ c ∈ clusterOf s.world m, m.deletionTimestamp = true → isPaused c m.annotations = false →
        ∀ key h, s.world.hosts.lookup key = some h → Labelled k h → h.carries .paused = false))
  | .reconcile (.k8sInstallerConfig _) _ => .isTrue trivial
  | .reconcile (.byoHost _) _ => .isTrue trivial
  | .reconcile (.agent _) _ => .isTrue trivial
  | .env (.createByoMachine m) => inferInstanceAs (Decidable (m.key ∈ names ∧
      ∀ key h, s.world.hosts.lookup key = some h → ¬Labelled m.key h))
  | .env (.deleteByoMachine _) => .isTrue trivial
  | .env (.pauseByoMachine _ _) => .isTrue trivial
  | .env (.putCluster _) => .isTrue trivial
  | .env (.deleteCluster _) => .isTrue trivial
  | .env (.putMachine _) => .isTrue trivial
  | .env (.deliver _) => .isTrue trivial

/-! ## The invariant -/

/-- What holds of a host. A marked host is labelled, and its machine is being deleted as long as it
is there; it is there if the host is paused. -/
structure HostSafe (names : List NamespacedName) (w : World) (h : ByoHost) : Prop where
  paired : h.LabelsPaired
  labelled : h.carries .hostCleanup = true → h.attachedLabel ≠ none
  deleting : h.carries .hostCleanup = true → ∀ k m, Labelled k h → w.machines.lookup k = some m →
    m.deletionTimestamp = true
  kept : Stuck h → ∀ k ∈ names, Labelled k h → ∃ m, w.machines.lookup k = some m

/-- The invariant of runs. A machine that is being deleted and still there has finalizers. -/
structure Safe (names : List NamespacedName) (w : World) : Prop where
  members : ∀ k m, w.machines.lookup k = some m → k ∈ names
  lasting : ∀ k m, w.machines.lookup k = some m → m.deletionTimestamp = true → m.finalizers ≠ []
  hosts : ∀ key h, w.hosts.lookup key = some h → HostSafe names w h

section Hosts

variable {names : List NamespacedName} {w w' : World} {h h' cur : ByoHost}

/-- The same labels, and no new annotation of the two. -/
theorem HostSafe.of_same (hh : HostSafe names w h) (hattached : cur.attachedLabel = h.attachedLabel)
    (hcluster : cur.clusterLabel = h.clusterLabel)
    (hmarked : cur.carries .hostCleanup = true → h.carries .hostCleanup = true)
    (hpaused : cur.carries .paused = true → h.carries .paused = true) : HostSafe names w cur where
  paired := by
    rw [ByoHost.LabelsPaired, hattached, hcluster]
    exact hh.paired
  labelled hm := by
    rw [hattached]
    exact hh.labelled (hmarked hm)
  deleting hm k m hl := hh.deleting (hmarked hm) k m (hattached.symm.trans hl)
  kept hstuck k hk hl :=
    hh.kept ⟨hmarked hstuck.1, hpaused hstuck.2⟩ k hk (hattached.symm.trans hl)

/-- A host that is not marked. -/
theorem HostSafe.of_not_marked (hpaired : h.LabelsPaired) (hm : h.carries .hostCleanup = false) :
    HostSafe names w h := by
  have hnot : ¬h.carries .hostCleanup = true := by simp [hm]
  exact ⟨hpaired, fun h => absurd h hnot, fun h => absurd h hnot, fun h => absurd h.1 hnot⟩

/-- Machines change: those that are being deleted stay so, and those of stuck hosts stay. -/
theorem HostSafe.of_machines (hh : HostSafe names w h)
    (hdeleting : h.carries .hostCleanup = true → ∀ k m', Labelled k h →
      w'.machines.lookup k = some m' → ∃ m, w.machines.lookup k = some m ∧
        (m.deletionTimestamp = true → m'.deletionTimestamp = true))
    (hkept : Stuck h → ∀ k ∈ names, Labelled k h → ∀ m, w.machines.lookup k = some m →
      ∃ m', w'.machines.lookup k = some m') : HostSafe names w' h where
  paired := hh.paired
  labelled := hh.labelled
  deleting hm k m' hl hm' := by
    obtain ⟨m, hlookup, hmono⟩ := hdeleting hm k m' hl hm'
    exact hmono (hh.deleting hm k m hl hlookup)
  kept hstuck k hk hl := by
    obtain ⟨m, hm⟩ := hh.kept hstuck k hk hl
    exact hkept hstuck k hk hl m hm

/-- The agent of a host takes the mark away together with the labels. -/
theorem HostSafe.agent {sp st : Bool} (hh : HostSafe names w h)
    (heffect : SameSpec h cur ∨ ReleasedInPart sp st h cur) : HostSafe names w cur := by
  rcases heffect with hsame | hrel
  · exact hh.of_same hsame.attachedLabel hsame.clusterLabel (fun hm => (hsame.carries _).symm.trans hm)
      fun hm => (hsame.carries _).symm.trans hm
  · cases sp with
    | true =>
      refine .of_not_marked ?_ hrel.marked
      rw [ByoHost.LabelsPaired, hrel.attachedLabel, hrel.clusterLabel]
      exact iff_of_true rfl rfl
    | false =>
      exact hh.of_same hrel.attachedLabel hrel.clusterLabel (fun _ => hrel.wasMarked) fun hm =>
        hrel.paused.symm.trans hm

end Hosts

/-! ## Reconciles of machines -/

section Machine

variable {names : List NamespacedName} {w w' : World} {k : NamespacedName}
  {scope : ByoMachineReconciler.Scope} {how : Leave} {m : ByoMachine} {h h' : ByoHost}

/-- The hosts of a machine that is being deleted are not paused, neither before nor after its
reconcile. -/
def ClearFor (scope : ByoMachineReconciler.Scope) (k : NamespacedName) (h : ByoHost) : Prop :=
  isDeleteScope scope = true → Labelled k h → h.carries .paused = false

/-- What the edits of one reconcile keep. -/
structure EditSafe (names : List NamespacedName) (w : World) (scope : ByoMachineReconciler.Scope)
    (k : NamespacedName) (h : ByoHost) : Prop where
  safe : HostSafe names w h
  clear : ClearFor scope k h

variable {b cur : ByoHost} {spec status : Bool}

/-- The labels are the same, and neither mark nor pause is new. -/
theorem EditSafe.of_same (hb : EditSafe names w scope k b)
    (hattached : cur.attachedLabel = b.attachedLabel) (hcluster : cur.clusterLabel = b.clusterLabel)
    (hmarked : cur.carries .hostCleanup = true → b.carries .hostCleanup = true)
    (hpaused : cur.carries .paused = true → b.carries .paused = true) :
    EditSafe names w scope k cur := by
  refine ⟨hb.safe.of_same hattached hcluster hmarked hpaused, fun hs hl => ?_⟩
  have hnot := hb.clear hs (hattached.symm.trans hl)
  by_contra hp
  cases hnot.symm.trans (hpaused (by simpa using hp))

/-- A host of the capacity pool is attached: it is not marked. -/
theorem EditSafe.attach {a : ByoMachineReconciler.Attachment} (hb : EditSafe names w scope k b)
    (hnormal : isNormalScope scope = true) (hfree : b.clusterLabel = none)
    (hp : Patched b ((HostEdit.attach a).apply b) false spec status cur) :
    EditSafe names w scope k cur := by
  have hmark : cur.carries .hostCleanup = b.carries .hostCleanup := by simpa using hp.edit_marked
  have hpause : cur.carries .paused = b.carries .paused := by simpa using hp.edit_paused
  rcases hp.edit_labels with ⟨hattached, hcluster⟩ | ⟨a', -, hattached, hcluster⟩
  · exact hb.of_same hattached hcluster (fun hm => hmark.symm.trans hm) fun hm => hpause.symm.trans hm
  · have hnotMarked : cur.carries .hostCleanup = false := by
      by_contra hm
      exact hb.safe.labelled (hmark.symm.trans (by simpa using hm)) (hb.safe.paired.1 hfree)
    refine ⟨.of_not_marked ?_ hnotMarked, fun hs => ?_⟩
    · rw [ByoHost.LabelsPaired, hattached, hcluster]
      exact iff_of_false (by simp) (by simp)
    · simp only [isDeleteScope, isNormalScope, Bool.and_eq_true, Bool.not_eq_true'] at hs hnormal
      cases hnormal.2.symm.trans hs.2

section Edits

variable (hdistinct : DistinctLabels names) (hw : Safe names w)
  (hread : w.machines.lookup k = some scope.byoMachine) (hb : EditSafe names w scope k b)

include hdistinct hw hread hb

omit hb in
/-- A host of `k` belongs to no other machine. -/
theorem eq_of_labelled {k' : NamespacedName} (hk' : k' ∈ names) (hl : Labelled k b)
    (hl' : Labelled k' b) : k' = k :=
  hdistinct _ hk' k (hw.members k _ hread) (Option.some.inj (hl'.symm.trans hl))

/-- The host is paused with its machine, which has been read and so is there. -/
theorem EditSafe.pause (hscope : isPausedScope scope = true) (hl : Labelled k b)
    (hp : Patched b ((HostEdit.pause true).apply b) false spec status cur) :
    EditSafe names w scope k cur := by
  obtain ⟨hattached, hcluster⟩ : cur.attachedLabel = b.attachedLabel ∧
      cur.clusterLabel = b.clusterLabel := by simpa using hp.edit_labels
  have hmark : cur.carries .hostCleanup = b.carries .hostCleanup := by simpa using hp.edit_marked
  refine ⟨⟨?_, fun hm => ?_, fun hm k' m' hl' => ?_, fun hstuck k' hk' hl' => ?_⟩, fun hs => ?_⟩
  · rw [ByoHost.LabelsPaired, hattached, hcluster]
    exact hb.safe.paired
  · rw [hattached]
    exact hb.safe.labelled (hmark.symm.trans hm)
  · exact hb.safe.deleting (hmark.symm.trans hm) k' m' (hattached.symm.trans hl')
  · obtain rfl := eq_of_labelled hdistinct hw hread hk' hl (hattached.symm.trans hl')
    exact ⟨_, hread⟩
  · simp only [isDeleteScope, Bool.and_eq_true, Bool.not_eq_true'] at hs
    rw [hs.1] at hscope
    cases hscope

/-- The host is marked with its machine under deletion, and it is not paused. -/
theorem EditSafe.mark {u : Bool} (hscope : isDeleteScope scope = true) (hl : Labelled k b)
    (hp : Patched b ((HostEdit.mark u).apply b) false spec status cur) :
    EditSafe names w scope k cur := by
  obtain ⟨hattached, hcluster⟩ : cur.attachedLabel = b.attachedLabel ∧
      cur.clusterLabel = b.clusterLabel := by simpa using hp.edit_labels
  have hpause : cur.carries .paused = b.carries .paused := by simpa using hp.edit_paused
  have hnotPaused : cur.carries .paused = false := hpause.trans (hb.clear hscope hl)
  refine ⟨⟨?_, fun _ => ?_, fun _ k' m' hl' hm' => ?_, fun hstuck => ?_⟩, fun _ _ => hnotPaused⟩
  · rw [ByoHost.LabelsPaired, hattached, hcluster]
    exact hb.safe.paired
  · rw [hattached, hl]
    simp
  · obtain rfl := eq_of_labelled hdistinct hw hread (hw.members k' m' hm') hl
      (hattached.symm.trans hl')
    cases hread.symm.trans hm'
    simp only [isDeleteScope, Bool.and_eq_true] at hscope
    exact hscope.2
  · cases hnotPaused.symm.trans hstuck.2

end Edits

/-- Edits keep hosts safe. -/
theorem EditSafe.edited (hdistinct : DistinctLabels names) (hw : Safe names w)
    (hread : w.machines.lookup k = some scope.byoMachine) (hkey : scope.byoMachine.key = k)
    (hran : EditedBy (EditReason w scope) h h') (hh : EditSafe names w scope k h) :
    EditSafe names w scope k h' := by
  refine hran.invariant (P := EditSafe names w scope k) ?_ ?_ hh
  · rintro b cur hsame ⟨hcur, hclear⟩
    refine ⟨hcur.of_same hsame.attachedLabel.symm hsame.clusterLabel.symm
      (fun hm => (hsame.carries _).trans hm) fun hm => (hsame.carries _).trans hm, fun hs hl => ?_⟩
    rw [← hsame.carries]
    exact hclear hs (hsame.attachedLabel.trans hl)
  · rintro e b spec status cur hreason hb hp
    have hlabels := hp.edit_labels
    have hmarked := hp.edit_marked
    have hpaused := hp.edit_paused
    cases e with
    | pause isPaused =>
      obtain ⟨hscope, hl⟩ := hreason
      cases isPaused with
      | true => exact hb.pause hdistinct hw hread hscope (hkey ▸ hl) hp
      | false =>
        obtain ⟨hattached, hcluster⟩ : cur.attachedLabel = b.attachedLabel ∧
            cur.clusterLabel = b.clusterLabel := by simpa using hlabels
        have hmark : cur.carries .hostCleanup = b.carries .hostCleanup := by simpa using hmarked
        refine hb.of_same hattached hcluster (fun hm => hmark.symm.trans hm) fun hm => ?_
        rcases hpaused with heq | ⟨_, hfalse, heq⟩
        · exact heq.symm.trans hm
        · cases hfalse
          cases heq.symm.trans hm
    | mark u =>
      obtain ⟨hscope, hl⟩ := hreason
      exact hb.mark hdistinct hw hread hscope (hkey ▸ hl) hp
    | attach a => exact hb.attach hreason.1 hreason.2.1 hp
    | install ref | uninstall ref =>
      obtain ⟨hattached, hcluster⟩ : cur.attachedLabel = b.attachedLabel ∧
          cur.clusterLabel = b.clusterLabel := by simpa using hlabels
      have hmark : cur.carries .hostCleanup = b.carries .hostCleanup := by simpa using hmarked
      have hpause : cur.carries .paused = b.carries .paused := by simpa using hpaused
      exact hb.of_same hattached hcluster (fun hm => hmark.symm.trans hm) fun hm => hpause.symm.trans hm

/-- The cluster of the scope is the one that the condition is about. -/
theorem clusterOf_of_read (hread : ReadScope w k scope) :
    clusterOf w scope.byoMachine = some scope.cluster := by
  obtain ⟨name, hname, hcluster⟩ := hread.cluster
  rw [clusterOf, hname]
  exact hcluster

/-- A reconcile of a machine keeps the world safe. -/
theorem Safe.machine (hdistinct : DistinctLabels names) (hsound : Sound w) (hw : Safe names w)
    (hclear : ∀ key h, w.hosts.lookup key = some h → ClearFor scope k h)
    (hran : MachineRan w k scope how m w') : Safe names w' := by
  have hread := hran.read.byoMachine
  have hkey : scope.byoMachine.key = k := hsound.machines k _ hread
  have hmember : k ∈ names := hw.members k _ hread
  obtain ⟨hleaves, hleft⟩ := hran.left
  refine ⟨fun k' m' hm' => ?_, fun k' m' hm' hdeleting => ?_, fun key h' hh' => ?_⟩
  · by_cases hk : k' = k
    · rw [hk]
      exact hmember
    · rw [hran.others k' hk] at hm'
      exact hw.members k' m' hm'
  · by_cases hk : k' = k
    · subst hk
      rcases hleft with ⟨hnone, -⟩ | ⟨cur, hcur, hpatched, hlasting⟩
      · rw [hm'] at hnone
        cases hnone
      · obtain rfl : m' = cur := Option.some.inj (hm'.symm.trans hcur)
        have hscope : scope.byoMachine.deletionTimestamp = true := by
          rw [← hdeleting, (machine_of_patched hpatched).1]
        exact fun hempty => hw.lasting k' _ hread hscope (hlasting hdeleting hempty)
    · rw [hran.others k' hk] at hm'
      exact hw.lasting k' m' hm' hdeleting
  · obtain ⟨h, hh, hedited⟩ := hran.hosts.of_some hh'
    obtain ⟨hsafe, hclear'⟩ := EditSafe.edited hdistinct hw hread hkey hedited
      ⟨hw.hosts key h hh, hclear key h hh⟩
    refine hsafe.of_machines (fun _ k' m' _ hm' => ?_) fun hstuck k' hk' hl' m₀ hm₀ => ?_
    · by_cases hk : k' = k
      · subst hk
        rcases hleft with ⟨hnone, -⟩ | ⟨cur, hcur, hpatched, -⟩
        · rw [hm'] at hnone
          cases hnone
        · obtain rfl : m' = cur := Option.some.inj (hm'.symm.trans hcur)
          refine ⟨_, hread, fun hdeleting => ?_⟩
          rw [(machine_of_patched hpatched).1]
          exact hdeleting
      · exact ⟨m', (hran.others k' hk) ▸ hm', id⟩
    · by_cases hk : k' = k
      · -- a machine goes away at the end of its deletion, and then its host is not paused
        subst hk
        rcases hleft with ⟨-, hdeleting, hreleased | hempty⟩ | ⟨cur, hcur, -⟩
        · subst hreleased
          have hscope : isDeleteScope scope = true := hleaves.1
          cases (hclear' hscope hl').symm.trans hstuck.2
        · exact absurd hempty (hw.lasting k' _ hread hdeleting)
        · exact ⟨cur, hcur⟩
      · exact ⟨m₀, (hran.others k' hk).trans hm₀⟩

end Machine

/-! ## Whole runs -/

section Runs

variable {names : List NamespacedName} {w w' : World}

/-- Nothing happens to machines, and hosts stay safe one by one. -/
theorem Safe.of_hosts (hw : Safe names w) (hmachines : w'.machines = w.machines)
    (hhosts : ∀ key h', w'.hosts.lookup key = some h' → HostSafe names w h') : Safe names w' where
  members := by
    rw [hmachines]
    exact hw.members
  lasting := by
    rw [hmachines]
    exact hw.lasting
  hosts key h' hh' := by
    refine (hhosts key h' hh').of_machines ?_ ?_ <;> rw [hmachines]
    · exact fun _ k m' _ hm' => ⟨m', hm', id⟩
    · exact fun _ k _ _ m hm => ⟨m, hm⟩

/-- Only reconciles of machines can make a host unsafe. -/
theorem Safe.unedited {setup : Setup} {s s' : Site} {a : Action} (hs : Safe names s.world)
    (hstep : SiteStep setup s a s') (ha : ∀ k os, a ≠ .reconcile (.byoMachine k) os)
    (key : NamespacedName) (h' : ByoHost) (hh' : s'.world.hosts.lookup key = some h') :
    HostSafe names s.world h' := by
  obtain ⟨h, hh, hchange⟩ := hstep.hostsVia.of_some hh'
  have hhost := hs.hosts key h hh
  cases hchange with
  | same => exact hhost
  | edited heq => exact absurd heq (ha _ _)
  | cleared _ hcleared _ =>
    exact hhost.of_same hcleared.attachedLabel hcleared.clusterLabel
      (fun hm => (hcleared.carries _).symm.trans hm) fun hm => (hcleared.carries _).symm.trans hm
  | agent _ heffect => exact hhost.agent heffect

/-- A machine is written back with its deletion timestamp and its finalizers. -/
theorem Safe.setMachine {k : NamespacedName} {m m' : ByoMachine} (hw : Safe names w)
    (hm : w.machines.lookup k = some m) (hfinalizers : m'.finalizers = m.finalizers)
    (hdeleting : m.deletionTimestamp = true → m'.deletionTimestamp = true) :
    Safe names (w.setMachine k m') := by
  refine ⟨fun k' m'' hm'' => ?_, fun k' m'' hm'' hd => ?_, fun key h hh => ?_⟩
  · by_cases hk : k' = k
    · rw [hk]
      exact hw.members k m hm
    · rw [setMachine_lookup_ne _ hk] at hm''
      exact hw.members k' m'' hm''
  · by_cases hk : k' = k
    · subst hk
      rw [setMachine_lookup_self] at hm''
      split at hm''
      · cases hm''
      next hstays =>
        cases hm''
        intro hempty
        exact hstays (by simp [hd, hempty])
    · rw [setMachine_lookup_ne _ hk] at hm''
      exact hw.lasting k' m'' hm'' hd
  · refine (hw.hosts key h hh).of_machines (fun _ k' m'' _ hm'' => ?_) fun hstuck k' _ hl m₀ hm₀ => ?_
    · by_cases hk : k' = k
      · subst hk
        rw [setMachine_lookup_self] at hm''
        split at hm''
        · cases hm''
        · cases hm''
          exact ⟨m, hm, hdeleting⟩
      · rw [setMachine_lookup_ne _ hk] at hm''
        exact ⟨m'', hm'', id⟩
    · by_cases hk : k' = k
      · -- the machine of a marked host was being deleted before, so it has finalizers
        subst hk
        cases hm.symm.trans hm₀
        have hd := (hw.hosts key h hh).deleting hstuck.1 k' m hl hm
        refine ⟨m', ?_⟩
        rw [setMachine_lookup_self, if_neg]
        simp [hfinalizers, hw.lasting k' m hm hd]
      · exact ⟨m₀, (setMachine_lookup_ne _ hk _).trans hm₀⟩

/-- Actions of the environment keep the world safe. -/
theorem Safe.env {a : EnvAction} {runs : NamespacedName → List AgentRun} (hw : Safe names w)
    (ha : UnpausedBeforeDelete names ⟨w, runs⟩ (.env a)) (henv : envStep a w = some w') :
    Safe names w' := by
  cases a <;> simp only [envStep, Option.map_eq_some_iff, Option.some.injEq] at henv
  case createByoMachine m =>
    split at henv
    · cases henv
    next hnone =>
    cases henv
    obtain ⟨hmember, hfree⟩ := ha
    refine ⟨fun k' m' hm' => ?_, fun k' m' hm' hd => ?_, fun key h hh => ?_⟩
    · exact forall_lookup_insert hw.members hmember k' m' hm'
    · rcases lookup_insert_some hm' with ⟨-, rfl⟩ | ⟨-, hm'⟩
      · cases hd
      · exact hw.lasting k' m' hm' hd
    · refine (hw.hosts key h hh).of_machines (fun _ k' m' hl hm' => ?_) fun _ k' _ hl m₀ hm₀ => ?_ <;>
        have hk : k' ≠ m.key := fun heq => hfree key h hh (heq ▸ hl)
      · rw [AList.lookup_insert_ne hk] at hm'
        exact ⟨m', hm', id⟩
      · exact ⟨m₀, (AList.lookup_insert_ne hk).trans hm₀⟩
  case deleteByoMachine k =>
    obtain ⟨m, hm, rfl⟩ := henv
    exact hw.setMachine hm rfl fun _ => rfl
  case pauseByoMachine k paused =>
    obtain ⟨m, hm, rfl⟩ := henv
    exact hw.setMachine hm rfl id
  case deliver =>
    obtain ⟨i, -, rfl⟩ := henv
    exact hw.of_hosts rfl hw.hosts
  all_goals
    subst henv
    exact hw.of_hosts rfl hw.hosts

/-- Every step of a site keeps the world safe. -/
theorem Safe.step {setup : Setup} (hdistinct : DistinctLabels names) {s s' : Site} {a : Action}
    (hsound : Sound s.world) (hs : Safe names s.world) (ha : UnpausedBeforeDelete names s a)
    (hstep : SiteStep setup s a s') : Safe names s'.world := by
  have hunedited := hs.unedited hstep
  cases hstep with
  | idle => exact hs
  | machine hran =>
    refine hs.machine hdistinct hsound (fun key h hh hscope hl => ?_) hran
    simp only [isDeleteScope, Bool.and_eq_true, Bool.not_eq_true'] at hscope
    exact ha _ hran.read.byoMachine _ (clusterOf_of_read hran.read) hscope.2 hscope.1 key h hh hl
  | config hran =>
    refine hs.of_hosts ?_ (hunedited fun _ _ h => by cases h)
    rw [(hran (fun _ => True) trivial fun _ _ => trivial).rest]
  | byoHost hran => exact hs.of_hosts hran.machines (hunedited fun _ _ h => by cases h)
  | agent hran =>
    refine hs.of_hosts ?_ (hunedited fun _ _ h => by cases h)
    rw [hran.onlyHost.rest]
  | env henv => exact hs.env ha henv

/-- At the start no host is marked, and no machine waits for its end without a finalizer. -/
structure CalmStart (names : List NamespacedName) (w : World) : Prop where
  members : ∀ k m, w.machines.lookup k = some m → k ∈ names
  lasting : ∀ k m, w.machines.lookup k = some m → m.deletionTimestamp = true → m.finalizers ≠ []
  hosts : ∀ key h, w.hosts.lookup key = some h → h.LabelsPaired ∧ h.carries .hostCleanup = false

theorem CalmStart.safe (hw : CalmStart names w) : Safe names w :=
  ⟨hw.members, hw.lasting, fun key h hh => .of_not_marked (hw.hosts key h hh).1 (hw.hosts key h hh).2⟩

end Runs

/-- **No paused host waits for its cleanup without its machine.** The machines of the run have
different labels, none is created while a host carries its label, and the reconcile that would
release a host finds it unpaused. Then in every state of every run, of any reconciles with any
failures and any actions of the environment, a host that is marked for cleanup and paused belongs
to a machine that exists. -/
theorem none_stranded {setup : Setup} {names : List NamespacedName}
    (hdistinct : DistinctLabels names) {s₀ s : Site} {as : List Action} (hsound : Sound s₀.world)
    (hstart : CalmStart names s₀.world)
    (hrun : ActionRun setup.act (UnpausedBeforeDelete names) s₀ as s) :
    NoneStranded names s.world := by
  have hsafe := (site_run_invariant (I := fun s => Safe names s.world) (Safe.step hdistinct) hrun hsound
    hstart.safe).2
  exact fun key h hh => (hsafe.hosts key h hh).kept

theorem calmStart_small (hosts machines : List String) :
    CalmStart (machines.map Small.key) (Small.world hosts machines) where
  members := Small.machines_mem
  lasting k m hm hd := by
    obtain ⟨name, rfl, rfl⟩ := Small.machines_lookup hm
    cases hd
  hosts key h hh := by
    obtain ⟨name, rfl, rfl⟩ := Small.hosts_lookup hh
    exact ⟨iff_of_true rfl rfl, rfl⟩

/-- The host is marked and paused, and its machine is there or not. -/
def isStuckWith (w : World) (host machine : NamespacedName) (thereIs : Bool) : Bool :=
  ((w.hosts.lookup host).any fun h => decide (Stuck h ∧ Labelled machine h)) &&
    (w.machines.lookup machine).isSome == thereIs

/-- The host is marked, the patch that would release the machine fails, and then the machine is
paused. Its next reconcile pauses the host, and the machine still exists. -/
theorem none_stranded_small :
    let as := [Small.reconcile (.byoMachine (Small.key "m1")),
      .env (.deleteByoMachine (Small.key "m1")),
      .reconcile (.byoMachine (Small.key "m1"))
        (List.replicate 6 ({} : Outcome) ++ [{ writeOk := false }]),
      .env (.pauseByoMachine (Small.key "m1") true), Small.reconcile (.byoMachine (Small.key "m1"))]
    let s := as.foldl (Setup.act {}) { world := Small.world ["h1"] ["m1"] }
    isStuckWith s.world (Small.key "h1") (Small.key "m1") true = true ∧
      NoneStranded [Small.key "m1"] s.world := by
  have hstart : CalmStart [Small.key "m1"] (Small.world ["h1"] ["m1"]) :=
    calmStart_small ["h1"] ["m1"]
  refine ⟨by decide +kernel, ?_⟩
  exact none_stranded (by decide) (sound_small ["h1"] ["m1"]) hstart
    (.of_allowed (by decide +kernel))

/-- Reconciles of machines, and creation, deletion, pause and unpause of machines and clusters. -/
def pausesAndDeletes (_ : Site) : Action → Bool
  | .reconcile (.byoMachine _) _ => true
  | .env (.createByoMachine _) | .env (.deleteByoMachine _) | .env (.pauseByoMachine _ _) => true
  | .env (.putCluster _) | .env (.deleteCluster _) => true
  | _ => false

/-- A machine with a host is paused, reconciled, deleted, unpaused and reconciled. -/
def unpausedAfterDelete : List Action :=
  [Small.reconcile (.byoMachine (Small.key "m1")), .env (.pauseByoMachine (Small.key "m1") true),
    Small.reconcile (.byoMachine (Small.key "m1")), .env (.deleteByoMachine (Small.key "m1")),
    .env (.pauseByoMachine (Small.key "m1") false), Small.reconcile (.byoMachine (Small.key "m1"))]

theorem not_noneStranded {w : World} (host : NamespacedName) {machine : NamespacedName}
    (h : isStuckWith w host machine false = true) : ¬NoneStranded [machine] w := by
  intro hnone
  simp only [isStuckWith, Bool.and_eq_true, Option.any_eq_true, decide_eq_true_eq, beq_iff_eq] at h
  obtain ⟨⟨b, hb, hstuck, hl⟩, hgone⟩ := h
  obtain ⟨m, hm⟩ := hnone host b hb hstuck machine (List.mem_singleton_self _) hl
  rw [hm] at hgone
  cases hgone

/-- The host is marked while it is paused, and its machine is gone. -/
theorem host_stranded : ∃ as s,
    ActionRun (Setup.act {}) (fun s a => pausesAndDeletes s a = true)
      { world := Small.world ["h1"] ["m1"] } as s ∧ ¬NoneStranded [Small.key "m1"] s.world :=
  ⟨unpausedAfterDelete, _, .of_allowed (by decide +kernel),
    not_noneStranded (Small.key "h1") (by decide +kernel)⟩

end Byoh.Properties
