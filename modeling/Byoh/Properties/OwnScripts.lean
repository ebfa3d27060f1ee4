import Byoh.Protocol.SiteRuns

/-!
# Whose scripts a host references

A host that is attached to a machine should reference the scripts that were generated for this
machine. The agent clears the reference to the install script when it releases the host. The
reference to the uninstall script is left to the ByoHost controller, and a machine that picks the
host before this controller has run finds it set and keeps it (`leftover_reference`): the next
cleanup would run the script of the previous machine.

If the hosts of the capacity pool carry nothing of their last machine whenever a machine looks for a
host (`CleanPool`), every attached host references the scripts of its own machine (`own_scripts`).
-/

set_option autoImplicit false

namespace Byoh.Properties

open Byoh.Foundation Byoh.Model Byoh.Protocol Byoh.Model.K8sInstallerConfigReconciler

/-! ## Scripts of a machine -/

/-- What the host references was generated for the configuration of `k`. -/
structure ScriptsOf (k : NamespacedName) (h : ByoHost) : Prop where
  install : ∀ ref, h.installationSecret = some ref → ref = installSecretRef (configOf k)
  uninstall : ∀ ref, h.uninstallationSecret = some ref → ref = uninstallSecretRef (configOf k)

/-- Attached hosts reference the scripts of their own machines. -/
def OwnScripts (w : World) : Prop :=
  ∀ key h ref k, w.hosts.lookup key = some h → h.machineRef = some ref → NamesMachine k ref →
    ScriptsOf k h

/-- When a machine without a host is reconciled, the hosts of the capacity pool reference no
uninstall script and no machine; machines are created under one of the names. -/
def CleanPool (names : List NamespacedName) (s : Site) : Action → Prop
  | .reconcile (.byoMachine k) _ => NoneLabelled k s.world →
      ∀ key h, s.world.hosts.lookup key = some h → h.clusterLabel = none →
        h.uninstallationSecret = none ∧ h.machineRef = none
  | .env (.createByoMachine m) => m.key ∈ names
  | _ => True

instance (k : NamespacedName) (w : World) : Decidable (NoneLabelled k w) :=
  decidableForallLookup w.hosts fun h => ¬Labelled k h

instance (names : List NamespacedName) (s : Site) : (a : Action) → Decidable (CleanPool names s a)
  | .reconcile (.byoMachine k) _ => inferInstanceAs (Decidable (NoneLabelled k s.world →
      ∀ key h, s.world.hosts.lookup key = some h → h.clusterLabel = none →
        h.uninstallationSecret = none ∧ h.machineRef = none))
  | .reconcile (.k8sInstallerConfig _) _ => .isTrue trivial
  | .reconcile (.byoHost _) _ => .isTrue trivial
  | .reconcile (.agent _) _ => .isTrue trivial
  | .env (.createByoMachine m) => inferInstanceAs (Decidable (m.key ∈ names))
  | .env (.deleteByoMachine _) => .isTrue trivial
  | .env (.pauseByoMachine _ _) => .isTrue trivial
  | .env (.putCluster _) => .isTrue trivial
  | .env (.deleteCluster _) => .isTrue trivial
  | .env (.putMachine _) => .isTrue trivial
  | .env (.deliver _) => .isTrue trivial

theorem NamesMachine.unique {k k' : NamespacedName} {ref : ObjectReference}
    (h : NamesMachine k ref) (h' : NamesMachine k' ref) : k = k' := by
  obtain ⟨ns, name⟩ := k
  obtain ⟨ns', name'⟩ := k'
  obtain ⟨-, rfl, rfl⟩ := h
  obtain ⟨-, rfl, rfl⟩ := h'
  rfl

/-! ## The invariant -/

/-- What holds of a host. Label and machine reference name the same machine, and the references to
scripts are those of this machine; in the capacity pool there is none to an install script. -/
structure HostOwned (names : List NamespacedName) (h : ByoHost) : Prop where
  paired : h.LabelsPaired
  pool : h.clusterLabel = none → h.installationSecret = none
  labelled : ∀ k ∈ names, Labelled k h → ScriptsOf k h
  attached : ∀ ref k, h.machineRef = some ref → NamesMachine k ref → ScriptsOf k h
  agree : ∀ ref, h.machineRef = some ref → ∀ k ∈ names, Labelled k h → NamesMachine k ref

/-- The invariant of runs. -/
structure HostsOwned (names : List NamespacedName) (w : World) : Prop where
  members : ∀ k m, w.machines.lookup k = some m → k ∈ names
  configs : ConfigsOk w
  hosts : ∀ key h, w.hosts.lookup key = some h → HostOwned names h

section Hosts

variable {names : List NamespacedName} {h cur : ByoHost}

/-- Labels and references to scripts are the same, and so is the machine reference unless it is
gone. -/
theorem HostOwned.of_same (hh : HostOwned names h) (hattached : cur.attachedLabel = h.attachedLabel)
    (hcluster : cur.clusterLabel = h.clusterLabel)
    (hinstall : cur.installationSecret = h.installationSecret)
    (huninstall : cur.uninstallationSecret = h.uninstallationSecret ∨
      cur.uninstallationSecret = none)
    (href : cur.machineRef = h.machineRef ∨ cur.machineRef = none) : HostOwned names cur := by
  have hscripts : ∀ {k}, ScriptsOf k h → ScriptsOf k cur := by
    intro k hk
    refine ⟨fun ref hi => hk.install ref (hinstall.symm.trans hi), fun ref hu => ?_⟩
    rcases huninstall with heq | heq
    · exact hk.uninstall ref (heq.symm.trans hu)
    · cases heq.symm.trans hu
  have hmachine : ∀ {ref}, cur.machineRef = some ref → h.machineRef = some ref := by
    intro ref hsome
    rcases href with heq | heq
    · exact heq.symm.trans hsome
    · cases heq.symm.trans hsome
  refine ⟨?_, fun hfree => ?_, fun k hk hl => ?_, fun ref k hsome hnames => ?_,
    fun ref hsome k hk hl => ?_⟩
  · rw [ByoHost.LabelsPaired, hattached, hcluster]
    exact hh.paired
  · exact hinstall.trans (hh.pool (hcluster.symm.trans hfree))
  · exact hscripts (hh.labelled k hk (hattached.symm.trans hl))
  · exact hscripts (hh.attached ref k (hmachine hsome) hnames)
  · exact hh.agree ref (hmachine hsome) k hk (hattached.symm.trans hl)

/-- An agent that releases its host clears the reference to the install script with the labels. -/
theorem HostOwned.agent {sp st : Bool} (hh : HostOwned names h)
    (heffect : SameSpec h cur ∨ ReleasedInPart sp st h cur) : HostOwned names cur := by
  rcases heffect with hsame | hrel
  · exact hh.of_same hsame.attachedLabel hsame.clusterLabel hsame.installationSecret
      (.inl hsame.uninstallationSecret) (.inl hsame.machineRef)
  · have href : cur.machineRef = h.machineRef ∨ cur.machineRef = none := by
      rw [hrel.machineRef]
      cases st with
      | true => exact .inr rfl
      | false => exact .inl rfl
    cases sp with
    | false =>
      exact hh.of_same hrel.attachedLabel hrel.clusterLabel hrel.installationSecret
        (.inl hrel.uninstallationSecret) href
    | true =>
      have hlabel : ∀ {k}, ¬Labelled k cur := fun hl => by
        cases hl.symm.trans hrel.attachedLabel
      refine ⟨?_, fun _ => hrel.installationSecret, fun k _ hl => absurd hl hlabel,
        fun ref k hsome hnames => ?_, fun ref _ k _ hl => absurd hl hlabel⟩
      · rw [ByoHost.LabelsPaired, hrel.attachedLabel, hrel.clusterLabel]
        exact iff_of_true rfl rfl
      · -- the status has not arrived: the host still names its machine, and nothing else
        have hmachine : h.machineRef = some ref := by
          rcases href with heq | heq
          · exact heq.symm.trans hsome
          · cases heq.symm.trans hsome
        refine ⟨fun r hi => ?_, fun r hu => ?_⟩
        · cases hrel.installationSecret.symm.trans hi
        · exact (hh.attached ref k hmachine hnames).uninstall r
            (hrel.uninstallationSecret.symm.trans hu)

end Hosts

/-! ## Reconciles of machines -/

section Machine

variable {names : List NamespacedName} {w w' : World} {k : NamespacedName}
  {scope : ByoMachineReconciler.Scope} {how : Leave} {m : ByoMachine} {h h' : ByoHost}

/-- A host that the machine may pick has nothing of another machine. -/
def PickClean (w : World) (k : NamespacedName) (h : ByoHost) : Prop :=
  NoneLabelled k w → h.clusterLabel = none → h.uninstallationSecret = none ∧
    ∀ ref, h.machineRef = some ref → NamesMachine k ref

/-- The references of the configuration that a reconcile of `k` reads are those of `k`. -/
theorem ConfigOk.scripts {config : InstallerConfig} {template ref : ObjectReference} {m : ByoMachine}
    (hconfigs : ConfigsOk w) (hkeys : ConfigsKeyed w) (hkey : m.key = k)
    (hconfig : w.installerConfigs.lookup (ByoMachineReconciler.installerConfigKey m template) =
      some config) :
    (config.installationSecret = .value ref → ref = installSecretRef (configOf k)) ∧
      (config.uninstallationSecret = .value ref → ref = uninstallSecretRef (configOf k)) := by
  have hown := hconfigs _ _ hconfig
  have hsame := hkeys _ _ hconfig
  simp only [InstallerConfig.key, ByoMachineReconciler.installerConfigKey,
    InstallerKey.mk.injEq] at hsame
  subst hkey
  refine ⟨fun hi => (hown.install ref hi).trans ?_, fun hu => (hown.uninstall ref hu).trans ?_⟩
  · rw [installSecretRef, hsame.2.2.1, hsame.2.2.2]
    rfl
  · rw [uninstallSecretRef, hsame.2.2.1, hsame.2.2.2]
    rfl

/-- The host is in order, and has nothing of another machine if `k` may pick it. -/
structure EditOwned (names : List NamespacedName) (w : World) (k : NamespacedName) (h : ByoHost) :
    Prop where
  owned : HostOwned names h
  pick : PickClean w k h

variable {b cur : ByoHost} {c spec status : Bool}

/-- Labels and references are the same. -/
theorem EditOwned.of_same (hb : EditOwned names w k b) (hattached : cur.attachedLabel = b.attachedLabel)
    (hcluster : cur.clusterLabel = b.clusterLabel)
    (hinstall : cur.installationSecret = b.installationSecret)
    (huninstall : cur.uninstallationSecret = b.uninstallationSecret)
    (href : cur.machineRef = b.machineRef) : EditOwned names w k cur := by
  refine ⟨hb.owned.of_same hattached hcluster hinstall (.inl huninstall) (.inl href),
    fun hnone hfree => ?_⟩
  obtain ⟨hclean, hmachine⟩ := hb.pick hnone (hcluster.symm.trans hfree)
  exact ⟨huninstall.trans hclean, fun ref hsome => hmachine ref (href.symm.trans hsome)⟩

section Edits

variable (hdistinct : DistinctLabels names) (hmember : k ∈ names) (hb : EditOwned names w k b)

include hdistinct hmember hb

/-- An edit of a host of `k` that only sets a reference to a script of `k`. -/
theorem EditOwned.of_scripts (hl : Labelled k b) (hattached : cur.attachedLabel = b.attachedLabel)
    (hcluster : cur.clusterLabel = b.clusterLabel) (href : cur.machineRef = b.machineRef)
    (hscripts : ScriptsOf k cur) : EditOwned names w k cur := by
  have hbusy : b.clusterLabel ≠ none := fun hfree => by
    cases hl.symm.trans (hb.owned.paired.1 hfree)
  refine ⟨⟨?_, fun hfree => ?_, fun k' hk' hl' => ?_, fun ref k' hsome hnames => ?_,
    fun ref hsome k' hk' hl' => ?_⟩, fun _ hfree => ?_⟩
  · rw [ByoHost.LabelsPaired, hattached, hcluster]
    exact hb.owned.paired
  · exact absurd (hcluster.symm.trans hfree) hbusy
  · obtain rfl : k' = k :=
      hdistinct _ hk' k hmember (Option.some.inj (hl'.symm.trans (hattached.trans hl)))
    exact hscripts
  · have hnames' := hb.owned.agree ref (href.symm.trans hsome) k hmember hl
    obtain rfl := NamesMachine.unique hnames' hnames
    exact hscripts
  · exact hb.owned.agree ref (href.symm.trans hsome) k' hk' (hattached.symm.trans hl')
  · exact absurd (hcluster.symm.trans hfree) hbusy

theorem EditOwned.install {ref : ObjectReference} (hl : Labelled k b)
    (hown : ref = installSecretRef (configOf k))
    (hp : Patched b ((HostEdit.install ref).apply b) c spec status cur) :
    EditOwned names w k cur := by
  obtain ⟨hattached, hcluster⟩ : cur.attachedLabel = b.attachedLabel ∧
      cur.clusterLabel = b.clusterLabel := by simpa using hp.edit_labels
  have huninstall : cur.uninstallationSecret = b.uninstallationSecret := by
    simpa using hp.edit_uninstallationSecret
  have href : cur.machineRef = b.machineRef := by simpa using hp.edit_machineRef
  refine hb.of_scripts hdistinct hmember hl hattached hcluster href ⟨fun r hi => ?_, fun r hu => ?_⟩
  · rcases hp.edit_installationSecret with heq | ⟨ref', heq, hnew⟩
    · exact (hb.owned.labelled k hmember hl).install r (heq.symm.trans hi)
    · cases heq
      cases hnew.symm.trans hi
      exact hown
  · exact (hb.owned.labelled k hmember hl).uninstall r (huninstall.symm.trans hu)

theorem EditOwned.uninstall {ref : ObjectReference} (hl : Labelled k b)
    (hown : ref = uninstallSecretRef (configOf k))
    (hp : Patched b ((HostEdit.uninstall ref).apply b) c spec status cur) :
    EditOwned names w k cur := by
  obtain ⟨hattached, hcluster⟩ : cur.attachedLabel = b.attachedLabel ∧
      cur.clusterLabel = b.clusterLabel := by simpa using hp.edit_labels
  have hinstall : cur.installationSecret = b.installationSecret := by
    simpa using hp.edit_installationSecret
  have href : cur.machineRef = b.machineRef := by simpa using hp.edit_machineRef
  refine hb.of_scripts hdistinct hmember hl hattached hcluster href ⟨fun r hi => ?_, fun r hu => ?_⟩
  · exact (hb.owned.labelled k hmember hl).install r (hinstall.symm.trans hi)
  · rcases hp.edit_uninstallationSecret with heq | ⟨ref', heq, hnew⟩
    · exact (hb.owned.labelled k hmember hl).uninstall r (heq.symm.trans hu)
    · cases heq
      cases hnew.symm.trans hu
      exact hown

/-- A host of the capacity pool is attached; it has no scripts, whatever arrives of the edit. -/
theorem EditOwned.attach {a : ByoMachineReconciler.Attachment} (hnone : NoneLabelled k w)
    (hfree : b.clusterLabel = none) (hnew : NamesMachine k a.machineRef)
    (hlabel : a.byoMachineLabel = k.labelValue)
    (hp : Patched b ((HostEdit.attach a).apply b) c spec status cur) :
    EditOwned names w k cur := by
  have hinstall : cur.installationSecret = none := by
    refine Eq.trans ?_ (hb.owned.pool hfree)
    simpa using hp.edit_installationSecret
  obtain ⟨hclean, hmachine⟩ := hb.pick hnone hfree
  have huninstall : cur.uninstallationSecret = none := by
    refine Eq.trans ?_ hclean
    simpa using hp.edit_uninstallationSecret
  have hscripts : ∀ k', ScriptsOf k' cur := by
    intro k'
    refine ⟨fun ref hi => ?_, fun ref hu => ?_⟩
    · cases hinstall.symm.trans hi
    · cases huninstall.symm.trans hu
  -- the host names no machine but `k`
  have hnames : ∀ ref, cur.machineRef = some ref → NamesMachine k ref := by
    intro ref hsome
    rcases hp.edit_machineRef with heq | ⟨a', heq, hset⟩
    · exact hmachine ref (heq.symm.trans hsome)
    · cases heq
      cases hset.symm.trans hsome
      exact hnew
  have hself : ∀ k' ∈ names, Labelled k' cur → k' = k := by
    intro k' hk' hl'
    rcases hp.edit_labels with ⟨hattached, -⟩ | ⟨a', heq, hattached, -⟩
    · cases (hattached.trans (hb.owned.paired.1 hfree)).symm.trans hl'
    · cases heq
      rw [hlabel] at hattached
      exact hdistinct _ hk' k hmember (Option.some.inj (hl'.symm.trans hattached))
  refine ⟨⟨?_, fun _ => hinstall, fun k' _ _ => hscripts k', fun _ k' _ _ => hscripts k',
    fun ref hsome k' hk' hl' => ?_⟩, fun _ _ => ⟨huninstall, hnames⟩⟩
  · rcases hp.edit_labels with ⟨hattached, hcluster⟩ | ⟨a', -, hattached, hcluster⟩ <;>
      rw [ByoHost.LabelsPaired, hattached, hcluster]
    · exact hb.owned.paired
    · exact iff_of_false (by simp) (by simp)
  · rw [hself k' hk' hl']
    exact hnames ref hsome

end Edits

/-- Edits keep hosts in order. -/
theorem HostOwned.edited (hdistinct : DistinctLabels names) (hsound : Sound w)
    (hw : HostsOwned names w) (hread : w.machines.lookup k = some scope.byoMachine)
    (hran : EditedBy (EditReason w scope) h h') (hh : HostOwned names h) (hpick : PickClean w k h) :
    HostOwned names h' := by
  have hkey : scope.byoMachine.key = k := hsound.machines k _ hread
  have hmember : k ∈ names := hw.members k _ hread
  refine (hran.invariant (P := EditOwned names w k) ?_ ?_ ⟨hh, hpick⟩).owned
  · intro b cur hsame hcur
    exact hcur.of_same hsame.attachedLabel.symm hsame.clusterLabel.symm
      hsame.installationSecret.symm hsame.uninstallationSecret.symm hsame.machineRef.symm
  · intro e b spec status cur hreason hb hp
    cases e with
    | pause _ | mark _ =>
      obtain ⟨hattached, hcluster⟩ : cur.attachedLabel = b.attachedLabel ∧
          cur.clusterLabel = b.clusterLabel := by simpa using hp.edit_labels
      exact hb.of_same hattached hcluster (by simpa using hp.edit_installationSecret)
        (by simpa using hp.edit_uninstallationSecret) (by simpa using hp.edit_machineRef)
    | attach a =>
      obtain ⟨-, hfree, hnone, dataSecretName, version, -, -, rfl⟩ := hreason
      subst hkey
      exact hb.attach hdistinct hmember hnone hfree ⟨rfl, rfl, rfl⟩
        (attachmentFor_label rfl ..) hp
    | install ref =>
      obtain ⟨-, hl, -, template, config, -, hconfig, -, hvalue⟩ := hreason
      rw [hkey] at hl
      exact hb.install hdistinct hmember hl
        ((ConfigOk.scripts hw.configs hsound.configs hkey hconfig).1 hvalue) hp
    | uninstall ref =>
      obtain ⟨-, hl, -, template, config, -, hconfig, -, hvalue⟩ := hreason
      rw [hkey] at hl
      exact hb.uninstall hdistinct hmember hl
        ((ConfigOk.scripts hw.configs hsound.configs hkey hconfig).2 hvalue) hp

end Machine

/-! ## Whole runs -/

section Runs

variable {names : List NamespacedName} {w : World}

theorem HostsOwned.step {setup : Setup} (hdistinct : DistinctLabels names) {s s' : Site} {a : Action}
    (hsound : Sound s.world) (hs : HostsOwned names s.world) (ha : CleanPool names s a)
    (hstep : SiteStep setup s a s') : HostsOwned names s'.world := by
  refine ⟨fun k m' hm' => ?_, hstep.configsOk hs.configs, fun key h' hh' => ?_⟩
  · rcases hstep.machine_cases hm' with ⟨m, hm⟩ | ⟨m, rfl, rfl⟩
    · exact hs.members k m hm
    · exact ha
  · obtain ⟨h, hh, hchange⟩ := hstep.hostsVia.of_some hh'
    have hhost := hs.hosts key h hh
    cases hchange with
    | same => exact hhost
    | edited heq hran hedited =>
      subst heq
      refine hhost.edited hdistinct hsound hs hran.read.byoMachine hedited fun hnone hfree => ?_
      obtain ⟨hclean, hmachine⟩ := ha hnone key h hh hfree
      refine ⟨hclean, fun ref hsome => ?_⟩
      cases hmachine.symm.trans hsome
    | cleared _ hcleared _ =>
      exact hhost.of_same hcleared.attachedLabel hcleared.clusterLabel hcleared.installationSecret
        (.inr hcleared.uninstallationSecret) (.inl hcleared.machineRef)
    | agent _ heffect => exact hhost.agent heffect

/-- At the start no host is attached, and configurations reference their own secrets. -/
structure UnusedHosts (names : List NamespacedName) (w : World) : Prop where
  members : ∀ k m, w.machines.lookup k = some m → k ∈ names
  configs : ConfigsOk w
  hosts : ∀ key h, w.hosts.lookup key = some h → h.clusterLabel = none ∧ h.attachedLabel = none ∧
    h.installationSecret = none ∧ h.machineRef = none

theorem UnusedHosts.hostsOwned (hw : UnusedHosts names w) : HostsOwned names w where
  members := hw.members
  configs := hw.configs
  hosts key h hh := by
    obtain ⟨hcluster, hattached, hinstall, href⟩ := hw.hosts key h hh
    have hlabel : ∀ {k}, ¬Labelled k h := fun hl => by cases hattached.symm.trans hl
    refine ⟨iff_of_true hcluster hattached, fun _ => hinstall, fun k _ hl => absurd hl hlabel,
      fun ref k hsome _ => ?_, fun ref hsome => ?_⟩
    · cases href.symm.trans hsome
    · cases href.symm.trans hsome

end Runs

/-- **Attached hosts reference the scripts of their own machines.** The machines of the run have
different labels, and whenever a machine looks for a host, the hosts of the capacity pool carry
nothing of their last machine. Then in every state of every run, of any reconciles with any failures
and any sequence of machines, the secrets that a host with a machine reference references are those
that were generated for the configuration of that machine. -/
theorem own_scripts {setup : Setup} {names : List NamespacedName}
    (hdistinct : DistinctLabels names) {s₀ s : Site} {as : List Action} (hsound : Sound s₀.world)
    (hstart : UnusedHosts names s₀.world) (hrun : ActionRun setup.act (CleanPool names) s₀ as s) :
    OwnScripts s.world := by
  have howned := (site_run_invariant (I := fun s => HostsOwned names s.world) (HostsOwned.step hdistinct) hrun
    hsound hstart.hostsOwned).2
  exact fun key h ref k hh => (howned.hosts key h hh).attached ref k

theorem unusedHosts_small (hosts : List String) (machines : List String) :
    UnusedHosts (machines.map Small.key) (Small.world hosts machines) where
  members := Small.machines_mem
  configs k c hc := by cases hc
  hosts key h hh := by
    obtain ⟨name, rfl, rfl⟩ := Small.hosts_lookup hh
    exact ⟨rfl, rfl, rfl, rfl⟩

instance (k : NamespacedName) (ref : ObjectReference) : Decidable (NamesMachine k ref) :=
  inferInstanceAs (Decidable (_ ∧ _ ∧ _))

/-- The host is attached to `machine` and references the uninstall script of `other`. -/
def uninstallsWith (w : World) (host machine other : NamespacedName) : Bool :=
  (w.hosts.lookup host).any fun h =>
    (h.machineRef.any fun ref => decide (NamesMachine machine ref)) &&
      decide (h.uninstallationSecret = some (uninstallSecretRef (configOf other)))

/-- The first machine lives and dies on the host, and the ByoHost controller clears the reference
before the second machine picks the host. -/
theorem own_scripts_reuse :
    let as := Small.life "m1" "h1" ++ [Small.reconcile (.byoMachine (Small.key "m2")),
      Small.reconcile (.k8sInstallerConfig (Small.key "m2")),
      Small.reconcile (.byoMachine (Small.key "m2"))]
    let s := as.foldl (Setup.act {}) { world := Small.world ["h1"] ["m1", "m2"] }
    uninstallsWith s.world (Small.key "h1") (Small.key "m2") (Small.key "m2") = true ∧
      OwnScripts s.world := by
  have hstart : UnusedHosts [Small.key "m1", Small.key "m2"] (Small.world ["h1"] ["m1", "m2"]) :=
    unusedHosts_small ["h1"] ["m1", "m2"]
  refine ⟨by decide +kernel, ?_⟩
  exact own_scripts (by decide +kernel) (sound_small ["h1"] ["m1", "m2"]) hstart
    (.of_allowed (by decide +kernel))

theorem not_ownScripts {w : World} {host machine other : NamespacedName}
    (h : uninstallsWith w host machine other = true)
    (hne : uninstallSecretRef (configOf other) ≠ uninstallSecretRef (configOf machine)) :
    ¬OwnScripts w := by
  intro hown
  simp only [uninstallsWith, Option.any_eq_true, Bool.and_eq_true, decide_eq_true_eq] at h
  obtain ⟨b, hb, ⟨ref, href, hnames⟩, huninstall⟩ := h
  exact hne ((hown host b ref machine hb href hnames).uninstall _ huninstall)

/-- The second machine picks the host before the ByoHost controller has seen that it was released.
All calls succeed. -/
theorem leftover_reference : ∃ as s,
    ActionRun (Setup.act {}) (fun _ _ => True) { world := Small.world ["h1"] ["m1", "m2"] } as s ∧
      ¬OwnScripts s.world :=
  ⟨(Small.life "m1" "h1").dropLast ++ [Small.reconcile (.byoMachine (Small.key "m2"))], _,
    .of_allowed rfl, not_ownScripts (show uninstallsWith _ (Small.key "h1") (Small.key "m2")
      (Small.key "m1") = true by decide +kernel) (by decide)⟩

end Byoh.Properties
