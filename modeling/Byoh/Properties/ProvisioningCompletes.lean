import Byoh.Properties.Handshake
import Byoh.Properties.HostReuse
import Byoh.Properties.ScriptsPublished
import Byoh.Protocol.ProvisionProgress

/-!
# Provisioning completes

A machine that has just been created, and for which there is a host in the pool, becomes a node when
nothing fails any more (`provisioning_completes`):

1. the reconcile of the machine attaches a host of the pool and creates the installer configuration;
2. the reconcile of the configuration stores the scripts, the next one of the machine hands them to
   the host, and the agent installs and bootstraps it;
3. when the node has joined the cluster, the next reconcile of the machine takes over a provider ID
   and the machine is ready.

The agent skips a host whose condition says that it has been bootstrapped. So this rests on an
invariant: a host of the pool has nothing left from a machine it belonged to (`hosts_pooled`). It holds
as long as the patches of the agents arrive. The patch of the conditions can fail while the patch of
the labels arrives; the host then goes back to the pool as if it were bootstrapped, and a machine that
picks it at once waits for a host on which nothing is ever run (`taken_never_bootstrapped`).
-/

set_option autoImplicit false

namespace Byoh.Properties.Provisioning

open Byoh.Foundation Byoh.Model Byoh.Protocol Byoh.Model.ByoMachineReconciler
open Byoh.Model.K8sInstallerConfigReconciler (configKey installSecretRef)

/-! ## Hosts of the pool -/

/-- The host has nothing of a machine. -/
structure Spare (h : ByoHost) : Prop where
  notMarked : h.carries .hostCleanup = false
  bootstrapSecret : h.bootstrapSecret = none
  installationSecret : h.installationSecret = none
  notInstalled : isInstalled h = false
  notBootstrapped : isBootstrapped h = false

/-- The invariant of hosts. -/
structure Pooled (h : ByoHost) : Prop where
  paired : h.LabelsPaired
  spare : h.clusterLabel = none → Spare h

section Pool

variable {cfg : HostReconciler.Config} {w : World} {h h' b cur : ByoHost} {log : List HostEvent}
  {scope : Scope}

/-- Labels, mark, references and conditions are the same. -/
theorem Spare.of_same (hs : Spare h) (hmark : cur.carries .hostCleanup = h.carries .hostCleanup)
    (hbootstrap : cur.bootstrapSecret = h.bootstrapSecret)
    (hinstall : cur.installationSecret = h.installationSecret)
    (hconditions : cur.conditions = h.conditions) : Spare cur where
  notMarked := hmark.trans hs.notMarked
  bootstrapSecret := hbootstrap.trans hs.bootstrapSecret
  installationSecret := hinstall.trans hs.installationSecret
  notInstalled := by
    rw [isInstalled, hconditions]
    exact hs.notInstalled
  notBootstrapped := by
    rw [isBootstrapped, hconditions]
    exact hs.notBootstrapped

theorem Pooled.of_sameHost (hsame : SameHost b cur) (hcur : Pooled cur) : Pooled b where
  paired := by
    rw [ByoHost.LabelsPaired, ← hsame.attachedLabel, ← hsame.clusterLabel]
    exact hcur.paired
  spare hfree := (hcur.spare (hsame.clusterLabel.trans hfree)).of_same (hsame.carries _).symm
    hsame.bootstrapSecret.symm hsame.installationSecret.symm hsame.conditions.symm

/-- A machine edits hosts with its label, and attaches a host with labels and bootstrap secret in
one patch. -/
theorem Pooled.edit {e : HostEdit} {spec status : Bool} (hb : Pooled b)
    (hreason : EditReason w scope e b) (hp : Patched b (e.apply b) false spec status cur) :
    Pooled cur := by
  have hlost : spec = false → Pooled cur := by
    rintro rfl
    have hlabels : cur.attachedLabel = b.attachedLabel ∧ cur.clusterLabel = b.clusterLabel :=
      ⟨hp.labels _, hp.labels _⟩
    refine ⟨?_, fun hfree => (hb.spare (hlabels.2.symm.trans hfree)).of_same ?_ hp.bootstrapSecret
      hp.installationSecret hp.conditions⟩
    · rw [ByoHost.LabelsPaired, hlabels.1, hlabels.2]
      exact hb.paired
    · rw [ByoHost.carries, hp.annotations]
      rfl
  -- a host with a label of a machine is not in the pool, and stays with its labels
  have hkept : ∀ {k : NamespacedName}, Labelled k b →
      (cur.attachedLabel = b.attachedLabel ∧ cur.clusterLabel = b.clusterLabel) → Pooled cur := by
    rintro k hl ⟨hattached, hcluster⟩
    refine ⟨?_, fun hfree => ?_⟩
    · rw [ByoHost.LabelsPaired, hattached, hcluster]
      exact hb.paired
    · cases hl.symm.trans (hb.paired.1 (hcluster.symm.trans hfree))
  have hlabels := hp.edit_labels
  cases e with
  | pause _ | mark _ => exact hkept hreason.2 (by simpa using hlabels)
  | install _ | uninstall _ => exact hkept hreason.2.1 (by simpa using hlabels)
  | attach a =>
    cases spec with
    | false => exact hlost rfl
    | true =>
      have hnew : cur.attachedLabel = some a.byoMachineLabel ∧ cur.clusterLabel = some a.clusterName := by
        constructor
        · rw [ByoHost.attachedLabel, hp.labels]
          simp [HostEdit.apply, Attachment.apply]
        · rw [ByoHost.clusterLabel, hp.labels]
          simp [HostEdit.apply, Attachment.apply]
      refine ⟨?_, fun hfree => ?_⟩
      · rw [ByoHost.LabelsPaired, hnew.1, hnew.2]
        exact iff_of_false (by simp) (by simp)
      · cases hnew.2.symm.trans hfree

/-- The agent of a host of the pool waits; a cleanup whose patch arrives leaves the host clean. -/
theorem Pooled.course (hh : Pooled h) (hc : Protocol.Course cfg h log h')
    (hp : Patched h h' true true true cur) : Pooled cur := by
  rw [Protocol.Course] at hc
  split at hc
  next hmarked =>
    obtain ⟨completed, hc⟩ := hc
    cases completed with
    | true =>
      have hd := detached_of_completed hc hp
      refine ⟨?_, fun _ => ⟨?_, hd.bootstrapSecret, hd.installationSecret, hd.notInstalled,
        hd.notBootstrapped⟩⟩
      · exact iff_of_true (hd.labels .clusterName (by simp)) (hd.labels .attachedByoMachine (by simp))
      · rw [ByoHost.carries, hd.annotations .hostCleanup (by simp)]
        rfl
    | false =>
      -- a cleanup that fails leaves the mark, so the host is not free
      have hsame := hp.sameSpec hc.shape
      refine ⟨?_, fun hfree => ?_⟩
      · rw [ByoHost.LabelsPaired, hsame.attachedLabel, hsame.clusterLabel]
        exact hh.paired
      · have hspare := hh.spare (hsame.clusterLabel.symm.trans hfree)
        cases hspare.notMarked.symm.trans hmarked
  next =>
    have hsame := hp.sameSpec hc.conditionsOnly
    refine ⟨?_, fun hfree => ?_⟩
    · rw [ByoHost.LabelsPaired, hsame.attachedLabel, hsame.clusterLabel]
      exact hh.paired
    have hspare := hh.spare (hsame.clusterLabel.symm.trans hfree)
    have hconditions : isInstalled h' = false ∧ isBootstrapped h' = false := by
      -- a host of the pool has no bootstrap secret, so every course past that check is excluded
      have hnot : ¬Attached h := fun ha => ha.bootstrapSecret hspare.bootstrapSecret
      cases hc with
      | deleted _ => exact ⟨hspare.notInstalled, hspare.notBootstrapped⟩
      | waitsForMachineRef _ | waitsForBootstrapSecret _ _ =>
        exact ⟨by simpa [isInstalled, withFalse] using hspare.notInstalled, by
          simp [isBootstrapped, withFalse]⟩
      | alreadyBootstrapped hb => cases hspare.notBootstrapped.symm.trans hb
      | secretUnreadable ha | waitsForInstallSecret ha _ _ _ | installFailed _ ha _ _ _
      | directoriesFailed _ ha _ | bootstrapFailed _ _ ha _ | bootstrapped _ ha _ => exact absurd ha hnot
    refine ⟨(hsame.carries _).trans hspare.notMarked,
      hsame.bootstrapSecret.trans hspare.bootstrapSecret,
      hsame.installationSecret.trans hspare.installationSecret, ?_, ?_⟩
    · rw [isInstalled, hp.conditions]
      exact hconditions.1
    · rw [isBootstrapped, hp.conditions]
      exact hconditions.2

end Pool

/-- The invariant of sites. -/
def PooledHosts (w : World) : Prop := ∀ key h, w.hosts.lookup key = some h → Pooled h

theorem PooledHosts.via {w w' : World} (hw : PooledHosts w)
    (hvia : HostsVia (fun h h' => Pooled h → Pooled h') w w') : PooledHosts w' := by
  intro key h' hh'
  obtain ⟨h, hh, hkeeps⟩ := hvia.of_some hh'
  exact hkeeps (hw key h hh)

/-- The manager clears the reference to an uninstall script, and nothing else. -/
theorem Pooled.cleared {h : ByoHost} {ref : ObjectReference} (hh : Pooled h)
    (href : h.uninstallationSecret = some ref) :
    Pooled (h.merge (ByoHostReconciler.clearedHost h) h) := by
  have hcleared := cleared_merge href
  refine ⟨?_, fun hfree => ?_⟩
  · rw [ByoHost.LabelsPaired, hcleared.attachedLabel, hcleared.clusterLabel]
    exact hh.paired
  · refine (hh.spare (hcleared.clusterLabel.symm.trans hfree)).of_same (hcleared.carries _) ?_
      hcleared.installationSecret rfl
    simp [ByoHost.merge, ByoHostReconciler.clearedHost, mergeRef]

/-- One action keeps the invariant, if the patches of an agent arrive. -/
theorem pooledHosts_act (setup : Setup) {s : Site} {a : Action} (hsound : Sound s.world)
    (ha : PatchesSucceed s a) (hs : PooledHosts s.world) : PooledHosts (setup.act s a).world := by
  have hsame : ∀ {w' : World}, w'.hosts = s.world.hosts → PooledHosts w' := by
    intro w' heq
    rw [PooledHosts, heq]
    exact hs
  have hstep := act_step setup hsound a
  generalize hs' : setup.act s a = s' at hstep
  cases hstep with
  | idle => exact hs
  | machine hran =>
    exact hs.via (hran.hosts.mono fun h _ hedited hh =>
      hedited.invariant Pooled.of_sameHost (fun hreason hb hp => hb.edit hreason hp) hh)
  | config hran =>
    refine hsame ?_
    rw [(hran (fun _ => True) trivial fun _ _ => trivial).rest]
  | @byoHost k _ w' hran =>
    cases hran with
    | idle => exact hs
    | deleted _ _ hgone =>
      refine hsame ?_
      rw [hgone.rest]
    | @cleared h ref w₁ hread hstale hgone =>
      intro key h' hh'
      have hothers : w₁.hosts = s.world.hosts := by rw [hgone.rest]
      rw [World.setHost, hothers] at hh'
      exact forall_lookup_insert hs ((hs k h hread).cleared (staleReference_eq_some hstale).1)
        key h' hh'
  | @agent k os _ _ _ _ _ _ _ _ _ =>
    -- the patches arrive, with the conditions
    rcases agentStep_cases setup.agent k os s hsound.hosts with
      hidle | ⟨h₁, h₂, cur, log, c, sp, st, hran, hall⟩
    · rw [← hs', Setup.act, hidle]
      exact hs
    · obtain ⟨rfl, rfl, rfl⟩ := hall ha
      intro key h' hh'
      rw [← hs', Setup.act] at hh'
      by_cases hk : key = k
      · subst hk
        cases hran.written.symm.trans hh'
        exact (hs key h₁ hran.read).course hran.course hran.patched
      · rw [hran.onlyHost.others key hk] at hh'
        exact hs key h' hh'
  | env henv => exact hsame (envStep_rest henv).1

/-- **The invariant.** In every state of a run in which the patches of the agents arrive, a host that is
in no cluster has nothing of a machine. -/
theorem hosts_pooled {setup : Setup} {s₀ s : Site} {as : List Action} (hsound : Sound s₀.world)
    (hinit : PooledHosts s₀.world) (hrun : ActionRun setup.act PatchesSucceed s₀ as s) :
    Sound s.world ∧ PooledHosts s.world := by
  refine hrun.invariant (I := fun s => Sound s.world ∧ PooledHosts s.world) ?_ ⟨hsound, hinit⟩
  rintro s a ⟨hs, hI⟩ ha
  exact ⟨(act_step setup hs a).sound hs, pooledHosts_act setup hs ha hI⟩

/-! ## A machine with its host -/

/-- The machine `k` can be reconciled, and `h` is its only host. -/
structure HasHost (w : World) (k : NamespacedName) (s : Scope) (ref : ObjectReference)
    (config : InstallerConfig) (h : ByoHost) : Prop extends Reconcilable w k s ref config where
  machineKey : s.byoMachine.key = k
  hosts : WellKeyed w
  fresh : w.informer = none
  host : w.hosts.lookup h.key = some h
  labelled : Labelled k h
  only : OnlyLabelled k h.key w

/-- The host of a machine, which is ready to be bootstrapped except for its scripts. -/
structure Unscripted (w : World) (h : ByoHost) : Prop where
  notMarked : h.carries .hostCleanup = false
  notDeleted : h.deletionTimestamp = false
  machineRef : h.machineRef ≠ none
  bootstrap : ∃ ref secret, h.bootstrapSecret = some ref ∧
    w.secrets.lookup ⟨ref.ns, ref.name⟩ = some secret
  installationSecret : h.installationSecret = none

section Stages

variable {w w' : World} {k : NamespacedName} {s : Scope} {ref : ObjectReference}
  {config c : InstallerConfig} {h h' : ByoHost} {m : ByoMachine}

theorem wellKeyed_of_others (hkeys : WellKeyed w)
    (hothers : ∀ key', key' ≠ h.key → w'.hosts.lookup key' = w.hosts.lookup key')
    (hh' : w'.hosts.lookup h.key = some h') (hkey : h'.key = h.key) : WellKeyed w' := by
  intro key x hx
  by_cases hk : key = h.key
  · subst hk
    cases hh'.symm.trans hx
    exact hkey
  · rw [hothers key hk] at hx
    exact hkeys key x hx

/-- The machine keeps its host while only this host and the status of the machine are written. -/
theorem HasHost.kept (hw : HasHost w k s ref config h) (hsame : SameCluster w w')
    (hm : w'.machines.lookup k = some m) (hmachine : SameMachine s.byoMachine m)
    (hothers : ∀ key', key' ≠ h.key → w'.hosts.lookup key' = w.hosts.lookup key')
    (hfresh : w'.informer = none) (hh' : w'.hosts.lookup h.key = some h') (hkey : h'.key = h.key)
    (hlabel : h'.attachedLabel = h.attachedLabel) :
    HasHost w' k { s with byoMachine := m } ref config h' := by
  refine { hw.toReconcilable.kept hsame hm hmachine with
    machineKey := ?_
    hosts := wellKeyed_of_others hw.hosts hothers hh' hkey
    fresh := hfresh
    host := hkey ▸ hh'
    labelled := hlabel.trans hw.labelled
    only := ?_ }
  · rw [← hw.machineKey, show m = _ from hmachine]
    rfl
  · intro key x hx hl
    by_contra hk
    rw [hkey] at hk
    rw [hothers key hk] at hx
    exact hk (hw.only key x hx hl)

/-- The install script is where the reference names it. -/
theorem installed_script (hstores : Stores w k c w') : ∃ secret,
    w'.secrets.lookup ⟨(installSecretRef c).ns, (installSecretRef c).name⟩ = some secret ∧
      secret.data.get "install" ≠ none := by
  obtain ⟨cluster, install, uninstall, hsecrets⟩ := hstores.secrets
  refine ⟨K8sInstallerConfigReconciler.installSecret c cluster install, ?_, ?_⟩
  · rw [hsecrets]
    exact (AList.lookup_insert_ne (installKey_ne_uninstallKey c)).trans (AList.lookup_insert _)
  · simp [K8sInstallerConfigReconciler.installSecret]

/-- Secrets are stored, none is removed. -/
theorem secret_kept {key : NamespacedName} (hstores : Stores w k c w')
    (hsecret : ∃ secret, w.secrets.lookup key = some secret) :
    ∃ secret, w'.secrets.lookup key = some secret := by
  have hinsert : ∀ (w : World) (x : Secret), (∃ secret, w.secrets.lookup key = some secret) →
      ∃ secret, (w.withSecret x).secrets.lookup key = some secret := by
    rintro w x ⟨secret, hsecret⟩
    by_cases hkey : key = x.key
    · subst hkey
      exact ⟨x, AList.lookup_insert _⟩
    · exact ⟨secret, (AList.lookup_insert_ne hkey).trans hsecret⟩
  obtain ⟨cluster, install, uninstall, hsecrets⟩ := hstores.secrets
  rw [hsecrets]
  exact hinsert _ _ (hinsert _ _ hsecret)

/-- The reconcile of the configuration does not touch the host. -/
theorem HasHost.stored (hw : HasHost w k s ref config h) (hstores : Stores w k c w') :
    HasHost w' k s ref config h := by
  have hsame : SameCluster w w' := by
    constructor <;> rw [hstores.rest]
  refine hw.kept hsame ?_ rfl (fun _ _ => ?_) ?_ ?_ rfl rfl
  · rw [hstores.rest]
    exact hw.byoMachine
  · rw [hstores.rest]
  · rw [hstores.rest]
    exact hw.fresh
  · rw [hstores.rest]
    exact hw.host

/-- The configuration of a machine that waits for its scripts is filled in by its reconcile. -/
theorem HasHost.generates (skip : Bool) (hw : HasHost w k s ref config h)
    (hinfo : s.byoMachine.hostInfo = h.hostDetails)
    (hwaits : s.byoMachine.conditions.getReason .byoHostReady = some .installationSecretNotAvailable)
    (hsupported : Installer.Supported h.hostDetails.osImage h.hostDetails.architecture)
    (hpaused : config.annotations.get .paused = none) :
    ∃ i, Generates skip w config s.byoMachine s.cluster i := by
  obtain ⟨template, version, -, htemplate, hmade⟩ := hw.made
  have hfor := madeFor_created (w := w) hw.installerRef htemplate hmade
  obtain ⟨i, hi⟩ := Installer.newInstaller_ok_of_supported hsupported
    ((config.annotations.get .k8sVersion).getD "") config.bundleRepo skip
  have howner : findOwner "ByoMachine" group config.ownerReferences = .ok (some s.byoMachine.name) := by
    have hgroup : parseGroup groupVersion = .ok group := by decide +kernel
    rw [hfor.owner]
    simp [findOwner, hgroup]
  have hfound : w.machines.lookup ⟨config.ns, s.byoMachine.name⟩ = some s.byoMachine := by
    have hns : config.ns = s.byoMachine.ns := congrArg InstallerKey.ns (installerConfigFor_key hmade)
    rw [hns, ← hw.byoMachine, ← hw.machineKey]
    rfl
  have hnormal : isPaused s.cluster s.byoMachine.annotations = false := by
    have hnormal := hw.normal
    simp only [isNormalScope, isPausedScope, Bool.and_eq_true, Bool.not_eq_true'] at hnormal
    exact hnormal.1
  obtain ⟨name, hname, hcluster⟩ := hw.cluster
  exact ⟨i, {
    owner := ⟨_, howner, hfound⟩
    inCluster := ⟨name, hname, fun hempty => hw.named (hempty ▸ hname), hcluster⟩
    notPaused := by
      simp only [isPaused, Bool.or_eq_false_iff] at hnormal ⊢
      exact ⟨hnormal.1, by rw [hpaused]; rfl⟩
    waits := by
      refine ⟨hwaits, ?_, hfor.notDeleted⟩
      rw [(Protocol.installerConfigFor_ready hmade).1]
      intro hready
      cases hready
    installer := by
      rw [hinfo]
      exact hi }⟩

/-- The host on the server, to which the references to the scripts have been handed. -/
structure Handed (c : InstallerConfig) (h cur : ByoHost) : Prop where
  key : cur.key = h.key
  attachedLabel : cur.attachedLabel = h.attachedLabel
  notMarked : cur.carries .hostCleanup = h.carries .hostCleanup
  notDeleted : cur.deletionTimestamp = h.deletionTimestamp
  machineRef : cur.machineRef = h.machineRef
  bootstrapSecret : cur.bootstrapSecret = h.bootstrapSecret
  installationSecret : cur.installationSecret = some (installSecretRef c)

theorem handed_of_supplied {cur : ByoHost} (hnone : h.installationSecret = none)
    (hsame : SameHost (supplied c (pausedHost false h)) cur) : Handed c h cur := by
  have hsupplied := supplied_eq c (pausedHost false h)
  refine ⟨?_, ?_, ?_, ?_, ?_, ?_, ?_⟩
  · rw [hsame.key, hsupplied]
    rfl
  · rw [hsame.attachedLabel, hsupplied]
    rfl
  · rw [hsame.carries, hsupplied]
    simp [ByoHost.carries, pausedHost]
  · rw [hsame.deletionTimestamp, hsupplied]
    rfl
  · rw [hsame.machineRef, hsupplied]
    rfl
  · rw [hsame.bootstrapSecret, hsupplied]
    rfl
  · rw [hsame.installationSecret, if_pos rfl]
    exact supplied_installationSecret c hnone

/-- When the scripts are stored and handed over, the agent finds all it needs. -/
theorem Unscripted.equipped {cur : ByoHost} {w₂ : World} {finalizers : List String}
    (hh : Unscripted w h) (hstores : Stores w k c w')
    (hhanded : Handed (filledIn c finalizers) h cur) (hsecrets : w₂.secrets = w'.secrets) :
    Equipped w₂ cur := by
  refine ⟨hhanded.notMarked.trans hh.notMarked, hhanded.notDeleted.trans hh.notDeleted,
    hhanded.machineRef ▸ hh.machineRef, ?_, ?_⟩
  · obtain ⟨r, secret, hr, hsecret⟩ := hh.bootstrap
    obtain ⟨secret', hsecret'⟩ := secret_kept hstores ⟨secret, hsecret⟩
    exact ⟨r, secret', hhanded.bootstrapSecret.trans hr, hsecrets ▸ hsecret'⟩
  · obtain ⟨secret, hsecret, hscript⟩ := installed_script hstores
    exact ⟨_, secret, hhanded.installationSecret, hsecrets ▸ hsecret, hscript⟩

/-- One reconcile each of the configuration, of the machine and of the agent of its host. -/
def bringUp (setup : Setup) (k key : NamespacedName) : ApiProg Unit := do
  let _ ← K8sInstallerConfigReconciler.reconcile setup.skipKernelModuleCleanup k
  let _ ← reconcile k
  let _ ← HostReconciler.reconcile setup.agent key

/-- The host of the machine is bootstrapped, and the configuration is ready. -/
structure BroughtUp (w : World) (k : NamespacedName) (s : Scope) (ref : ObjectReference)
    (config : InstallerConfig) (h : ByoHost) : Prop extends HasHost w k s ref config h where
  bootstrapped : isBootstrapped h = true
  installationSecret : h.installationSecret = some (installSecretRef config)
  configured : ∃ c, w.installerConfigs.lookup (configKey k) = some c ∧ c.ready = .value true ∧
    ConfigOk c

/-- The host of a machine that waits for its scripts is brought up. -/
theorem HasHost.broughtUp (setup : Setup) (hw : HasHost w k s ref config h) (hh : Unscripted w h)
    (hconfig : w.installerConfigs.lookup (configKey k) = some config)
    (hinfo : s.byoMachine.hostInfo = h.hostDetails)
    (hwaits : s.byoMachine.conditions.getReason .byoHostReady = some .installationSecretNotAvailable)
    (hsupported : Installer.Supported h.hostDetails.osImage h.hostDetails.architecture)
    (hpaused : config.annotations.get .paused = none) :
    Prog.Meets NothingFails (fun _ w' => ∃ m cur, cur.key = h.key ∧ cur.machineRef = h.machineRef ∧
      BroughtUp w' k { s with byoMachine := m } ref config cur) (bringUp setup k h.key) w := by
  -- the configuration is filled in
  obtain ⟨i, hgen⟩ := hw.generates setup.skipKernelModuleCleanup hinfo hwaits hsupported hpaused
  have hkeys : ∀ c, w.installerConfigs.lookup (configKey k) = some c → c.key = configKey k := by
    intro c hc
    cases hconfig.symm.trans hc
    exact hw.key
  refine .bind ((meets_nothingFails (config_stores hkeys hconfig hgen)).mono ?_)
  rintro _ w₁ hstores
  obtain ⟨finalizers, hc⟩ := hstores.config
  have hw₁ := hw.stored hstores
  -- the references go to the host
  refine .bind ((meets_nothingFails (reconcile_supplies hw₁.toReconcilable hw₁.machineKey hw₁.hosts
    hw₁.fresh hw₁.host hw₁.labelled hw₁.only hc rfl (configOk_filledIn _ _))).mono ?_)
  rintro _ w₂ ⟨m, hm, hsame, hsupplies⟩
  obtain ⟨cur, hcur, hsameHost⟩ := hsupplies.host
  have hhanded := handed_of_supplied hh.installationSecret hsameHost
  rw [← hsameHost.key, hhanded.key] at hcur
  have hw₂ : HasHost w₂ k { s with byoMachine := m } ref config cur :=
    hw₁.kept (.of_worked hsupplies.worked) hm hsame hsupplies.worked.hosts
      (hsupplies.worked.informer hw₁.fresh) hcur hhanded.key hhanded.attachedLabel
  have hequipped : Equipped w₂ cur :=
    hh.equipped hstores hhanded (by rw [hsupplies.worked.rest])
  -- the agent finds both scripts
  refine .bind ((agent_bootstraps hcur hhanded.key hequipped).mono ?_)
  rintro _ w₃ ⟨honly, h', cur', hboot, hconditions, hcur', hp⟩
  rw [ConditionsOnly] at hconditions
  have hspec := hp.sameSpec hconditions
  have hw₃ : HasHost w₃ k { s with byoMachine := m } ref config cur' := by
    refine hw₂.kept (.of_onlyHost honly) ?_ rfl (hhanded.key ▸ honly.others) (honly.informer hw₂.fresh)
      (hhanded.key.symm ▸ hcur') hp.key hspec.attachedLabel
    rw [honly.rest]
    exact hm
  refine .ret ⟨m, cur', hp.key.trans hhanded.key, hspec.machineRef.trans hhanded.machineRef, {
    hw₃ with
    bootstrapped := by
      rw [isBootstrapped, hp.conditions]
      exact hboot
    installationSecret := hspec.installationSecret.trans hhanded.installationSecret
    configured := ⟨_, ?_, rfl, configOk_filledIn config finalizers⟩ }⟩
  rw [honly.rest]
  exact hsupplies.config

/-- The node of the host `name` has joined the cluster of the machine; it has no provider ID. -/
def withNode (s : Scope) (name : String) (w : World) : World :=
  { w with nodes := w.nodes.insert (clusterKey s, name) "" }

/-- The next reconcile of the machine takes over a provider ID. -/
theorem BroughtUp.ready (hw : BroughtUp w k s ref config h) :
    Prog.Meets NothingFails (fun _ w' => ∃ m, w'.machines.lookup k = some m ∧ HasProviderID m h.name)
      (reconcile k) (withNode s h.name w) := by
  obtain ⟨c, hc, hready, hok⟩ := hw.configured
  have hw' : HasHost (withNode s h.name w) k s ref config h :=
    hw.toHasHost.kept ⟨rfl, rfl, rfl, rfl⟩ hw.byoMachine rfl (fun _ _ => rfl) hw.fresh hw.host rfl rfl
  refine (meets_nothingFails (reconcile_supplies hw'.toReconcilable hw'.machineKey hw'.hosts hw'.fresh
    hw'.host hw'.labelled hw'.only hc hready hok)).mono ?_
  rintro _ w₁ ⟨m, hm, -, hsupplies⟩
  exact ⟨m, hm, hsupplies.joined (AList.lookup_insert _)⟩

end Stages

/-! ## New machines -/

/-- A machine without a host and without an installer configuration. Its bootstrap data is there, its
installer template is not paused, and the pool has a host for it; the installer supports every such
host, and none is being deleted. -/
structure NewMachine (w : World) (k : NamespacedName) (s : Scope) (ref : ObjectReference)
    (config : InstallerConfig) (selector : Selector) : Prop extends Reconcilable w k s ref config where
  unattached : NoneLabelled k w
  unconfigured : w.installerConfigs.lookup (configKey k) = none
  uninformed : s.byoMachine.hostInfo = {}
  selects : machineSelector s.byoMachine = .ok selector
  bootstrapData : ∃ name secret, s.machine.dataSecretName = some name ∧
    w.secrets.lookup ⟨s.byoMachine.ns, name⟩ = some secret
  templateUnpaused : config.annotations.get .paused = none
  candidate : ∃ h, Candidate w selector s.byoMachine.ns h
  supported : ∀ h, Candidate w selector s.byoMachine.ns h →
    Installer.Supported h.hostDetails.osImage h.hostDetails.architecture ∧ h.deletionTimestamp = false

/-- A host of the pool has been attached to the machine, which waits for its scripts. -/
structure Waits (w : World) (k : NamespacedName) (s : Scope) (ref : ObjectReference)
    (config : InstallerConfig) (h : ByoHost) : Prop extends HasHost w k s ref config h where
  unscripted : Unscripted w h
  notBootstrapped : isBootstrapped h = false
  config : w.installerConfigs.lookup (configKey k) = some config
  informed : s.byoMachine.hostInfo = h.hostDetails
  reason : s.byoMachine.conditions.getReason .byoHostReady = some .installationSecretNotAvailable
  supported : Installer.Supported h.hostDetails.osImage h.hostDetails.architecture

section New

variable {w : World} {k : NamespacedName} {s : Scope} {ref : ObjectReference}
  {config : InstallerConfig} {selector : Selector}

/-- The first reconcile of a new machine attaches a host of the pool. -/
theorem NewMachine.attaches (hn : NewMachine w k s ref config selector) (hsound : Sound w)
    (hpool : PooledHosts w) :
    Prog.Meets NothingFails (fun _ w' => ∃ h m cur, Candidate w selector s.byoMachine.ns h ∧
      cur.key = h.key ∧ Waits w' k { s with byoMachine := m } ref config cur) (reconcile k) w := by
  have hkey : s.byoMachine.key = k := hsound.machines k _ hn.byoMachine
  obtain ⟨name, secret, hname, hsecret⟩ := hn.bootstrapData
  obtain ⟨template, version, hversion, -, -⟩ := hn.made
  have hspare : ∀ h, Candidate w selector s.byoMachine.ns h → Spare h :=
    fun h hh => (hpool _ h hh.stored).spare hh.free
  refine (meets_nothingFails (reconcile_attaches hn.toReconcilable hkey hn.unconfigured hn.unattached
    hn.selects hname hversion hsound.hosts hsound.fresh hn.candidate
    fun h hh => (hspare h hh).installationSecret)).mono ?_
  rintro _ w' ⟨h, m, hh, hm, hsame, hattaches⟩
  obtain ⟨cur, hcur, hsameHost⟩ := hattaches.host
  have hcurKey : cur.key = h.key := hsameHost.key
  have hs := hspare h hh
  have hothers := hattaches.worked.hosts
  -- the host has the label now, and no other one had it
  have hlabelled : Labelled k cur := by
    subst hkey
    rw [Labelled, hsameHost.attachedLabel]
    simp [Attachment.apply, ByoHost.attachedLabel, attachmentFor, NamespacedName.labelValue,
      ByoMachine.key]
  have honly : OnlyLabelled k h.key w' := by
    intro key x hx hl
    by_contra hk
    rw [hothers key hk] at hx
    exact hn.unattached key x hx hl
  have hhas : HasHost w' k { s with byoMachine := m } ref config cur := {
    hn.toReconcilable.kept (.of_worked hattaches.worked) hm hsame with
    machineKey := by
      rw [← hkey, show m = _ from hsame]
      rfl
    hosts := wellKeyed_of_others hsound.hosts hothers hcur hcurKey
    fresh := hattaches.worked.informer hsound.fresh
    host := hcurKey ▸ hcur
    labelled := hlabelled
    only := hcurKey ▸ honly }
  have hdetails : cur.hostDetails = h.hostDetails := hsameHost.hostDetails
  refine ⟨h, m, cur, hh, hcurKey, {
    hhas with
    unscripted := ⟨?_, ?_, ?_, ⟨_, secret, hsameHost.bootstrapSecret, ?_⟩, ?_⟩
    notBootstrapped := ?_
    config := hattaches.config
    informed := ?_
    reason := hattaches.waits
    supported := ?_ }⟩
  · rw [hsameHost.carries, ← hs.notMarked]
    simp [Attachment.apply, ByoHost.carries]
  · rw [hsameHost.deletionTimestamp]
    exact (hn.supported h hh).2
  · rw [hsameHost.machineRef]
    exact Option.some_ne_none _
  · rw [hattaches.worked.rest]
    exact hsecret
  · rw [hsameHost.installationSecret]
    exact hs.installationSecret
  · rw [isBootstrapped, hsameHost.conditions]
    exact hs.notBootstrapped
  · rw [hdetails]
    exact hattaches.hostInfo.trans (if_pos hn.uninformed)
  · rw [hdetails]
    exact (hn.supported h hh).1

end New

/-- **Provisioning completes.** In every state of every run in which the patches of the agents arrive,
when a new machine finds a host in the pool and nothing fails any more: its first reconcile attaches
a host, which is not bootstrapped; one reconcile each of the configuration, of the machine and of the
agent bootstrap this host; and when its node has joined, the next reconcile of the machine takes over
a provider ID and makes the machine ready. -/
theorem provisioning_completes {setup : Setup} {st₀ st : Site} {as : List Action}
    (hsound : Sound st₀.world) (hpool : PooledHosts st₀.world)
    (hrun : ActionRun setup.act PatchesSucceed st₀ as st) {k : NamespacedName} {s : Scope}
    {ref : ObjectReference} {config : InstallerConfig} {selector : Selector}
    (hnew : NewMachine st.world k s ref config selector) :
    Prog.Meets NothingFails (fun _ w₁ => ∃ h m₁ cur₁, Candidate st.world selector s.byoMachine.ns h ∧
        cur₁.key = h.key ∧ Waits w₁ k { s with byoMachine := m₁ } ref config cur₁ ∧
      Prog.Meets NothingFails (fun _ w₂ => ∃ m₂ cur₂, cur₂.key = h.key ∧
          cur₂.machineRef = cur₁.machineRef ∧ BroughtUp w₂ k { s with byoMachine := m₂ } ref config cur₂ ∧
        Prog.Meets NothingFails (fun _ w₃ => ∃ m₃, w₃.machines.lookup k = some m₃ ∧
            HasProviderID m₃ h.name)
          (reconcile k) (withNode s h.name w₂))
        (bringUp setup k h.key) w₁)
      (reconcile k) st.world := by
  obtain ⟨hs, hp⟩ := hosts_pooled hsound hpool hrun
  refine (hnew.attaches hs hp).mono ?_
  rintro _ w₁ ⟨h, m₁, cur₁, hh, hkey₁, hw₁⟩
  refine ⟨h, m₁, cur₁, hh, hkey₁, hw₁, ?_⟩
  rw [← hkey₁]
  refine (hw₁.toHasHost.broughtUp setup hw₁.unscripted hw₁.config hw₁.informed hw₁.reason
    hw₁.supported hnew.templateUnpaused).mono ?_
  rintro _ w₂ ⟨m₂, cur₂, hkey₂, hmachineRef, hw₂⟩
  have hname : cur₂.name = h.name := congrArg NamespacedName.name (hkey₂.trans hkey₁)
  refine ⟨m₂, cur₂, hkey₂, hmachineRef, hw₂, ?_⟩
  rw [← hname]
  exact hw₂.ready

/-! ## A host that is used again -/

theorem pooledHosts_small (hosts machines : List String) : PooledHosts (Small.world hosts machines) := by
  intro key h hh
  obtain ⟨name, -, rfl⟩ := Small.hosts_lookup hh
  exact ⟨Iff.rfl, fun _ => ⟨rfl, rfl, rfl, rfl, rfl⟩⟩

/-- The installer supports the host. -/
def isSupported (h : ByoHost) : Bool :=
  Installer.getSupportedRegistry.any fun reg =>
    !(reg.listK8s (Installer.osArch h.hostDetails.osImage h.hostDetails.architecture)).isEmpty

/-- The machine `k` is new, and some host of the pool is for it. -/
def isNew (w : World) (k : NamespacedName) : Bool :=
  (readScope w k).any fun s =>
  s.byoMachine.installerRef.any fun ref =>
  (w.installerTemplates.lookup ⟨ref.apiVersion, ref.kind, ref.ns, ref.name⟩).any fun template =>
  s.machine.version.any fun version =>
  s.machine.dataSecretName.any fun name =>
  (installerConfigFor s.byoMachine ref template version).toOption.any fun config =>
  (machineSelector s.byoMachine).toOption.any fun selector =>
    decide (isValidLabelValue k.labelValue = true ∧ s.byoHost = none ∧
      s.byoMachine.labels.get .clusterName ≠ some "" ∧ isNormalScope s = true ∧
      s.cluster.infrastructureReady = true ∧ s.byoMachine.hostInfo = {} ∧
      config.annotations.get .paused = none) &&
    decide (installerConfigKey s.byoMachine ref = configKey k ∧ config.key = configKey k) &&
    (w.installerConfigs.lookup (configKey k)).isNone &&
    (w.secrets.lookup ⟨s.byoMachine.ns, name⟩).isSome &&
    decide (∀ key h, w.hosts.lookup key = some h →
      ¬Labelled k h ∧ h.deletionTimestamp = false ∧ isSupported h = true) &&
    w.hosts.entries.any fun e => decide (e.2.ns = s.byoMachine.ns ∧
      selector.matches e.2.labels = true ∧ e.2.clusterLabel = none)

theorem eq_ok_of_toOption {ε α : Type} {x : Except ε α} {a : α} (h : x.toOption = some a) :
    x = .ok a := by
  cases x with
  | error e => cases h
  | ok b => exact congrArg Except.ok (Option.some.inj h)

theorem newMachine_of_isNew {w : World} {k : NamespacedName} (hkeys : WellKeyed w)
    (hcheck : isNew w k = true) : ∃ s ref config selector, NewMachine w k s ref config selector := by
  simp only [isNew, Option.any_eq_true, Bool.and_eq_true, decide_eq_true_eq, List.any_eq_true,
    Option.isNone_iff_eq_none, Option.isSome_iff_exists] at hcheck
  obtain ⟨s, hs, ref, href, template, htemplate, version, hversion, name, hname, config, hconfig,
    selector, hselector, ⟨⟨⟨⟨⟨hlabel, hnone, hnamed, hnormal, hready, hinfo, hpaused⟩, hfound, hkey⟩,
      hunconfigured⟩, secret, hsecret⟩, hhosts⟩, ⟨key, h⟩, hmem, hns, hselected, hfree⟩ := hcheck
  obtain ⟨hread, hinfrastructure⟩ := readScope_eq_some hs
  have hstored : w.hosts.lookup h.key = some h := by
    obtain ⟨key', hkey'⟩ := (lookup_iff_mem_entries w.hosts h).2 (List.mem_map_of_mem hmem)
    rw [hkeys key' h hkey']
    exact hkey'
  exact ⟨s, ref, config, selector, { hread with
    installerRef := href
    found := hfound
    made := ⟨template, version, hversion, htemplate, eq_ok_of_toOption hconfig⟩
    key := hkey
    noHost := hnone
    validLabel := hlabel
    named := hnamed
    infrastructure := hinfrastructure
    normal := hnormal
    infrastructureReady := hready
    dataSecretName := by rw [hname]; rfl
    unattached := fun key h hh => (hhosts key h hh).1
    unconfigured := hunconfigured
    uninformed := hinfo
    selects := eq_ok_of_toOption hselector
    bootstrapData := ⟨name, secret, hname, hsecret⟩
    templateUnpaused := hpaused
    candidate := ⟨h, hstored, hns, hselected, hfree⟩
    supported := fun h hh => by
      obtain ⟨-, hdeleted, hsupported⟩ := hhosts _ h hh.stored
      simp only [isSupported, Option.any_eq_true, Bool.not_eq_true'] at hsupported
      exact ⟨hsupported, hdeleted⟩ }⟩

/-- The host `h1` has been the host of `m1`, and `m2` gets it and becomes ready on it. -/
theorem provisioning_completes_reused :
    let st := (Small.life "m1" "h1").foldl (Setup.act {}) { world := Small.world ["h1"] ["m1", "m2"] }
    ∃ s ref config selector, NewMachine st.world (Small.key "m2") s ref config selector ∧
      Prog.Meets NothingFails (fun _ w₁ => ∃ h m₁ cur₁,
          Candidate st.world selector s.byoMachine.ns h ∧ cur₁.key = h.key ∧
          Waits w₁ (Small.key "m2") { s with byoMachine := m₁ } ref config cur₁ ∧
        Prog.Meets NothingFails (fun _ w₂ => ∃ m₂ cur₂, cur₂.key = h.key ∧
            cur₂.machineRef = cur₁.machineRef ∧
            BroughtUp w₂ (Small.key "m2") { s with byoMachine := m₂ } ref config cur₂ ∧
          Prog.Meets NothingFails (fun _ w₃ => ∃ m₃, w₃.machines.lookup (Small.key "m2") = some m₃ ∧
              HasProviderID m₃ h.name)
            (reconcile (Small.key "m2")) (withNode s h.name w₂))
          (bringUp {} (Small.key "m2") h.key) w₁)
        (reconcile (Small.key "m2")) st.world := by
  intro st
  have hnew : isNew st.world (Small.key "m2") = true := by decide +kernel
  have hrun : ActionRun (Setup.act {}) PatchesSucceed { world := Small.world ["h1"] ["m1", "m2"] }
      (Small.life "m1" "h1") st := small_life "m1" "h1" ["h1"] ["m1", "m2"]
  have hsound := (hosts_pooled (sound_small ["h1"] ["m1", "m2"]) (pooledHosts_small _ _) hrun).1
  obtain ⟨s, ref, config, selector, hnew⟩ := newMachine_of_isNew hsound.hosts hnew
  exact ⟨s, ref, config, selector, hnew,
    provisioning_completes (sound_small _ _) (pooledHosts_small _ _) hrun hnew⟩

/-! ## A condition that stays

If patches of the agents may fail, hosts of the pool need not be clean. A cleanup whose patch of the
conditions fails, and whose patch of the labels arrives, gives the host back as one that is
bootstrapped. The next reconcile of the agent would correct this, but a machine may pick the host
before it. -/

/-- The host is attached to a machine, and its condition says that it has been bootstrapped. -/
structure Taken (h : ByoHost) : Prop where
  clusterLabel : h.clusterLabel ≠ none
  machineRef : h.machineRef ≠ none
  bootstrapSecret : h.bootstrapSecret ≠ none
  bootstrapped : isBootstrapped h = true

/-- The host `k` is not marked for cleanup. -/
def Unmarked (k : NamespacedName) (s : Site) (_ : Action) : Prop :=
  ∀ h, s.world.hosts.lookup k = some h → h.carries .hostCleanup = false

section Taken

variable {w : World} {k : NamespacedName} {h h' b cur : ByoHost} {scope : Scope}

theorem Taken.of_same (hh : Taken h) (hcluster : cur.clusterLabel = h.clusterLabel)
    (hmachine : cur.machineRef = h.machineRef) (hbootstrap : cur.bootstrapSecret = h.bootstrapSecret)
    (hconditions : cur.conditions = h.conditions) : Taken cur where
  clusterLabel := hcluster ▸ hh.clusterLabel
  machineRef := hmachine ▸ hh.machineRef
  bootstrapSecret := hbootstrap ▸ hh.bootstrapSecret
  bootstrapped := by
    rw [isBootstrapped, hconditions]
    exact hh.bootstrapped

/-- A machine does not attach a host that is in a cluster, and other edits leave its attachment. -/
theorem Taken.edited (hh : Taken h) (hedited : EditedBy (EditReason w scope) h h') : Taken h' := by
  refine hedited.invariant (P := Taken) (fun hsame hcur => ?_) (fun hreason hb hp => ?_) hh
  · exact hcur.of_same hsame.clusterLabel.symm hsame.machineRef.symm hsame.bootstrapSecret.symm
      hsame.conditions.symm
  · rename_i e b spec status cur
    have hnot : ∀ a, e ≠ .attach a := by
      rintro a rfl
      exact hb.clusterLabel hreason.2.1
    have hbootstrap : (e.apply b).bootstrapSecret = b.bootstrapSecret := by
      cases e with
      | pause p => cases p <;> rfl
      | attach a => exact absurd rfl (hnot a)
      | _ => rfl
    refine hb.of_same ?_ ?_ ?_ hp.conditions
    · rcases hp.edit_labels with ⟨-, hcluster⟩ | ⟨a, ha, -⟩
      · exact hcluster
      · exact absurd ha (hnot a)
    · rcases hp.edit_machineRef with hmachine | ⟨a, ha, -⟩
      · exact hmachine
      · exact absurd ha (hnot a)
    · rw [hp.bootstrapSecret, hbootstrap]
      exact ite_self _

/-- The agent has nothing to do on such a host. -/
theorem Taken.idle {cfg : HostReconciler.Config} {log : List HostEvent} (hh : Taken h)
    (hnot : h.carries .hostCleanup = false) (hc : Protocol.Course cfg h log h') :
    log = [] ∧ h' = h := by
  rw [Protocol.Course, if_neg (by rw [hnot]; exact Bool.false_ne_true)] at hc
  have hattached : ¬Attached h := by
    intro ha
    cases ha.notBootstrapped.symm.trans hh.bootstrapped
  cases hc with
  | deleted _ | alreadyBootstrapped _ => exact ⟨rfl, rfl⟩
  | waitsForMachineRef hm => exact absurd hm hh.machineRef
  | waitsForBootstrapSecret _ hs => exact absurd hs hh.bootstrapSecret
  | secretUnreadable ha | waitsForInstallSecret ha _ _ _ | installFailed _ ha _ _ _
  | directoriesFailed _ ha _ | bootstrapFailed _ _ ha _ | bootstrapped _ ha _ =>
    exact absurd ha hattached

/-- One step: the host stays attached, and its agent runs nothing. -/
theorem taken_step {setup : Setup} {s s' : Site} {a : Action} (hread : s.world.hosts.lookup k = some h)
    (hh : Taken h) (ha : Unmarked k s a) (hstep : SiteStep setup s a s') :
    eventsOfRuns (s'.runs k) = eventsOfRuns (s.runs k) ∧
      ∃ h', s'.world.hosts.lookup k = some h' ∧ Taken h' := by
  have hsame : ∀ {w' : World}, w'.hosts = s.world.hosts →
      ∃ h', w'.hosts.lookup k = some h' ∧ Taken h' := fun heq => ⟨h, heq ▸ hread, hh⟩
  cases hstep with
  | idle => exact ⟨rfl, h, hread, hh⟩
  | machine hran =>
    obtain ⟨h', hh', hedited⟩ := hran.hosts.some hread
    exact ⟨rfl, h', hh', hh.edited hedited⟩
  | config hran =>
    refine ⟨rfl, hsame ?_⟩
    rw [(hran (fun _ => True) trivial fun _ _ => trivial).rest]
  | @byoHost k' _ w' hran =>
    refine ⟨rfl, ?_⟩
    cases hran with
    | idle => exact hsame rfl
    | deleted _ _ hgone =>
      refine hsame ?_
      rw [hgone.rest]
    | @cleared h₁ ref w₁ hread₁ hstale hgone =>
      -- the reference of a host with a machine is not stale
      by_cases hk : k = k'
      · subst hk
        cases hread.symm.trans hread₁
        exact absurd (staleReference_eq_some hstale).2.1 hh.machineRef
      · refine ⟨h, ?_, hh⟩
        rw [World.setHost, AList.lookup_insert_ne hk, hgone.rest]
        exact hread
  | @agent k' _ _ h₁ h₂ cur log c sp st hran =>
    by_cases hk : k = k'
    · subst hk
      cases hread.symm.trans hran.read
      obtain ⟨rfl, rfl⟩ := hh.idle (ha _ hread) hran.course
      have hp := hran.patched
      refine ⟨?_, cur, hran.written, hh.of_same ?_ ?_ ?_ ?_⟩
      · rw [hran.record, Function.update_self, eventsOfRuns_append, List.append_nil]
      · rw [ByoHost.clusterLabel, hp.labels]
        exact ite_self _
      · rw [hp.machineRef]
        exact ite_self _
      · rw [hp.bootstrapSecret]
        exact ite_self _
      · rw [hp.conditions]
        exact ite_self _
    · rw [hran.record, Function.update_of_ne hk]
      exact ⟨rfl, h, (hran.onlyHost.others k hk).trans hread, hh⟩
  | env henv => exact ⟨rfl, hsame (envStep_rest henv).1⟩

/-- **A host that is taken for bootstrapped is not bootstrapped.** Whatever reconciles and actions of
users follow, with any outcomes: until the host is marked for cleanup, its agent runs no command. -/
theorem taken_never_bootstrapped (setup : Setup) {s₀ s : Site} {as : List Action}
    (hsound : Sound s₀.world) (hread : s₀.world.hosts.lookup k = some h) (hh : Taken h)
    (hrun : ActionRun setup.act (Unmarked k) s₀ as s) :
    eventsOfRuns (s.runs k) = eventsOfRuns (s₀.runs k) ∧
      ∃ h', s.world.hosts.lookup k = some h' ∧ Taken h' := by
  refine (site_run_invariant (I := fun s => eventsOfRuns (s.runs k) = eventsOfRuns (s₀.runs k) ∧
    ∃ h', s.world.hosts.lookup k = some h' ∧ Taken h') ?_ hrun hsound ⟨rfl, h, hread, hh⟩).2
  rintro s a s' - ⟨hruns, h', hread', hh'⟩ ha hstep
  obtain ⟨hevents, hend⟩ := taken_step hread' hh' ha hstep
  exact ⟨hevents.trans hruns, hend⟩

/-- The host `k` is attached and counts as bootstrapped. -/
def isTaken (w : World) (k : NamespacedName) : Bool :=
  (w.hosts.lookup k).any fun h => h.clusterLabel.isSome && h.machineRef.isSome &&
    h.bootstrapSecret.isSome && isBootstrapped h

theorem taken_of_isTaken (hcheck : isTaken w k = true) :
    ∃ h, w.hosts.lookup k = some h ∧ Taken h := by
  simp only [isTaken, Option.any_eq_true, Bool.and_eq_true, Option.isSome_iff_ne_none] at hcheck
  obtain ⟨h, hread, ⟨⟨hcluster, hmachine⟩, hbootstrap⟩, hboot⟩ := hcheck
  exact ⟨h, hread, hcluster, hmachine, hbootstrap, hboot⟩

instance (s : Site) (a : Action) : Decidable (Unmarked k s a) :=
  inferInstanceAs (Decidable (∀ h ∈ s.world.hosts.lookup k, h.carries .hostCleanup = false))

/-- The host is cleaned up after `m1`, without the patch of the conditions, and `m2` picks it. -/
def pickedTooEarly : List Action :=
  (Small.life "m1" "h1").take 6 ++
    [.reconcile (.agent (Small.key "h1")) (List.replicate 10 { writeOk := false }),
      Small.reconcile (.byoMachine (Small.key "m2"))]

/-- The host of `m2` gets its scripts, and its agent does not run them. -/
theorem taken_never_bootstrapped_picked :
    let s₀ := pickedTooEarly.foldl (Setup.act {}) { world := Small.world ["h1"] ["m1", "m2"] }
    let s := [Small.reconcile (.k8sInstallerConfig (Small.key "m2")),
      Small.reconcile (.byoMachine (Small.key "m2")),
      Small.reconcile (.agent (Small.key "h1"))].foldl (Setup.act {}) s₀
    (s₀.world.hosts.lookup (Small.key "h1")).any (Labelled (Small.key "m2") ·) = true ∧
      eventsOfRuns (s.runs (Small.key "h1")) = eventsOfRuns (s₀.runs (Small.key "h1")) := by
  intro s₀ s
  have hrun : ActionRun (Setup.act {}) (fun _ _ => True) { world := Small.world ["h1"] ["m1", "m2"] }
      pickedTooEarly s₀ := .of_allowed rfl
  have hsound : Sound s₀.world := site_run_sound hrun (sound_small ["h1"] ["m1", "m2"])
  obtain ⟨h, hread, hh⟩ := taken_of_isTaken (w := s₀.world) (k := Small.key "h1") (by decide +kernel)
  exact ⟨by decide +kernel, (taken_never_bootstrapped {} hsound hread hh
    (.of_allowed (by decide +kernel))).1⟩

end Taken

end Byoh.Properties.Provisioning
