import Byoh.Protocol.ConfigSteps
import Byoh.Model.System

/-!
# Scripts of a configuration

A configuration becomes ready in steps that can each fail: two secrets are created or updated, and
finalizers and status are patched. It is ready on the server only with both secrets in place, it
is ready after the first reconcile without failures, and from then on nothing changes.
-/

set_option autoImplicit false

namespace Byoh.Properties

open Byoh.Foundation Byoh.Model Byoh.Model.K8sInstallerConfigReconciler Byoh.Protocol

/-- The machine `m` waits for the configuration `c`, which is not ready; nothing is paused, and
the host that `m` describes is supported. -/
structure WaitsForScripts (req : NamespacedName) (w : World) (c : InstallerConfig) (m : ByoMachine)
    (cluster : Cluster) : Prop where
  config : w.installerConfigs.lookup (configKey req) = some c
  key : c.key = configKey req
  owner : ∃ name, findOwner "ByoMachine" group c.ownerReferences = .ok (some name) ∧
    w.machines.lookup ⟨c.ns, name⟩ = some m
  inCluster : ∃ name, m.labels.get .clusterName = some name ∧ name ≠ "" ∧
    w.clusters.lookup ⟨m.ns, name⟩ = some cluster
  notPaused : isPaused cluster c.annotations = false
  notDeleted : c.deletionTimestamp = false
  notReady : c.ready ≠ .value true
  waits : m.conditions.getReason .byoHostReady = some .installationSecretNotAvailable
  supported : Installer.Supported m.hostInfo.osImage m.hostInfo.architecture

/-- The status of `c` names both secrets, and they hold the scripts of `i`. -/
structure ScriptsStored (w : World) (c : InstallerConfig) (cluster : Cluster)
    (i : Installer.K8sInstaller) : Prop where
  installRef : c.installationSecret = .value (installSecretRef c)
  uninstallRef : c.uninstallationSecret = .value (uninstallSecretRef c)
  install : w.secrets.lookup ⟨c.ns, "byoh-install-" ++ c.name⟩ =
    some (installSecret c cluster i.install)
  uninstall : w.secrets.lookup ⟨c.ns, "byoh-uninstall-" ++ c.name⟩ =
    some (uninstallSecret c cluster i.uninstall)

/-- A sequence of reconciles of one configuration, with the outcomes of their calls. -/
def reconciles (skip : Bool) (req : NamespacedName) (w : World) (calls : List (List Outcome)) :
    World :=
  calls.foldl (fun w os => (Prog.run exec os (reconcile skip req) w).2) w

/-- What the reconciles keep: the configuration but for finalizers and status, machine and
cluster; and a configuration that is ready has its scripts stored. -/
structure Publishing (req : NamespacedName) (w₀ : World) (c₀ : InstallerConfig) (cluster : Cluster)
    (i : Installer.K8sInstaller) (w : World) (c : InstallerConfig) : Prop where
  config : w.installerConfigs.lookup (configKey req) = some c
  same : ∃ f r a b, c = { c₀ with
    finalizers := f, ready := r, installationSecret := a, uninstallationSecret := b }
  machines : w.machines = w₀.machines
  clusters : w.clusters = w₀.clusters
  stored : c.ready = .value true → ScriptsStored w c cluster i

section Step

variable {req : NamespacedName} {w₀ w w' : World} {c₀ c : InstallerConfig} {m : ByoMachine}
  {cluster : Cluster} {i : Installer.K8sInstaller} {skip : Bool} {ok : Outcome → Prop}

/-- The installer that the configuration and the host of the machine ask for. -/
def Renders (skip : Bool) (c : InstallerConfig) (m : ByoMachine) (i : Installer.K8sInstaller) :
    Prop :=
  Installer.newInstaller m.hostInfo.osImage m.hostInfo.architecture
    ((c.annotations.get .k8sVersion).getD "") c.bundleRepo skip = .ok i

/-- While the configuration is not ready, a reconcile generates the scripts. -/
theorem Publishing.generates (h₀ : WaitsForScripts req w₀ c₀ m cluster)
    (hi : Renders skip c₀ m i) (h : Publishing req w₀ c₀ cluster i w c)
    (hnot : c.ready ≠ .value true) : Generates skip w c m cluster i := by
  obtain ⟨f, r, a, b, rfl⟩ := h.same
  refine ⟨?_, ?_, h₀.notPaused, ⟨h₀.waits, hnot, h₀.notDeleted⟩, hi⟩
  · rw [h.machines]
    exact h₀.owner
  · rw [h.clusters]
    exact h₀.inCluster

/-- Only these scripts are generated. -/
theorem Publishing.generates_unique (h₀ : WaitsForScripts req w₀ c₀ m cluster)
    (hi : Renders skip c₀ m i) (h : Publishing req w₀ c₀ cluster i w c) {m' : ByoMachine}
    {cluster' : Cluster} {i' : Installer.K8sInstaller} (hgen : Generates skip w c m' cluster' i') :
    cluster' = cluster ∧ i' = i := by
  obtain ⟨f, r, a, b, rfl⟩ := h.same
  obtain ⟨name, hname, hm⟩ := h₀.owner
  obtain ⟨name', hname', hm'⟩ := hgen.owner
  rw [h.machines] at hm'
  have howner := hname.symm.trans hname'
  cases howner
  obtain rfl : m = m' := Option.some.inj (hm.symm.trans hm')
  obtain ⟨label, hlabel, -, hcluster⟩ := h₀.inCluster
  obtain ⟨label', hlabel', -, hcluster'⟩ := hgen.inCluster
  rw [h.clusters] at hcluster'
  cases hlabel.symm.trans hlabel'
  have hinstaller := hi.symm.trans hgen.installer
  cases hinstaller
  exact ⟨Option.some.inj (hcluster'.symm.trans hcluster), rfl⟩

/-- The two secrets of a configuration have different names. -/
theorem installKey_ne_uninstallKey (c : InstallerConfig) :
    (⟨c.ns, "byoh-install-" ++ c.name⟩ : NamespacedName) ≠ ⟨c.ns, "byoh-uninstall-" ++ c.name⟩ := by
  intro h
  have hlength := congrArg (·.name.length) h
  simp [String.length_append] at hlength
  revert hlength
  decide

/-- A reconcile that stored secrets in `w₁` and left the configuration with the status of `d` on the
server. -/
theorem Publishing.rewritten (h : Publishing req w₀ c₀ cluster i w c) {w₁ : World}
    {d : InstallerConfig} {f : List String} (honly : OnlyConfig (configKey req) w₁ w')
    (hmachines : w₁.machines = w.machines) (hclusters : w₁.clusters = w.clusters)
    (hconfig : w'.installerConfigs.lookup (configKey req) =
      some { withStatus c d with finalizers := f })
    (hstored : d.ready = .value true → ScriptsStored w₁ (withStatus c d) cluster i) :
    Publishing req w₀ c₀ cluster i w' { withStatus c d with finalizers := f } where
  config := hconfig
  same := by
    obtain ⟨f', r, a, b, rfl⟩ := h.same
    exact ⟨f, d.ready, d.installationSecret, d.uninstallationSecret, rfl⟩
  machines := by
    rw [honly.rest]
    exact hmachines.trans h.machines
  clusters := by
    rw [honly.rest]
    exact hclusters.trans h.clusters
  stored hready := by
    obtain ⟨hinstallRef, huninstallRef, hinstall, huninstall⟩ := hstored hready
    have hsecrets : w'.secrets = w₁.secrets := by rw [honly.rest]
    exact ⟨hinstallRef, huninstallRef, by rw [hsecrets]; exact hinstall,
      by rw [hsecrets]; exact huninstall⟩

/-- One reconcile: what it keeps, what it does not touch once the configuration is ready, and that
it makes the configuration ready when no call fails. -/
theorem Publishing.step (h₀ : WaitsForScripts req w₀ c₀ m cluster) (hi : Renders skip c₀ m i)
    (h : Publishing req w₀ c₀ cluster i w c) (hran : ConfigRan skip ok req w w') :
    ∃ c', Publishing req w₀ c₀ cluster i w' c' ∧
      (c.ready = .value true → w'.secrets = w.secrets ∧ withStatus c c' = c) ∧
      (¬Fails ok → c'.ready = .value true) := by
  -- without failures, a configuration that a reconcile does not generate for is ready already
  have hready : (∀ m' cluster' i', ¬Generates skip w c m' cluster' i') ∨ Fails ok → ¬Fails ok →
      c.ready = .value true := by
    intro hwhy hok
    by_contra hnot
    exact (hwhy.resolve_right hok) m cluster i (h.generates h₀ hi hnot)
  have hdeletion : c.deletionTimestamp ≠ true := by
    obtain ⟨f, r, a, b, rfl⟩ := h.same
    simp [h₀.notDeleted]
  cases hran with
  | idle hwhy =>
    exact ⟨c, h, fun _ => ⟨rfl, rfl⟩, hready (hwhy.imp_left fun hno m' cluster' i' =>
      hno c m' cluster' i' h.config)⟩
  | @ran c₁ c' w₁ w' hread hbody honly hwritten =>
    obtain rfl : c = c₁ := Option.some.inj (h.config.symm.trans hread)
    generalize hx : w'.installerConfigs.lookup (configKey req) = x at hwritten
    cases hbody with
    | left hc' hwhy =>
      obtain ⟨f', rfl⟩ := hc'
      -- old and new status are the same
      obtain ⟨f, rfl⟩ : ∃ f, x = some { withStatus c c with finalizers := f } := by
        cases hwritten with
        | gone hdeleting => exact absurd hdeleting hdeletion
        | kept f => exact ⟨f, rfl⟩
        | written f => exact ⟨f, rfl⟩
      refine ⟨_, h.rewritten honly rfl rfl hx h.stored, fun _ => ⟨?_, rfl⟩, hready hwhy⟩
      rw [honly.rest]
    | installStored hgen hfails hc' =>
      obtain ⟨f', rfl⟩ := hc'
      have hnot := hgen.waits.2.1
      cases hwritten with
      | gone hdeleting => exact absurd hdeleting hdeletion
      | kept f =>
        exact ⟨_, h.rewritten honly rfl rfl hx fun hr => absurd hr hnot, fun hr => absurd hr hnot,
          fun hok => absurd hfails hok⟩
      | written f =>
        exact ⟨_, h.rewritten honly rfl rfl hx fun hr => absurd hr hnot, fun hr => absurd hr hnot,
          fun hok => absurd hfails hok⟩
    | stored hgen hc' =>
      obtain ⟨f', rfl⟩ := hc'
      have hnot := hgen.waits.2.1
      obtain ⟨rfl, rfl⟩ := h.generates_unique h₀ hi hgen
      cases hwritten with
      | gone hdeleting => exact absurd hdeleting hdeletion
      | kept f hsame =>
        refine ⟨_, h.rewritten honly rfl rfl hx fun hr => absurd hr hnot, fun hr => absurd hr hnot,
          fun hok => ?_⟩
        exact absurd (congrArg (·.ready) (hsame.resolve_left hok)).symm hnot
      | written f =>
        refine ⟨_, h.rewritten honly rfl rfl hx fun _ => ?_, fun hr => absurd hr hnot, fun _ => rfl⟩
        refine ⟨rfl, rfl, ?_, AList.lookup_insert _⟩
        exact (AList.lookup_insert_ne (installKey_ne_uninstallKey c)).trans (AList.lookup_insert _)

/-- Every execution of the reconcile is one that `Publishing.step` speaks of. -/
theorem Publishing.ran (h₀ : WaitsForScripts req w₀ c₀ m cluster)
    (h : Publishing req w₀ c₀ cluster i w c) (skip : Bool) (ok : Outcome → Prop)
    (hdefault : ok default) (os : List Outcome) (hos : ∀ o ∈ os, ok o) :
    ConfigRan skip ok req w (Prog.run exec os (reconcile skip req) w).2 := by
  refine configStep_ensures hdefault (fun c' hc' => ?_) os hos
  obtain rfl : c = c' := Option.some.inj (h.config.symm.trans hc')
  obtain ⟨f, r, a, b, rfl⟩ := h.same
  exact h₀.key

/-- Any number of reconciles: what they keep, and what they do not touch once the configuration is
ready. -/
theorem Publishing.run (h₀ : WaitsForScripts req w₀ c₀ m cluster) (hi : Renders skip c₀ m i)
    (calls : List (List Outcome)) (h : Publishing req w₀ c₀ cluster i w c) :
    ∃ c', Publishing req w₀ c₀ cluster i (reconciles skip req w calls) c' ∧
      (c.ready = .value true → (reconciles skip req w calls).secrets = w.secrets ∧
        withStatus c c' = c) := by
  induction calls generalizing w c with
  | nil => exact ⟨c, h, fun _ => ⟨rfl, rfl⟩⟩
  | cons os calls ih =>
    obtain ⟨c₁, h₁, hsame₁, -⟩ := h.step h₀ hi
      (h.ran h₀ skip (fun _ => True) trivial os fun _ _ => trivial)
    obtain ⟨c', h', hsame'⟩ := ih h₁
    refine ⟨c', h', fun hready => ?_⟩
    obtain ⟨hsecrets₁, hstatus₁⟩ := hsame₁ hready
    -- the first reconcile left the configuration ready, so the others leave it alone too
    have hready₁ : c₁.ready = .value true := (congrArg (·.ready) hstatus₁).trans hready
    obtain ⟨hsecrets', hstatus'⟩ := hsame' hready₁
    refine ⟨hsecrets'.trans hsecrets₁, ?_⟩
    calc withStatus c c' = withStatus c (withStatus c₁ c') := rfl
      _ = withStatus c c₁ := by rw [hstatus']
      _ = c := hstatus₁

end Step

/-- For every store, with or without the secrets, and every sequence of reconciles of a
configuration that its machine waits for, with every call allowed to fail: the configuration is
ready only with both secrets in its status and both scripts stored, it is ready after a reconcile
in which no call fails, and once it is ready further reconciles change neither secrets nor
status. -/
theorem scripts_published (skip : Bool) (req : NamespacedName) {w₀ : World} {c₀ : InstallerConfig}
    {m : ByoMachine} {cluster : Cluster} (h₀ : WaitsForScripts req w₀ c₀ m cluster) :
    ∃ i, Renders skip c₀ m i ∧
      (∀ calls c, (reconciles skip req w₀ calls).installerConfigs.lookup (configKey req) = some c →
        c.ready = .value true → ScriptsStored (reconciles skip req w₀ calls) c cluster i) ∧
      (∀ calls os, (∀ o ∈ os, o.readOk = true ∧ o.writeOk = true) → ∃ c,
        (reconciles skip req w₀ (calls ++ [os])).installerConfigs.lookup (configKey req) = some c ∧
          c.ready = .value true) ∧
      ∀ calls more c,
        (reconciles skip req w₀ calls).installerConfigs.lookup (configKey req) = some c →
        c.ready = .value true →
        (reconciles skip req w₀ (calls ++ more)).secrets = (reconciles skip req w₀ calls).secrets ∧
          ∃ c', (reconciles skip req w₀ (calls ++ more)).installerConfigs.lookup (configKey req) =
            some c' ∧ withStatus c c' = c := by
  obtain ⟨i, hi⟩ := Installer.newInstaller_ok_of_supported h₀.supported
    ((c₀.annotations.get .k8sVersion).getD "") c₀.bundleRepo skip
  have hinit : Publishing req w₀ c₀ cluster i w₀ c₀ :=
    ⟨h₀.config, ⟨_, _, _, _, rfl⟩, rfl, rfl, fun hready => absurd hready h₀.notReady⟩
  refine ⟨i, hi, fun calls c hc hready => ?_, fun calls os hos => ?_, fun calls more c hc hready => ?_⟩
  · obtain ⟨c', h', -⟩ := hinit.run h₀ hi calls
    -- the configuration that is found is the one of the invariant
    obtain rfl : c' = c := Option.some.inj (h'.config.symm.trans hc)
    exact h'.stored hready
  · obtain ⟨c', h', -⟩ := hinit.run h₀ hi calls
    have hstep := h'.ran h₀ skip Succeeds succeeds_default os hos
    obtain ⟨c'', h'', -, hready⟩ := h'.step h₀ hi hstep
    refine ⟨c'', ?_, hready not_fails_succeeds⟩
    rw [reconciles, List.foldl_append]
    exact h''.config
  · obtain ⟨c₁, h₁, -⟩ := hinit.run h₀ hi calls
    obtain rfl : c₁ = c := Option.some.inj (h₁.config.symm.trans hc)
    obtain ⟨c', h', hsame⟩ := h₁.run h₀ hi more
    obtain ⟨hsecrets, hstatus⟩ := hsame hready
    rw [reconciles, List.foldl_append]
    exact ⟨hsecrets, c', h'.config, hstatus⟩

/-- A machine that waits for its scripts. -/
def waitingMachine : ByoMachine :=
  { Small.machine "m1" with
    hostInfo := (Small.host "h1").hostDetails
    conditions := Conditions.markFalse (fun _ => none) .byoHostReady .installationSecretNotAvailable
      .info "" }

/-- Its configuration. -/
def waitingConfig : InstallerConfig where
  apiVersion := groupVersion
  kind := "K8sInstallerConfig"
  ns := "default"
  name := "m1"
  annotations := GoMap.insert none .k8sVersion "v1.31.0"
  ownerReferences := [{ apiVersion := groupVersion, kind := "ByoMachine", name := "m1" }]
  bundleRepo := "registry"

/-- The two, with an install secret of an earlier configuration of the same name. -/
def waitingWorld : World :=
  { Small.world ["h1"] ["m1"] with
    machines := AList.insert (Small.key "m1") waitingMachine ∅
    installerConfigs := AList.insert (configKey (Small.key "m1")) waitingConfig ∅
    secrets := AList.insert (Small.key "byoh-install-m1")
      { ns := "default", name := "byoh-install-m1", data := GoMap.insert none "install" "old" } ∅ }

theorem waitingWorld_waits :
    WaitsForScripts (Small.key "m1") waitingWorld waitingConfig waitingMachine Small.cluster where
  config := rfl
  key := rfl
  owner := ⟨"m1", by decide +kernel, rfl⟩
  inCluster := ⟨"prod", rfl, by decide, rfl⟩
  notPaused := rfl
  notDeleted := rfl
  notReady := nofun
  waits := rfl
  supported := by
    have hlisted : Installer.getSupportedRegistry.any (fun reg =>
        !(reg.listK8s (Installer.osArch "Ubuntu 20.04.6 LTS" "amd64")).isEmpty) = true := by
      decide +kernel
    obtain ⟨reg, hreg, hlist⟩ := (Option.any_eq_true _ _).1 hlisted
    exact ⟨reg, hreg, Bool.eq_false_of_not_eq_true' hlist⟩

/-- The first reconcile fails to store the uninstall secret, the second succeeds. -/
theorem scripts_published_retried : ∃ i c,
    (reconciles false (Small.key "m1") waitingWorld
      [[{}, {}, {}, {}, {}, { writeOk := false }], []]).installerConfigs.lookup
        (configKey (Small.key "m1")) = some c ∧
      ScriptsStored (reconciles false (Small.key "m1") waitingWorld
        [[{}, {}, {}, {}, {}, { writeOk := false }], []]) c Small.cluster i := by
  obtain ⟨i, -, hstored, hready, -⟩ := scripts_published false (Small.key "m1") waitingWorld_waits
  obtain ⟨c, hc, hr⟩ := hready [[{}, {}, {}, {}, {}, { writeOk := false }]] [] (by simp)
  exact ⟨i, c, hc, hstored _ c hc hr⟩

end Byoh.Properties
