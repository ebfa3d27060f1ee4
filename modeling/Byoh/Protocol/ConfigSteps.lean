import Byoh.Protocol.ControllerPhases
import Byoh.Protocol.SiteSteps

/-!
# Reconciles of installer configurations as single steps

What one reconcile of a configuration does to the world when nothing happens in between
(`configStep_ensures`): it leaves the secrets alone, or it stores one or both of them, and then it
patches finalizers and status of the configuration. It stores them when its machine waits for
them (`Generates`), and all of this succeeds when no call fails.
-/

set_option autoImplicit false

namespace Byoh.Model

/-- The world with a secret stored. -/
def World.withSecret (w : World) (s : Secret) : World :=
  { w with secrets := w.secrets.insert s.key s }

end Byoh.Model

namespace Byoh.Protocol

open Byoh.Foundation Byoh.Model Byoh.Model.K8sInstallerConfigReconciler

/-- Calls may fail. -/
def Fails (ok : Outcome → Prop) : Prop := ∃ o, ok o ∧ ¬(o.readOk = true ∧ o.writeOk = true)

/-- The call succeeds. -/
def Succeeds (o : Outcome) : Prop := o.readOk = true ∧ o.writeOk = true

theorem succeeds_default : Succeeds default := ⟨rfl, rfl⟩

theorem readObject_succeeds {α : Type} {o : Outcome} (ho : Succeeds o) (a : α) :
    readObject o (some a) = .ok a := by
  simp [readObject, ho.1]

theorem not_fails_succeeds : ¬Fails Succeeds := fun ⟨_, ho, hnot⟩ => hnot ho

/-- A reconcile of `c` gets to store the scripts of `i`: its machine `m` waits for them, and
neither `c` nor the cluster is paused. -/
structure Generates (skip : Bool) (w : World) (c : InstallerConfig) (m : ByoMachine)
    (cluster : Cluster) (i : Installer.K8sInstaller) : Prop where
  owner : ∃ name, findOwner "ByoMachine" group c.ownerReferences = .ok (some name) ∧
    w.machines.lookup ⟨c.ns, name⟩ = some m
  inCluster : ∃ name, m.labels.get .clusterName = some name ∧ name ≠ "" ∧
    w.clusters.lookup ⟨m.ns, name⟩ = some cluster
  notPaused : isPaused cluster c.annotations = false
  waits : WaitsFor m c
  installer : Installer.newInstaller m.hostInfo.osImage m.hostInfo.architecture
    ((c.annotations.get .k8sVersion).getD "") c.bundleRepo skip = .ok i

/-- The configuration in memory and the world after the part under the deferred patch. -/
inductive ConfigBody (skip : Bool) (ok : Outcome → Prop) (c : InstallerConfig) (w : World) :
    InstallerConfig → World → Prop
  | left {c' : InstallerConfig} (hc' : ConfigLeaves c .unchanged c')
      (hwhy : (∀ m cluster i, ¬Generates skip w c m cluster i) ∨ Fails ok) :
      ConfigBody skip ok c w c' w
  | installStored {c' : InstallerConfig} {m : ByoMachine} {cluster : Cluster}
      {i : Installer.K8sInstaller} (hgen : Generates skip w c m cluster i) (hfails : Fails ok)
      (hc' : ConfigLeaves c .installStored c') :
      ConfigBody skip ok c w c' (w.withSecret (installSecret c cluster i.install))
  | stored {c' : InstallerConfig} {m : ByoMachine} {cluster : Cluster}
      {i : Installer.K8sInstaller} (hgen : Generates skip w c m cluster i)
      (hc' : ConfigLeaves c .ready c') :
      ConfigBody skip ok c w c' ((w.withSecret (installSecret c cluster i.install)).withSecret
        (uninstallSecret c cluster i.uninstall))

section Ensures

variable {ok : Outcome → Prop} {skip : Bool} {w : World} {c c₀ : InstallerConfig}

/-- A read gives the object, or fails for a reason. -/
theorem readObject_cases {α : Type} {o : Outcome} (ho : ok o) (x : Option α) :
    (∃ a, x = some a ∧ readObject o x = .ok a) ∨
      ∃ e, readObject o x = .error e ∧ (x = none ∨ Fails ok) := by
  rcases readObject_exact o x with hfound | ⟨hnone, hread⟩ | ⟨hread, hfails⟩
  · exact .inl hfound
  · exact .inr ⟨_, hread, .inl hnone⟩
  · exact .inr ⟨_, hread, .inr ⟨o, ho, fun h => Bool.noConfusion (h.1.symm.trans hfails)⟩⟩

/-- A secret is stored whether it exists or not, unless a call fails. -/
theorem storeSecret_ensures (hdefault : ok default) (what : String) (config : InstallerConfig)
    (secret : Secret) :
    GoM.Ensures exec ok (storeSecret what config secret) c w fun e c' w' => c' = c ∧
      ((e = .ok () ∧ w' = w.withSecret secret) ∨ ((∃ err, e = .err err) ∧ w' = w ∧ Fails ok)) := by
  refine .call_bind hdefault fun o ho => ?_
  by_cases hwrite : o.writeOk = true
  · cases hlookup : w.secrets.lookup secret.key with
    | none =>
      have hexec : exec o (.createSecret secret) w = (none, w.withSecret secret) := by
        simp [exec, createObject, hwrite, hlookup, World.withSecret]
      rw [hexec]
      exact .pure ⟨rfl, .inl ⟨rfl, rfl⟩⟩
    | some old =>
      have hexec : exec o (.createSecret secret) w = (some .alreadyExists, w) := by
        simp [exec, createObject, hwrite, hlookup]
      rw [hexec]
      refine .call_bind hdefault fun o' ho' => ?_
      by_cases hwrite' : o'.writeOk = true
      · have hexec' : exec o' (.updateSecret secret) w = (none, w.withSecret secret) := by
          simp [exec, writeObject, hwrite', hlookup, World.withSecret]
        rw [hexec']
        exact .pure ⟨rfl, .inl ⟨rfl, rfl⟩⟩
      · have hexec' : exec o' (.updateSecret secret) w = (some .other, w) := by
          simp [exec, writeObject, hwrite']
        rw [hexec']
        exact .throw ⟨rfl, .inr ⟨⟨_, rfl⟩, rfl, o', ho', fun h => hwrite' h.2⟩⟩
  · have hexec : exec o (.createSecret secret) w = (some .other, w) := by
      simp [exec, createObject, hwrite]
    rw [hexec]
    exact .throw ⟨rfl, .inr ⟨⟨_, rfl⟩, rfl, o, ho, fun h => hwrite h.2⟩⟩

/-- Both secrets are stored, or one of the calls failed. -/
theorem storeInstallationData_ensures (hdefault : ok default) {m : ByoMachine} {cluster : Cluster}
    {i : Installer.K8sInstaller} (hgen : Generates skip w c m cluster i)
    (hc₀ : ConfigLeaves c .unchanged c₀) :
    GoM.Ensures exec ok (storeInstallationData cluster i.install i.uninstall) c₀ w fun _ c' w' =>
      ConfigBody skip ok c w c' w' := by
  obtain ⟨finalizers, rfl⟩ := hc₀
  refine .get_bind (.bind ((storeSecret_ensures hdefault _ _ _).mono ?_))
  rintro e c' w' ⟨rfl, ⟨rfl, rfl⟩ | ⟨⟨err, rfl⟩, rfl, hfails⟩⟩
  · refine .modify_bind (.bind ((storeSecret_ensures hdefault _ _ _).mono ?_))
    rintro e c' w' ⟨rfl, ⟨rfl, rfl⟩ | ⟨⟨err, rfl⟩, rfl, hfails⟩⟩
    · exact .modify_bind (.ret (.stored hgen ⟨finalizers, rfl⟩))
    · exact .installStored hgen hfails ⟨finalizers, rfl⟩
  · exact .left ⟨finalizers, rfl⟩ (.inr hfails)

/-- The cluster that the label of a machine names. -/
theorem getClusterFromMetadata_ensures (hdefault : ok default) (m : ByoMachine) :
    Prog.Ensures exec ok (getClusterFromMetadata m) w fun r w' => w' = w ∧
      ((∃ cluster name, r = .ok cluster ∧ m.labels.get .clusterName = some name ∧ name ≠ "" ∧
        w.clusters.lookup ⟨m.ns, name⟩ = some cluster) ∨
      ∃ e, r = .error e ∧ ((∀ cluster name, m.labels.get .clusterName = some name → name ≠ "" →
        w.clusters.lookup ⟨m.ns, name⟩ ≠ some cluster) ∨ Fails ok)) := by
  unfold getClusterFromMetadata
  split
  next hlabel => exact .ret ⟨rfl, .inr ⟨_, rfl, .inl fun _ _ h => by simp [hlabel] at h⟩⟩
  next hlabel =>
    refine .ret ⟨rfl, .inr ⟨_, rfl, .inl fun _ name h hname => ?_⟩⟩
    rw [hlabel] at h
    exact absurd (Option.some.inj h).symm hname
  next name hne hlabel =>
    refine .bind (.call hdefault fun o ho => .ret ?_)
    rcases readObject_cases ho (w.clusters.lookup ⟨m.ns, name⟩) with ⟨cluster, hcluster, hr⟩ |
      ⟨e, hr, hwhy⟩
    · rw [exec, hr]
      exact .ret ⟨rfl, .inl ⟨cluster, name, rfl, hlabel, hne, hcluster⟩⟩
    · rw [exec, hr]
      refine .ret ⟨rfl, .inr ⟨_, rfl, hwhy.imp_left fun hnone cluster name' hlabel' _ => ?_⟩⟩
      obtain rfl : name = name' := Option.some.inj (hlabel.symm.trans hlabel')
      rw [hnone]
      exact (Option.some_ne_none _).symm

/-- The owner of a configuration, as far as it could be read. -/
def OwnerRead (ok : Outcome → Prop) (w : World) (c : InstallerConfig) : Option ByoMachine → Prop
  | some m => ∃ name, findOwner "ByoMachine" group c.ownerReferences = .ok (some name) ∧
      w.machines.lookup ⟨c.ns, name⟩ = some m
  | none => (∀ m name, findOwner "ByoMachine" group c.ownerReferences = .ok (some name) →
      w.machines.lookup ⟨c.ns, name⟩ ≠ some m) ∨ Fails ok

/-- The part of the reconcile under the deferred patch. -/
theorem reconcileConfig_ensures (hdefault : ok default) {m : Option ByoMachine}
    (hm : OwnerRead ok w c m) :
    GoM.Ensures exec ok (reconcileConfig skip m) c w fun _ c' w' =>
      ConfigBody skip ok c w c' w' := by
  -- every branch that leaves the secrets alone denies one of the conditions of `Generates`
  have hleft : ∀ {f : List String}, (∀ m' cluster i, ¬Generates skip w c m' cluster i) ∨ Fails ok →
      ConfigBody skip ok c w { c with finalizers := f } w := fun hwhy => .left ⟨_, rfl⟩ hwhy
  refine .modify_bind (.get_bind ?_)
  dsimp only
  split
  next hdeleted =>
    refine .modify_bind (.pure (hleft (.inl fun m' cluster i hgen => ?_)))
    simp [hgen.waits.2.2] at hdeleted
  next hdeleted =>
  cases m with
  | none =>
    refine .pure (hleft (hm.imp_left fun hnone m' cluster i hgen => ?_))
    obtain ⟨name, hname, hm'⟩ := hgen.owner
    exact hnone m' name hname hm'
  | some m =>
  obtain ⟨owner, howner, hm⟩ := hm
  have hsame : ∀ {m' cluster i}, Generates skip w c m' cluster i → m' = m := by
    intro m' cluster i hgen
    obtain ⟨name, hname, hm'⟩ := hgen.owner
    rw [howner] at hname
    cases hname
    exact Option.some.inj (hm'.symm.trans hm)
  refine .lift_bind ((getClusterFromMetadata_ensures hdefault m).mono ?_)
  rintro r w' ⟨hw', hcluster⟩
  subst w'
  rcases hcluster with ⟨cluster, label, rfl, hlabel, hne, hcluster⟩ | ⟨e, rfl, hwhy⟩
  · simp only [GoM.ofExcept_ok, GoM.pure_bind]
    have hsameCluster : ∀ {m' cluster' i}, Generates skip w c m' cluster' i → cluster' = cluster := by
      intro m' cluster' i hgen
      obtain ⟨label', hlabel', -, hcluster'⟩ := hgen.inCluster
      rw [hsame hgen] at hlabel' hcluster'
      rw [hlabel] at hlabel'
      cases hlabel'
      exact Option.some.inj (hcluster'.symm.trans hcluster)
    split
    next hpaused =>
      refine .pure (hleft (.inl fun m' cluster' i hgen => ?_))
      rw [← hsameCluster hgen, hgen.notPaused] at hpaused
      cases hpaused
    next hpaused =>
    split
    next hreason =>
      refine .pure (hleft (.inl fun m' cluster' i hgen => ?_))
      rw [← hsame hgen] at hreason
      exact hreason hgen.waits.1
    next hreason =>
    split
    next hready => exact .pure (hleft (.inl fun m' cluster' i hgen => hgen.waits.2.1 hready))
    next hready =>
    refine .get_bind ?_
    dsimp only
    have hinstaller : ∀ {m' cluster' i}, Generates skip w c m' cluster' i →
        Installer.newInstaller m.hostInfo.osImage m.hostInfo.architecture
          ((c.annotations.get .k8sVersion).getD "") c.bundleRepo skip = .ok i := fun hgen =>
      hsame hgen ▸ hgen.installer
    cases hi : Installer.newInstaller m.hostInfo.osImage m.hostInfo.architecture
        ((c.annotations.get .k8sVersion).getD "") c.bundleRepo skip with
    | err e =>
      refine .throw (hleft (.inl fun m' cluster' i hgen => ?_))
      rw [hinstaller hgen] at hi
      cases hi
    | panic msg =>
      refine .ret (hleft (.inl fun m' cluster' i hgen => ?_))
      rw [hinstaller hgen] at hi
      cases hi
    | ok i =>
      have hgen : Generates skip w c m cluster i :=
        ⟨⟨owner, howner, hm⟩, ⟨label, hlabel, hne, hcluster⟩, by simpa using hpaused,
          ⟨by simpa using hreason, hready, by simpa using hdeleted⟩, hi⟩
      simp only [ofExit, GoM.pure_bind]
      refine .bind ((storeInstallationData_ensures hdefault hgen ⟨_, rfl⟩).mono ?_)
      intro e c' w' hbody
      cases e with
      | ok _ => exact .pure hbody
      | err e => exact hbody
      | panic msg => exact hbody
  · refine .throw (hleft (hwhy.imp_left fun hnone m' cluster i hgen => ?_))
    obtain ⟨label, hlabel, hne, hcluster⟩ := hgen.inCluster
    rw [hsame hgen] at hlabel hcluster
    exact hnone cluster label hlabel hne hcluster

end Ensures

/-! ## The patch -/

/-- The configuration `c` with the status of `c'`. -/
def withStatus (c c' : InstallerConfig) : InstallerConfig :=
  { c with
    ready := c'.ready
    installationSecret := c'.installationSecret
    uninstallationSecret := c'.uninstallationSecret }

/-- Nothing but the configuration `k` differs. -/
structure OnlyConfig (k : InstallerKey) (w w' : World) : Prop where
  rest : w' = { w with installerConfigs := w'.installerConfigs }
  others : ∀ k', k' ≠ k → w'.installerConfigs.lookup k' = w.installerConfigs.lookup k'

theorem OnlyConfig.refl (k : InstallerKey) (w : World) : OnlyConfig k w w := ⟨rfl, fun _ _ => rfl⟩

theorem OnlyConfig.trans {k : InstallerKey} {w w' w'' : World} (h : OnlyConfig k w w')
    (h' : OnlyConfig k w' w'') : OnlyConfig k w w'' where
  rest := by
    rw [h'.rest, h.rest]
  others k' hk := (h'.others k' hk).trans (h.others k' hk)

theorem OnlyConfig.setInstallerConfig (k : InstallerKey) (w : World) (c : InstallerConfig) :
    OnlyConfig k w (w.setInstallerConfig k c) where
  rest := rfl
  others k' hk := by
    rw [World.setInstallerConfig]
    dsimp only
    split
    · exact AList.lookup_erase_ne hk
    · exact AList.lookup_insert_ne hk

/-- A configuration that is being deleted goes with its last finalizer. -/
theorem setInstallerConfig_lookup (k : InstallerKey) (w : World) (c : InstallerConfig) :
    (w.setInstallerConfig k c).installerConfigs.lookup k =
      if c.deletionTimestamp && c.finalizers.isEmpty then none else some c := by
  rw [World.setInstallerConfig]
  dsimp only
  split
  · exact AList.lookup_erase _ _
  · exact AList.lookup_insert _

/-- The configuration on the server after a patch from `c` to `c'`: it went away with its last
finalizer, or it has its old or its new status; the new one when no call fails. -/
inductive ConfigWritten (ok : Outcome → Prop) (c c' : InstallerConfig) :
    Option InstallerConfig → Prop
  | gone (hdeleting : c.deletionTimestamp = true) : ConfigWritten ok c c' none
  | kept (f : List String) (hsame : Fails ok ∨ withStatus c c' = c) :
      ConfigWritten ok c c' (some { c with finalizers := f })
  | written (f : List String) : ConfigWritten ok c c' (some { withStatus c c' with finalizers := f })

section Patch

variable {ok : Outcome → Prop} {w w₁ : World} {c c' : InstallerConfig}

theorem withStatus_of_not_changed (h : c.statusChanged c' = false) : withStatus c c' = c := by
  simp only [InstallerConfig.statusChanged, Bool.not_eq_false', Bool.and_eq_true,
    decide_eq_true_eq] at h
  obtain ⟨⟨hready, hinstall⟩, huninstall⟩ := h
  rw [withStatus, ← hready, ← hinstall, ← huninstall]

/-- What the first part of the patch leaves: finalizers are written or not. -/
def FinalizersWritten (c : InstallerConfig) (w w₁ : World) : Prop :=
  OnlyConfig c.key w w₁ ∧ ((w₁.installerConfigs.lookup c.key = none ∧ c.deletionTimestamp = true) ∨
    ∃ f, w₁.installerConfigs.lookup c.key = some { c with finalizers := f })

theorem finalizersWritten_patch (o : Outcome) (hc : w.installerConfigs.lookup c.key = some c) :
    FinalizersWritten c w (exec o (.patchInstallerConfig c.key c c') w).2 := by
  rw [exec]
  rcases writeObject_cases o w (w.installerConfigs.lookup c.key) (fun cur =>
    if addsFinalizer cur.deletionTimestamp cur.finalizers (c.merge c' cur).finalizers
    then .error .other else .ok (w.setInstallerConfig c.key (c.merge c' cur))) with
    ⟨cur, w', -, hcur, hw', hexec⟩ | ⟨e, hexec, -⟩ <;> rw [hexec]
  · obtain rfl : c = cur := Option.some.inj (hc.symm.trans hcur)
    split at hw' <;> cases hw'
    refine ⟨.setInstallerConfig .., ?_⟩
    rw [setInstallerConfig_lookup]
    split
    next hgone => exact .inl ⟨rfl, by simp_all [InstallerConfig.merge]⟩
    · exact .inr ⟨_, rfl⟩
  · exact ⟨.refl _ _, .inr ⟨_, hc⟩⟩

/-- The second part of the patch. -/
theorem configWritten_patchStatus {o : Outcome} (ho : ok o) (hw : FinalizersWritten c w w₁) :
    OnlyConfig c.key w (exec o (.patchInstallerConfigStatus c.key c c') w₁).2 ∧
      ConfigWritten ok c c'
        ((exec o (.patchInstallerConfigStatus c.key c c') w₁).2.installerConfigs.lookup c.key) := by
  obtain ⟨honly, hconfig⟩ := hw
  rw [exec]
  rcases writeObject_total o w₁ (w₁.installerConfigs.lookup c.key) (fun cur =>
    w₁.setInstallerConfig c.key (c.mergeStatus c' cur)) with ⟨cur, hcur, hexec⟩ | ⟨e, hexec, hfail⟩ <;>
    rw [hexec]
  · refine ⟨honly.trans (.setInstallerConfig ..), ?_⟩
    rcases hconfig with ⟨hnone, -⟩ | ⟨f, hf⟩
    · rw [hnone] at hcur
      cases hcur
    · obtain rfl : { c with finalizers := f } = cur := Option.some.inj (hf.symm.trans hcur)
      rw [setInstallerConfig_lookup]
      split
      next hgone => exact .gone (by simp_all [InstallerConfig.mergeStatus])
      · have hmerge : c.mergeStatus c' { c with finalizers := f } =
            { withStatus c c' with finalizers := f } := by
          simp [InstallerConfig.mergeStatus, withStatus]
        rw [hmerge]
        exact .written f
  · refine ⟨honly, ?_⟩
    rcases hconfig with ⟨hnone, hdeleting⟩ | ⟨f, hf⟩
    · rw [hnone]
      exact .gone hdeleting
    · rw [hf]
      refine .kept f (.inl ⟨o, ho, fun h => ?_⟩)
      rw [hfail h.2] at hf
      cases hf

/-- `Helper.Patch` of a configuration that is on the server as it was read. -/
theorem patchInstallerConfig_ensures (hdefault : ok default)
    (hc : w.installerConfigs.lookup c.key = some c) (hkey : c'.key = c.key) :
    Prog.Ensures exec ok (patchInstallerConfig c c') w fun _ w' =>
      OnlyConfig c.key w w' ∧ ConfigWritten ok c c' (w'.installerConfigs.lookup c.key) := by
  unfold patchInstallerConfig
  rw [hkey]
  have hstatus : ∀ {w₁ : World} (f : Option ApiError → Option Err), FinalizersWritten c w w₁ →
      Prog.Ensures exec ok ((sendIf (c.statusChanged c')
        (call (.patchInstallerConfigStatus c.key c c'))).bind fun e => .ret (f e)) w₁ fun _ w' =>
        OnlyConfig c.key w w' ∧ ConfigWritten ok c c' (w'.installerConfigs.lookup c.key) := by
    intro w₁ f hw
    refine ensures_sendIf (fun _ => .call hdefault fun o ho => .ret ?_) fun hsame => .ret ?_
    · exact configWritten_patchStatus ho hw
    · refine ⟨hw.1, ?_⟩
      rcases hw.2 with ⟨hnone, hdeleting⟩ | ⟨f, hf⟩
      · rw [hnone]
        exact .gone hdeleting
      · rw [hf]
        exact .kept f (.inr (withStatus_of_not_changed hsame))
  refine ensures_sendIf (fun _ => .call hdefault fun o _ => ?_) fun _ => ?_
  · exact hstatus _ (finalizersWritten_patch o hc)
  · exact hstatus _ ⟨.refl _ _, .inr ⟨_, hc⟩⟩

end Patch

/-! ## The reconcile -/

/-- What a reconcile of the configuration `k` did to the world. -/
inductive ConfigRan (skip : Bool) (ok : Outcome → Prop) (k : NamespacedName) (w : World) :
    World → Prop
  | idle (hwhy : (∀ c m cluster i, w.installerConfigs.lookup (configKey k) = some c →
      ¬Generates skip w c m cluster i) ∨ Fails ok) : ConfigRan skip ok k w w
  | ran {c c' : InstallerConfig} {w₁ w' : World}
      (hread : w.installerConfigs.lookup (configKey k) = some c)
      (hbody : ConfigBody skip ok c w c' w₁) (honly : OnlyConfig (configKey k) w₁ w')
      (hwritten : ConfigWritten ok c c' (w'.installerConfigs.lookup (configKey k))) :
      ConfigRan skip ok k w w'

section Reconcile

variable {ok : Outcome → Prop} {skip : Bool} {k : NamespacedName} {w : World}

theorem ConfigBody.key {c c' : InstallerConfig} {w₁ : World}
    (h : ConfigBody skip ok c w c' w₁) : c'.key = c.key := by
  cases h with
  | left hc' =>
    obtain ⟨f, rfl⟩ := hc'
    rfl
  | installStored _ _ hc' =>
    obtain ⟨f, rfl⟩ := hc'
    rfl
  | stored _ hc' =>
    obtain ⟨f, rfl⟩ := hc'
    rfl

/-- The body of the reconcile writes no configuration. -/
theorem ConfigBody.installerConfigs {c c' : InstallerConfig} {w₁ : World}
    (h : ConfigBody skip ok c w c' w₁) : w₁.installerConfigs = w.installerConfigs := by
  cases h <;> rfl

/-- The machine that owns a configuration. -/
theorem getOwnerByoMachine_ensures (hdefault : ok default) (c : InstallerConfig) :
    Prog.Ensures exec ok (getOwnerByoMachine c) w fun r w' => w' = w ∧ match r with
      | .ok m => OwnerRead ok w c m
      | .error _ => OwnerRead ok w c none := by
  unfold getOwnerByoMachine
  split
  next e he =>
    exact .ret ⟨rfl, .inl fun m name hname => by rw [he] at hname; cases hname⟩
  next he => exact .ret ⟨rfl, .inl fun m name hname => by rw [he] at hname; cases hname⟩
  next name hname =>
    refine .bind (.call hdefault fun o ho => .ret ?_)
    rcases readObject_cases ho (w.machines.lookup ⟨c.ns, name⟩) with ⟨m, hm, hr⟩ | ⟨e, hr, hwhy⟩
    · rw [exec, hr]
      exact .ret ⟨rfl, name, hname, hm⟩
    · rw [exec, hr]
      refine .ret ⟨rfl, hwhy.imp_left fun hnone m name' hname' => ?_⟩
      rw [hname] at hname'
      cases hname'
      rw [hnone]
      exact (Option.some_ne_none _).symm

/-- One reconcile of a configuration. -/
theorem configStep_ensures (hdefault : ok default)
    (hkeys : ∀ c, w.installerConfigs.lookup (configKey k) = some c → c.key = configKey k) :
    Prog.Ensures exec ok (reconcile skip k) w fun _ w' => ConfigRan skip ok k w w' := by
  refine .call hdefault fun o ho => ?_
  rcases readObject_cases ho (w.installerConfigs.lookup (configKey k)) with ⟨c, hc, hr⟩ |
    ⟨e, hr, hwhy⟩
  · have hrun : ∀ m, OwnerRead ok w c m → Prog.Ensures exec ok
        ((GoM.deferred (reconcileConfig skip m) (fun c' => patchInstallerConfig c c') c).bind
          fun r => .ret r.1) w fun _ w' => ConfigRan skip ok k w w' := by
      intro m hm
      have hdeferred : GoM.Ensures exec ok (GoM.deferred (reconcileConfig skip m)
          fun c' => patchInstallerConfig c c') c w fun _ _ w' => ConfigRan skip ok k w w' := by
        refine .deferred ((reconcileConfig_ensures hdefault hm).mono ?_)
        intro e c' w₁ hbody
        have hread : w₁.installerConfigs.lookup c.key = some c := by
          rw [hbody.installerConfigs, hkeys c hc, hc]
        refine (patchInstallerConfig_ensures hdefault hread hbody.key).mono ?_
        rintro e' w' ⟨honly, hwritten⟩
        rw [hkeys c hc] at honly hwritten
        exact .ran hc hbody honly hwritten
      exact .bind (Prog.Ensures.mono hdeferred fun _ _ h => .ret h)
    rw [exec, hr, Prog.ret_bind]
    refine .bind ((getOwnerByoMachine_ensures hdefault c).mono ?_)
    rintro r w' ⟨hw', howner⟩
    subst w'
    cases r with
    | ok m => exact hrun m howner
    | error e =>
      dsimp only
      split
      · exact hrun none howner
      · refine .ret (.idle (howner.imp_left fun hnone c' m cluster i hc' hgen => ?_))
        obtain rfl : c = c' := Option.some.inj (hc.symm.trans hc')
        obtain ⟨name, hname, hm⟩ := hgen.owner
        exact hnone m name hname hm
  · rw [exec, hr]
    have hidle : ConfigRan skip ok k w w :=
      .idle (hwhy.imp_left fun hnone c m cluster i hc => by rw [hnone] at hc; cases hc)
    cases e <;> exact .ret hidle

end Reconcile

end Byoh.Protocol
