import Byoh.Foundation.Returns
import Byoh.Model.System
import Byoh.Properties.LabelValues
import Byoh.Protocol.Effects

/-!
# When the ByoMachine controller panics

Every dereference of `ByoMachineReconciler.Reconcile`, on the objects that it may meet. The host in
the scope, the `DataSecretName` of the Machine and the `InstallerRef` of the machine are looked at
before they are used. Three things are not: a Cluster without an `InfrastructureRef`, an owner
Machine without a `Version`, and an installer configuration whose secret fields are no maps. They
are not harmful as such, but where the reconcile comes to use them.

* `Safe` says that it does not come to this. It is put together from one condition for each part of
  the reconcile, and one lemma for each part says that the part returns exactly under its condition.
* `reconcile_returns`: the reconcile never panics exactly if the answers of its calls are `Safe`.
  Stores with `Present` objects, which have none of the three, are.
-/

set_option autoImplicit false

namespace Byoh.Properties.NoPanic

open Byoh.Foundation Byoh.Model Byoh.Model.ByoMachineReconciler

/-! ## Answers -/

/-- Which answers a call may have. -/
abbrev AnswerSet := (c : Call) → Resp c → Prop

/-- The answers of the stores with `P`. Any of them may answer a call, with any outcome: others may
write to the store between two calls, so the stores of a run need not have anything to do with each
other. -/
def Answers (P : World → Prop) : AnswerSet := fun c r => ∃ w o, P w ∧ (exec o c w).1 = r

/-- The secret fields of the configuration are absent or maps. -/
def SecretsAreMaps (c : InstallerConfig) : Prop :=
  c.installationSecret ≠ .malformed ∧ c.uninstallationSecret ≠ .malformed

/-- The objects of a store: the names are valid, clusters have an `InfrastructureRef`, Machines have
a `Version`, and the secret fields of installer configurations are maps. -/
structure Present (w : World) : Prop where
  machines : ∀ {k m}, w.machines.lookup k = some m → ValidKey m.key
  capiMachines : ∀ {k m}, w.capiMachines.lookup k = some m → m.version ≠ none
  clusters : ∀ {k c}, w.clusters.lookup k = some c → c.infrastructureRef ≠ none
  installerConfigs : ∀ {k c}, w.installerConfigs.lookup k = some c → SecretsAreMaps c

/-! ## The condition -/

section Condition

variable (A : AnswerSet)

/-- The patch of a host may succeed. -/
def Patches (before after : ByoHost) : Prop := Prog.MayReturn A (patchByoHost before after) none

/-- A ready configuration that may be read for the machine. -/
def ReadsReady (m : ByoMachine) (ref : ObjectReference) (c : InstallerConfig) : Prop :=
  A (.getInstallerConfig (installerConfigKey m ref)) (.ok c) ∧ c.isReady = .ok true

/-- The host has an installation secret, or may be given one. -/
def InstallationSet (m : ByoMachine) (ref : ObjectReference) (h : ByoHost) : Prop :=
  h.installationSecret ≠ none ∨ ∃ c secret, ReadsReady A m ref c ∧
    c.installationSecret = .value secret ∧ Patches A h (withInstallationSecret secret h)

/-- The secret fields that are read for the host `h` of the machine are no wrong values. -/
structure SecretsSafe (m : ByoMachine) (h : ByoHost) : Prop where
  installation : ∀ ref c, m.installerRef = some ref → h.installationSecret = none →
    ReadsReady A m ref c → c.installationSecret ≠ .malformed
  uninstallation : ∀ ref c, m.installerRef = some ref → h.uninstallationSecret = none →
    InstallationSet A m ref h → ReadsReady A m ref c → c.uninstallationSecret ≠ .malformed

/-- If a host may be picked, the Machine has a `Version`, and the host that was attached is safe. -/
def PickSafe (s : Scope) : Prop :=
  ∀ name selector host hosts, s.machine.dataSecretName = some name →
    machineSelector s.byoMachine = .ok selector →
    A (.listByoHosts (selector ++ [notInCluster]) (some s.byoMachine.ns)) (.ok (host :: hosts)) →
    ∃ version, s.machine.version = some version ∧
      (Patches A host ((attachmentFor s name version).apply host) →
        SecretsSafe A s.byoMachine ((attachmentFor s name version).apply host))

/-- The part of `reconcileNormal` on a host, or on a host that is to be picked. -/
def HostSafe (s : Scope) : Option ByoHost → Prop
  | some h => SecretsSafe A s.byoMachine h
  | none => PickSafe A s

/-- If a configuration may have to be made from a template, the Machine has a `Version`. -/
def TemplateSafe (s : Scope) : Prop :=
  ∀ ref template, s.byoMachine.installerRef = some ref →
    A (.getInstallerConfig (installerConfigKey s.byoMachine ref)) (.error .notFound) →
    A (.getInstallerTemplate ⟨ref.apiVersion, ref.kind, ref.ns, ref.name⟩) (.ok template) →
    s.machine.version ≠ none

/-- The machine needs no configuration, or one may be there, or may be made. -/
def ConfigMade (s : Scope) : Prop :=
  ∀ ref, s.byoMachine.installerRef = some ref →
    (∃ c, A (.getInstallerConfig (installerConfigKey s.byoMachine ref)) (.ok c)) ∨
      A (.getInstallerConfig (installerConfigKey s.byoMachine ref)) (.error .notFound) ∧
        ∃ template version config,
          A (.getInstallerTemplate ⟨ref.apiVersion, ref.kind, ref.ns, ref.name⟩) (.ok template) ∧
          s.machine.version = some version ∧
          installerConfigFor s.byoMachine ref template version = .ok config ∧
          A (.createInstallerConfig config) none

/-- The host of the scope before and after its paused annotation was removed. -/
inductive Unpaused : Option ByoHost → Option ByoHost → Prop
  | none : Unpaused none none
  | some {h : ByoHost} (hpatch : Patches A h (pausedHost false h)) :
      Unpaused (some h) (some (pausedHost false h))

/-- `reconcileNormal`, when `host` is the host that was found. -/
def NormalSafe (s : Scope) (host : Option ByoHost) : Prop :=
  ∀ host', Unpaused A host host' → TemplateSafe A s ∧
    (ConfigMade A s → s.cluster.infrastructureReady = true → s.machine.dataSecretName ≠ none →
      HostSafe A s host')

/-- The part of `Reconcile` under the deferred patch: the requirement for the label is not nil, and
a machine that is neither paused nor being deleted is safe with every host that may be found. -/
def ScopeSafe (s : Scope) : Prop :=
  ∃ requirement, newRequirement .attachedByoMachine .opIn [s.byoMachine.key.labelValue] =
      .ok requirement ∧
    ∀ hosts, A (.listByoHosts [requirement] none) (.ok hosts) →
      isPaused s.cluster s.byoMachine.annotations = false →
      s.byoMachine.deletionTimestamp = false → NormalSafe A s hosts.head?

/-- `Reconcile`: the cluster that may be read has an `InfrastructureRef`, and the scope that may be
read is safe. -/
def Safe (req : NamespacedName) : Prop :=
  ∀ m machine cluster, A (.getByoMachine req) (.ok m) →
    Prog.MayReturn A (getOwnerMachine m) (.ok (some machine)) →
    Prog.MayReturn A (getClusterFromMetadata m) (.ok cluster) →
    ∃ ref, cluster.infrastructureRef = some ref ∧
      ∀ byoCluster, A (.getByoCluster ⟨m.ns, ref.name⟩) (.ok byoCluster) →
        ScopeSafe A { cluster, machine, byoCluster, byoMachine := m }

end Condition

variable {A : AnswerSet} {s : Scope} {Q : Unit → Scope → Prop} {m m' : ByoMachine}
  {ref : ObjectReference} {h : ByoHost}

/-- One call. -/
theorem mayReturn_perform {c : Call} {r : Resp c} : Prog.MayReturn A (call c) r ↔ A c r := by
  rw [call, Prog.perform, Prog.mayReturn_call]
  simp only [Prog.mayReturn_ret]
  constructor
  · rintro ⟨r', hr, rfl⟩
    exact hr
  · intro hr
    exact ⟨r, hr, rfl⟩

/-! ## The attached host -/

theorem patchHost_returns {before after : ByoHost} :
    GoM.Returns A (patchHost before after) s Q ↔
      (Patches A before after → Q () { s with byoHost := some after }) := by
  simp only [patchHost, GoM.returns_bind, GoM.returns_modify, GoM.returns_lift]
  constructor
  · intro h hpatch
    exact GoM.returns_pure.1 (h none hpatch)
  · intro h r hr
    cases r with
    | none => exact GoM.returns_pure.2 (h hr)
    | some e => exact GoM.returns_throw.2 trivial

theorem setPausedConditionForByoHost_returns {paused : Bool} :
    GoM.Returns A (setPausedConditionForByoHost paused) s Q ↔ ∃ h, s.byoHost = some h ∧
      (Patches A h (pausedHost paused h) →
        Q () { s with byoHost := some (pausedHost paused h) }) := by
  simp only [setPausedConditionForByoHost, GoM.returns_bind, GoM.returns_get,
    GoM.returns_deref]
  refine exists_congr fun h => and_congr_right fun _ => ?_
  exact patchHost_returns

/-- The annotation is removed from the host that was found, if any. -/
theorem unpause_returns :
    GoM.Returns A (GoM.when s.byoHost.isSome (setPausedConditionForByoHost false)) s Q ↔
      ∀ host', Unpaused A s.byoHost host' → Q () { s with byoHost := host' } := by
  rw [GoM.returns_when]
  obtain ⟨cluster, machine, byoCluster, byoMachine, byoHost⟩ := s
  cases byoHost with
  | none =>
    constructor
    · intro h host' hhost
      cases hhost
      exact h.2 rfl
    · intro h
      exact ⟨fun hsome => (Bool.false_ne_true hsome).elim, fun _ => h none .none⟩
  | some byoHost =>
    constructor
    · intro h host' hhost
      cases hhost with
      | some hpatch =>
        obtain ⟨h', heq, hQ⟩ := setPausedConditionForByoHost_returns.1 (h.1 rfl)
        cases heq
        exact hQ hpatch
    · intro h
      refine ⟨fun _ => setPausedConditionForByoHost_returns.2 ⟨byoHost, rfl, fun hpatch => ?_⟩,
        fun hnone => (Bool.false_ne_true hnone.symm).elim⟩
      exact h _ (.some hpatch)

/-- The requirement for the label must not be nil. -/
theorem fetchAttachedByoHost_returns {name ns : String} {Q : Option ByoHost → Scope → Prop} :
    GoM.Returns A (fetchAttachedByoHost name ns) s Q ↔
      ∃ requirement, newRequirement .attachedByoMachine .opIn [generateSafeLabelValue ns name] =
          .ok requirement ∧
        ∀ hosts, A (.listByoHosts [requirement] none) (.ok hosts) → Q hosts.head? s := by
  delta fetchAttachedByoHost
  cases newRequirement .attachedByoMachine .opIn [generateSafeLabelValue ns name] with
  | error e => simp
  | ok requirement =>
    simp only [GoM.returns_bind, GoM.returns_lift, Except.ok.injEq, exists_eq_left']
    constructor
    · intro h hosts hhosts
      exact GoM.returns_pure.1 (h (.ok hosts) (mayReturn_perform.2 hhosts))
    · intro h r hr
      cases r with
      | error e => exact GoM.returns_throw.2 trivial
      | ok hosts => exact GoM.returns_pure.2 (h hosts (mayReturn_perform.1 hr))

/-- `attachByoHost`, when there is no host in the scope and the Machine has bootstrap data. -/
theorem attachByoHost_returns (hnone : s.byoHost = none) {name : String}
    (hname : s.machine.dataSecretName = some name) {Q : Result → Scope → Prop} :
    GoM.Returns A attachByoHost s Q ↔ ∀ selector host hosts,
      machineSelector s.byoMachine = .ok selector →
      A (.listByoHosts (selector ++ [notInCluster]) (some s.byoMachine.ns)) (.ok (host :: hosts)) →
      ∃ version, s.machine.version = some version ∧
        (Patches A host ((attachmentFor s name version).apply host) →
          Q {} { s with byoHost := some ((attachmentFor s name version).apply host) }) := by
  have hisSome : s.byoHost.isSome = false := by
    rw [hnone]
    rfl
  simp only [attachByoHost, GoM.returns_bind, GoM.returns_get, hisSome, Bool.false_eq_true,
    if_false, GoM.returns_ofExcept, GoM.returns_lift]
  constructor
  · intro h selector host hosts hselector hhosts
    have hpicked := h selector hselector (.ok (host :: hosts)) (mayReturn_perform.2 hhosts)
    simp only [GoM.returns_bind, GoM.returns_deref, hname, GoM.returns_lift] at hpicked
    obtain ⟨_, heq, version, hversion, hpatch⟩ := hpicked
    cases heq
    exact ⟨version, hversion, fun hpatched => by simpa using hpatch none hpatched⟩
  · intro h selector hselector r hr
    cases r with
    | error e => exact GoM.returns_throw.2 trivial
    | ok hosts =>
      cases hosts with
      | nil => simp [markFalse]
      | cons host hosts =>
        obtain ⟨version, hversion, hpatch⟩ := h selector host hosts hselector
          (mayReturn_perform.1 hr)
        simp only [GoM.returns_bind, GoM.returns_deref, hname, GoM.returns_lift]
        refine ⟨name, rfl, version, hversion, fun e he => ?_⟩
        cases e with
        | some e => exact GoM.returns_throw.2 trivial
        | none => simpa using hpatch he

/-! ## Installer configurations -/

theorem getInstallerConfig_returns (href : m.installerRef = some ref)
    {Q : InstallerConfig → Scope → Prop} :
    GoM.Returns A (getInstallerConfig m) s Q ↔
      ∀ c, A (.getInstallerConfig (installerConfigKey m ref)) (.ok c) → Q c s := by
  simp only [getInstallerConfig, href, GoM.deref_some, GoM.pure_bind, GoM.returns_bind,
    GoM.returns_lift]
  constructor
  · intro h c hc
    exact GoM.returns_pure.1 (h (.ok c) (mayReturn_perform.2 hc))
  · intro h r hr
    cases r with
    | error e => exact GoM.returns_throw.2 trivial
    | ok c => exact GoM.returns_pure.2 (h c (mayReturn_perform.1 hr))

/-- The error of `getInstallerConfig` is that of its call. -/
theorem getInstallerConfig_error (href : m.installerRef = some ref) {e : Err} {s' : Scope} :
    Prog.MayReturn A (getInstallerConfig m s) (.err e, s') ↔ s' = s ∧
      ∃ e', e = .api e' ∧ A (.getInstallerConfig (installerConfigKey m ref)) (.error e') := by
  simp only [getInstallerConfig, href, GoM.deref_some, GoM.pure_bind]
  constructor
  · intro hrun
    obtain ⟨_, hcall, hret⟩ := Prog.mayReturn_bind.1 hrun
    obtain ⟨r, hr, hlift⟩ := Prog.mayReturn_bind.1 hcall
    cases Prog.mayReturn_ret.1 hlift
    cases r with
    | error e' =>
      cases Prog.mayReturn_ret.1 hret
      exact ⟨rfl, e', rfl, mayReturn_perform.1 hr⟩
    | ok c => cases Prog.mayReturn_ret.1 hret
  · rintro ⟨rfl, e', rfl, hr⟩
    exact Prog.mayReturn_bind.2 ⟨(.ok (.error e'), s'),
      Prog.mayReturn_bind.2 ⟨.error e', mayReturn_perform.2 hr, .ret _⟩, .ret _⟩

/-- A configuration that is not there is made from the template. -/
theorem createInstallerConfig_returns (href : s.byoMachine.installerRef = some ref) :
    GoM.Returns A createInstallerConfig s Q ↔
      (∀ c, A (.getInstallerConfig (installerConfigKey s.byoMachine ref)) (.ok c) → Q () s) ∧
      (A (.getInstallerConfig (installerConfigKey s.byoMachine ref)) (.error .notFound) →
        ∀ template,
          A (.getInstallerTemplate ⟨ref.apiVersion, ref.kind, ref.ns, ref.name⟩) (.ok template) →
          ∃ version, s.machine.version = some version ∧
            ∀ config, installerConfigFor s.byoMachine ref template version = .ok config →
              A (.createInstallerConfig config) none → Q () s) := by
  simp only [createInstallerConfig, GoM.returns_bind, GoM.returns_get, GoM.returns_attempt]
  rw [getInstallerConfig_returns href]
  simp only [getInstallerConfig_error href]
  refine and_congr (forall₂_congr fun c _ => GoM.returns_pure) ?_
  constructor
  · intro h hmissing template htemplate
    have hmake := h _ _ ⟨rfl, _, rfl, hmissing⟩
    have hnotFound : (!(Err.api .notFound).isNotFound) = false := rfl
    rw [hnotFound, if_neg Bool.false_ne_true, href, GoM.deref_some, GoM.pure_bind] at hmake
    simp only [GoM.returns_bind, GoM.returns_lift] at hmake
    have hversion := hmake (.ok template) (mayReturn_perform.2 htemplate)
    simp only [GoM.returns_bind, GoM.returns_deref, GoM.returns_ofExcept, GoM.returns_lift]
      at hversion
    obtain ⟨version, hversion, hcreate⟩ := hversion
    refine ⟨version, hversion, fun config hconfig hnone => ?_⟩
    exact GoM.returns_pure.1 (hcreate config hconfig none (mayReturn_perform.2 hnone))
  · rintro h e s' ⟨rfl, e', rfl, he⟩
    split
    · exact GoM.returns_throw.2 trivial
    · next hnotFound =>
      have he' : e' = .notFound := by
        cases e' with
        | notFound => rfl
        | alreadyExists | conflict | other => exact (hnotFound rfl).elim
      subst he'
      simp only [href, GoM.deref_some, GoM.pure_bind, GoM.returns_bind, GoM.returns_lift]
      intro r hr
      cases r with
      | error e => exact GoM.returns_throw.2 trivial
      | ok template =>
        obtain ⟨version, hversion, hcreate⟩ := h he template (mayReturn_perform.1 hr)
        simp only [GoM.returns_bind, GoM.returns_deref, GoM.returns_ofExcept, GoM.returns_lift]
        refine ⟨version, hversion, fun config hconfig e he => ?_⟩
        cases e with
        | some e => exact GoM.returns_throw.2 trivial
        | none => exact GoM.returns_pure.2 (hcreate config hconfig (mayReturn_perform.1 he))

/-- The configuration is made if the machine needs one. -/
theorem makeConfig_returns :
    GoM.Returns A (GoM.when s.byoMachine.installerRef.isSome createInstallerConfig) s Q ↔
      TemplateSafe A s ∧ (ConfigMade A s → Q () s) := by
  rw [GoM.returns_when]
  cases href : s.byoMachine.installerRef with
  | none =>
    have hmade : ConfigMade A s := fun ref h => by
      rw [href] at h
      cases h
    refine ⟨fun h => ⟨fun ref template h' => ?_, fun _ => h.2 rfl⟩,
      fun h => ⟨?_, fun _ => h.2 hmade⟩⟩
    · rw [href] at h'
      cases h'
    · intro hsome
      cases hsome
  | some ref =>
    simp only [Option.isSome_some, true_implies, Bool.true_eq_false, false_implies, and_true]
    refine (createInstallerConfig_returns href).trans ⟨?_, ?_⟩
    · rintro ⟨hthere, hmissing⟩
      constructor
      · intro ref' template href' hnone htemplate
        cases href.symm.trans href'
        obtain ⟨version, hversion, -⟩ := hmissing hnone template htemplate
        rw [hversion]
        exact Option.some_ne_none _
      · intro hmade
        rcases hmade ref href with ⟨c, hc⟩ | ⟨hnone, template, version, config, htemplate, hversion,
          hconfig, hcreate⟩
        · exact hthere c hc
        · obtain ⟨version', hversion', hQ⟩ := hmissing hnone template htemplate
          cases hversion.symm.trans hversion'
          exact hQ config hconfig hcreate
    · rintro ⟨htemplate, hmade⟩
      refine ⟨fun c hc => hmade fun ref' href' => ?_, fun hnone template hfound => ?_⟩
      · cases href.symm.trans href'
        exact .inl ⟨c, hc⟩
      · obtain ⟨version, hversion⟩ :=
          Option.ne_none_iff_exists'.1 (htemplate ref template href hnone hfound)
        refine ⟨version, hversion, fun config hconfig hcreate => hmade fun ref' href' => ?_⟩
        cases href.symm.trans href'
        exact .inr ⟨hnone, template, version, config, hfound, hversion, hconfig, hcreate⟩

/-- A secret is published: the field that is read for the host `h` of the scope is no wrong value,
and after a patch that succeeds the host has the secret. -/
theorem setSecretForByoHost_returns {field : InstallerConfig → Nested ObjectReference}
    {set : ObjectReference → ByoHost → ByoHost} {what convert : String}
    (href : s.byoMachine.installerRef = some ref) (hhost : s.byoHost = some h)
    {Q : Result → Scope → Prop} (hrequeue : ∀ r, 0 < r.requeueAfter → Q r s) :
    GoM.Returns A (setSecretForByoHost field set what convert) s Q ↔
      ∀ c, ReadsReady A s.byoMachine ref c → field c ≠ .malformed ∧
        ∀ secret, field c = .value secret → Patches A h (set secret h) →
          Q {} { s with byoHost := some (set secret h) } := by
  simp only [setSecretForByoHost, getInstallerConfigAndHelper, GoM.returns_bind,
    GoM.returns_get]
  rw [getInstallerConfig_returns href]
  simp only [GoM.returns_ofExcept]
  constructor
  · rintro hall c ⟨hread, hready⟩
    -- a ready configuration was read: follow the call to the field and to the patch
    have hc := hall c hread true hready
    simp only [if_true, GoM.returns_pure, GoM.returns_bind] at hc
    cases hfield : field c with
    | malformed =>
      rw [hfield] at hc
      exact (GoM.returns_panic.1 hc).elim
    | absent | inconvertible =>
      refine ⟨?_, fun secret heq => ?_⟩
      · intro heq
        cases heq
      · cases heq
    | value secret =>
      refine ⟨?_, fun secret' heq hpatch => ?_⟩
      · intro heq
        cases heq
      cases heq
      rw [hfield] at hc
      have hc' := GoM.returns_pure.1 hc
      simp only [GoM.returns_get, GoM.returns_deref, hhost] at hc'
      obtain ⟨_, heq, hpatched⟩ := hc'
      cases heq
      exact patchHost_returns.1 hpatched hpatch
  · intro hall c hread ready hready
    -- while the configuration is not ready the call asks to be repeated
    cases ready with
    | false =>
      simp only [Bool.false_eq_true, if_false, GoM.returns_pure]
      exact hrequeue _ (by decide)
    | true =>
      obtain ⟨hfield, hset⟩ := hall c ⟨hread, hready⟩
      simp only [if_true, GoM.returns_pure, GoM.returns_bind]
      cases hvalue : field c with
      | malformed => exact (hfield hvalue).elim
      | absent => exact GoM.returns_throw.2 trivial
      | inconvertible => exact GoM.returns_throw.2 trivial
      | value secret =>
        refine GoM.returns_pure.2 ?_
        simp only [GoM.returns_get, GoM.returns_deref, hhost]
        exact ⟨h, rfl, patchHost_returns.2 fun hpatch => hset secret hvalue hpatch⟩

/-! ## The secrets of the host -/

/-- Two states of the machine in memory that read the same installer configuration. -/
structure SameInstaller (m m' : ByoMachine) : Prop where
  installerRef : m'.installerRef = m.installerRef
  key : installerConfigKey m' = installerConfigKey m

theorem SameInstaller.symm (h : SameInstaller m m') : SameInstaller m' m :=
  ⟨h.installerRef.symm, h.key.symm⟩

theorem SameInstaller.readsReady (h : SameInstaller m m') {c : InstallerConfig} :
    ReadsReady A m' ref c ↔ ReadsReady A m ref c := by
  rw [ReadsReady, ReadsReady, h.key]

theorem SecretsSafe.of_same (hsafe : SecretsSafe A m h) (hsame : SameInstaller m m') :
    SecretsSafe A m' h := by
  have hset : ∀ ref, InstallationSet A m' ref h ↔ InstallationSet A m ref h := by
    intro ref
    simp only [InstallationSet, hsame.readsReady]
  refine ⟨fun ref c href hnone hready => ?_, fun ref c href hnone hpast hready => ?_⟩
  · exact hsafe.installation ref c (hsame.symm.installerRef.trans href) hnone
      (hsame.readsReady.1 hready)
  · exact hsafe.uninstallation ref c (hsame.symm.installerRef.trans href) hnone
      ((hset ref).1 hpast) (hsame.readsReady.1 hready)

theorem SameInstaller.secretsSafe (hsame : SameInstaller m m') :
    SecretsSafe A m' h ↔ SecretsSafe A m h :=
  ⟨fun hsafe => hsafe.of_same hsame.symm, fun hsafe => hsafe.of_same hsame⟩

/-- A secret is published if it is missing. -/
theorem publish_returns {field : InstallerConfig → Nested ObjectReference}
    {set : ObjectReference → ByoHost → ByoHost} {what convert : String} {missing : Bool}
    (hsame : SameInstaller m s.byoMachine) (hhost : s.byoHost = some h) {Q : Result → Scope → Prop}
    (hrequeue : ∀ r, 0 < r.requeueAfter → Q r s) :
    GoM.Returns A (if m.installerRef.isSome && missing then
        setSecretForByoHost field set what convert else pure {}) s Q ↔
      (m.installerRef = none ∨ missing = false → Q {} s) ∧
      ∀ ref c, m.installerRef = some ref → missing = true → ReadsReady A m ref c →
        field c ≠ .malformed ∧ ∀ secret, field c = .value secret → Patches A h (set secret h) →
          Q {} { s with byoHost := some (set secret h) } := by
  cases href : m.installerRef with
  | none => simp
  | some ref =>
    cases missing with
    | false => simp
    | true =>
      have hread : s.byoMachine.installerRef = some ref := hsame.installerRef.trans href
      simp only [Option.isSome_some, Bool.and_self, if_true]
      rw [setSecretForByoHost_returns hread hhost hrequeue]
      constructor
      · intro hall
        refine ⟨fun h => by simp at h, fun ref' c href' _ hready => hall c ?_⟩
        cases href'
        exact hsame.readsReady.2 hready
      · rintro ⟨-, hall⟩ c hready
        exact hall ref c rfl trivial (hsame.readsReady.1 hready)

theorem getRemoteClient_returns (m : ByoMachine) :
    GoM.Returns A (getRemoteClient m) s fun _ s' => s' = s := by
  simp only [getRemoteClient, GoM.returns_bind, GoM.returns_lift, GoM.returns_ofExcept]
  intro r _ cluster _ e _
  cases e with
  | none => exact GoM.returns_pure.2 rfl
  | some e => exact GoM.returns_throw.2 trivial

theorem setNodeProviderID_returns (cluster : NamespacedName) (host : ByoHost) :
    GoM.Returns A (setNodeProviderID cluster host) s fun _ _ => True := by
  simp only [setNodeProviderID, GoM.returns_bind, GoM.returns_lift]
  intro r _
  cases r with
  | error e => exact GoM.returns_throw.2 trivial
  | ok providerID =>
    dsimp only
    split
    · split
      · exact GoM.returns_pure.2 trivial
      · exact GoM.returns_throw.2 trivial
    · simp only [GoM.returns_bind, GoM.returns_lift]
      intro suffix _ e _
      cases e with
      | none => exact GoM.returns_pure.2 trivial
      | some e => exact GoM.returns_throw.2 trivial

/-- A host in the scope is enough for the provider ID. -/
theorem updateNodeProviderID_returns (hhost : s.byoHost ≠ none) :
    GoM.Returns A updateNodeProviderID s fun _ _ => True := by
  obtain ⟨h, hh⟩ := Option.ne_none_iff_exists'.1 hhost
  simp only [updateNodeProviderID, GoM.returns_bind, GoM.returns_get]
  refine (getRemoteClient_returns s.byoMachine).mono ?_
  rintro cluster s' rfl
  rw [GoM.returns_deref]
  refine ⟨h, hh, (setNodeProviderID_returns cluster h).mono fun providerID s'' _ => ?_⟩
  rw [GoM.returns_modify]
  exact GoM.returns_pure.2 trivial

/-- The uninstallation secret, then the provider ID; what is read does not depend on the host in the
scope. -/
theorem publishUninstallationSecret_returns (hsame : SameInstaller m s.byoMachine)
    (hhost : s.byoHost ≠ none) :
    GoM.Returns A (publishUninstallationSecret m h) s (fun res s' => GoM.Returns A
        (if res.requeueAfter > 0 then pure res else updateNodeProviderID) s' fun _ _ => True) ↔
      ∀ ref c, m.installerRef = some ref → h.uninstallationSecret = none → ReadsReady A m ref c →
        c.uninstallationSecret ≠ .malformed := by
  obtain ⟨cur, hcur⟩ := Option.ne_none_iff_exists'.1 hhost
  have hrest : ∀ {s' : Scope} (res : Result), s'.byoHost ≠ none → GoM.Returns A
      (if res.requeueAfter > 0 then pure res else updateNodeProviderID) s' fun _ _ => True := by
    intro s' res hhost'
    split
    · exact GoM.returns_pure.2 trivial
    · exact updateNodeProviderID_returns hhost'
  rw [publishUninstallationSecret, setUninstallationSecretForByoHost,
    publish_returns hsame hcur fun res _ => hrest res hhost]
  constructor
  · rintro ⟨-, hall⟩ ref c href hnone hready
    exact (hall ref c href (Option.isNone_iff_eq_none.2 hnone) hready).1
  · intro hall
    refine ⟨fun _ => hrest _ hhost, fun ref c href hnone hready => ⟨?_, fun secret _ _ => ?_⟩⟩
    · exact hall ref c href (Option.isNone_iff_eq_none.1 hnone) hready
    · exact hrest _ (Option.some_ne_none _)

/-- Both secrets, then the provider ID. -/
theorem publishSecrets_returns (hsame : SameInstaller m s.byoMachine) (hhost : s.byoHost = some h) :
    GoM.Returns A (publishInstallationSecret m h) s (fun res s' => GoM.Returns A
        (if res.requeueAfter > 0 then pure res else publishUninstallationSecret m h >>= fun res =>
          if res.requeueAfter > 0 then pure res else updateNodeProviderID) s' fun _ _ => True) ↔
      SecretsSafe A m h := by
  have huninstall : ∀ {cur : ByoHost}, GoM.Returns A
      (if (0 : Nat) > 0 then pure {} else publishUninstallationSecret m h >>= fun res =>
        if res.requeueAfter > 0 then pure res else updateNodeProviderID)
      { s with byoHost := some cur } (fun _ _ => True) ↔
        ∀ ref c, m.installerRef = some ref → h.uninstallationSecret = none → ReadsReady A m ref c →
          c.uninstallationSecret ≠ .malformed := by
    intro cur
    rw [if_neg (Nat.lt_irrefl 0), GoM.returns_bind]
    exact publishUninstallationSecret_returns hsame (Option.some_ne_none cur)
  have hself : { s with byoHost := some h } = s := by
    rw [← hhost]
  have hrequeue : ∀ res : Result, 0 < res.requeueAfter → GoM.Returns A
      (if res.requeueAfter > 0 then pure res else publishUninstallationSecret m h >>= fun res =>
        if res.requeueAfter > 0 then pure res else updateNodeProviderID) s fun _ _ => True := by
    intro res hres
    rw [if_pos hres]
    exact GoM.returns_pure.2 trivial
  rw [publishInstallationSecret, setInstallationSecretForByoHost,
    publish_returns hsame hhost hrequeue]
  constructor
  · rintro ⟨hskip, hall⟩
    refine ⟨fun ref c href hnone hready =>
      (hall ref c href (Option.isNone_iff_eq_none.2 hnone) hready).1, ?_⟩
    intro ref c href hnone hset hready
    -- the second secret is published only where the first is there or has just been set
    by_cases hinstall : h.installationSecret = none
    · rcases hset with hsome | ⟨c', secret, hready', hvalue, hpatch⟩
      · exact (hsome hinstall).elim
      · obtain ⟨-, hgo⟩ := hall ref c' href (Option.isNone_iff_eq_none.2 hinstall) hready'
        exact huninstall.1 (hgo secret hvalue hpatch) ref c href hnone hready
    · have hgo := hskip (.inr (Option.isNone_eq_false_iff.2 (Option.isSome_iff_ne_none.2 hinstall)))
      rw [← hself] at hgo
      exact huninstall.1 hgo ref c href hnone hready
  · rintro ⟨hinstall, hun⟩
    refine ⟨fun hskip => ?_, fun ref c href hnone hready => ?_⟩
    · rw [← hself]
      refine huninstall.2 fun ref c href hnone hready =>
        hun ref c href hnone (.inl fun hnone' => ?_) hready
      rcases hskip with hnoref | hsome
      · rw [href] at hnoref
        cases hnoref
      · rw [hnone'] at hsome
        cases hsome
    · have hnone' := Option.isNone_iff_eq_none.1 hnone
      refine ⟨hinstall ref c href hnone' hready, fun secret hvalue hpatch => ?_⟩
      refine huninstall.2 fun ref' c' href' hun' hready' => hun ref' c' href' hun' (.inr ?_) hready'
      cases href.symm.trans href'
      exact ⟨c, secret, hready, hvalue, hpatch⟩

/-- The part that needs the attached host returns exactly if the secret fields that it reads are no
wrong values. -/
theorem reconcileAttached_returns :
    GoM.Returns A reconcileAttached s (fun _ _ => True) ↔
      ∃ h, s.byoHost = some h ∧ SecretsSafe A s.byoMachine h := by
  simp only [reconcileAttached, GoM.returns_bind, GoM.returns_get, GoM.returns_deref]
  refine exists_congr fun h => and_congr_right fun hhost => ?_
  -- the host info that is filled in makes no difference
  refine GoM.returns_when_modify ?_ ?_
  · exact publishSecrets_returns ⟨rfl, rfl⟩ hhost
  · exact publishSecrets_returns ⟨rfl, rfl⟩ hhost

/-! ## Reconcile -/

/-- The host is reserved if there is none, and supplied. -/
theorem reserveHost_returns (hdata : s.machine.dataSecretName ≠ none) :
    GoM.Returns A (reserveHost >>= fun _ => reconcileAttached) s (fun _ _ => True) ↔
      HostSafe A s s.byoHost := by
  simp only [reserveHost, GoM.returns_bind, GoM.returns_get, GoM.returns_when]
  cases hhost : s.byoHost with
  | some h =>
    simp only [Option.isNone_some, Bool.false_eq_true, false_implies, true_implies, true_and]
    rw [reconcileAttached_returns, hhost]
    simp [HostSafe]
  | none =>
    simp only [Option.isNone_none, true_implies, Bool.true_eq_false, false_implies, and_true]
    obtain ⟨name, hname⟩ := Option.ne_none_iff_exists'.1 hdata
    rw [attachByoHost_returns hhost hname]
    -- the condition that is set on the machine makes no difference
    have hattached : ∀ {h : ByoHost}, GoM.Returns A (markFalse .installationSecretNotAvailable)
        { s with byoHost := some h }
        (fun _ s' => GoM.Returns A reconcileAttached s' fun _ _ => True) ↔
          SecretsSafe A s.byoMachine h := by
      intro h
      rw [markFalse, GoM.returns_modify, reconcileAttached_returns]
      simp only [Option.some.injEq, exists_eq_left']
      refine SameInstaller.secretsSafe ?_
      exact ⟨rfl, rfl⟩
    simp only [hattached]
    constructor
    · intro h name' selector host hosts hname'
      cases hname.symm.trans hname'
      exact h selector host hosts
    · intro h selector host hosts
      exact h name selector host hosts hname

/-- The part of `reconcileNormal` behind the installer configuration. -/
theorem afterConfig_returns (s₁ : Scope) (hcluster : s₁.cluster = s.cluster)
    (hmachine : s₁.machine = s.machine) :
    GoM.Returns A (do
        if !s₁.cluster.infrastructureReady then
          markFalse .waitingForClusterInfrastructure
          return {}
        if s₁.machine.dataSecretName.isNone then
          markFalse .waitingForBootstrapDataSecret
          return {}
        reserveHost
        reconcileAttached) s (fun _ _ => True) ↔
      (s.cluster.infrastructureReady = true → s.machine.dataSecretName ≠ none →
        HostSafe A s s.byoHost) := by
  rw [hcluster, hmachine]
  split
  next hnot => simp_all [markFalse]
  next hready =>
    split
    next hnone => simp_all [markFalse]
    next hdata =>
      have hdata' : s.machine.dataSecretName ≠ none := by
        intro hnone
        rw [hnone] at hdata
        exact hdata rfl
      rw [reserveHost_returns hdata']
      simp_all

/-- The scope with the finalizer. -/
def finalizedScope (s : Scope) : Scope :=
  { s with byoMachine := { s.byoMachine with
      finalizers := addFinalizer s.byoMachine.finalizers machineFinalizer } }

/-- The condition is the same for the scope with the finalizer. -/
theorem hostSafe_finalizedScope {host : Option ByoHost} :
    HostSafe A (finalizedScope s) host ↔ HostSafe A s host := by
  have hsame : SameInstaller s.byoMachine (finalizedScope s).byoMachine := ⟨rfl, rfl⟩
  cases host with
  | some h => exact hsame.secretsSafe
  | none =>
    constructor
    · intro h name selector host hosts hname hselector hhosts
      obtain ⟨version, hversion, hsafe⟩ := h name selector host hosts hname hselector hhosts
      exact ⟨version, hversion, fun hpatch => hsame.secretsSafe.1 (hsafe hpatch)⟩
    · intro h name selector host hosts hname hselector hhosts
      obtain ⟨version, hversion, hsafe⟩ := h name selector host hosts hname hselector hhosts
      exact ⟨version, hversion, fun hpatch => hsame.secretsSafe.2 (hsafe hpatch)⟩

theorem reconcileNormal_returns :
    GoM.Returns A reconcileNormal s (fun _ _ => True) ↔ NormalSafe A s s.byoHost := by
  have hnormal : NormalSafe A s s.byoHost ↔ NormalSafe A (finalizedScope s) s.byoHost :=
    forall₂_congr fun _ _ => and_congr Iff.rfl (imp_congr Iff.rfl (imp_congr Iff.rfl
      (imp_congr Iff.rfl hostSafe_finalizedScope.symm)))
  rw [reconcileNormal, GoM.returns_bind, GoM.returns_modify, hnormal]
  change GoM.Returns A _ (finalizedScope s) _ ↔ NormalSafe A _ (finalizedScope s).byoHost
  generalize finalizedScope s = s₁
  rw [GoM.returns_bind, GoM.returns_get, GoM.returns_bind, unpause_returns]
  refine forall₂_congr fun host' _ => ?_
  rw [GoM.returns_bind]
  refine (makeConfig_returns (s := { s₁ with byoHost := host' })).trans ?_
  exact and_congr Iff.rfl (imp_congr Iff.rfl (afterConfig_returns s₁ rfl rfl))

theorem markHostForCleanup_returns (hhost : s.byoHost ≠ none) :
    GoM.Returns A markHostForCleanup s fun _ _ => True := by
  obtain ⟨h, hh⟩ := Option.ne_none_iff_exists'.1 hhost
  simp only [markHostForCleanup, GoM.returns_bind, GoM.returns_get, GoM.returns_deref]
  exact ⟨h, hh, patchHost_returns.2 fun _ => trivial⟩

theorem reconcileDelete_returns : GoM.Returns A reconcileDelete s fun _ _ => True := by
  simp only [reconcileDelete, GoM.returns_bind, GoM.returns_get, GoM.returns_when,
    GoM.returns_modify, GoM.returns_pure, implies_true, and_true]
  exact fun hsome => markHostForCleanup_returns (Option.isSome_iff_ne_none.1 hsome)

theorem reconcilePaused_returns :
    GoM.Returns A (reconcilePaused s.byoHost) s fun _ _ => True := by
  simp only [reconcilePaused, markFalse, GoM.returns_bind, GoM.returns_when, GoM.returns_modify,
    GoM.returns_pure, GoM.returns_attempt, implies_true, and_true]
  intro hsome
  obtain ⟨h, hh⟩ := Option.isSome_iff_exists.1 hsome
  exact setPausedConditionForByoHost_returns.2 ⟨h, hh, fun _ => trivial⟩

theorem reconcileScope_returns :
    GoM.Returns A reconcileScope s (fun _ _ => True) ↔ ScopeSafe A s := by
  rw [reconcileScope, GoM.returns_bind, GoM.returns_get, GoM.returns_bind,
    fetchAttachedByoHost_returns]
  refine exists_congr fun requirement => and_congr Iff.rfl (forall₂_congr fun hosts _ => ?_)
  rw [GoM.returns_bind, GoM.returns_modify]
  cases hpaused : isPaused s.cluster s.byoMachine.annotations with
  | true =>
    simp only [if_true, Bool.true_eq_false, false_implies, iff_true]
    exact reconcilePaused_returns (s := { s with byoHost := hosts.head? })
  | false =>
    simp only [Bool.false_eq_true, if_false, true_implies]
    cases hdeleting : s.byoMachine.deletionTimestamp with
    | true =>
      simp only [if_true, Bool.true_eq_false, false_implies, iff_true]
      exact reconcileDelete_returns
    | false =>
      simp only [Bool.false_eq_true, if_false, true_implies]
      exact reconcileNormal_returns

/-- How `Reconcile` panics: at a cluster without an `InfrastructureRef`, or under the deferred
patch. -/
theorem reconcile_panic_iff {req : NamespacedName} {msg : String} :
    Prog.MayReturn A (reconcile req) (.panic msg) ↔ ∃ m machine cluster,
      A (.getByoMachine req) (.ok m) ∧
      Prog.MayReturn A (getOwnerMachine m) (.ok (some machine)) ∧
      Prog.MayReturn A (getClusterFromMetadata m) (.ok cluster) ∧
      (cluster.infrastructureRef = none ∧
          msg = "invalid memory address: cluster.Spec.InfrastructureRef" ∨
        ∃ ref byoCluster s', cluster.infrastructureRef = some ref ∧
          A (.getByoCluster ⟨m.ns, ref.name⟩) (.ok byoCluster) ∧
          Prog.MayReturn A (GoM.deferred reconcileScope (fun s => patchByoMachine m s.byoMachine)
            { cluster, machine, byoCluster, byoMachine := m }) (.panic msg, s')) := by
  constructor
  · intro hrun
    -- each read that fails ends the call without a panic
    obtain ⟨r, hr, hrun⟩ := Prog.mayReturn_bind.1 hrun
    cases r with
    | error e => cases e <;> cases Prog.mayReturn_ret.1 hrun
    | ok m =>
    obtain ⟨owner, howner, hrun⟩ := Prog.mayReturn_bind.1 hrun
    cases owner with
    | error e => cases Prog.mayReturn_ret.1 hrun
    | ok owner =>
    cases owner with
    | none => cases Prog.mayReturn_ret.1 hrun
    | some machine =>
    obtain ⟨found, hfound, hrun⟩ := Prog.mayReturn_bind.1 hrun
    cases found with
    | error e => cases Prog.mayReturn_ret.1 hrun
    | ok cluster =>
    refine ⟨m, machine, cluster, mayReturn_perform.1 hr, howner, hfound, ?_⟩
    dsimp only at hrun
    cases href : cluster.infrastructureRef with
    | none =>
      rw [href] at hrun
      cases Prog.mayReturn_ret.1 hrun
      exact .inl ⟨rfl, rfl⟩
    | some ref =>
    rw [href] at hrun
    obtain ⟨r, hr, hrun⟩ := Prog.mayReturn_bind.1 hrun
    cases r with
    | error e => cases Prog.mayReturn_ret.1 hrun
    | ok byoCluster =>
    obtain ⟨⟨e, s'⟩, hscope, hret⟩ := Prog.mayReturn_bind.1 hrun
    cases Prog.mayReturn_ret.1 hret
    exact .inr ⟨ref, byoCluster, s', rfl, mayReturn_perform.1 hr, hscope⟩
  · rintro ⟨m, machine, cluster, hm, howner, hfound, hpanic⟩
    refine Prog.mayReturn_bind.2 ⟨.ok m, mayReturn_perform.2 hm, Prog.mayReturn_bind.2
      ⟨.ok (some machine), howner, Prog.mayReturn_bind.2 ⟨.ok cluster, hfound, ?_⟩⟩⟩
    obtain ⟨href, rfl⟩ | ⟨ref, byoCluster, s', href, hbyoCluster, hscope⟩ := hpanic
    · dsimp only
      rw [href]
      exact .ret _
    · dsimp only
      rw [href]
      exact Prog.mayReturn_bind.2 ⟨.ok byoCluster, mayReturn_perform.2 hbyoCluster,
        Prog.mayReturn_bind.2 ⟨_, hscope, .ret _⟩⟩

/-- The deferred patch makes no panic and hides none. -/
theorem deferredScope_panic_iff (hok : ∀ c, ∃ r, A c r) (d : Scope → ApiProg (Option Err)) :
    (∀ msg s', ¬ Prog.MayReturn A (GoM.deferred reconcileScope d s) (.panic msg, s')) ↔
      ScopeSafe A s := by
  rw [← reconcileScope_returns, ← GoM.returns_deferred hok (d := d)]
  constructor
  · intro h e s' hrun
    cases e with
    | ok r => trivial
    | err e => trivial
    | panic msg => exact h msg s' hrun
  · intro h msg s' hrun
    exact h _ _ hrun

/-- `Safe` is exact, when an answer to one call means that there is one to every call. -/
theorem reconcile_returns_iff (hok : ∀ c r, A c r → ∀ c', ∃ r', A c' r') (req : NamespacedName) :
    (∀ e, Prog.MayReturn A (reconcile req) e → ∀ msg, e ≠ .panic msg) ↔ Safe A req := by
  constructor
  · intro h m machine cluster hm howner hfound
    cases href : cluster.infrastructureRef with
    | none =>
      exact (h _ (reconcile_panic_iff.2
        ⟨m, machine, cluster, hm, howner, hfound, .inl ⟨href, rfl⟩⟩) _ rfl).elim
    | some ref =>
      refine ⟨ref, rfl, fun byoCluster hbyoCluster => ?_⟩
      refine (deferredScope_panic_iff (hok _ _ hm) fun s => patchByoMachine m s.byoMachine).1
        fun msg s' hscope => ?_
      exact h _ (reconcile_panic_iff.2 ⟨m, machine, cluster, hm, howner, hfound,
        .inr ⟨ref, byoCluster, s', href, hbyoCluster, hscope⟩⟩) msg rfl
  · rintro h e hrun msg rfl
    obtain ⟨m, machine, cluster, hm, howner, hfound, hpanic⟩ := reconcile_panic_iff.1 hrun
    obtain ⟨ref, href, hsafe⟩ := h m machine cluster hm howner hfound
    obtain ⟨hnone, -⟩ | ⟨ref', byoCluster, s', href', hbyoCluster, hscope⟩ := hpanic
    · cases href.symm.trans hnone
    · cases href.symm.trans href'
      exact (deferredScope_panic_iff (hok _ _ hm) _).2 (hsafe byoCluster hbyoCluster) msg s' hscope

/-! ## Stores -/

section Present

/-- What is read from stores with `Present`. -/
theorem Present.machine {k : NamespacedName} (h : Answers Present (.getByoMachine k) (.ok m)) :
    ValidKey m.key := by
  obtain ⟨w, o, hw, hm⟩ := h
  exact hw.machines (readObject_ok hm)

theorem Present.config {k : InstallerKey} {c : InstallerConfig}
    (h : Answers Present (.getInstallerConfig k) (.ok c)) : SecretsAreMaps c := by
  obtain ⟨w, o, hw, hc⟩ := h
  exact hw.installerConfigs (readObject_ok hc)

theorem Present.version {machine : Machine}
    (h : Prog.MayReturn (Answers Present) (getOwnerMachine m) (.ok (some machine))) :
    machine.version ≠ none := by
  rw [getOwnerMachine] at h
  split at h
  · cases Prog.mayReturn_ret.1 h
  · cases Prog.mayReturn_ret.1 h
  · obtain ⟨r, hr, hret⟩ := Prog.mayReturn_bind.1 h
    cases r with
    | error e => cases Prog.mayReturn_ret.1 hret
    | ok machine' =>
      cases Prog.mayReturn_ret.1 hret
      obtain ⟨w, o, hw, hm⟩ := mayReturn_perform.1 hr
      exact hw.capiMachines (readObject_ok hm)

theorem Present.infrastructureRef {cluster : Cluster}
    (h : Prog.MayReturn (Answers Present) (getClusterFromMetadata m) (.ok cluster)) :
    cluster.infrastructureRef ≠ none := by
  rw [getClusterFromMetadata] at h
  split at h
  · cases Prog.mayReturn_ret.1 h
  · cases Prog.mayReturn_ret.1 h
  · obtain ⟨r, hr, hret⟩ := Prog.mayReturn_bind.1 h
    cases r with
    | error e => cases Prog.mayReturn_ret.1 hret
    | ok cluster' =>
      cases Prog.mayReturn_ret.1 hret
      obtain ⟨w, o, hw, hc⟩ := mayReturn_perform.1 hr
      exact hw.clusters (readObject_ok hc)

theorem Present.secretsSafe (m : ByoMachine) (h : ByoHost) : SecretsSafe (Answers Present) m h where
  installation _ _ _ _ hread := (Present.config hread.1).1
  uninstallation _ _ _ _ _ hread := (Present.config hread.1).2

theorem Present.hostSafe (hversion : s.machine.version ≠ none) (host : Option ByoHost) :
    HostSafe (Answers Present) s host := by
  cases host with
  | some h => exact Present.secretsSafe _ h
  | none =>
    intro name selector host hosts _ _ _
    obtain ⟨version, hversion⟩ := Option.ne_none_iff_exists'.1 hversion
    exact ⟨version, hversion, fun _ => Present.secretsSafe _ _⟩

theorem Present.scopeSafe (hkey : ValidKey s.byoMachine.key) (hversion : s.machine.version ≠ none) :
    ScopeSafe (Answers Present) s := by
  refine ⟨_, hkey.newRequirement_ok, fun hosts _ _ _ host' _ => ⟨?_, ?_⟩⟩
  · exact fun _ _ _ _ _ => hversion
  · exact fun _ _ _ => Present.hostSafe hversion host'

theorem Present.safe (req : NamespacedName) : Safe (Answers Present) req := by
  intro m machine cluster hm howner hfound
  obtain ⟨ref, href⟩ := Option.ne_none_iff_exists'.1 (Present.infrastructureRef hfound)
  exact ⟨ref, href, fun _ _ => Present.scopeSafe (Present.machine hm) (Present.version howner)⟩

end Present

/-- `Reconcile` never panics, for every request, every outcome of its calls and whatever others do in
between, exactly if the answers of the stores are `Safe`. They are when every store has valid names,
clusters with an `InfrastructureRef`, Machines with a `Version` and installer configurations whose
secrets are maps. -/
theorem reconcile_returns (req : NamespacedName) :
    (∀ P : World → Prop,
      (∀ e, Prog.MayReturn (Answers P) (reconcile req) e → ∀ msg, e ≠ .panic msg) ↔
        Safe (Answers P) req) ∧
      Safe (Answers Present) req := by
  refine ⟨fun P => reconcile_returns_iff ?_ req, Present.safe req⟩
  rintro c r ⟨w, o, hw, -⟩ c'
  exact ⟨_, w, o, hw, rfl⟩

theorem small_present : Present (Small.world ["h1"] ["m1"]) where
  machines := by
    intro k m hm
    obtain rfl : k = Small.key "m1" := by simpa using Small.machines_mem k m hm
    obtain ⟨name, hname, rfl⟩ := Small.machines_lookup hm
    cases hname
    decide +kernel
  capiMachines := by
    intro k m hm
    obtain ⟨name, -, -, rfl⟩ := lookup_foldr Small.key Small.capiMachine hm
    exact Option.some_ne_none _
  clusters := by
    intro k c hc
    by_cases hk : k = Small.key "prod"
    · subst hk
      cases (AList.lookup_insert (s := ∅)).symm.trans hc
      exact Option.some_ne_none _
    · cases (AList.lookup_insert_ne hk (s := ∅)).symm.trans hc
  installerConfigs := by
    intro k c hc
    cases hc

/-- The host is attached and the machine waits for its installer configuration, in a store that does
not change. -/
theorem reconcile_returns_small :
    let answer (o : Outcome) (c : Call) (u : Unit) := ((exec o c (Small.world ["h1"] ["m1"])).1, u)
    let e := (Prog.run answer [] (reconcile (Small.key "m1")) ()).1
    e = .err (.api .notFound) ∧ ∀ msg, e ≠ .panic msg := by
  refine ⟨by decide +kernel, ?_⟩
  obtain ⟨hexact, hsafe⟩ := reconcile_returns (Small.key "m1")
  exact (hexact Present).2 hsafe _ (Prog.mayReturn_run (I := fun _ => True)
    (fun o c _ _ => ⟨⟨_, o, small_present, rfl⟩, trivial⟩) [] _ trivial)

/-- A cluster without an `InfrastructureRef`. -/
def withoutInfrastructure : World :=
  { Small.world ["h1"] ["m1"] with
    clusters := AList.insert (Small.key "prod") { Small.cluster with infrastructureRef := none } ∅ }

/-- An owner Machine without a `Version`. -/
def withoutVersion : World :=
  { Small.world ["h1"] ["m1"] with
    capiMachines := AList.insert (Small.key "m1") { Small.capiMachine "m1" with version := none } ∅ }

/-- A ready installer configuration whose installation secret is a text. -/
def withTextSecret : World :=
  { Small.world ["h1"] ["m1"] with
    installerConfigs := AList.insert ⟨groupVersion, "K8sInstallerConfig", "default", "m1"⟩
      { apiVersion := groupVersion, kind := "K8sInstallerConfig", ns := "default", name := "m1"
        ready := .value true, installationSecret := .malformed } ∅ }

/-- Each of the three makes the reconcile panic although no call fails. -/
theorem reconcile_panics :
    let exit (w : World) := (Prog.run exec [] (reconcile (Small.key "m1")) w).1
    exit withoutInfrastructure = .panic "invalid memory address: cluster.Spec.InfrastructureRef" ∧
      exit withoutVersion = .panic "invalid memory address: machineScope.Machine.Spec.Version" ∧
      exit withTextSecret = .panic "interface conversion: secret is not a map" := by
  decide +kernel

end Byoh.Properties.NoPanic
