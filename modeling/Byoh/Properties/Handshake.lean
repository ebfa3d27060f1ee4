import Byoh.Protocol.MachineProgress

/-!
# The handshake between a machine and its installer configuration

A machine creates its installer configuration, the K8sInstallerConfig controller fills it in, and
the next reconcile of the machine hands the reference to the install script to the host. The
controller fills a configuration in only while `BYOHostReady` of the machine has the reason
`InstallationSecretNotAvailable`. The machine controller writes this reason when it attaches a host,
other paths overwrite it, and nothing brings it back: a machine that is paused between the
attachment and the next reconcile of its configuration waits forever (`handshake_stuck`).

If the reason is there or the configuration is ready, three reconciles without a failure bring the
reference to the host, whatever pauses, infrastructure changes and failed patches came before
(`handshake_completes`), and otherwise the host stays without it (`handshake_waits`).
-/

set_option autoImplicit false

namespace Byoh.Properties

open Byoh.Foundation Byoh.Model Byoh.Protocol Byoh.Model.ByoMachineReconciler
open Byoh.Model.K8sInstallerConfigReconciler (configKey)

/-! ## Runs -/

/-- Reconciles of machines and of configurations, with any outcomes; machines and clusters are
paused and unpaused, and the infrastructure of a cluster becomes ready or unready. -/
def HandshakeAction (s : Site) : Action → Prop
  | .reconcile (.byoMachine _) _ => True
  | .reconcile (.k8sInstallerConfig _) _ => True
  | .env (.pauseByoMachine _ _) => True
  | .env (.putCluster c) => ∃ paused ready, s.world.clusters.lookup ⟨c.ns, c.name⟩ =
      some { c with paused := paused, infrastructureReady := ready }
  | _ => False

instance (s : Site) : (a : Action) → Decidable (HandshakeAction s a)
  | .reconcile (.byoMachine _) _ => .isTrue trivial
  | .reconcile (.k8sInstallerConfig _) _ => .isTrue trivial
  | .reconcile (.byoHost _) _ => .isFalse id
  | .reconcile (.agent _) _ => .isFalse id
  | .env (.pauseByoMachine _ _) => .isTrue trivial
  | .env (.putCluster c) => inferInstanceAs (Decidable (∃ paused ready,
      s.world.clusters.lookup ⟨c.ns, c.name⟩ =
        some { c with paused := paused, infrastructureReady := ready }))
  | .env (.createByoMachine _) => .isFalse id
  | .env (.deleteByoMachine _) => .isFalse id
  | .env (.deleteCluster _) => .isFalse id
  | .env (.putMachine _) => .isFalse id
  | .env (.deliver _) => .isFalse id

/-- No host is attached, no configuration has been created, and no machine knows a host. -/
structure UnattachedStart (w : World) : Prop where
  hosts : ∀ key h, w.hosts.lookup key = some h → h.attachedLabel = none
  configs : ∀ key, w.installerConfigs.lookup key = none
  machines : ∀ k m, w.machines.lookup k = some m → m.hostInfo = {}

/-- The reference is to an installer template of this repository, which has a template. -/
structure IsInstallerTemplate (ref : ObjectReference) (template : InstallerTemplate) : Prop where
  refVersion : ref.apiVersion = groupVersion
  refKind : ref.kind = "K8sInstallerConfigTemplate"
  version : template.apiVersion = groupVersion
  kind : template.kind = "K8sInstallerConfigTemplate"
  spec : template.template ≠ none

/-- The machine `k`, with the objects `s` that its reconcile reads, is to bring the install script to
its host `h`, which the installer supports and which has none. Nothing is paused or being deleted,
infrastructure and bootstrap data are ready, and every object that is read exists. -/
structure AwaitsScript (w : World) (k : NamespacedName) (s : Scope) (h : ByoHost) : Prop
    extends ReadScope w k s where
  validLabel : isValidLabelValue k.labelValue = true
  named : s.byoMachine.labels.get .clusterName ≠ some ""
  infrastructure : ∃ ref, s.cluster.infrastructureRef = some ref ∧
    w.byoClusters.lookup ⟨s.byoMachine.ns, ref.name⟩ = some s.byoCluster
  infrastructureReady : s.cluster.infrastructureReady = true
  notPaused : isPaused s.cluster s.byoMachine.annotations = false
  notDeleted : s.byoMachine.deletionTimestamp = false
  dataSecretName : s.machine.dataSecretName.isSome = true
  version : s.machine.version.isSome = true
  installer : ∃ ref template, s.byoMachine.installerRef = some ref ∧
    w.installerTemplates.lookup ⟨ref.apiVersion, ref.kind, ref.ns, ref.name⟩ = some template ∧
      IsInstallerTemplate ref template
  host : w.hosts.lookup h.key = some h
  attached : Labelled k h
  supported : Installer.Supported h.hostDetails.osImage h.hostDetails.architecture
  noScript : h.installationSecret = none

/-- The configuration of the machine `m` is ready, or its controller would fill it in: the condition
has the reason it asks for, and the template is not paused. -/
def Fillable (w : World) (k : NamespacedName) (m : ByoMachine) : Prop :=
  (∃ c, w.installerConfigs.lookup (configKey k) = some c ∧ c.ready = .value true) ∨
    (m.conditions.getReason .byoHostReady = some .installationSecretNotAvailable ∧
      ∀ ref template spec, m.installerRef = some ref →
        w.installerTemplates.lookup ⟨ref.apiVersion, ref.kind, ref.ns, ref.name⟩ = some template →
          template.template = some spec → spec.annotations.get .paused = none)

/-- The three reconciles of the handshake. -/
def handshake (k : NamespacedName) (os₁ os₂ os₃ : List Outcome) : List Action :=
  [.reconcile (.byoMachine k) os₁, .reconcile (.k8sInstallerConfig k) os₂,
    .reconcile (.byoMachine k) os₃]

/-! ## Configurations of machines -/

/-- The configuration was created for the machine `m`, from the template that it references. -/
structure MadeFor (w : World) (m : ByoMachine) (c : InstallerConfig) : Prop where
  notDeleted : c.deletionTimestamp = false
  owner : c.ownerReferences = [{ apiVersion := groupVersion, kind := "ByoMachine", name := m.name
                                 uid := m.uid, controller := true }]
  annotated : ∃ ref template spec, m.installerRef = some ref ∧
    w.installerTemplates.lookup ⟨ref.apiVersion, ref.kind, ref.ns, ref.name⟩ = some template ∧
      template.template = some spec ∧ c.annotations.get .paused = spec.annotations.get .paused

theorem madeFor_created {w : World} {m : ByoMachine} {ref : ObjectReference}
    {template : InstallerTemplate} {version : String} {c : InstallerConfig}
    (href : m.installerRef = some ref)
    (htemplate : w.installerTemplates.lookup ⟨ref.apiVersion, ref.kind, ref.ns, ref.name⟩ =
      some template) (hmade : installerConfigFor m ref template version = .ok c) : MadeFor w m c := by
  unfold installerConfigFor generateTemplate at hmade
  split at hmade
  · cases hmade
  next spec hspec =>
    cases hmade
    exact ⟨rfl, rfl, ref, template, spec, href, htemplate, hspec, by simp⟩

/-- What a configuration was created from does not change. -/
theorem MadeFor.of_same {w w' : World} {m m' : ByoMachine} {c c' : InstallerConfig}
    (h : MadeFor w m c) (hw : w'.installerTemplates = w.installerTemplates)
    (hm : m'.name = m.name ∧ m'.uid = m.uid ∧ m'.installerRef = m.installerRef)
    (hc : c'.deletionTimestamp = c.deletionTimestamp ∧ c'.ownerReferences = c.ownerReferences ∧
      c'.annotations = c.annotations) : MadeFor w' m' c' := by
  obtain ⟨hname, huid, href⟩ := hm
  obtain ⟨hdeleted, howner, hannotations⟩ := hc
  refine ⟨hdeleted.trans h.notDeleted, ?_, ?_⟩
  · rw [howner, h.owner, hname, huid]
  · rw [href, hw, hannotations]
    exact h.annotated

/-! ## The invariant -/

/-- What a machine knows of its host, it has from a host with its label. -/
def InfoFromHost (w : World) (k : NamespacedName) (info : HostInfo) : Prop :=
  info = {} ∨ ∃ key h, w.hosts.lookup key = some h ∧ Labelled k h ∧ info = h.hostDetails

/-- The invariant of runs. -/
structure HandshakeInv (w : World) : Prop where
  configs : ConfigsOk w
  unique : UniqueLabels w
  labels : ∀ key h, w.hosts.lookup key = some h → h.attachedLabel ≠ none → h.clusterLabel ≠ none
  hostInfo : ∀ k m, w.machines.lookup k = some m → InfoFromHost w k m.hostInfo
  made : ∀ k m c, w.machines.lookup k = some m → w.installerConfigs.lookup (configKey k) = some c →
    MadeFor w m c

theorem UnattachedStart.inv {w : World} (h : UnattachedStart w) : HandshakeInv w where
  configs k c hc := by
    rw [h.configs] at hc
    cases hc
  unique k₁ h₁ k₂ h₂ hh₁ _ hsome _ := absurd (h.hosts k₁ h₁ hh₁) hsome
  labels key b hb hsome := absurd (h.hosts key b hb) hsome
  hostInfo k m hm := .inl (h.machines k m hm)
  made k m c _ hc := by
    rw [h.configs] at hc
    cases hc

section Step

variable {w w' : World} {k : NamespacedName} {scope : Scope} {how : Leave} {m : ByoMachine}

/-- A host keeps its label. -/
theorem labelled_kept (hw : HandshakeInv w) (hran : MachineRan w k scope how m w')
    {k' key : NamespacedName} {h : ByoHost} (hh : w.hosts.lookup key = some h)
    (hl : Labelled k' h) : ∃ h', w'.hosts.lookup key = some h' ∧ Labelled k' h' ∧
      h'.hostDetails = h.hostDetails := by
  obtain ⟨h', hh', hedited⟩ := hran.hosts.some hh
  refine ⟨h', hh', ?_, hedited.hostDetails⟩
  rcases hedited.labels with ⟨hsame, -⟩ | ⟨-, -, hfree, -⟩
  · exact hsame.trans hl
  · exact absurd hfree (hw.labels key h hh (by rw [hl]; exact nofun))

theorem InfoFromHost.machine {k' : NamespacedName} {info : HostInfo}
    (h : InfoFromHost w k' info) (hw : HandshakeInv w) (hran : MachineRan w k scope how m w') :
    InfoFromHost w' k' info := by
  rcases h with hempty | ⟨key, b, hb, hl, hinfo⟩
  · exact .inl hempty
  · obtain ⟨b', hb', hl', hdetails⟩ := labelled_kept hw hran hb hl
    exact .inr ⟨key, b', hb', hl', hinfo.trans hdetails.symm⟩

/-- The machine on the server, after a reconcile. -/
theorem machine_left (hran : MachineRan w k scope how m w') {m' : ByoMachine}
    (hm' : w'.machines.lookup k = some m') :
    m' = { scope.byoMachine with finalizers := m'.finalizers, providerID := m'.providerID
                                 hostInfo := m'.hostInfo, ready := m'.ready
                                 conditions := m'.conditions } ∧
      (m'.hostInfo = scope.byoMachine.hostInfo ∨ m'.hostInfo = m.hostInfo) := by
  obtain ⟨-, ⟨hnone, -⟩ | ⟨cur, hcur, hpatched, -⟩⟩ := hran.left
  · cases hnone.symm.trans hm'
  · cases hcur.symm.trans hm'
    exact ⟨(machine_of_patched hpatched).1, hostInfo_of_patched hpatched⟩

theorem HandshakeInv.machine (hw : HandshakeInv w) (hsound : Sound w)
    (hconfigs : ConfigsOk w') (hran : MachineRan w k scope how m w') : HandshakeInv w' where
  configs := hconfigs
  unique := hran.uniqueLabels hw.unique
  labels key h' hh' hsome := by
    obtain ⟨h, hh, hedited⟩ := hran.hosts.of_some hh'
    rcases hedited.labels with ⟨hattached, hcluster⟩ | ⟨-, hcluster, -⟩
    · rw [hcluster]
      exact hw.labels key h hh (hattached ▸ hsome)
    · exact hcluster
  hostInfo k' m' hm' := by
    by_cases hk : k' = k
    · subst hk
      rcases (machine_left hran hm').2 with heq | heq <;> rw [heq]
      · exact (hw.hostInfo k' _ hran.read.byoMachine).machine hw hran
      · rcases hran.hostInfo with hsame | hread
        · rw [hsame]
          exact (hw.hostInfo k' _ hran.read.byoMachine).machine hw hran
        · exact .inr hread
    · rw [hran.others k' hk] at hm'
      exact (hw.hostInfo k' m' hm').machine hw hran
  made k' m' c hm' hc := by
    have htemplates := hran.static.2.2.1
    -- the machine is the one that was read, as far as configurations depend on it
    obtain ⟨m₀, hm₀, hsame⟩ : ∃ m₀, w.machines.lookup k' = some m₀ ∧ m'.name = m₀.name ∧
        m'.uid = m₀.uid ∧ m'.installerRef = m₀.installerRef := by
      by_cases hk : k' = k
      · subst hk
        have heq := (machine_left hran hm').1
        exact ⟨_, hran.read.byoMachine, by rw [heq], by rw [heq], by rw [heq]⟩
      · rw [hran.others k' hk] at hm'
        exact ⟨m', hm', rfl, rfl, rfl⟩
    cases hran.configs with
    | none heq =>
      rw [heq] at hc
      exact (hw.made k' m₀ c hm₀ hc).of_same htemplates hsame ⟨rfl, rfl, rfl⟩
    | @created ref template version config hnormal href htemplate hversion hmade hnone heq =>
      rw [heq] at hc
      by_cases hkey : configKey k' = config.key
      · -- the configuration that was created is the one of the machine that was reconciled
        rw [hkey, AList.lookup_insert] at hc
        cases hc
        have hk : k' = k := by
          rw [installerConfigFor_key hmade, configKey, InstallerKey.mk.injEq] at hkey
          rw [← hsound.machines k _ hran.read.byoMachine, ByoMachine.key, ← hkey.2.2.1,
            ← hkey.2.2.2]
        subst hk
        cases hm₀.symm.trans hran.read.byoMachine
        exact (madeFor_created href htemplate hmade).of_same htemplates hsame ⟨rfl, rfl, rfl⟩
      · rw [AList.lookup_insert_ne hkey] at hc
        exact (hw.made k' m₀ c hm₀ hc).of_same htemplates hsame ⟨rfl, rfl, rfl⟩

/-- A reconcile of a configuration changes finalizers and status of one configuration. -/
theorem HandshakeInv.config (hw : HandshakeInv w) (hconfigs : ConfigsOk w') {skip : Bool}
    {ok : Outcome → Prop} (hran : ConfigRan skip ok k w w') : HandshakeInv w' := by
  have hrest := hran.rest
  have hkept : ∀ key c', w'.installerConfigs.lookup key = some c' →
      ∃ c, w.installerConfigs.lookup key = some c ∧ c'.deletionTimestamp = c.deletionTimestamp ∧
        c'.ownerReferences = c.ownerReferences ∧ c'.annotations = c.annotations := by
    intro key c' hc'
    cases hran with
    | idle => exact ⟨c', hc', rfl, rfl, rfl⟩
    | ran hread hbody honly hwritten =>
      by_cases hkey : key = configKey k
      · subst hkey
        rw [hc'] at hwritten
        refine ⟨_, hread, ?_⟩
        cases hwritten <;> exact ⟨rfl, rfl, rfl⟩
      · rw [honly.others key hkey, hbody.installerConfigs] at hc'
        exact ⟨c', hc', rfl, rfl, rfl⟩
  have hhosts : w'.hosts = w.hosts := by rw [hrest]
  have hmachines : w'.machines = w.machines := by rw [hrest]
  have htemplates : w'.installerTemplates = w.installerTemplates := by rw [hrest]
  refine ⟨hconfigs, ?_, ?_, ?_, ?_⟩
  · rw [UniqueLabels, hhosts]
    exact hw.unique
  · rw [hhosts]
    exact hw.labels
  · intro k' m' hm'
    rw [hmachines] at hm'
    rw [InfoFromHost, hhosts]
    exact hw.hostInfo k' m' hm'
  · intro k' m' c' hm' hc'
    rw [hmachines] at hm'
    obtain ⟨c, hc, hsame⟩ := hkept _ c' hc'
    exact (hw.made k' m' c hm' hc).of_same htemplates ⟨rfl, rfl, rfl⟩ hsame

/-- Pauses and changes of clusters leave hosts and configurations alone. -/
theorem HandshakeInv.env {a : EnvAction} {runs : NamespacedName → List AgentRun}
    (hw : HandshakeInv w) (hconfigs : ConfigsOk w') (ha : HandshakeAction ⟨w, runs⟩ (.env a))
    (h : envStep a w = some w') : HandshakeInv w' := by
  obtain ⟨hhosts, hinstallers, -, htemplates⟩ := envStep_rest h
  -- a machine is what it was but for its annotations
  have hkept : ∀ k' m', w'.machines.lookup k' = some m' → ∃ m₀, w.machines.lookup k' = some m₀ ∧
      m'.hostInfo = m₀.hostInfo ∧ m'.name = m₀.name ∧ m'.uid = m₀.uid ∧
        m'.installerRef = m₀.installerRef := by
    intro k' m' hm'
    cases a with
    | pauseByoMachine key paused =>
      simp only [envStep, Option.map_eq_some_iff] at h
      obtain ⟨m₀, hm₀, rfl⟩ := h
      by_cases hk : k' = key
      · subst hk
        rw [setMachine_lookup_self] at hm'
        split at hm'
        · cases hm'
        · cases hm'
          exact ⟨m₀, hm₀, rfl, rfl, rfl, rfl⟩
      · rw [setMachine_lookup_ne _ hk] at hm'
        exact ⟨m', hm', rfl, rfl, rfl, rfl⟩
    | putCluster c =>
      cases h
      exact ⟨m', hm', rfl, rfl, rfl, rfl⟩
    | _ => exact ha.elim
  refine ⟨hconfigs, ?_, ?_, ?_, ?_⟩
  · rw [UniqueLabels, hhosts]
    exact hw.unique
  · rw [hhosts]
    exact hw.labels
  · intro k' m' hm'
    obtain ⟨m₀, hm₀, hinfo, -⟩ := hkept k' m' hm'
    rw [InfoFromHost, hhosts, hinfo]
    exact hw.hostInfo k' m₀ hm₀
  · intro k' m' c hm' hc
    obtain ⟨m₀, hm₀, -, hsame⟩ := hkept k' m' hm'
    rw [hinstallers] at hc
    exact (hw.made k' m₀ c hm₀ hc).of_same htemplates hsame ⟨rfl, rfl, rfl⟩

theorem HandshakeInv.step {setup : Setup} {s s' : Site} {a : Action} (hsound : Sound s.world)
    (hw : HandshakeInv s.world) (hstep : SiteStep setup s a s') (ha : HandshakeAction s a) :
    HandshakeInv s'.world := by
  have hconfigs := hstep.configsOk hw.configs
  cases hstep with
  | idle => exact hw
  | machine hran => exact hw.machine hsound hconfigs hran
  | config hran => exact hw.config hconfigs (hran (fun _ => True) trivial fun _ _ => trivial)
  | byoHost => exact ha.elim
  | agent => exact ha.elim
  | env henv => exact hw.env hconfigs ha henv

end Step

/-! ## The three reconciles -/

section Handshake

variable {w w' : World} {k : NamespacedName} {s : Scope} {h : ByoHost} {m : ByoMachine}
  {setup : Setup} {st st' : Site} {os : List Outcome} {skip : Bool} {c : InstallerConfig}

/-- The reconcile finds what it needs. -/
theorem AwaitsScript.reconcilable (haw : AwaitsScript w k s h) (hsound : Sound w) :
    ∃ ref config, Reconcilable w k { s with byoHost := none } ref config := by
  obtain ⟨ref, template, href, htemplate, his⟩ := haw.installer
  obtain ⟨version, hversion⟩ := Option.isSome_iff_exists.1 haw.version
  obtain ⟨spec, hspec⟩ := Option.ne_none_iff_exists'.1 his.spec
  obtain ⟨config, hmade⟩ : ∃ config,
      installerConfigFor s.byoMachine ref template version = .ok config := by
    rw [installerConfigFor, generateTemplate, hspec]
    exact ⟨_, rfl⟩
  have hkey : s.byoMachine.key = k := hsound.machines k _ haw.byoMachine
  subst hkey
  have hfound : installerConfigKey s.byoMachine ref = configKey s.byoMachine.key := by
    have hkind : Text.deleteAll "K8sInstallerConfigTemplate" "Template" = "K8sInstallerConfig" := by
      decide +kernel
    rw [installerConfigKey, his.refVersion, his.refKind, hkind]
    rfl
  have hcreated : config.key = configKey s.byoMachine.key := by
    have hkind : Text.trimSuffix "K8sInstallerConfigTemplate" "Template" = "K8sInstallerConfig" := by
      decide +kernel
    rw [installerConfigFor_key hmade, his.version, his.kind, hkind]
    rfl
  exact ⟨ref, config, {
    byoMachine := haw.byoMachine
    machine := haw.machine
    cluster := haw.cluster
    installerRef := href
    found := hfound
    made := ⟨template, version, hversion, htemplate, hmade⟩
    key := hcreated
    noHost := rfl
    validLabel := haw.validLabel
    named := haw.named
    infrastructure := haw.infrastructure
    normal := by simp [isNormalScope, isPausedScope, haw.notPaused, haw.notDeleted]
    infrastructureReady := haw.infrastructureReady
    dataSecretName := haw.dataSecretName }⟩

/-- A reconcile of the machine without a failure: the reference is set, or the configuration is not
ready and waits for its controller. -/
theorem AwaitsScript.progress (haw : AwaitsScript w k s h) (hsound : Sound w) (hw : HandshakeInv w) :
    Prog.Ensures exec Succeeds (reconcile k) w fun _ w' => Published h.key w' ∨
      ∃ m c, w'.machines.lookup k = some m ∧ m.conditions = s.byoMachine.conditions ∧
        m.hostInfo = h.hostDetails ∧ w'.installerConfigs.lookup (configKey k) = some c ∧
          c.ready ≠ .value true ∧ (w.installerConfigs.lookup (configKey k) = some c ∨
            w.installerConfigs.lookup (configKey k) = none) := by
  obtain ⟨ref, config, hs⟩ := haw.reconcilable hsound
  have hinfo : (informedBy h s.byoMachine).hostInfo = h.hostDetails := by
    rcases hw.hostInfo k _ haw.byoMachine with hempty | ⟨key, h', hh', hl', hinfo⟩
    · rw [informedBy, hempty]
      rfl
    · -- the machine knows a host with its label, and that is this one
      have hkey : key = h.key := hw.unique key h' h.key h hh' haw.host (by rw [hl']; exact nofun)
        (hl'.trans haw.attached.symm)
      rw [hkey, haw.host] at hh'
      cases hh'
      rw [informedBy, hinfo]
      exact ite_self _
  refine (reconcile_progress hs hsound hw.configs hw.unique haw.host haw.attached haw.noScript).mono ?_
  rintro r w' (hpublished | ⟨m, c, hm, hconditions, hm', hrest⟩)
  · exact .inl hpublished
  · exact .inr ⟨m, c, hm, hconditions, hm'.trans hinfo, hrest⟩

/-- After a reconcile the machine still waits, unless its host has the reference. -/
theorem AwaitsScript.ran (haw : AwaitsScript w k s h) (hsound : Sound w) (hw : HandshakeInv w)
    {scope : Scope} {how : Leave} (hran : MachineRan w k scope how m w') :
    Published h.key w' ∨ ∃ m' h', h'.key = h.key ∧ h'.hostDetails = h.hostDetails ∧
      m'.installerRef = s.byoMachine.installerRef ∧
        AwaitsScript w' k { s with byoMachine := m' } h' := by
  obtain ⟨h', hh', hl', hdetails⟩ := labelled_kept hw hran haw.host haw.attached
  have hkey : h'.key = h.key := (hran.sound hsound).hosts _ h' hh'
  have hscope : scope.byoMachine = s.byoMachine :=
    Option.some.inj (hran.read.byoMachine.symm.trans haw.byoMachine)
  -- the machine is not being deleted, so it is still there
  obtain ⟨m', hm'⟩ : ∃ m', w'.machines.lookup k = some m' := by
    obtain ⟨-, ⟨-, hdeleting, -⟩ | ⟨m', hm', -⟩⟩ := hran.left
    · rw [hscope, haw.notDeleted] at hdeleting
      cases hdeleting
    · exact ⟨m', hm'⟩
  have heq := (machine_left hran hm').1
  rw [hscope] at heq
  obtain ⟨hcapi, hclusters, htemplates, hbyoClusters⟩ := hran.static
  cases hset : h'.installationSecret with
  | some ref => exact .inl ⟨h', hh', by rw [hset]; exact nofun⟩
  | none =>
    refine .inr ⟨m', h', hkey, hdetails, by rw [heq], ?_⟩
    exact {
      byoMachine := hm'
      machine := by
        rw [heq, hcapi]
        exact haw.machine
      cluster := by
        rw [heq, hclusters]
        exact haw.cluster
      validLabel := haw.validLabel
      named := by
        rw [heq]
        exact haw.named
      infrastructure := by
        rw [heq, hbyoClusters]
        exact haw.infrastructure
      infrastructureReady := haw.infrastructureReady
      notPaused := by
        rw [heq]
        exact haw.notPaused
      notDeleted := by
        rw [heq]
        exact haw.notDeleted
      dataSecretName := haw.dataSecretName
      version := haw.version
      installer := by
        rw [heq, htemplates]
        exact haw.installer
      host := by
        rw [hkey]
        exact hh'
      attached := hl'
      supported := by
        rw [hdetails]
        exact haw.supported
      noScript := hset }

theorem AwaitsScript.reconciled (haw : AwaitsScript st.world k s h) (hsound : Sound st.world)
    (hw : HandshakeInv st.world) (hstep : SiteStep setup st (.reconcile (.byoMachine k) os) st') :
    Published h.key st'.world ∨ ∃ m' h', h'.key = h.key ∧ h'.hostDetails = h.hostDetails ∧
      m'.installerRef = s.byoMachine.installerRef ∧
        AwaitsScript st'.world k { s with byoMachine := m' } h' := by
  cases hstep with
  | idle => exact .inr ⟨s.byoMachine, h, rfl, rfl, rfl, haw⟩
  | machine hran => exact haw.ran hsound hw hran

/-- A reconcile of a configuration leaves what the machine waits with alone. -/
theorem AwaitsScript.configured (haw : AwaitsScript w k s h) {ok : Outcome → Prop}
    (hran : ConfigRan skip ok k w w') : AwaitsScript w' k s h := by
  rw [hran.rest]
  exact { haw with }

/-- The controller finds the machine of a configuration through its owner reference. -/
theorem MadeFor.owned (hmade : MadeFor w m c) (hsound : Sound w) (hm : w.machines.lookup k = some m)
    (hc : w.installerConfigs.lookup (configKey k) = some c) :
    findOwner "ByoMachine" group c.ownerReferences = .ok (some m.name) ∧
      w.machines.lookup ⟨c.ns, m.name⟩ = some m := by
  have hgroup : parseGroup groupVersion = .ok group := by decide +kernel
  refine ⟨by simp [hmade.owner, findOwner, hgroup], ?_⟩
  have hconfig : c.key = configKey k := hsound.configs _ c hc
  have hmachine : m.key = k := hsound.machines k m hm
  rw [InstallerConfig.key, configKey, InstallerKey.mk.injEq] at hconfig
  rw [hconfig.2.2.1, ← hmachine]
  rw [← hmachine] at hm
  exact hm

/-- The controller of the configuration fills it in. -/
theorem filled_in (hsound : Sound w) (haw : AwaitsScript w k { s with byoMachine := m } h)
    (hreason : m.conditions.getReason .byoHostReady = some .installationSecretNotAvailable)
    (hinfo : m.hostInfo = h.hostDetails) (hmade : MadeFor w m c)
    (hpaused : c.annotations.get .paused = none)
    (hc : w.installerConfigs.lookup (configKey k) = some c) (hready : c.ready ≠ .value true)
    (hran : ConfigRan skip Succeeds k w w') :
    ∃ c', w'.installerConfigs.lookup (configKey k) = some c' ∧ c'.ready = .value true := by
  obtain ⟨i, hi⟩ := Installer.newInstaller_ok_of_supported haw.supported
    ((c.annotations.get .k8sVersion).getD "") c.bundleRepo skip
  obtain ⟨name, hname, hcluster⟩ := haw.cluster
  have hgen : Generates skip w c m s.cluster i := {
    owner := ⟨m.name, hmade.owned hsound haw.byoMachine hc⟩
    inCluster := ⟨name, hname, fun hempty => haw.named (hempty ▸ hname), hcluster⟩
    notPaused := by
      have hnot := haw.notPaused
      simp only [isPaused, Bool.or_eq_false_iff] at hnot ⊢
      exact ⟨hnot.1, by rw [hpaused]; rfl⟩
    waits := ⟨hreason, hready, hmade.notDeleted⟩
    installer := by
      rw [hinfo]
      exact hi }
  cases hran with
  | idle hwhy =>
    rcases hwhy with hnone | hfails
    · exact absurd hgen (hnone c m s.cluster i hc)
    · exact absurd hfails not_fails_succeeds
  | @ran c₀ c' w₁ w' hread hbody honly hwritten =>
    obtain rfl : c = c₀ := Option.some.inj (hc.symm.trans hread)
    have hset : c'.ready = .value true := by
      cases hbody with
      | left _ hwhy =>
        rcases hwhy with hnone | hfails
        · exact absurd hgen (hnone m s.cluster i)
        · exact absurd hfails not_fails_succeeds
      | installStored _ hfails => exact absurd hfails not_fails_succeeds
      | stored _ hc' =>
        obtain ⟨f, rfl⟩ := hc'
        rfl
    generalize hx : w'.installerConfigs.lookup (configKey k) = x at hwritten
    cases hwritten with
    | gone hdeleting =>
      rw [hmade.notDeleted] at hdeleting
      cases hdeleting
    | kept f hsame =>
      rcases hsame with hfails | hsame
      · exact absurd hfails not_fails_succeeds
      · exact absurd ((congrArg InstallerConfig.ready hsame).symm.trans hset) hready
    | written f => exact ⟨_, rfl, hset⟩

/-- The configuration of the machine, if there is one, is not ready. -/
def Unready (w : World) (k : NamespacedName) : Prop :=
  ∀ c, w.installerConfigs.lookup (configKey k) = some c → c.ready ≠ .value true

/-- While its configuration is not ready, no reconcile of the machine sets the reference. -/
theorem AwaitsScript.unpublished (haw : AwaitsScript st.world k s h) (hsound : Sound st.world)
    (hunready : Unready st.world k)
    (hstep : SiteStep setup st (.reconcile (.byoMachine k) os) st') :
    ¬Published h.key st'.world := by
  rintro ⟨h', hh', hset⟩
  cases hstep with
  | idle =>
    cases haw.host.symm.trans hh'
    exact hset haw.noScript
  | machine hran =>
    obtain ⟨h₀, hh₀, hedited⟩ := hran.hosts.of_some hh'
    cases haw.host.symm.trans hh₀
    refine hset (hedited.invariant (P := fun b => b.installationSecret = none) (fun hsame hb => ?_)
      (fun hreason hb hpatched => ?_) haw.noScript)
    · exact hsame.installationSecret.symm.trans hb
    · rcases hpatched.edit_installationSecret with heq | ⟨r, rfl, -⟩
      · exact heq.trans hb
      · -- the reference would come from a ready configuration, at the key of this machine's
        obtain ⟨ref, config, hs⟩ := haw.reconcilable hsound
        obtain ⟨-, -, -, ref', config', href', hconfig', hready, -⟩ := hreason
        rw [Option.some.inj (hran.read.byoMachine.symm.trans haw.byoMachine)] at href' hconfig'
        cases hs.installerRef.symm.trans href'
        exact absurd hready (hunready config' (hs.found ▸ hconfig'))

/-- Its controller does not fill the configuration in while the machine does not ask for it, or the
configuration is paused. -/
theorem MadeFor.not_generates {m' : ByoMachine} {cluster : Cluster} {i : Installer.K8sInstaller}
    (hmade : MadeFor w m c) (hsound : Sound w) (hm : w.machines.lookup k = some m)
    (hc : w.installerConfigs.lookup (configKey k) = some c)
    (hnot : m.conditions.getReason .byoHostReady ≠ some .installationSecretNotAvailable ∨
      c.annotations.get .paused ≠ none) : ¬Generates skip w c m' cluster i := by
  intro hgen
  obtain ⟨howner, hfound⟩ := hmade.owned hsound hm hc
  obtain ⟨name, howner', hfound'⟩ := hgen.owner
  cases howner.symm.trans howner'
  cases hfound.symm.trans hfound'
  rcases hnot with hreason | hpaused
  · exact hreason hgen.waits.1
  · have hunpaused := hgen.notPaused
    simp only [isPaused, Bool.or_eq_false_iff] at hunpaused
    exact hpaused (by simpa using hunpaused.2)

theorem Unready.configured {ok : Outcome → Prop} (hunready : Unready w k)
    (hnone : ∀ c m cluster i, w.installerConfigs.lookup (configKey k) = some c →
      ¬Generates skip w c m cluster i) (hran : ConfigRan skip ok k w w') : Unready w' k := by
  cases hran with
  | idle => exact hunready
  | @ran c c' w₁ w' hread hbody honly hwritten =>
    have hready : c'.ready = c.ready := by
      cases hbody with
      | left hleaves =>
        obtain ⟨f, rfl⟩ := hleaves
        rfl
      | installStored hgen => exact absurd hgen (hnone c _ _ _ hread)
      | stored hgen => exact absurd hgen (hnone c _ _ _ hread)
    intro c₁ hc₁
    rw [hc₁] at hwritten
    cases hwritten with
    | kept => exact hunready c hread
    | written => exact fun h => hunready c hread (hready.symm.trans h)

/-- A reference that is set stays through reconciles of machines and of configurations. -/
theorem published_step {key : NamespacedName} {a : Action} (hpublished : Published key st.world)
    (hstep : SiteStep setup st a st') (ha : HandshakeAction st a) : Published key st'.world := by
  obtain ⟨b, hb, hset⟩ := hpublished
  obtain ⟨b', hb', hchange⟩ := hstep.hostsVia.some hb
  refine ⟨b', hb', ?_⟩
  cases hchange with
  | same => exact hset
  | edited _ _ hedited => exact hedited.installationSecret hset
  | cleared _ hcleared =>
    rw [hcleared.installationSecret]
    exact hset
  | agent hagent =>
    rw [hagent] at ha
    exact ha.elim

/-- The world after a reconcile of a machine. -/
theorem machine_act (setup : Setup) (st : Site) (k : NamespacedName) (os : List Outcome) :
    (setup.act st (.reconcile (.byoMachine k) os)).world =
      (Prog.run exec os (reconcile k) st.world).2 := by
  simp only [Setup.act, Setup.program, run_dropped]

/-- The world after a reconcile of a configuration. -/
theorem config_act (setup : Setup) (st : Site) (k : NamespacedName) (os : List Outcome) :
    (setup.act st (.reconcile (.k8sInstallerConfig k) os)).world =
      (Prog.run exec os (K8sInstallerConfigReconciler.reconcile setup.skipKernelModuleCleanup k)
        st.world).2 := by
  simp only [Setup.act, Setup.program, run_dropped]

theorem machine_templates (hstep : SiteStep setup st (.reconcile (.byoMachine k) os) st') :
    st'.world.installerTemplates = st.world.installerTemplates := by
  cases hstep with
  | idle => rfl
  | machine hran => exact hran.static.2.2.1

/-- The machine has its host, and its configuration is ready: one reconcile sets the reference. -/
theorem published_of_ready (hsound : Sound st.world) (hw : HandshakeInv st.world)
    (haw : AwaitsScript st.world k s h)
    (hc : st.world.installerConfigs.lookup (configKey k) = some c) (hready : c.ready = .value true)
    (hos : ∀ o ∈ os, Succeeds o) :
    Published h.key (setup.act st (.reconcile (.byoMachine k) os)).world := by
  rw [machine_act]
  rcases haw.progress hsound hw os hos with hpublished | ⟨m, c', -, -, -, -, hnot, hsame | hnone⟩
  · exact hpublished
  · cases hsame.symm.trans hc
    exact absurd hready hnot
  · rw [hnone] at hc
    cases hc

end Handshake

/-- In every run of machine and configuration reconciles, pauses and changes of the infrastructure:
if a machine waits for the install script of its host, and its configuration is ready or would be
filled in, the three reconciles of the handshake without a failure set the reference. -/
theorem handshake_completes {setup : Setup} {s₀ st : Site} {as : List Action}
    (hsound : Sound s₀.world) (hstart : UnattachedStart s₀.world)
    (hrun : ActionRun setup.act HandshakeAction s₀ as st) {k : NamespacedName} {s : Scope}
    {h : ByoHost} (haw : AwaitsScript st.world k s h) (hfill : Fillable st.world k s.byoMachine)
    {os₁ os₂ os₃ : List Outcome} (hos₁ : ∀ o ∈ os₁, Succeeds o) (hos₂ : ∀ o ∈ os₂, Succeeds o)
    (hos₃ : ∀ o ∈ os₃, Succeeds o) :
    Published h.key ((handshake k os₁ os₂ os₃).foldl setup.act st).world := by
  obtain ⟨hsound, hw⟩ := site_run_invariant (fun hs hI ha hstep => HandshakeInv.step hs hI hstep ha)
    hrun hsound hstart.inv
  simp only [handshake, List.foldl_cons, List.foldl_nil]
  have hstep₁ := act_step setup hsound (.reconcile (.byoMachine k) os₁)
  have hsound₁ := hstep₁.sound hsound
  have hw₁ := HandshakeInv.step hsound hw hstep₁ trivial
  have hstep₂ := act_step setup hsound₁ (.reconcile (.k8sInstallerConfig k) os₂)
  have hsound₂ := hstep₂.sound hsound₁
  have hw₂ := HandshakeInv.step hsound₁ hw₁ hstep₂ trivial
  have hstep₃ := act_step setup hsound₂ (.reconcile (.byoMachine k) os₃)
  -- a reference that the first reconcile sets is not removed by the other two
  have hearly : Published h.key (setup.act st (.reconcile (.byoMachine k) os₁)).world → _ :=
    fun hpublished => published_step (published_step hpublished hstep₂ trivial) hstep₃ trivial
  rcases hfill with ⟨c, hc, hready⟩ | ⟨hreason, htemplates⟩
  · exact hearly (published_of_ready hsound hw haw hc hready hos₁)
  have hprogress := haw.progress hsound hw os₁ hos₁
  rw [← machine_act setup] at hprogress
  rcases hprogress with hpublished | ⟨m, c, hm, hconditions, hinfo, hc, hnot, -⟩
  · exact hearly hpublished
  rcases haw.reconciled hsound hw hstep₁ with hpublished | ⟨m', h', hkey, hdetails, href, haw₁⟩
  · exact hearly hpublished
  obtain rfl : m = m' := Option.some.inj (hm.symm.trans haw₁.byoMachine)
  -- the configuration is still empty, and the machine asks for it as it did before
  have hmade := hw₁.made k m c hm hc
  have hpaused : c.annotations.get .paused = none := by
    obtain ⟨ref, template, spec, hm', htemplate, hspec, hsame⟩ := hmade.annotated
    rw [machine_templates hstep₁] at htemplate
    exact hsame.trans (htemplates ref template spec (href ▸ hm') htemplate hspec)
  have hran₂ : ConfigRan setup.skipKernelModuleCleanup Succeeds k
      (setup.act st (.reconcile (.byoMachine k) os₁)).world _ :=
    configStep_ensures succeeds_default (fun c hc => hsound₁.configs _ c hc) os₂ hos₂
  rw [← config_act setup] at hran₂
  obtain ⟨c', hc', hready⟩ := filled_in hsound₁ haw₁ (hconditions ▸ hreason)
    (hinfo.trans hdetails.symm) hmade hpaused hc hnot hran₂
  rw [← hkey]
  exact published_of_ready hsound₂ hw₂ (haw₁.configured hran₂) hc' hready hos₃

/-- The condition is exact: if the configuration is neither ready nor would be filled in, the host
has no reference after the three reconciles, whatever the last two of them meet. -/
theorem handshake_waits {setup : Setup} {s₀ st : Site} {as : List Action}
    (hsound : Sound s₀.world) (hstart : UnattachedStart s₀.world)
    (hrun : ActionRun setup.act HandshakeAction s₀ as st) {k : NamespacedName} {s : Scope}
    {h : ByoHost} (haw : AwaitsScript st.world k s h) (hnot : ¬Fillable st.world k s.byoMachine)
    {os₁ os₂ os₃ : List Outcome} (hos₁ : ∀ o ∈ os₁, Succeeds o) :
    ¬Published h.key ((handshake k os₁ os₂ os₃).foldl setup.act st).world := by
  obtain ⟨hsound, hw⟩ := site_run_invariant (fun hs hI ha hstep => HandshakeInv.step hs hI hstep ha)
    hrun hsound hstart.inv
  simp only [handshake, List.foldl_cons, List.foldl_nil]
  have hunready : Unready st.world k := fun c hc hready => hnot (.inl ⟨c, hc, hready⟩)
  have hstep₁ := act_step setup hsound (.reconcile (.byoMachine k) os₁)
  have hsound₁ := hstep₁.sound hsound
  have hw₁ := HandshakeInv.step hsound hw hstep₁ trivial
  have hnone₁ := haw.unpublished hsound hunready hstep₁
  have hprogress := haw.progress hsound hw os₁ hos₁
  rw [← machine_act setup] at hprogress
  obtain ⟨m, c, hm, hconditions, -, hc, hempty, -⟩ := hprogress.resolve_left hnone₁
  obtain ⟨m', h', hkey, -, href, haw₁⟩ := (haw.reconciled hsound hw hstep₁).resolve_left hnone₁
  obtain rfl : m = m' := Option.some.inj (hm.symm.trans haw₁.byoMachine)
  -- the controller is kept from the configuration by what kept it before
  have hmade := hw₁.made k m c hm hc
  have hblocked : m.conditions.getReason .byoHostReady ≠ some .installationSecretNotAvailable ∨
      c.annotations.get .paused ≠ none := by
    refine or_iff_not_imp_right.2 fun hpaused hreason => hnot (.inr ⟨hconditions ▸ hreason, ?_⟩)
    intro ref template spec hm' htemplate hspec
    obtain ⟨ref', template', spec', hm'', htemplate', hspec', hsame⟩ := hmade.annotated
    rw [machine_templates hstep₁] at htemplate'
    cases (href.trans hm').symm.trans hm''
    cases htemplate.symm.trans htemplate'
    cases hspec.symm.trans hspec'
    exact hsame.symm.trans (not_not.1 hpaused)
  have hstep₂ := act_step setup hsound₁ (.reconcile (.k8sInstallerConfig k) os₂)
  have hran₂ : ConfigRan setup.skipKernelModuleCleanup (fun _ => True) k
      (setup.act st (.reconcile (.byoMachine k) os₁)).world _ :=
    configStep_ensures trivial (fun c hc => hsound₁.configs _ c hc) os₂ fun _ _ => trivial
  rw [← config_act setup] at hran₂
  have hunready₁ : Unready (setup.act st (.reconcile (.byoMachine k) os₁)).world k :=
    fun c' hc' => by cases hc.symm.trans hc'; exact hempty
  have hunready₂ := hunready₁.configured (fun c' m' cluster i hc' => by
    cases hc.symm.trans hc'
    exact hmade.not_generates hsound₁ hm hc hblocked) hran₂
  rw [← hkey]
  have hsound₂ := hstep₂.sound hsound₁
  exact (haw₁.configured hran₂).unpublished hsound₂ hunready₂
    (act_step setup hsound₂ (.reconcile (.byoMachine k) os₃))

/-! ## Runs of a small cluster -/

theorem unattachedStart_small (hosts machines : List String) :
    UnattachedStart (Small.world hosts machines) where
  hosts key h hh := by
    obtain ⟨name, rfl, rfl⟩ := Small.hosts_lookup hh
    rfl
  configs key := rfl
  machines k m hm := by
    obtain ⟨name, rfl, rfl⟩ := Small.machines_lookup hm
    rfl

/-- The objects that a reconcile of `k` reads. -/
def readScope (w : World) (k : NamespacedName) : Option Scope :=
  (w.machines.lookup k).bind fun byoMachine =>
  (findOwner "Machine" clusterGroup byoMachine.ownerReferences).toOption.join.bind fun owner =>
  (w.capiMachines.lookup ⟨byoMachine.ns, owner⟩).bind fun machine =>
  (byoMachine.labels.get .clusterName).bind fun name =>
  (w.clusters.lookup ⟨byoMachine.ns, name⟩).bind fun cluster =>
  cluster.infrastructureRef.bind fun ref =>
  (w.byoClusters.lookup ⟨byoMachine.ns, ref.name⟩).map fun byoCluster =>
    { cluster, machine, byoCluster, byoMachine }

theorem readScope_eq_some {w : World} {k : NamespacedName} {s : Scope}
    (h : readScope w k = some s) : ReadScope w k s ∧ ∃ ref,
      s.cluster.infrastructureRef = some ref ∧
        w.byoClusters.lookup ⟨s.byoMachine.ns, ref.name⟩ = some s.byoCluster := by
  simp only [readScope, Option.bind_eq_some_iff, Option.map_eq_some_iff] at h
  obtain ⟨m, hm, owner, howner, machine, hmachine, name, hname, cluster, hcluster, ref, href,
    byoCluster, hbyoCluster, rfl⟩ := h
  refine ⟨⟨hm, ⟨owner, ?_, hmachine⟩, name, hname, hcluster⟩, ref, href, hbyoCluster⟩
  cases hfind : findOwner "Machine" clusterGroup m.ownerReferences with
  | error e =>
    rw [hfind] at howner
    cases howner
  | ok found =>
    rw [hfind] at howner
    exact congrArg Except.ok howner

/-- The machine waits for the install script of the host `key`, and its condition has the reason
that is asked for, or not. -/
def isAwaiting (w : World) (k key : NamespacedName) (reason : Bool) : Bool :=
  (readScope w k).any fun s => (w.hosts.lookup key).any fun h =>
    s.byoMachine.installerRef.any fun ref =>
    (w.installerTemplates.lookup ⟨ref.apiVersion, ref.kind, ref.ns, ref.name⟩).any fun template =>
    template.template.any fun spec =>
    Installer.getSupportedRegistry.any fun reg =>
      decide (isValidLabelValue k.labelValue = true ∧
        s.byoMachine.labels.get .clusterName ≠ some "" ∧
        s.cluster.infrastructureReady = true ∧
        isPaused s.cluster s.byoMachine.annotations = false ∧
        s.byoMachine.deletionTimestamp = false ∧ s.machine.dataSecretName.isSome = true ∧
        s.machine.version.isSome = true ∧ h.key = key ∧ Labelled k h ∧
        h.installationSecret = none) &&
      decide (ref.apiVersion = groupVersion ∧ ref.kind = "K8sInstallerConfigTemplate" ∧
        template.apiVersion = groupVersion ∧ template.kind = "K8sInstallerConfigTemplate" ∧
        spec.annotations.get .paused = none) &&
      !(reg.listK8s (Installer.osArch h.hostDetails.osImage h.hostDetails.architecture)).isEmpty &&
      decide (s.byoMachine.conditions.getReason .byoHostReady =
        some .installationSecretNotAvailable) == reason

theorem awaits_of_isAwaiting {w : World} {k key : NamespacedName} {reason : Bool}
    (hcheck : isAwaiting w k key reason = true) : ∃ s h, h.key = key ∧ AwaitsScript w k s h ∧
      (reason = true → Fillable w k s.byoMachine) := by
  simp only [isAwaiting, Option.any_eq_true, Bool.and_eq_true, decide_eq_true_eq,
    Bool.not_eq_true', beq_iff_eq] at hcheck
  obtain ⟨s, hs, h, hh, ref, href, template, htemplate, spec, hspec, reg, hreg,
    ⟨⟨⟨hlabel, hnamed, hinfra, hpaused, hdeleted, hdata, hversion, hkey, hattached, hnone⟩,
      hrefVersion, hrefKind, htemplateVersion, hkind, hunpaused⟩, hlist⟩, hreason⟩ := hcheck
  obtain ⟨hread, hinfrastructure⟩ := readScope_eq_some hs
  have haw : AwaitsScript w k s h := { hread with
    validLabel := hlabel
    named := hnamed
    infrastructure := hinfrastructure
    infrastructureReady := hinfra
    notPaused := hpaused
    notDeleted := hdeleted
    dataSecretName := hdata
    version := hversion
    installer := ⟨ref, template, href, htemplate, hrefVersion, hrefKind, htemplateVersion, hkind,
      by rw [hspec]; exact nofun⟩
    host := hkey ▸ hh
    attached := hattached
    supported := ⟨reg, hreg, hlist⟩
    noScript := hnone }
  refine ⟨s, h, hkey, haw, fun htrue => .inr ⟨?_, fun ref' template' spec' href' htemplate' hspec' => ?_⟩⟩
  · rw [htrue] at hreason
    simpa using hreason
  · cases href.symm.trans href'
    cases htemplate.symm.trans htemplate'
    cases hspec.symm.trans hspec'
    exact hunpaused

/-- The machine is attached, then paused and unpaused without a reconcile in between, its cluster
loses and regains its infrastructure, and a reconcile of the configuration fails to write. -/
def undisturbed : List Action :=
  [Small.reconcile (.byoMachine (Small.key "m1")),
    .env (.pauseByoMachine (Small.key "m1") true), .env (.pauseByoMachine (Small.key "m1") false),
    .env (.putCluster { Small.cluster with infrastructureReady := false }),
    .env (.putCluster Small.cluster),
    .reconcile (.k8sInstallerConfig (Small.key "m1")) (List.replicate 8 { writeOk := false })]

theorem handshake_completes_undisturbed :
    let st := undisturbed.foldl (Setup.act {}) { world := Small.world ["h1"] ["m1"] }
    isAwaiting st.world (Small.key "m1") (Small.key "h1") true = true ∧
      Published (Small.key "h1")
        ((handshake (Small.key "m1") [] [] []).foldl (Setup.act {}) st).world := by
  have hawaits : isAwaiting (undisturbed.foldl (Setup.act {})
      { world := Small.world ["h1"] ["m1"] }).world (Small.key "m1") (Small.key "h1") true = true := by
    decide +kernel
  refine ⟨hawaits, ?_⟩
  obtain ⟨s, h, hkey, haw, hfill⟩ := awaits_of_isAwaiting hawaits
  rw [← hkey]
  exact handshake_completes (sound_small ["h1"] ["m1"]) (unattachedStart_small ["h1"] ["m1"])
    (.of_allowed (by decide +kernel)) haw (hfill rfl) nofun nofun nofun

/-- The machine is attached, paused, reconciled and unpaused. -/
def pausedAfterAttachment : List Action :=
  [Small.reconcile (.byoMachine (Small.key "m1")), .env (.pauseByoMachine (Small.key "m1") true),
    Small.reconcile (.byoMachine (Small.key "m1")), .env (.pauseByoMachine (Small.key "m1") false)]

/-- The reconcile of the paused machine has overwritten the reason, and the configuration is never
filled in: after the handshake the host is still without an install script. -/
theorem handshake_stuck : ∃ as st s h,
    ActionRun (Setup.act {}) HandshakeAction { world := Small.world ["h1"] ["m1"] } as st ∧
      AwaitsScript st.world (Small.key "m1") s h ∧
      ¬Published h.key ((handshake (Small.key "m1") [] [] []).foldl (Setup.act {}) st).world := by
  have hawaits : isAwaiting (pausedAfterAttachment.foldl (Setup.act {})
      { world := Small.world ["h1"] ["m1"] }).world (Small.key "m1") (Small.key "h1") false = true := by
    decide +kernel
  obtain ⟨s, h, hkey, haw, -⟩ := awaits_of_isAwaiting hawaits
  refine ⟨pausedAfterAttachment, _, s, h, .of_allowed (by decide +kernel), haw, ?_⟩
  rw [hkey]
  rintro ⟨b, hb, hset⟩
  have hnone : (((handshake (Small.key "m1") [] [] []).foldl (Setup.act {})
      (pausedAfterAttachment.foldl (Setup.act {}) { world := Small.world ["h1"] ["m1"] })
        ).world.hosts.lookup (Small.key "h1")).all (·.installationSecret.isNone) = true := by
    decide +kernel
  rw [hb] at hnone
  exact hset (Option.isNone_iff_eq_none.1 hnone)

end Byoh.Properties
