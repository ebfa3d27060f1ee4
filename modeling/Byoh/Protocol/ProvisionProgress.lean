import Byoh.Protocol.ReleaseProgress

/-!
# Reconciles that provision a host

What the reconciles have to do that bring a new machine to a node, when nothing fails:

* the first reconcile of the machine creates its installer configuration and attaches a host of the
  pool (`reconcile_attaches`);
* the reconcile of the configuration stores the scripts (`config_stores`);
* a reconcile of a machine whose configuration is ready gives its host the references to the scripts,
  and takes over the provider ID once the node is there (`reconcile_supplies`);
* the agent installs and bootstraps its host (`agent_bootstraps`).
-/

set_option autoImplicit false

namespace Byoh.Protocol

open Byoh.Foundation Byoh.Model
open Byoh.Model.K8sInstallerConfigReconciler (configKey installSecretRef uninstallSecretRef)

/-! ## Reconciles of the machine -/

section Machine

open Byoh.Model.ByoMachineReconciler

variable {w w' w'' : World} {k : NamespacedName} {s sc : Scope} {ref : ObjectReference}
  {config : InstallerConfig} {h : ByoHost} {key : NamespacedName} {host : Option ByoHost}
  {selector : Selector} {dataSecretName version : String} {s₀ : Scope} {c : InstallerConfig}

/-- What a reconcile of a machine writes at all: one host, machines, configurations and nodes. -/
structure Worked (key : NamespacedName) (w w' : World) : Prop where
  hosts : ∀ key', key' ≠ key → w'.hosts.lookup key' = w.hosts.lookup key'
  rest : w' = { w with hosts := w'.hosts, informer := w'.informer, machines := w'.machines
                       installerConfigs := w'.installerConfigs, nodes := w'.nodes }
  informer : w.informer = none → w'.informer = none

theorem Worked.of_onlyHost (h : OnlyHost key w w') : Worked key w w' where
  hosts := h.others
  rest := by
    rw [h.rest]
  informer := h.informer

theorem Worked.trans (h : Worked key w w') (h' : Worked key w' w'') : Worked key w w'' where
  hosts key' hne := (h'.hosts key' hne).trans (h.hosts key' hne)
  rest := by
    rw [h'.rest, h.rest]
  informer hnone := h'.informer (h.informer hnone)

/-- The same hosts, and the same objects that are only read. -/
theorem Worked.of_hosts_eq (hhosts : w'.hosts = w.hosts)
    (hrest : w' = { w with machines := w'.machines, installerConfigs := w'.installerConfigs
                           nodes := w'.nodes }) : Worked key w w' where
  hosts _ _ := by rw [hhosts]
  rest := by
    rw [hrest]
  informer hnone := by
    rw [hrest]
    exact hnone

theorem InScope.sameMachine (hscope : InScope s host sc) :
    SameMachine s.byoMachine sc.byoMachine := by
  obtain ⟨providerID, hostInfo, ready, conditions, hm, -⟩ := hscope.byoMachine
  rw [hm]
  rfl

/-- A reconcile that fetches `host` runs `reconcileNormal` on it and patches the machine. -/
theorem Reconcilable.runs {P : Scope → World → Prop} (hs : Reconcilable w k s ref config)
    (hkey : s.byoMachine.key = k)
    (hfetch : GoM.Ensures exec Succeeds (fetchAttachedByoHost s.byoMachine.name s.byoMachine.ns) s w
      fun r s' w' => r = .ok host ∧ s' = s ∧ w' = w)
    (hbody : GoM.Ensures exec Succeeds reconcileNormal { s with byoHost := host } w fun _ sc w' =>
      SameMachine s.byoMachine sc.byoMachine ∧ w'.machines = w.machines ∧ P sc w') :
    Prog.Ensures exec Succeeds (reconcile k) w fun _ w'' => ∃ sc w', P sc w' ∧
      SameMachine s.byoMachine sc.byoMachine ∧ w''.machines.lookup k = some sc.byoMachine ∧
        w'' = { w' with machines := w''.machines } := by
  have hnormal : isPaused s.cluster s.byoMachine.annotations = false ∧
      s.byoMachine.deletionTimestamp = false := by
    simpa [isNormalScope, isPausedScope] using hs.normal
  refine hs.readable.reads (.deferred (.get_bind (.bind (hfetch.mono ?_))))
  rintro r s' w' ⟨rfl, hs', hw'⟩
  subst s' w'
  refine .modify_bind ?_
  rw [if_neg (by rw [hnormal.1]; exact Bool.false_ne_true),
    if_neg (by rw [hnormal.2]; exact Bool.false_ne_true)]
  refine hbody.mono ?_
  rintro r sc w' ⟨hsame, hmachines, hP⟩
  have hb : w'.machines.lookup s.byoMachine.key = some s.byoMachine := by
    rw [hmachines, hkey]
    exact hs.byoMachine
  refine (patchByoMachine_ensures hb hnormal.2 hsame).mono ?_
  rintro e w'' ⟨hm, hrest⟩
  exact ⟨sc, w', hP, hsame, hkey ▸ hm, hrest⟩

/-- The objects that reconciles of machines only read are the same. -/
structure SameCluster (w w' : World) : Prop where
  capiMachines : w'.capiMachines = w.capiMachines
  clusters : w'.clusters = w.clusters
  byoClusters : w'.byoClusters = w.byoClusters
  installerTemplates : w'.installerTemplates = w.installerTemplates

theorem SameCluster.of_worked (hworked : Worked key w w') : SameCluster w w' := by
  constructor <;> rw [hworked.rest]

theorem SameCluster.of_onlyHost (honly : OnlyHost key w w') : SameCluster w w' := by
  constructor <;> rw [honly.rest]

/-- A machine stays reconcilable while only its status and the status of others is written. -/
theorem Reconcilable.kept {m : ByoMachine} (hs : Reconcilable w k s ref config)
    (hsame : SameCluster w w') (hm : w'.machines.lookup k = some m)
    (hmachine : SameMachine s.byoMachine m) :
    Reconcilable w' k { s with byoMachine := m } ref config := by
  rw [SameMachine] at hmachine
  have hlabels : m.labels = s.byoMachine.labels := by rw [hmachine]
  have hns : m.ns = s.byoMachine.ns := by rw [hmachine]
  have howners : m.ownerReferences = s.byoMachine.ownerReferences := by rw [hmachine]
  obtain ⟨template, version, hversion, htemplate, hmade⟩ := hs.made
  refine {
    byoMachine := hm
    machine := ?_
    cluster := ?_
    installerRef := ?_
    found := ?_
    made := ⟨template, version, hversion, ?_, ?_⟩
    key := hs.key
    noHost := hs.noHost
    validLabel := hs.validLabel
    named := ?_
    infrastructure := ?_
    normal := ?_
    infrastructureReady := hs.infrastructureReady
    dataSecretName := hs.dataSecretName }
  · rw [howners, hns, hsame.capiMachines]
    exact hs.machine
  · rw [hlabels, hns, hsame.clusters]
    exact hs.cluster
  · rw [← hs.installerRef, hmachine]
  · rw [← hs.found, hmachine]
    rfl
  · rw [hsame.installerTemplates]
    exact htemplate
  · rw [← hmade, hmachine]
    rfl
  · rw [hlabels]
    exact hs.named
  · rw [hns, hsame.byoClusters]
    exact hs.infrastructure
  · rw [← hs.normal, hmachine]
    rfl

/-! ### A machine without a host -/

/-- A host that `attachByoHost` may pick. -/
structure Candidate (w : World) (selector : Selector) (ns : String) (h : ByoHost) : Prop where
  stored : w.hosts.lookup h.key = some h
  ns : h.ns = ns
  selected : selector.matches h.labels = true
  free : h.clusterLabel = none

theorem Candidate.congr {w₁ : World} {ns : String} (hhosts : w₁.hosts = w.hosts) :
    Candidate w₁ selector ns h ↔ Candidate w selector ns h := by
  constructor
  · rintro ⟨hstored, hns, hselected, hfree⟩
    exact ⟨hhosts ▸ hstored, hns, hselected, hfree⟩
  · rintro ⟨hstored, hns, hselected, hfree⟩
    exact ⟨hhosts ▸ hstored, hns, hselected, hfree⟩

theorem candidate_iff_mem_listHosts {ns : String} (pick : Nat) (hkeys : WellKeyed w)
    (hfresh : w.informer = none) :
    h ∈ listHosts w (selector ++ [notInCluster]) (some ns) pick ↔ Candidate w selector ns h := by
  have hview : w.hostView = w.hosts := by rw [World.hostView, hfresh]
  have hfree : notInCluster.matches h.labels = true ↔ h.clusterLabel = none := by
    simp [Requirement.matches, notInCluster, ByoHost.clusterLabel]
  have hmatches : (selector ++ [notInCluster]).matches h.labels = true ↔
      selector.matches h.labels = true ∧ h.clusterLabel = none := by
    rw [Selector.matches_append, Bool.and_eq_true, ← hfree]
    simp [Selector.matches]
  rw [mem_listHosts, hview, hmatches]
  constructor
  · rintro ⟨⟨key, hkey⟩, ⟨hselected, hfree⟩, hns⟩
    refine ⟨(hkeys key h hkey).symm ▸ hkey, ?_, hselected, hfree⟩
    simpa [eq_comm] using hns
  · rintro ⟨hstored, hns, hselected, hfree⟩
    exact ⟨⟨h.key, hstored⟩, ⟨hselected, hfree⟩, by simp [hns]⟩

theorem Reconciled.attached {m m' : ByoMachine} (hm : Reconciled m none m') :
    Reconciled m host m' := by
  obtain ⟨providerID, hostInfo, ready, conditions, hm', hinfo⟩ := hm
  refine ⟨providerID, hostInfo, ready, conditions, hm', .inl ?_⟩
  rcases hinfo with hinfo | ⟨h, hh, -⟩
  · exact hinfo
  · cases hh

/-- A host of the pool is attached. -/
theorem attachByoHost_ensures (hscope : InScope s none sc)
    (hselector : machineSelector s.byoMachine = .ok selector)
    (hdata : s.machine.dataSecretName = some dataSecretName)
    (hversion : s.machine.version = some version) (hkeys : WellKeyed w) (hfresh : w.informer = none)
    (hsome : ∃ h, Candidate w selector s.byoMachine.ns h) :
    GoM.Ensures exec Succeeds attachByoHost sc w fun r sc' w' => r = .ok {} ∧
      ∃ h, Candidate w selector s.byoMachine.ns h ∧
        InScope s (some ((attachmentFor s dataSecretName version).apply h)) sc' ∧
        sc'.byoMachine = sc.byoMachine ∧
        OnServer ((attachmentFor s dataSecretName version).apply h) w' ∧ OnlyHost h.key w w' := by
  refine .get_bind ?_
  rw [hscope.byoHost, hscope.machineSelector, hselector, hscope.ns]
  simp only [Option.isSome_none, Bool.false_eq_true, if_false, GoM.ofExcept_ok, GoM.pure_bind]
  refine .call_bind succeeds_default fun o ho => ?_
  rw [exec, if_pos ho.1]
  cases hlist : listHosts w (selector ++ [notInCluster]) (some s.byoMachine.ns) o.pick with
  | nil =>
    obtain ⟨h, hh⟩ := hsome
    have hmem := (candidate_iff_mem_listHosts o.pick hkeys hfresh).2 hh
    rw [hlist] at hmem
    cases hmem
  | cons h rest =>
    have hcandidate : Candidate w selector s.byoMachine.ns h :=
      (candidate_iff_mem_listHosts o.pick hkeys hfresh).1 (hlist ▸ List.mem_cons_self)
    simp only [hscope.machine, hdata, hversion, GoM.deref_some, GoM.pure_bind, hscope.attachmentFor]
    refine .lift_bind ((patchByoHost_edit (.attach (attachmentFor s dataSecretName version))
      ⟨h, hcandidate.stored, .refl h⟩).mono ?_)
    rintro e w' ⟨rfl, hh', honly⟩
    refine .modify_bind (.pure ⟨rfl, h, hcandidate, ?_, rfl, hh', honly⟩)
    exact ⟨hscope.cluster, hscope.machine, hscope.byoCluster, rfl, hscope.byoMachine.attached⟩

/-- The machine, which waits for the scripts of its host. -/
def awaiting (m : ByoMachine) : ByoMachine :=
  { m with conditions :=
      m.conditions.markFalse .byoHostReady .installationSecretNotAvailable .info "" }

/-- A machine without a host reserves one of the pool. -/
theorem reserveHost_attaches (hscope : InScope s none sc)
    (hselector : machineSelector s.byoMachine = .ok selector)
    (hdata : s.machine.dataSecretName = some dataSecretName)
    (hversion : s.machine.version = some version) (hkeys : WellKeyed w) (hfresh : w.informer = none)
    (hsome : ∃ h, Candidate w selector s.byoMachine.ns h) :
    GoM.Ensures exec Succeeds reserveHost sc w fun r sc' w' => r = .ok () ∧
      ∃ h, Candidate w selector s.byoMachine.ns h ∧
        InScope s (some ((attachmentFor s dataSecretName version).apply h)) sc' ∧
        sc'.byoMachine = awaiting sc.byoMachine ∧
        OnServer ((attachmentFor s dataSecretName version).apply h) w' ∧ OnlyHost h.key w w' := by
  refine .get_bind ?_
  rw [hscope.byoHost]
  refine .bind ((attachByoHost_ensures hscope hselector hdata hversion hkeys hfresh hsome).mono ?_)
  rintro r sc' w' ⟨rfl, h, hh, hscope', hsc', hserver, honly⟩
  refine .ret ⟨rfl, h, hh, hscope'.markFalse .installationSecretNotAvailable, ?_, hserver, honly⟩
  rw [← hsc']
  rfl

/-- What the first reconcile of a machine leaves, with the host `h` that it picked. -/
structure Attaches (w : World) (k : NamespacedName) (s : Scope) (attachment : Attachment)
    (config : InstallerConfig) (h : ByoHost) (m : ByoMachine) (w' : World) : Prop where
  worked : Worked h.key w w'
  host : OnServer (attachment.apply h) w'
  config : w'.installerConfigs.lookup (configKey k) = some config
  hostInfo : m.hostInfo = (informedBy h s.byoMachine).hostInfo
  waits : m.conditions.getReason .byoHostReady = some .installationSecretNotAvailable

/-- The host that was attached waits for its scripts. -/
theorem reconcileAttached_waits (hscope : InScope s₀ (some h) sc)
    (href : s₀.byoMachine.installerRef = some ref)
    (hkey : installerConfigKey s₀.byoMachine ref = configKey k)
    (hnone : h.installationSecret = none) (hc : w.installerConfigs.lookup (configKey k) = some c)
    (hready : c.ready ≠ .value true) :
    GoM.Ensures exec Succeeds reconcileAttached sc w fun _ sc' w' =>
      w' = w ∧ sc'.byoMachine = informedBy h sc.byoMachine := by
  refine .get_bind ?_
  simp only [hscope.byoHost, GoM.deref_some, GoM.pure_bind]
  refine .bind ((fillHostInfo_ensures h).mono ?_)
  rintro r sc₁ w₁ ⟨rfl, hw₁, hsc₁⟩
  subst w₁ sc₁
  have hsome : sc.byoMachine.installerRef.isSome = true := by
    rw [hscope.installerRef, href]
    rfl
  rw [publishInstallationSecret, hsome, hnone]
  refine .bind ((setSecretForByoHost_waits (hscope.informedBy.installerRef.trans href)
    ((hscope.informedBy.installerConfigKey ref).trans hkey) hc hready).mono ?_)
  rintro r sc₂ w₂ ⟨hw₂, hsc₂, rfl | ⟨e, rfl⟩⟩ <;> subst w₂ sc₂
  · exact .pure ⟨rfl, rfl⟩
  · exact ⟨rfl, rfl⟩

/-- `reconcileNormal` of a machine that has neither a host nor a configuration. -/
theorem reconcileNormal_attaches (hs : Reconcilable w k s ref config)
    (hnew : w.installerConfigs.lookup (configKey k) = none)
    (hselector : machineSelector s.byoMachine = .ok selector)
    (hdata : s.machine.dataSecretName = some dataSecretName)
    (hversion : s.machine.version = some version) (hkeys : WellKeyed w) (hfresh : w.informer = none)
    (hsome : ∃ h, Candidate w selector s.byoMachine.ns h)
    (hbare : ∀ h, Candidate w selector s.byoMachine.ns h → h.installationSecret = none) :
    GoM.Ensures exec Succeeds reconcileNormal { s with byoHost := none } w fun _ sc w' =>
      SameMachine s.byoMachine sc.byoMachine ∧ w'.machines = w.machines ∧
        ∃ h, Candidate w selector s.byoMachine.ns h ∧
          Attaches w k s (attachmentFor s dataSecretName version) config h sc.byoMachine w' := by
  refine .modify_get_bind fun sc hsc => ?_
  have hscope : InScope s none sc := by
    rw [hsc]
    exact ⟨rfl, rfl, rfl, rfl, _, _, _, _, rfl, .inl rfl⟩
  have hmachine : sc.byoMachine = { s.byoMachine with finalizers := sc.byoMachine.finalizers } := by
    rw [hsc]
  have hnoHost : GoM.when sc.byoHost.isSome (setPausedConditionForByoHost false) = pure () := by
    rw [hscope.byoHost]
    rfl
  rw [hnoHost, GoM.pure_bind]
  refine .bind ((hs.creates hscope hscope.installerRef rfl).mono ?_)
  rintro r sc₁ w₁ ⟨rfl, hsc₁, hw₁, c, hc, hfound⟩
  subst sc₁
  obtain rfl : c = config := by
    rcases hfound with hfound | ⟨-, rfl⟩
    · cases hnew.symm.trans hfound
    · rfl
  have hready : (!sc.cluster.infrastructureReady) = false := by
    rw [hscope.cluster, hs.infrastructureReady]
    rfl
  have hdataSome : sc.machine.dataSecretName.isNone = false := by
    rw [hscope.machine, hdata]
    rfl
  simp only [hready, hdataSome, Bool.false_eq_true, if_false]
  -- the hosts are still those of the start
  have hhosts : w₁.hosts = w.hosts := by rw [hw₁]
  have hkeys₁ : WellKeyed w₁ := by
    rw [WellKeyed, hhosts]
    exact hkeys
  have hfresh₁ : w₁.informer = none := by
    rw [hw₁]
    exact hfresh
  have hsome₁ : ∃ h, Candidate w₁ selector s.byoMachine.ns h :=
    hsome.imp fun h => (Candidate.congr hhosts).2
  refine .bind ((reserveHost_attaches hscope hselector hdata hversion hkeys₁ hfresh₁ hsome₁).mono ?_)
  rintro r sc₂ w₂ ⟨rfl, h, hcandidate, hscope₂, hsc₂, hserver, honly⟩
  have hh : Candidate w selector s.byoMachine.ns h := (Candidate.congr hhosts).1 hcandidate
  have hconfig : w₂.installerConfigs.lookup (configKey k) = some c := by
    rw [honly.rest]
    exact hc
  have hnotReady : c.ready ≠ .value true := by
    obtain ⟨template, version, -, -, hmade⟩ := hs.made
    rw [(installerConfigFor_ready hmade).1]
    intro hready
    cases hready
  refine (reconcileAttached_waits hscope₂ hs.installerRef hs.found (hbare h hh) hconfig hnotReady).mono ?_
  rintro r sc₃ w₃ ⟨hw₃, hsc₃⟩
  subst w₃
  have hworked : Worked h.key w w₂ :=
    (Worked.of_hosts_eq hhosts (by rw [hw₁])).trans (.of_onlyHost honly)
  refine ⟨?_, ?_, h, hh, hworked, hserver, hconfig, ?_, ?_⟩
  · rw [hsc₃, hsc₂, hmachine]
    rfl
  · rw [honly.rest, hw₁]
  · rw [hsc₃, hsc₂, hmachine]
    rfl
  · rw [hsc₃, hsc₂]
    exact Conditions.getReason_markFalse ..

/-- **The first reconcile.** A machine that has neither a host nor a configuration gets both. -/
theorem reconcile_attaches (hs : Reconcilable w k s ref config) (hkey : s.byoMachine.key = k)
    (hnew : w.installerConfigs.lookup (configKey k) = none) (hnone : NoneLabelled k w)
    (hselector : machineSelector s.byoMachine = .ok selector)
    (hdata : s.machine.dataSecretName = some dataSecretName)
    (hversion : s.machine.version = some version) (hkeys : WellKeyed w) (hfresh : w.informer = none)
    (hsome : ∃ h, Candidate w selector s.byoMachine.ns h)
    (hbare : ∀ h, Candidate w selector s.byoMachine.ns h → h.installationSecret = none) :
    Prog.Ensures exec Succeeds (reconcile k) w fun _ w' => ∃ h m,
      Candidate w selector s.byoMachine.ns h ∧ w'.machines.lookup k = some m ∧
        SameMachine s.byoMachine m ∧
          Attaches w k s (attachmentFor s dataSecretName version) config h m w' := by
  have hfetch : GoM.Ensures exec Succeeds (fetchAttachedByoHost s.byoMachine.name s.byoMachine.ns) s w
      fun r s' w' => r = .ok none ∧ s' = s ∧ w' = w := hs.readable.fetches_head hkey fun pick => by
    have hmemory := inMemory_fetched hkeys hfresh hkey pick
    cases hfetched : (listHosts w (attachedSelector s.byoMachine) none pick).head? with
    | none => rfl
    | some h =>
      obtain ⟨⟨key, hh⟩, hl⟩ := labelled_of_fetched hfetched
      rw [World.hostView, hfresh] at hh
      exact absurd (hkey ▸ hl) (hnone key h hh)
  refine (hs.runs hkey hfetch (reconcileNormal_attaches hs hnew hselector hdata hversion hkeys hfresh
    hsome hbare)).mono ?_
  rintro r w'' ⟨sc, w', ⟨h, hh, ha⟩, hsame, hm, hrest⟩
  refine ⟨h, sc.byoMachine, hh, hm, hsame, ?_, ?_, ?_, ha.hostInfo, ha.waits⟩
  · exact ha.worked.trans (.of_hosts_eq (by rw [hrest]) (by rw [hrest]))
  · rw [OnServer, hrest]
    exact ha.host
  · rw [hrest]
    exact ha.config

/-! ### A machine with a host whose configuration is ready -/

/-- The host with the references of the configuration where it has none. -/
def supplied (c : InstallerConfig) (h : ByoHost) : ByoHost :=
  let installable := if h.installationSecret.isNone then
    withInstallationSecret (installSecretRef c) h else h
  if h.uninstallationSecret.isNone then
    withUninstallationSecret (uninstallSecretRef c) installable else installable

/-- Only the references differ. -/
theorem supplied_eq (c : InstallerConfig) (h : ByoHost) : supplied c h =
    { h with
      installationSecret := (supplied c h).installationSecret
      uninstallationSecret := (supplied c h).uninstallationSecret } := by
  unfold supplied
  split <;> split <;> rfl

theorem supplied_name (c : InstallerConfig) (h : ByoHost) : (supplied c h).name = h.name := by
  rw [supplied_eq]

theorem supplied_installationSecret (c : InstallerConfig) (hnone : h.installationSecret = none) :
    (supplied c h).installationSecret = some (installSecretRef c) := by
  simp only [supplied, hnone, Option.isNone_none, if_true]
  split <;> rfl

/-- A reference is set, or there is one already. -/
theorem setSecret_ensures {missing : Bool} {field : InstallerConfig → Nested ObjectReference}
    (edit : ObjectReference → HostEdit) {what convert : String} {secret : ObjectReference}
    (hscope : InScope s₀ (some h) sc) (href : s₀.byoMachine.installerRef = some ref)
    (hkey : installerConfigKey s₀.byoMachine ref = configKey k) (hh : OnServer h w)
    (hc : w.installerConfigs.lookup (configKey k) = some c) (hready : c.ready = .value true)
    (hfield : field c = .value secret) :
    GoM.Ensures exec Succeeds (if missing then
      setSecretForByoHost field (fun r => (edit r).apply) what convert else pure {}) sc w
      fun r sc' w' => r = .ok {} ∧
        InScope s₀ (some (if missing then (edit secret).apply h else h)) sc' ∧
        sc'.byoMachine = sc.byoMachine ∧ OnServer (if missing then (edit secret).apply h else h) w' ∧
        OnlyHost h.key w w' := by
  cases missing with
  | false => exact .pure ⟨rfl, hscope, rfl, hh, .refl _ _⟩
  | true =>
    refine (setSecretForByoHost_ensures edit (hscope.installerRef.trans href)
      ((hscope.installerConfigKey ref).trans hkey) hscope.byoHost hh hc hready hfield).mono ?_
    rintro r sc' w' ⟨rfl, hsc', hh', honly⟩
    subst sc'
    exact ⟨rfl, ⟨hscope.cluster, hscope.machine, hscope.byoCluster, rfl, hscope.byoMachine.apply _⟩,
      rfl, hh', honly⟩

/-- The machine is ready, and its provider ID is one of the node `name`. -/
def HasProviderID (m : ByoMachine) (name : String) : Prop :=
  m.ready = true ∧ ∃ suffix, suffix.length = providerIDSuffixLength ∧
    m.providerID = providerIDPrefix ++ name ++ "/" ++ suffix

/-- The key of the cluster that the machine is in. -/
def clusterKey (s : Scope) : NamespacedName := ⟨s.cluster.ns, s.cluster.name⟩

theorem length_randomChars (n seed : Nat) : (randomChars n seed).length = n := by
  induction n generalizing seed with
  | zero => rfl
  | succ n ih => rw [randomChars, List.length_cons, ih]

theorem getRemoteClient_ensures (hscope : InScope s₀ host sc)
    (hcluster : ∃ name, s₀.byoMachine.labels.get .clusterName = some name ∧ name ≠ "" ∧
      w.clusters.lookup ⟨s₀.byoMachine.ns, name⟩ = some s₀.cluster) :
    GoM.Ensures exec Succeeds (getRemoteClient sc.byoMachine) sc w fun r sc' w' =>
      r = .ok (clusterKey s₀) ∧ sc' = sc ∧ w' = w := by
  obtain ⟨name, hname, hne, hlookup⟩ := hcluster
  have hlabels : sc.byoMachine.labels = s₀.byoMachine.labels := by
    rw [show sc.byoMachine = _ from hscope.sameMachine]
  refine .lift_bind ((getClusterFromMetadata_ensures succeeds_default sc.byoMachine).mono ?_)
  rintro r w' ⟨hw', ⟨cluster, label, rfl, hlabel, -, hfound⟩ | ⟨e, -, hwhy⟩⟩ <;> subst w'
  · rw [hlabels, hname] at hlabel
    cases hlabel
    rw [hscope.ns, hlookup] at hfound
    cases hfound
    simp only [GoM.ofExcept_ok, GoM.pure_bind]
    refine .call_bind succeeds_default fun o ho => ?_
    rw [exec, if_pos ho.1]
    exact .pure ⟨rfl, rfl, rfl⟩
  · rcases hwhy with hnone | hfails
    · refine absurd hlookup ?_
      have hnot := hnone s₀.cluster name (hlabels.symm ▸ hname) hne
      rwa [hscope.ns] at hnot
    · exact absurd hfails not_fails_succeeds

/-- A node that has no provider ID gets one; otherwise the nodes at most are different. -/
theorem setNodeProviderID_ensures (cluster : NamespacedName) :
    GoM.Ensures exec Succeeds (setNodeProviderID cluster h) sc w fun r sc' w' => sc' = sc ∧
      w' = { w with nodes := w'.nodes } ∧ (w.nodes.lookup (cluster, h.name) = some "" →
        ∃ suffix, suffix.length = providerIDSuffixLength ∧
          r = .ok (providerIDPrefix ++ h.name ++ "/" ++ suffix)) := by
  refine .call_bind succeeds_default fun o ho => ?_
  rw [exec]
  cases hnode : w.nodes.lookup (cluster, h.name) with
  | none =>
    rw [readObject_missing ho]
    exact .throw ⟨rfl, rfl, fun hnone => by cases hnone⟩
  | some providerID =>
    rw [readObject_succeeds ho]
    by_cases hempty : providerID = ""
    · subst hempty
      simp only [ne_eq, not_true_eq_false, if_false]
      refine .call_bind succeeds_default fun o' _ => .call_bind succeeds_default fun o ho => ?_
      simp only [exec, writeObject, ho.2, hnode, if_true]
      refine .pure ⟨rfl, rfl, fun _ => ⟨_, ?_, rfl⟩⟩
      rw [String.length_ofList]
      exact length_randomChars _ _
    · have hnot : (some providerID : Option String) ≠ some "" := fun heq =>
        hempty (Option.some.inj heq)
      simp only [ne_eq, hempty, not_false_eq_true, if_true]
      split
      · exact .pure ⟨rfl, rfl, fun h => absurd h hnot⟩
      · exact .throw ⟨rfl, rfl, fun h => absurd h hnot⟩

theorem updateNodeProviderID_ensures (hscope : InScope s₀ (some h) sc)
    (hcluster : ∃ name, s₀.byoMachine.labels.get .clusterName = some name ∧ name ≠ "" ∧
      w.clusters.lookup ⟨s₀.byoMachine.ns, name⟩ = some s₀.cluster) :
    GoM.Ensures exec Succeeds updateNodeProviderID sc w fun _ sc' w' =>
      SameMachine s₀.byoMachine sc'.byoMachine ∧ w' = { w with nodes := w'.nodes } ∧
        (w.nodes.lookup (clusterKey s₀, h.name) = some "" → HasProviderID sc'.byoMachine h.name) := by
  refine .get_bind (.bind ((getRemoteClient_ensures hscope hcluster).mono ?_))
  rintro r sc₁ w₁ ⟨rfl, hsc₁, hw₁⟩
  subst sc₁ w₁
  simp only [hscope.byoHost, GoM.deref_some, GoM.pure_bind]
  refine .bind ((setNodeProviderID_ensures (clusterKey s₀)).mono ?_)
  rintro r sc₁ w₁ ⟨hsc₁, hw₁, hjoined⟩
  subst sc₁
  have hsame := hscope.sameMachine
  cases r with
  | err e => exact ⟨hsame, hw₁, fun h => by obtain ⟨_, -, he⟩ := hjoined h; cases he⟩
  | panic m => exact ⟨hsame, hw₁, fun h => by obtain ⟨_, -, he⟩ := hjoined h; cases he⟩
  | ok providerID =>
    refine .modify_bind (.pure ⟨?_, hw₁, fun hnode => ⟨rfl, ?_⟩⟩)
    · rw [SameMachine, show sc.byoMachine = _ from hsame]
    · obtain ⟨suffix, hlength, he⟩ := hjoined hnode
      exact ⟨suffix, hlength, Exit.ok.inj he⟩

/-- What a reconcile of a machine with a host leaves. -/
structure Supplies (w : World) (k : NamespacedName) (s : Scope) (c : InstallerConfig) (h : ByoHost)
    (m : ByoMachine) (w' : World) : Prop where
  worked : Worked h.key w w'
  host : OnServer (supplied c h) w'
  config : w'.installerConfigs.lookup (configKey k) = some c
  joined : w.nodes.lookup (clusterKey s, h.name) = some "" → HasProviderID m h.name

theorem reconcileAttached_supplies (hscope : InScope s₀ (some h) sc)
    (href : s₀.byoMachine.installerRef = some ref)
    (hkey : installerConfigKey s₀.byoMachine ref = configKey k) (hh : OnServer h w)
    (hc : w.installerConfigs.lookup (configKey k) = some c) (hready : c.ready = .value true)
    (hok : ConfigOk c)
    (hcluster : ∃ name, s₀.byoMachine.labels.get .clusterName = some name ∧ name ≠ "" ∧
      w.clusters.lookup ⟨s₀.byoMachine.ns, name⟩ = some s₀.cluster) :
    GoM.Ensures exec Succeeds reconcileAttached sc w fun _ sc' w' =>
      SameMachine s₀.byoMachine sc'.byoMachine ∧ w'.machines = w.machines ∧
        Supplies w k s₀ c h sc'.byoMachine w' := by
  refine .get_bind ?_
  simp only [hscope.byoHost, GoM.deref_some, GoM.pure_bind]
  refine .bind ((fillHostInfo_ensures h).mono ?_)
  rintro r sc₁ w₁ ⟨rfl, hw₁, hsc₁⟩
  subst w₁ sc₁
  have hsome : sc.byoMachine.installerRef.isSome = true := by
    rw [hscope.installerRef, href]
    rfl
  rw [publishInstallationSecret, hsome, Bool.true_and]
  refine .bind ((setSecret_ensures .install hscope.informedBy href hkey hh hc hready
    (hok.ready hready).1).mono ?_)
  rintro r sc₁ w₁ ⟨rfl, hscope₁, hsame₁, hh₁, honly₁⟩
  have hc₁ : w₁.installerConfigs.lookup (configKey k) = some c := by
    rw [honly₁.rest]
    exact hc
  simp only [gt_iff_lt, Nat.lt_irrefl, if_false]
  rw [publishUninstallationSecret, hsome, Bool.true_and]
  refine .bind ((setSecret_ensures .uninstall hscope₁ href hkey hh₁ hc₁ hready
    (hok.ready hready).2).mono ?_)
  rintro r sc₂ w₂ ⟨rfl, hscope₂, hsame₂, hh₂, honly₂⟩
  simp only [Nat.lt_irrefl, if_false]
  -- both patches were of the same host
  have hkeys : (if h.installationSecret.isNone then (HostEdit.install (installSecretRef c)).apply h
      else h).key = h.key := by
    split <;> rfl
  rw [hkeys] at honly₂
  have hrest : ∀ {α : Type} (p : World → α), (∀ w' hosts informer, p { w' with hosts, informer } = p w') →
      p w₂ = p w := by
    intro α p hp
    rw [honly₂.rest, hp, honly₁.rest, hp]
  refine (updateNodeProviderID_ensures hscope₂ ((hrest (·.clusters) fun _ _ _ => rfl) ▸ hcluster)).mono ?_
  rintro r sc₃ w₃ ⟨hsame₃, hw₃, hjoined⟩
  have hworked : Worked h.key w w₃ :=
    ((Worked.of_onlyHost honly₁).trans (.of_onlyHost honly₂)).trans
      (.of_hosts_eq (by rw [hw₃]) (by rw [hw₃]))
  refine ⟨hsame₃, ?_, hworked, ?_, ?_, fun hnode => ?_⟩
  · rw [hw₃]
    exact hrest (·.machines) fun _ _ _ => rfl
  · rw [OnServer, hw₃]
    exact hh₂
  · rw [hw₃]
    exact (hrest (·.installerConfigs) fun _ _ _ => rfl) ▸ hc
  · rw [← hrest (·.nodes) fun _ _ _ => rfl] at hnode
    have hjoined' : w₂.nodes.lookup (clusterKey s₀, (supplied c h).name) = some "" →
      HasProviderID sc₃.byoMachine (supplied c h).name := hjoined
    rw [supplied_name] at hjoined'
    exact hjoined' hnode

/-- `reconcileNormal` with the host in its scope, of a machine whose configuration is ready. -/
theorem reconcileNormal_supplies (hs : Reconcilable w k s ref config)
    (hh : w.hosts.lookup h.key = some h) (hc : w.installerConfigs.lookup (configKey k) = some c)
    (hready : c.ready = .value true) (hok : ConfigOk c) :
    GoM.Ensures exec Succeeds reconcileNormal { s with byoHost := some h } w fun _ sc w' =>
      SameMachine s.byoMachine sc.byoMachine ∧ w'.machines = w.machines ∧
        Supplies w k s c (pausedHost false h) sc.byoMachine w' := by
  refine hs.withHost hh fun sc w₁ w₂ c' hscope _ honly hw₂ hh₂ hc' hfound => ?_
  -- the configuration was there, so none has been created
  obtain rfl : c' = c := by
    rcases hfound with hfound | ⟨hnone, -⟩
    · exact Option.some.inj (hfound.symm.trans hc)
    · cases hc.symm.trans hnone
  obtain ⟨name, hname, hlookup⟩ := hs.cluster
  have hcluster : w₂.clusters.lookup ⟨s.byoMachine.ns, name⟩ = some s.cluster := by
    rw [hw₂, honly.rest]
    exact hlookup
  refine (reconcileAttached_supplies hscope hs.installerRef hs.found hh₂ hc' hready hok
    ⟨name, hname, fun hempty => hs.named (hempty ▸ hname), hcluster⟩).mono ?_
  rintro r sc' w' ⟨hsame, hmachines, hsupplies⟩
  have hworked : Worked h.key w w₂ :=
    (Worked.of_onlyHost honly).trans (.of_hosts_eq (by rw [hw₂]) (by rw [hw₂]))
  refine ⟨hsame, ?_, hworked.trans hsupplies.worked, hsupplies.host, hsupplies.config,
    fun hnode => ?_⟩
  · rw [hmachines, hw₂, honly.rest]
  · refine hsupplies.joined ?_
    rw [hw₂, honly.rest]
    exact hnode

/-- **A later reconcile.** A machine whose configuration is ready gives its host the references to
the scripts; if the node of the host has joined the cluster, the machine takes over a provider ID. -/
theorem reconcile_supplies (hs : Reconcilable w k s ref config) (hkey : s.byoMachine.key = k)
    (hkeys : WellKeyed w) (hfresh : w.informer = none) (hh : w.hosts.lookup h.key = some h)
    (hlabelled : Labelled k h) (honly : OnlyLabelled k h.key w)
    (hc : w.installerConfigs.lookup (configKey k) = some c) (hready : c.ready = .value true)
    (hok : ConfigOk c) :
    Prog.Ensures exec Succeeds (reconcile k) w fun _ w' => ∃ m, w'.machines.lookup k = some m ∧
      SameMachine s.byoMachine m ∧ Supplies w k s c (pausedHost false h) m w' := by
  have hfetch := hs.readable.fetches hkey hkeys hfresh hh hlabelled honly
  refine (hs.runs hkey hfetch (reconcileNormal_supplies hs hh hc hready hok)).mono ?_
  rintro r w'' ⟨sc, w', hsupplies, hsame, hm, hrest⟩
  refine ⟨sc.byoMachine, hm, hsame, ?_, ?_, ?_, hsupplies.joined⟩
  · exact hsupplies.worked.trans (.of_hosts_eq (by rw [hrest]) (by rw [hrest]))
  · rw [OnServer, hrest]
    exact hsupplies.host
  · rw [hrest]
    exact hsupplies.config

end Machine

/-! ## The reconcile of the configuration -/

section Config

open Byoh.Model.K8sInstallerConfigReconciler

variable {skip : Bool} {w w' : World} {k : NamespacedName} {c : InstallerConfig} {m : ByoMachine}
  {cluster : Cluster} {i : Installer.K8sInstaller}

/-- The configuration that its reconcile has filled in. -/
def filledIn (c : InstallerConfig) (finalizers : List String) : InstallerConfig :=
  { c with
    finalizers := finalizers
    ready := .value true
    installationSecret := .value (installSecretRef c)
    uninstallationSecret := .value (uninstallSecretRef c) }

theorem configOk_filledIn (c : InstallerConfig) (finalizers : List String) :
    ConfigOk (filledIn c finalizers) where
  install _ href := (Nested.value.inj href).symm
  uninstall _ href := (Nested.value.inj href).symm
  ready _ := ⟨rfl, rfl⟩

/-- What the reconcile of a configuration leaves that stores the scripts `i`. -/
structure Stores (w : World) (k : NamespacedName) (c : InstallerConfig) (w' : World) : Prop where
  config : ∃ finalizers, w'.installerConfigs.lookup (configKey k) = some (filledIn c finalizers)
  rest : w' = { w with installerConfigs := w'.installerConfigs, secrets := w'.secrets }
  secrets : ∃ cluster install uninstall, w'.secrets =
    ((w.withSecret (installSecret c cluster install)).withSecret
      (uninstallSecret c cluster uninstall)).secrets

/-- **The reconcile of the configuration** of a machine that waits for its scripts stores them. -/
theorem config_stores (hkeys : ∀ c, w.installerConfigs.lookup (configKey k) = some c →
      c.key = configKey k) (hc : w.installerConfigs.lookup (configKey k) = some c)
    (hgen : Generates skip w c m cluster i) :
    Prog.Ensures exec Succeeds (reconcile skip k) w fun _ w' => Stores w k c w' := by
  refine (configStep_ensures succeeds_default hkeys).mono ?_
  rintro _ w' hran
  cases hran with
  | idle hwhy =>
    rcases hwhy with hnone | hfails
    · exact absurd hgen (hnone c m cluster i hc)
    · exact absurd hfails not_fails_succeeds
  | @ran c₀ c' w₁ _ hread hbody honly hwritten =>
    obtain rfl : c = c₀ := Option.some.inj (hc.symm.trans hread)
    cases hbody with
    | left _ hwhy =>
      rcases hwhy with hnone | hfails
      · exact absurd hgen (hnone m cluster i)
      · exact absurd hfails not_fails_succeeds
    | installStored _ hfails => exact absurd hfails not_fails_succeeds
    | @stored m' cluster' i' hgen' hc' =>
      obtain ⟨f, rfl⟩ := hc'
      have hrest : w' = { w with installerConfigs := w'.installerConfigs, secrets := w'.secrets } := by
        rw [honly.rest]
        rfl
      refine ⟨?_, hrest, cluster', i'.install, i'.uninstall, by rw [honly.rest]⟩
      generalize w'.installerConfigs.lookup (configKey k) = x at hwritten
      cases hwritten with
      | gone hdeleting => cases hgen.waits.2.2.symm.trans hdeleting
      | kept f hsame =>
        rcases hsame with hfails | hsame
        · exact absurd hfails not_fails_succeeds
        · exact absurd (congrArg InstallerConfig.ready hsame).symm hgen.waits.2.1
      | written f => exact ⟨f, rfl⟩

end Config

/-! ## The reconcile of the agent -/

section Agent

open Byoh.Model.HostReconciler

variable {cfg : Config} {w : World} {k : NamespacedName} {h : ByoHost}

/-- A host that is attached to a machine, with the scripts that its agent has to run. -/
structure Equipped (w : World) (h : ByoHost) : Prop where
  notMarked : h.carries .hostCleanup = false
  notDeleted : h.deletionTimestamp = false
  machineRef : h.machineRef ≠ none
  bootstrap : ∃ ref secret, h.bootstrapSecret = some ref ∧
    w.secrets.lookup ⟨ref.ns, ref.name⟩ = some secret
  install : ∃ ref secret, h.installationSecret = some ref ∧
    w.secrets.lookup ⟨ref.ns, ref.name⟩ = some secret ∧ secret.data.get "install" ≠ none

theorem executeInstallerController_answers (hs : Equipped w h) :
    Answers (executeInstallerController cfg) h w fun _ => True := by
  obtain ⟨ref, secret, href, hsecret, hscript⟩ := hs.install
  obtain ⟨script, hscript⟩ := Option.ne_none_iff_exists'.1 hscript
  refine .get_bind ?_
  rw [href]
  refine .ok_bind (getSecret_answers hsecret) ?_
  rintro s h' w' ⟨hs', hh', hw'⟩
  subst s h' w'
  simp only [hscript]
  refine .ok_bind (parseScript_answers script) ?_
  rintro data h' w' ⟨-, hh', hw'⟩
  subst h' w'
  refine .ok_attempt (runCmd_answers _) ?_
  rintro _ h' w' ⟨-, hh', hw'⟩
  subst h' w'
  exact .pure ⟨(), rfl, trivial, rfl, rfl⟩

theorem installComponents_completes (hs : Equipped w h) :
    GoM.Meets NothingFails (installComponents cfg) h w fun e h' w' =>
      ∃ a, e = .ok a ∧ a = true ∧ ConditionsOnly h h' ∧ w' = w := by
  obtain ⟨ref, -, href, -⟩ := hs.install
  refine .get_bind ?_
  split
  · exact .pure ⟨true, rfl, rfl, rfl, rfl⟩
  split
  · exact .pure ⟨true, rfl, rfl, rfl, rfl⟩
  rw [href]
  simp only [Option.isNone_some, Bool.false_eq_true, if_false]
  refine .ok_bind (executeInstallerController_answers hs) ?_
  rintro _ h' w' ⟨-, hh', hw'⟩
  subst h' w'
  exact .modify_bind (.pure ⟨true, rfl, rfl, rfl, rfl⟩)

/-- Every directory is emptied. -/
theorem removeGlobs_completes (dirs : List String) :
    Prog.Meets NothingFails (fun ok w' => ok = true ∧ w' = w) (removeGlobs h dirs) w := by
  induction dirs with
  | nil => exact .ret ⟨rfl, rfl⟩
  | cons dir dirs ih =>
    refine .call fun ok w' => ?_
    rintro ⟨o, -, hwork, hexec⟩
    obtain ⟨rfl, rfl⟩ := Prod.mk.inj hexec
    refine .bind (.ret (.bind (ih.mono ?_)))
    rintro rest w' ⟨rfl, rfl⟩
    exact .ret ⟨by rw [hwork rfl]; rfl, rfl⟩

theorem bootstrap_completes (script : String) :
    GoM.Meets NothingFails (bootstrap script) h w fun e h' w' =>
      ∃ a, e = .ok a ∧ isBootstrapped h' = true ∧ ConditionsOnly h h' ∧ w' = w := by
  have hclean : Answers cleank8sdirectories h w fun _ => True := by
    refine .get_bind (.lift_bind ((removeGlobs_completes k8sDirectories).mono ?_))
    rintro ok w' ⟨rfl, rfl⟩
    exact .pure ⟨(), rfl, trivial, rfl, rfl⟩
  refine .ok_attempt hclean ?_
  rintro _ h' w' ⟨-, hh', hw'⟩
  subst h' w'
  refine .ok_attempt (runCmd_answers _) ?_
  rintro _ h' w' ⟨-, hh', hw'⟩
  subst h' w'
  exact .ret ⟨(), rfl, by simp [isBootstrapped], rfl, rfl⟩

/-- The work on a host that is not bootstrapped. -/
theorem provision_completes {ref : ObjectReference} (hs : Equipped w h)
    (href : h.bootstrapSecret = some ref) :
    GoM.Meets NothingFails (do
      let bootstrapScript ← getBootstrapScript ref
      let installed ← installComponents cfg
      GoM.when installed (bootstrap bootstrapScript)) h w fun e h' w' =>
      ∃ a, e = .ok a ∧ isBootstrapped h' = true ∧ ConditionsOnly h h' ∧ w' = w := by
  obtain ⟨ref', secret, href', hsecret⟩ := hs.bootstrap
  cases href.symm.trans href'
  have hscript : Answers (getBootstrapScript ref) h w fun _ => True := by
    refine .ok_bind (getSecret_answers hsecret) ?_
    rintro s h' w' ⟨-, hh', hw'⟩
    subst h' w'
    exact .pure ⟨_, rfl, trivial, rfl, rfl⟩
  refine .ok_bind hscript ?_
  rintro script h' w' ⟨-, hh', hw'⟩
  subst h' w'
  refine .ok_bind (installComponents_completes hs) ?_
  rintro _ h₁ w' ⟨rfl, hsame₁, hw'⟩
  subst w'
  refine (bootstrap_completes script).mono ?_
  rintro _ h₂ w' ⟨a, rfl, hboot, hsame₂, hw'⟩
  refine ⟨a, rfl, hboot, ?_, hw'⟩
  rw [ConditionsOnly, show h₂ = _ from hsame₂, show h₁ = _ from hsame₁]

/-- **The reconcile of the agent** of a host that has its scripts ends with the host bootstrapped. -/
theorem agent_bootstraps (hread : w.hosts.lookup k = some h) (hkey : h.key = k)
    (hs : Equipped w h) :
    Prog.Meets NothingFails (fun _ w' => OnlyHost k w w' ∧ ∃ h' cur, isBootstrapped h' = true ∧
      ConditionsOnly h h' ∧ w'.hosts.lookup k = some cur ∧ Patched h h' true true true cur)
      (reconcile cfg k) w := by
  have hbody : GoM.Meets NothingFails (reconcileHost cfg) h w fun _ h' w' =>
      w' = w ∧ isBootstrapped h' = true ∧ ConditionsOnly h h' := by
    obtain ⟨ref, -, href, -⟩ := hs.bootstrap
    refine .get_bind ?_
    rw [if_neg (by rw [hs.notMarked]; exact Bool.false_ne_true),
      if_neg (by rw [hs.notDeleted]; exact Bool.false_ne_true)]
    refine .get_bind ?_
    rw [if_neg (by simpa using hs.machineRef), href]
    cases hdone : h.conditions.isTrue .k8sNodeBootstrapSucceeded with
    | true => exact .pure ⟨rfl, hdone, rfl⟩
    | false =>
      refine .ok_bind (provision_completes hs href) ?_
      rintro _ h' w' ⟨hboot, hsame, hw'⟩
      exact .pure ⟨hw', hboot, hsame⟩
  have hkeyed : GoM.Meets NothingFails (reconcileHost cfg) h w fun _ h' w' =>
      w' = w ∧ h'.key = k ∧ isBootstrapped h' = true ∧ ConditionsOnly h h' := by
    refine hbody.mono ?_
    rintro _ h' w' ⟨hw', hboot, hsame⟩
    refine ⟨hw', ?_, hboot, hsame⟩
    rw [← hkey, show h' = _ from hsame]
    rfl
  refine (agent_runs hread hkeyed).mono ?_
  rintro _ w' ⟨honly, e, h', cur, ⟨hboot, hsame⟩, hcur, hp⟩
  exact ⟨honly, h', cur, hboot, hsame, hcur, hp⟩

end Agent

end Byoh.Protocol
