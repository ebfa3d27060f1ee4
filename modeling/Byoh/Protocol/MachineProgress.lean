import Byoh.Protocol.SiteRuns

/-!
# Reconciles of machines in which no call fails

`MachineSteps` says what a reconcile of a machine may do. This file says what it has to do when
every call succeeds and the machine has a host without an install script: the reference is set when
the installer configuration is ready, and otherwise the configuration exists afterwards and the
machine knows what system its host runs (`reconcile_progress`).
-/

set_option autoImplicit false

namespace Byoh.Protocol

open Byoh.Foundation Byoh.Model Byoh.Model.ByoMachineReconciler
open Byoh.Model.K8sInstallerConfigReconciler (configKey)

/-! ## Hosts with an install script -/

/-- The host `key` references an install script. -/
def Published (key : NamespacedName) (w : World) : Prop :=
  ∃ h, w.hosts.lookup key = some h ∧ h.installationSecret ≠ none

/-- A reference is not removed by the patch of an edit. -/
theorem merge_installationSecret_ne_none (e : HostEdit) (b : ByoHost) {cur : ByoHost}
    (hcur : cur.installationSecret ≠ none) :
    (b.merge (e.apply b) cur).installationSecret ≠ none := by
  have hself : mergeRef b.installationSecret b.installationSecret cur.installationSecret ≠ none := by
    simpa [mergeRef] using hcur
  cases e with
  | pause p => cases p <;> exact hself
  | install ref =>
    show mergeRef b.installationSecret (some ref) cur.installationSecret ≠ none
    unfold mergeRef
    split
    · exact hcur
    · exact Option.some_ne_none _
  | _ => exact hself

/-- No call of a reconcile of a machine removes a reference to an install script. -/
theorem MachineMove.published {k key : NamespacedName} {o : Outcome} {w w' : World}
    {q q' : MachinePhase} {c : Call} (hmove : MachineMove k o w q c q' w')
    (hw : Published key w) : Published key w' := by
  have hvia : HostsVia (fun h h' => h.installationSecret ≠ none → h'.installationSecret ≠ none)
      w w' := by
    cases hmove with
    | @specWritten _ e h cur _ hcur =>
      exact .setHost (fun _ => id) hcur (merge_installationSecret_ne_none e h)
    | statusWritten _ hcur => exact .setHost (fun _ => id) hcur id
    | look hw =>
      obtain ⟨nodes, rfl⟩ := hw
      exact .of_hosts_eq (fun _ => id) rfl
    | _ => exact .of_hosts_eq (fun _ => id) rfl
  obtain ⟨h, hh, hset⟩ := hw
  obtain ⟨h', hh', hkept⟩ := hvia.some hh
  exact ⟨h', hh', hkept hset⟩

/-- Whatever a reconcile still does, the reference stays. -/
theorem published_follows {α : Type} {post : α → MachinePhase → Prop} {p : ApiProg α}
    {q : MachinePhase} {k key : NamespacedName} {ok : Outcome → Prop} {w : World}
    (hp : Prog.Follows (MachineNext k) MachineSilent post p q) (hw : Published key w) :
    Prog.Ensures exec ok p w fun _ w' => Published key w' := by
  intro os _
  obtain ⟨-, -, h⟩ := hp.run exec (J := fun w _ => Published key w)
    (fun o w c q q' hJ hnext => hnext.move.published hJ) (fun _ _ _ hJ _ => hJ) hw os
  exact h

/-! ## The calls of a reconcile -/

section Calls

variable {w : World} {sc : Scope} {h : ByoHost} {ref : ObjectReference}

theorem readObject_missing {α : Type} {o : Outcome} (ho : Succeeds o) :
    readObject o (none : Option α) = .error .notFound := by
  simp [readObject, ho.1]

/-- The host in memory is the one on the server. -/
def OnServer (h : ByoHost) (w : World) : Prop := ∃ cur, w.hosts.lookup h.key = some cur ∧ SameHost h cur

/-- An edit of a host arrives. -/
theorem patchByoHost_edit (e : HostEdit) (hh : OnServer h w) :
    Prog.Ensures exec Succeeds (patchByoHost h (e.apply h)) w fun err w' =>
      err = none ∧ OnServer (e.apply h) w' ∧ OnlyHost h.key w w' := by
  obtain ⟨cur, hcur, hsame⟩ := hh
  have hstart : Arrived h (e.apply h) (e.apply h).key w false false false w :=
    ⟨cur, by rwa [HostEdit.apply_key], hsame.start _, .refl _ _⟩
  refine (patchByoHost_sent succeeds_default hstart).mono ?_
  rintro err w' ⟨harrived, hnone⟩
  obtain rfl : err = none := hnone fun o ho => ho.2
  obtain ⟨cur', hcur', hp, honly⟩ := harrived rfl
  refine ⟨rfl, ⟨cur', hcur', .of_patched hp⟩, ?_⟩
  rwa [HostEdit.apply_key] at honly

/-- A patch of the host in memory. -/
theorem patchHost_ensures (e : HostEdit) (hh : OnServer h w) :
    GoM.Ensures exec Succeeds (patchHost h (e.apply h)) sc w fun r sc' w' =>
      r = .ok () ∧ sc' = { sc with byoHost := some (e.apply h) } ∧ OnServer (e.apply h) w' ∧
        OnlyHost h.key w w' := by
  refine .modify_bind (.lift_bind ((patchByoHost_edit e hh).mono ?_))
  rintro err w' ⟨rfl, hh', honly⟩
  exact .pure ⟨rfl, rfl, hh', honly⟩

/-- The host in memory is unpaused. -/
theorem unpause_ensures (hhost : sc.byoHost = some h) (hh : OnServer h w) :
    GoM.Ensures exec Succeeds (GoM.when sc.byoHost.isSome (setPausedConditionForByoHost false)) sc w
      fun r sc' w' => r = .ok () ∧ sc' = { sc with byoHost := some (pausedHost false h) } ∧
        OnServer (pausedHost false h) w' ∧ OnlyHost h.key w w' := by
  rw [hhost]
  refine .get_bind ?_
  simp only [hhost, GoM.deref_some, GoM.pure_bind]
  exact patchHost_ensures (.pause false) hh

/-- A machine that has a host reserves no other. -/
theorem reserveHost_reserved (hhost : sc.byoHost = some h) :
    GoM.Ensures exec Succeeds reserveHost sc w fun r sc' w' => r = .ok () ∧ sc' = sc ∧ w' = w := by
  refine .get_bind ?_
  rw [hhost]
  exact .pure ⟨rfl, rfl, rfl⟩

/-- The configuration of the machine is read, if it has one. -/
theorem getInstallerConfig_ensures {m : ByoMachine} {key : InstallerKey}
    (href : m.installerRef = some ref) (hkey : installerConfigKey m ref = key) :
    GoM.Ensures exec Succeeds (getInstallerConfig m) sc w fun r sc' w' => sc' = sc ∧ w' = w ∧
      ((∃ c, w.installerConfigs.lookup key = some c ∧ r = .ok c) ∨
        w.installerConfigs.lookup key = none ∧ r = .err (.api .notFound)) := by
  subst hkey
  rw [getInstallerConfig, href]
  refine .call_bind succeeds_default fun o ho => ?_
  cases hc : w.installerConfigs.lookup (installerConfigKey m ref) with
  | some c =>
    rw [exec, hc, readObject_succeeds ho]
    exact .pure ⟨rfl, rfl, .inl ⟨c, rfl, rfl⟩⟩
  | none =>
    rw [exec, hc, readObject_missing ho]
    exact .throw ⟨rfl, rfl, .inr ⟨rfl, rfl⟩⟩

/-- A configuration is created under the namespace and the name of its machine. -/
theorem installerConfigFor_key {m : ByoMachine} {template : InstallerTemplate} {version : String}
    {config : InstallerConfig} (h : installerConfigFor m ref template version = .ok config) :
    config.key = ⟨template.apiVersion, Text.trimSuffix template.kind "Template", m.ns, m.name⟩ := by
  unfold installerConfigFor generateTemplate at h
  split at h
  · cases h
  · cases h
    rfl

/-- The configuration that `createInstallerConfig` makes for the machine `k`. -/
structure Makes (w : World) (k : NamespacedName) (s : Scope) (ref : ObjectReference)
    (config : InstallerConfig) : Prop where
  installerRef : s.byoMachine.installerRef = some ref
  found : installerConfigKey s.byoMachine ref = configKey k
  made : ∃ template version, s.machine.version = some version ∧
    w.installerTemplates.lookup ⟨ref.apiVersion, ref.kind, ref.ns, ref.name⟩ = some template ∧
      installerConfigFor s.byoMachine ref template version = .ok config
  key : config.key = configKey k

/-- After `createInstallerConfig` the machine has its configuration; one that was there stays. -/
theorem createInstallerConfig_ensures {k : NamespacedName} {config : InstallerConfig}
    (hmakes : Makes w k sc ref config) :
    GoM.Ensures exec Succeeds createInstallerConfig sc w fun r sc' w' =>
      r = .ok () ∧ sc' = sc ∧ w' = { w with installerConfigs := w'.installerConfigs } ∧
        ∃ c, w'.installerConfigs.lookup (configKey k) = some c ∧
          (w.installerConfigs.lookup (configKey k) = some c ∨
            w.installerConfigs.lookup (configKey k) = none ∧ c = config) := by
  obtain ⟨template, version, hversion, htemplate, hmade⟩ := hmakes.made
  refine .get_bind (.attempt_bind
    ((getInstallerConfig_ensures hmakes.installerRef hmakes.found).mono ?_))
  rintro r sc' w' ⟨hsc, hw, ⟨c, hc, rfl⟩ | ⟨hnone, rfl⟩⟩ <;> subst sc' w'
  · exact .pure ⟨rfl, rfl, rfl, c, hc, .inl hc⟩
  · have hfree : w.installerConfigs.lookup config.key = none := by
      rw [hmakes.key]
      exact hnone
    simp only [Err.isNotFound, hmakes.installerRef, GoM.deref_some, GoM.pure_bind]
    refine .call_bind succeeds_default fun o ho => ?_
    rw [exec, htemplate, readObject_succeeds ho]
    simp only [hversion, GoM.deref_some, GoM.pure_bind, hmade, GoM.ofExcept_ok]
    refine .call_bind succeeds_default fun o ho => ?_
    have hexec : exec o (.createInstallerConfig config) w =
        (none, { w with installerConfigs := w.installerConfigs.insert config.key config }) := by
      simp [exec, createObject, ho.2, hfree]
    rw [hexec]
    refine .pure ⟨rfl, rfl, rfl, config, ?_, .inr ⟨hnone, rfl⟩⟩
    rw [← hmakes.key]
    exact AList.lookup_insert _

theorem isReady_eq_true {c : InstallerConfig} (h : c.isReady = .ok true) :
    c.ready = .value true := by
  unfold InstallerConfig.isReady at h
  split at h
  · cases h
  next b hb =>
    cases h
    exact hb
  · cases h
  · cases h

section Secret

variable {m : ByoMachine} {ref : ObjectReference} {key : InstallerKey} {h : ByoHost}
  {c : InstallerConfig}

/-- The reference of a configuration that is ready is set. -/
theorem setSecretForByoHost_ensures {field : InstallerConfig → Nested ObjectReference}
    (edit : ObjectReference → HostEdit) {what convert : String} {secret : ObjectReference}
    (href : sc.byoMachine.installerRef = some ref) (hkey : installerConfigKey sc.byoMachine ref = key)
    (hhost : sc.byoHost = some h) (hh : OnServer h w) (hc : w.installerConfigs.lookup key = some c)
    (hready : c.ready = .value true) (hfield : field c = .value secret) :
    GoM.Ensures exec Succeeds (setSecretForByoHost field (fun r => (edit r).apply) what convert) sc w
      fun r sc' w' => r = .ok {} ∧ sc' = { sc with byoHost := some ((edit secret).apply h) } ∧
        OnServer ((edit secret).apply h) w' ∧ OnlyHost h.key w w' := by
  refine .bind (.get_bind (.bind ((getInstallerConfig_ensures href hkey).mono ?_)))
  rintro r sc' w' ⟨hsc, hw, ⟨c', hc', rfl⟩ | ⟨hmissing, -⟩⟩ <;> subst sc' w'
  · cases hc.symm.trans hc'
    have hisReady : c.isReady = .ok true := by rw [InstallerConfig.isReady, hready]
    simp only [hisReady, GoM.ofExcept_ok, GoM.pure_bind, if_true]
    refine .pure ?_
    simp only [hfield, secretRef, GoM.pure_bind]
    refine .get_bind ?_
    simp only [hhost, GoM.deref_some, GoM.pure_bind]
    refine .bind ((patchHost_ensures (edit secret) hh).mono ?_)
    rintro r sc' w' ⟨rfl, hsc', hh', honly⟩
    exact .pure ⟨rfl, hsc', hh', honly⟩
  · cases hc.symm.trans hmissing

/-- Nothing happens while the configuration is not ready. -/
theorem setSecretForByoHost_waits {field : InstallerConfig → Nested ObjectReference}
    {set : ObjectReference → ByoHost → ByoHost} {what convert : String}
    (href : sc.byoMachine.installerRef = some ref) (hkey : installerConfigKey sc.byoMachine ref = key)
    (hc : w.installerConfigs.lookup key = some c) (hready : c.ready ≠ .value true) :
    GoM.Ensures exec Succeeds (setSecretForByoHost field set what convert) sc w fun r sc' w' =>
      w' = w ∧ sc' = sc ∧
        (r = .ok { requeueAfter := requeueInstallerConfigTime } ∨ ∃ e, r = .err e) := by
  refine .bind (.get_bind (.bind ((getInstallerConfig_ensures href hkey).mono ?_)))
  rintro r sc' w' ⟨hsc, hw, ⟨c', hc', rfl⟩ | ⟨hmissing, -⟩⟩ <;> subst sc' w'
  · cases hc.symm.trans hc'
    cases hisReady : c.isReady with
    | error e =>
      simp only [hisReady, GoM.ofExcept_error, GoM.throw_bind]
      exact .throw ⟨rfl, rfl, .inr ⟨e, rfl⟩⟩
    | ok b =>
      cases b with
      | true => exact absurd (isReady_eq_true hisReady) hready
      | false =>
        simp only [hisReady, GoM.ofExcept_ok, GoM.pure_bind, Bool.false_eq_true, if_false]
        exact .pure (.pure ⟨rfl, rfl, .inl rfl⟩)
  · cases hc.symm.trans hmissing

theorem OnServer.published {secret : ObjectReference}
    (hh : OnServer (withInstallationSecret secret h) w) : Published h.key w := by
  obtain ⟨cur, hcur, hsame⟩ := hh
  refine ⟨cur, hcur, ?_⟩
  rw [hsame.installationSecret]
  exact Option.some_ne_none _

/-- The reference to the install script is set when the configuration is ready; nothing happens
while it is not. -/
theorem publishInstallationSecret_ensures (hm : m.installerRef.isSome = true)
    (href : sc.byoMachine.installerRef = some ref)
    (hkey : installerConfigKey sc.byoMachine ref = key) (hhost : sc.byoHost = some h)
    (hh : OnServer h w) (hnone : h.installationSecret = none)
    (hc : w.installerConfigs.lookup key = some c) (hok : ConfigOk c) :
    GoM.Ensures exec Succeeds (publishInstallationSecret m h) sc w fun r sc' w' =>
      (r = .ok {} ∧ Published h.key w' ∧ ∃ secret,
        sc' = { sc with byoHost := some (withInstallationSecret secret h) }) ∨
      (c.ready ≠ .value true ∧ w' = w ∧ sc' = sc ∧
        (r = .ok { requeueAfter := requeueInstallerConfigTime } ∨ ∃ e, r = .err e)) := by
  rw [publishInstallationSecret, hm, hnone]
  by_cases hready : c.ready = .value true
  · refine (setSecretForByoHost_ensures .install href hkey hhost hh hc hready
      (hok.ready hready).1).mono ?_
    rintro r sc' w' ⟨rfl, hsc', hh', -⟩
    exact .inl ⟨rfl, OnServer.published hh', _, hsc'⟩
  · refine (setSecretForByoHost_waits href hkey hc hready).mono ?_
    rintro r sc' w' ⟨hw', hsc', hr⟩
    exact .inr ⟨hready, hw', hsc', hr⟩

end Secret

/-- The fields of a machine that reconciles write. -/
def SameMachine (m m' : ByoMachine) : Prop :=
  m' = { m with finalizers := m'.finalizers, providerID := m'.providerID, hostInfo := m'.hostInfo
                ready := m'.ready, conditions := m'.conditions }

/-- The patch of a machine that nobody else writes and that is not being deleted. -/
theorem patchByoMachine_ensures {b a : ByoMachine} (hb : w.machines.lookup b.key = some b)
    (hdeleted : b.deletionTimestamp = false) (ha : SameMachine b a) :
    Prog.Ensures exec Succeeds (patchByoMachine b a) w fun _ w' =>
      w'.machines.lookup b.key = some a ∧ w' = { w with machines := w'.machines } := by
  rw [SameMachine] at ha
  have hkey : a.key = b.key := by
    rw [ha]
    rfl
  have hset : ∀ (w₁ : World) (m : ByoMachine), m.deletionTimestamp = false →
      (w₁.setMachine b.key m).machines.lookup b.key = some m := by
    intro w₁ m hm
    rw [setMachine_lookup_self, hm]
    rfl
  -- the status is sent to a machine that has its conditions, finalizers and provider ID
  have hstatus : ∀ {w₁ : World} (f : Option ApiError → Option Err),
      w₁.machines.lookup b.key = some { a with hostInfo := b.hostInfo, ready := b.ready } →
      w₁ = { w with machines := w₁.machines } → Prog.Ensures exec Succeeds
        ((sendIf (b.statusChanged a) (call (.patchByoMachineStatus b.key b a))).bind
          fun e => .ret (f e)) w₁ fun _ w' =>
        w'.machines.lookup b.key = some a ∧ w' = { w with machines := w'.machines } := by
    intro w₁ f hw₁ hrest
    refine ensures_sendIf (fun _ => .call succeeds_default fun o ho => .ret ?_) fun hsame => .ret ?_
    · have hmerge : b.mergeStatus a { a with hostInfo := b.hostInfo, ready := b.ready } = a := by
        simp [ByoMachine.mergeStatus]
      simp only [exec, writeObject, ho.2, hw₁, hmerge, if_true]
      refine ⟨hset _ _ (by rw [ha]; exact hdeleted), ?_⟩
      rw [hrest]
      rfl
    · simp only [ByoMachine.statusChanged, Bool.not_eq_false', Bool.and_eq_true,
        decide_eq_true_eq] at hsame
      rw [hw₁, hsame.1, hsame.2]
      exact ⟨rfl, hrest⟩
  -- metadata and spec are sent to a machine that has its conditions
  have hspec : ∀ {w₁ : World} (f : Option ApiError → Option ApiError → Option Err),
      w₁.machines.lookup b.key = some { b with conditions := a.conditions } →
      w₁ = { w with machines := w₁.machines } → Prog.Ensures exec Succeeds
        ((sendIf (b.changed a) (call (.patchByoMachine b.key b a))).bind fun e =>
          (sendIf (b.statusChanged a) (call (.patchByoMachineStatus b.key b a))).bind
            fun e' => .ret (f e e')) w₁ fun _ w' =>
        w'.machines.lookup b.key = some a ∧ w' = { w with machines := w'.machines } := by
    intro w₁ f hw₁ hrest
    refine ensures_sendIf (fun _ => .call succeeds_default fun o ho => ?_) fun hsame => ?_
    · have hmerge : b.merge a { b with conditions := a.conditions } =
          { a with hostInfo := b.hostInfo, ready := b.ready } := by
        rw [ha]
        simp [ByoMachine.merge]
      have hexec : exec o (.patchByoMachine b.key b a) w₁ =
          (none, w₁.setMachine b.key { a with hostInfo := b.hostInfo, ready := b.ready }) := by
        simp only [exec, writeObject, ho.2, hw₁, hmerge, if_true]
        rw [addsFinalizer, hdeleted]
        rfl
      rw [hexec]
      refine hstatus _ (hset _ _ (by rw [ha]; exact hdeleted)) ?_
      rw [hrest]
      rfl
    · simp only [ByoMachine.changed, Bool.not_eq_false', Bool.and_eq_true,
        decide_eq_true_eq] at hsame
      refine hstatus _ ?_ hrest
      rw [hw₁, ha, ← hsame.1, ← hsame.2]
  rw [patchByoMachine, hkey]
  refine ensures_sendIf (fun _ => .call succeeds_default fun o ho => ?_) fun hsame => ?_
  · have hexec : exec o (.patchByoMachineConditions b.key b a) w =
        (none, w.setMachine b.key { b with conditions := a.conditions }) := by
      simp only [exec, writeObject, ho.2, hb, mergeConditions_before, if_true]
    rw [hexec]
    exact hspec _ (hset _ _ hdeleted) rfl
  · have hconditions : b.conditions = a.conditions := by simpa using hsame
    refine hspec _ ?_ rfl
    rw [← hconditions]
    exact hb

end Calls

/-! ## The reconcile -/

/-- What a reconcile of the machine `k` reads at first is there. -/
structure Readable (w : World) (k : NamespacedName) (s : Scope) : Prop extends ReadScope w k s where
  noHost : s.byoHost = none
  validLabel : isValidLabelValue k.labelValue = true
  named : s.byoMachine.labels.get .clusterName ≠ some ""
  infrastructure : ∃ infrastructureRef, s.cluster.infrastructureRef = some infrastructureRef ∧
    w.byoClusters.lookup ⟨s.byoMachine.ns, infrastructureRef.name⟩ = some s.byoCluster

theorem UniqueLabels.onlyLabelled {w : World} {k : NamespacedName} {h : ByoHost}
    (hunique : UniqueLabels w) (hh : w.hosts.lookup h.key = some h) (hlabelled : Labelled k h) :
    OnlyLabelled k h.key w := by
  intro key' h' hh' hl'
  refine hunique key' h' h.key h hh' hh ?_ (hl'.trans hlabelled.symm)
  rw [hl']
  exact Option.some_ne_none _

section Reads

variable {w : World} {k : NamespacedName} {s : Scope}

/-- The reconcile reads the objects of its scope. -/
theorem Readable.reads (hs : Readable w k s) {Q : World → Prop}
    (h : GoM.Ensures exec Succeeds (GoM.deferred reconcileScope fun s' =>
      patchByoMachine s.byoMachine s'.byoMachine) s w fun _ _ w' => Q w') :
    Prog.Ensures exec Succeeds (reconcile k) w fun _ w' => Q w' := by
  obtain ⟨owner, howner, hmachine⟩ := hs.machine
  obtain ⟨infrastructureRef, href, hbyoCluster⟩ := hs.infrastructure
  refine .call succeeds_default fun o ho => ?_
  rw [exec, hs.byoMachine, readObject_succeeds ho, Prog.ret_bind]
  simp only [getOwnerMachine, howner]
  refine .call succeeds_default fun o ho => ?_
  rw [exec, hmachine, readObject_succeeds ho]
  refine .bind (.ret (.bind ((getClusterFromMetadata_ensures succeeds_default s.byoMachine).mono ?_)))
  rintro r w' ⟨hw', hcluster⟩
  subst w'
  obtain ⟨name, hname, hlookup⟩ := hs.cluster
  rcases hcluster with ⟨cluster, label, rfl, hlabel, -, hfound⟩ | ⟨e, -, hwhy⟩
  · cases hname.symm.trans hlabel
    cases hlookup.symm.trans hfound
    simp only [href]
    refine .call succeeds_default fun o ho => ?_
    rw [exec, hbyoCluster, readObject_succeeds ho]
    have hscope : ({ cluster := s.cluster, machine := s.machine, byoCluster := s.byoCluster,
                     byoMachine := s.byoMachine } : Scope) = s := by
      rw [← hs.noHost]
    simp only [Prog.ret_bind, Prog.bind_eq, hscope]
    exact .bind (Prog.Ensures.mono h fun _ _ hQ => .ret hQ)
  · -- the cluster of the scope was read from the world
    rcases hwhy with hnone | hfails
    · exact absurd hlookup (hnone s.cluster name hname fun hempty => hs.named (hempty ▸ hname))
    · exact absurd hfails not_fails_succeeds

/-- The hosts with the label of the machine are listed, and the first one is taken. -/
theorem Readable.fetches_head {host : Option ByoHost} (hs : Readable w k s)
    (hkey : s.byoMachine.key = k)
    (hhead : ∀ pick, (listHosts w (attachedSelector s.byoMachine) none pick).head? = host) :
    GoM.Ensures exec Succeeds (fetchAttachedByoHost s.byoMachine.name s.byoMachine.ns) s w
      fun r s' w' => r = .ok host ∧ s' = s ∧ w' = w := by
  have hrequirement : newRequirement .attachedByoMachine .opIn
      [generateSafeLabelValue s.byoMachine.ns s.byoMachine.name] =
        .ok ⟨.attachedByoMachine, .opIn, [generateSafeLabelValue s.byoMachine.ns s.byoMachine.name]⟩ := by
    have hvalid : isValidLabelValue (generateSafeLabelValue s.byoMachine.ns s.byoMachine.name) =
        true := by
      subst hkey
      exact hs.validLabel
    simp [newRequirement, hvalid]
  rw [fetchAttachedByoHost, hrequirement]
  refine .call_bind succeeds_default fun o ho => ?_
  rw [exec, if_pos ho.1]
  exact .pure ⟨congrArg Exit.ok (hhead o.pick), rfl, rfl⟩

/-- The only host with the label of the machine is fetched. -/
theorem Readable.fetches {h : ByoHost} (hs : Readable w k s) (hkey : s.byoMachine.key = k)
    (hhosts : WellKeyed w) (hfresh : w.informer = none) (hh : w.hosts.lookup h.key = some h)
    (hlabelled : Labelled k h) (honly : OnlyLabelled k h.key w) :
    GoM.Ensures exec Succeeds (fetchAttachedByoHost s.byoMachine.name s.byoMachine.ns) s w
      fun r s' w' => r = .ok (some h) ∧ s' = s ∧ w' = w := by
  refine hs.fetches_head hkey fun pick => ?_
  have hmemory := inMemory_fetched hhosts hfresh hkey pick
  cases hfetched : (listHosts w (attachedSelector s.byoMachine) none pick).head? with
  | none =>
    rw [hfetched] at hmemory
    exact absurd hlabelled (hmemory.1 _ h hh)
  | some h' =>
    obtain ⟨⟨k', hk'⟩, hl'⟩ := labelled_of_fetched hfetched
    rw [World.hostView, hfresh] at hk'
    rw [hkey] at hl'
    rw [honly k' h' hk' hl', hh] at hk'
    exact hk'.symm

end Reads

/-- What a reconcile of the machine `k` finds: every object it reads exists, nothing is paused or
being deleted, infrastructure and bootstrap data are ready, and the installer template is there. -/
structure Reconcilable (w : World) (k : NamespacedName) (s : Scope) (ref : ObjectReference)
    (config : InstallerConfig) : Prop extends ReadScope w k s, Makes w k s ref config where
  noHost : s.byoHost = none
  validLabel : isValidLabelValue k.labelValue = true
  named : s.byoMachine.labels.get .clusterName ≠ some ""
  infrastructure : ∃ infrastructureRef, s.cluster.infrastructureRef = some infrastructureRef ∧
    w.byoClusters.lookup ⟨s.byoMachine.ns, infrastructureRef.name⟩ = some s.byoCluster
  normal : isNormalScope s = true
  infrastructureReady : s.cluster.infrastructureReady = true
  dataSecretName : s.machine.dataSecretName.isSome = true

section Reconcile

variable {w : World} {k : NamespacedName} {s : Scope} {ref : ObjectReference}
  {config : InstallerConfig} {sc s₀ : Scope} {h : ByoHost}

theorem Reconcilable.readable (hs : Reconcilable w k s ref config) : Readable w k s :=
  { hs.toReadScope with
    noHost := hs.noHost, validLabel := hs.validLabel, named := hs.named
    infrastructure := hs.infrastructure }

/-- The machine, which knows what system its host runs. -/
def informedBy (h : ByoHost) (m : ByoMachine) : ByoMachine :=
  { m with hostInfo := if m.hostInfo = {} then h.hostDetails else m.hostInfo }

theorem fillHostInfo_ensures (h : ByoHost) :
    GoM.Ensures exec Succeeds
      (GoM.when (decide (sc.byoMachine.hostInfo = {})) (GoM.modify fun s =>
        { s with byoMachine := { s.byoMachine with hostInfo := h.hostDetails } }) : ScopeM Unit) sc w
      fun r sc' w' => r = .ok () ∧ w' = w ∧
        sc' = { sc with byoMachine := informedBy h sc.byoMachine } := by
  unfold informedBy
  by_cases hempty : sc.byoMachine.hostInfo = {}
  · simp only [hempty, decide_true, GoM.when_true, if_true]
    exact .ret ⟨rfl, rfl, rfl⟩
  · simp only [hempty, decide_false, GoM.when_false, if_false]
    exact .pure ⟨rfl, rfl, rfl⟩

theorem InScope.informedBy (hs : InScope s₀ (some h) sc) :
    InScope s₀ (some h) { sc with byoMachine := informedBy h sc.byoMachine } := by
  refine hs.update ?_
  obtain ⟨providerID, hostInfo, ready, conditions, hm, hinfo⟩ := hs.byoMachine
  rw [hm]
  refine ⟨providerID, _, ready, conditions, rfl, ?_⟩
  dsimp only
  split
  · exact .inr ⟨h, rfl, rfl⟩
  · exact hinfo

/-- What is left of the reconcile once the reference is set does not remove it. -/
theorem published_rest {key : NamespacedName} {m : ByoMachine} {h₀ : ByoHost}
    (hnormal : isNormalScope s₀ = true) (hscope : InScope s₀ (some h) sc)
    (hm : m.installerRef = s₀.byoMachine.installerRef)
    (hsecret : h₀.uninstallationSecret = h.uninstallationSecret) (hw : Published key w) :
    GoM.Ensures exec Succeeds (do
      let res ← publishUninstallationSecret m h₀
      if res.requeueAfter > 0 then return res
      updateNodeProviderID) sc w fun _ _ w' => Published key w' := by
  have hrest : GoM.Follows (MachineNext key) MachineSilent (Over s₀) (do
      let res ← publishUninstallationSecret m h₀
      if res.requeueAfter > 0 then return res
      updateNodeProviderID) sc (.body s₀ (some h)) := by
    refine Exits.bind_over (publishUninstallationSecret_exits hnormal hscope hm hsecret) ?_
    rintro res sc' q ⟨h', -, hscope', rfl⟩
    split
    · exact pure_over hnormal hscope' _
    · exact updateNodeProviderID_over hnormal hscope'
  exact published_follows hrest hw

/-- The part that needs the attached host: the reference is set, or the configuration is not ready
and the machine has taken over what its host says about its system. -/
theorem reconcileAttached_ensures {c : InstallerConfig} (hnormal : isNormalScope s₀ = true)
    (hscope : InScope s₀ (some h) sc) (href : s₀.byoMachine.installerRef = some ref)
    (hkey : installerConfigKey s₀.byoMachine ref = configKey k) (hh : OnServer h w)
    (hnone : h.installationSecret = none) (hc : w.installerConfigs.lookup (configKey k) = some c)
    (hok : ConfigOk c) :
    GoM.Ensures exec Succeeds reconcileAttached sc w fun _ sc' w' => Published h.key w' ∨
      (c.ready ≠ .value true ∧ w' = w ∧ sc'.byoMachine = informedBy h sc.byoMachine) := by
  refine .get_bind ?_
  simp only [hscope.byoHost, GoM.deref_some, GoM.pure_bind]
  refine .bind ((fillHostInfo_ensures h).mono ?_)
  rintro r sc₁ w₁ ⟨rfl, hw₁, hsc₁⟩
  subst w₁ sc₁
  have hscope₁ := hscope.informedBy
  have hsome : sc.byoMachine.installerRef.isSome = true := by
    rw [hscope.installerRef, href]
    rfl
  refine .bind ((publishInstallationSecret_ensures hsome (hscope₁.installerRef.trans href)
    ((hscope₁.installerConfigKey ref).trans hkey) hscope₁.byoHost hh hnone hc hok).mono ?_)
  rintro r sc₂ w₂ (⟨rfl, hpublished, secret, rfl⟩ | ⟨hready, hw₂, hsc₂, hr⟩)
  · have hscope₂ : InScope s₀ (some (withInstallationSecret secret h))
        { sc with
          byoMachine := informedBy h sc.byoMachine
          byoHost := some (withInstallationSecret secret h) } :=
      ⟨hscope.cluster, hscope.machine, hscope.byoCluster, rfl,
        hscope₁.byoMachine.apply (.install secret)⟩
    exact (published_rest hnormal hscope₂ hscope.installerRef rfl hpublished).mono
      fun _ _ _ h => .inl h
  · subst w₂ sc₂
    rcases hr with rfl | ⟨e, rfl⟩
    · exact .pure (.inr ⟨hready, rfl, rfl⟩)
    · exact .inr ⟨hready, rfl, rfl⟩

/-- The configuration of the machine is there, or it is created. -/
theorem Reconcilable.creates {m : ByoMachine} {host : Option ByoHost} {w₁ : World}
    (hs : Reconcilable w k s ref config) (hscope : InScope s host sc)
    (hm : m.installerRef = s.byoMachine.installerRef)
    (htemplates : w₁.installerTemplates = w.installerTemplates) :
    GoM.Ensures exec Succeeds (GoM.when m.installerRef.isSome createInstallerConfig) sc w₁
      fun r sc₂ w₂ => r = .ok () ∧ sc₂ = sc ∧
        w₂ = { w₁ with installerConfigs := w₂.installerConfigs } ∧
          ∃ c, w₂.installerConfigs.lookup (configKey k) = some c ∧
            (w₁.installerConfigs.lookup (configKey k) = some c ∨
              w₁.installerConfigs.lookup (configKey k) = none ∧ c = config) := by
  rw [hm, hs.installerRef]
  refine createInstallerConfig_ensures ⟨hscope.installerRef.trans hs.installerRef,
    (hscope.installerConfigKey ref).trans hs.found, ?_, hs.key⟩
  obtain ⟨template, version, hversion, htemplate, hmade⟩ := hs.made
  refine ⟨template, version, hscope.machine ▸ hversion, ?_, ?_⟩
  · rw [htemplates]
    exact htemplate
  · rw [hscope.installerConfigFor]
    exact hmade

/-- `reconcileNormal` with the host in its scope: the host is unpaused, and the configuration is there
or is created, before the part that needs the host. -/
theorem Reconcilable.withHost {Q : Exit Err Result → Scope → World → Prop}
    (hs : Reconcilable w k s ref config) (hh : w.hosts.lookup h.key = some h)
    (hrest : ∀ sc w₁ w₂ c, InScope s (some (pausedHost false h)) sc →
      sc.byoMachine = { s.byoMachine with finalizers := sc.byoMachine.finalizers } →
      OnlyHost h.key w w₁ → w₂ = { w₁ with installerConfigs := w₂.installerConfigs } →
      OnServer (pausedHost false h) w₂ → w₂.installerConfigs.lookup (configKey k) = some c →
      (w.installerConfigs.lookup (configKey k) = some c ∨
        w.installerConfigs.lookup (configKey k) = none ∧ c = config) →
      GoM.Ensures exec Succeeds reconcileAttached sc w₂ Q) :
    GoM.Ensures exec Succeeds reconcileNormal { s with byoHost := some h } w Q := by
  refine .modify_get_bind fun sc hsc => ?_
  have hscope : InScope s (some h) sc := by
    rw [hsc]
    exact ⟨rfl, rfl, rfl, rfl, _, _, _, _, rfl, .inl rfl⟩
  have hmachine : sc.byoMachine = { s.byoMachine with finalizers := sc.byoMachine.finalizers } := by
    rw [hsc]
  -- the host is unpaused
  refine .bind ((unpause_ensures hscope.byoHost ⟨h, hh, .refl h⟩).mono ?_)
  rintro r sc₁ w₁ ⟨rfl, hsc₁, hh₁, honly⟩
  have hscope₁ : InScope s (some (pausedHost false h)) sc₁ := by
    rw [hsc₁]
    exact ⟨hscope.cluster, hscope.machine, hscope.byoCluster, rfl,
      hscope.byoMachine.apply (.pause false)⟩
  -- the configuration is there or is created
  have htemplates : w₁.installerTemplates = w.installerTemplates := by rw [honly.rest]
  refine .bind ((hs.creates hscope₁ hscope.installerRef htemplates).mono ?_)
  rintro r sc₂ w₂ ⟨rfl, hsc₂, hw₂, c, hc, hfrom⟩
  subst sc₂
  have hready : (!sc.cluster.infrastructureReady) = false := by
    rw [hscope.cluster, hs.infrastructureReady]
    rfl
  have hdata : sc.machine.dataSecretName.isNone = false := by
    rw [hscope.machine, Option.isNone_eq_false_iff, hs.dataSecretName]
  simp only [hready, hdata, Bool.false_eq_true, if_false]
  refine .bind ((reserveHost_reserved hscope₁.byoHost).mono ?_)
  rintro r sc₃ w₃ ⟨rfl, hsc₃, hw₃⟩
  subst sc₃ w₃
  have hmachine₁ : sc₁.byoMachine = { s.byoMachine with finalizers := sc₁.byoMachine.finalizers } := by
    rw [hsc₁]
    exact hmachine
  have hh₂ : OnServer (pausedHost false h) w₂ := by
    rw [OnServer, hw₂]
    exact hh₁
  rw [honly.rest] at hfrom
  exact hrest sc₁ w₁ w₂ c hscope₁ hmachine₁ honly hw₂ hh₂ hc hfrom

/-- `reconcileNormal` with the host in its scope. -/
theorem reconcileNormal_ensures (hs : Reconcilable w k s ref config) (hconfigs : ConfigsOk w)
    (hh : w.hosts.lookup h.key = some h) (hnone : h.installationSecret = none) :
    GoM.Ensures exec Succeeds reconcileNormal { s with byoHost := some h } w fun _ sc w' =>
      Published h.key w' ∨
        (w'.machines = w.machines ∧
          sc.byoMachine = informedBy h { s.byoMachine with finalizers := sc.byoMachine.finalizers } ∧
          ∃ c, w'.installerConfigs.lookup (configKey k) = some c ∧ c.ready ≠ .value true ∧
            (w.installerConfigs.lookup (configKey k) = some c ∨
              w.installerConfigs.lookup (configKey k) = none)) := by
  refine hs.withHost hh fun sc w₁ w₂ c hscope hmachine honly hw₂ hh₂ hc hfound => ?_
  have hok : ConfigOk c := by
    rcases hfound with hfound | ⟨-, rfl⟩
    · exact hconfigs _ c hfound
    · obtain ⟨template, version, -, -, hmade⟩ := hs.made
      exact configOk_made hmade
  refine (reconcileAttached_ensures hs.normal hscope hs.installerRef hs.found hh₂ hnone hc hok).mono ?_
  rintro r sc' w' (hpublished | ⟨hnotReady, hw', hsc'⟩)
  · exact .inl hpublished
  · subst w'
    refine .inr ⟨?_, ?_, c, hc, hnotReady, hfound.imp_right And.left⟩
    · rw [hw₂, honly.rest]
    · rw [hsc', hmachine]
      rfl

/-- One reconcile in which no call fails, of a machine whose only host has no install script yet: the
reference is set, or the configuration is not ready, and the machine has kept its conditions and
knows what system its host runs. -/
theorem reconcile_progress (hs : Reconcilable w k s ref config) (hsound : Sound w)
    (hconfigs : ConfigsOk w) (hunique : UniqueLabels w) (hh : w.hosts.lookup h.key = some h)
    (hlabelled : Labelled k h) (hnone : h.installationSecret = none) :
    Prog.Ensures exec Succeeds (reconcile k) w fun _ w' => Published h.key w' ∨
      ∃ m c, w'.machines.lookup k = some m ∧ m.conditions = s.byoMachine.conditions ∧
        m.hostInfo = (informedBy h s.byoMachine).hostInfo ∧
        w'.installerConfigs.lookup (configKey k) = some c ∧ c.ready ≠ .value true ∧
          (w.installerConfigs.lookup (configKey k) = some c ∨
            w.installerConfigs.lookup (configKey k) = none) := by
  have hkey : s.byoMachine.key = k := hsound.machines k _ hs.byoMachine
  have hnormal : isPaused s.cluster s.byoMachine.annotations = false ∧
      s.byoMachine.deletionTimestamp = false := by
    simpa [isNormalScope, isPausedScope] using hs.normal
  refine hs.readable.reads (.deferred (.get_bind (.bind
    ((hs.readable.fetches hkey hsound.hosts hsound.fresh hh hlabelled
      (hunique.onlyLabelled hh hlabelled)).mono ?_))))
  rintro r s' w' ⟨rfl, hs', hw'⟩
  subst s' w'
  refine .modify_bind ?_
  rw [if_neg (by rw [hnormal.1]; exact Bool.false_ne_true),
    if_neg (by rw [hnormal.2]; exact Bool.false_ne_true)]
  refine (reconcileNormal_ensures hs hconfigs hh hnone).mono ?_
  rintro r sc w' (hpublished | ⟨hmachines, hmachine, c, hc, hnotReady, hfound⟩)
  · -- the reference is set, and the patch of the machine leaves it
    have hpatch : Prog.Follows (MachineNext k) MachineSilent (fun _ q => q = .done)
        (patchByoMachine s.byoMachine sc.byoMachine)
        (.finish s .unchanged sc.byoMachine .conditions) := patchByoMachine_follows _ _
    exact (published_follows hpatch hpublished).mono fun _ _ hpublished => .inl hpublished
  · have hb : w'.machines.lookup s.byoMachine.key = some s.byoMachine := by
      rw [hmachines, hkey]
      exact hs.byoMachine
    have hinfo : SameMachine s.byoMachine sc.byoMachine := by
      rw [hmachine]
      rfl
    refine (patchByoMachine_ensures hb hnormal.2 hinfo).mono ?_
    rintro e w'' ⟨hm, hsame⟩
    rw [hkey] at hm
    refine .inr ⟨_, c, hm, ?_, ?_, ?_, hnotReady, hfound⟩
    · rw [hmachine]
      rfl
    · rw [hmachine]
      rfl
    · rw [hsame]
      exact hc

end Reconcile

end Byoh.Protocol
