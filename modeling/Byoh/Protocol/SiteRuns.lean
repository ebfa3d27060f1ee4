import Byoh.Protocol.ConfigSteps
import Byoh.Protocol.HostSteps
import Byoh.Protocol.MachineSteps

/-!
# The steps of a site

One step of a site in which hosts are read from the server, whoever takes it (`SiteStep`,
`act_step`). The step lemmas of the controllers and of the agents ask for a world whose objects
are stored under their keys; every step keeps that (`SiteStep.sound`), so an invariant of runs may
start from `SiteStep` (`site_run_invariant`).
-/

set_option autoImplicit false

namespace Byoh.Protocol

open Byoh.Foundation Byoh.Model

/-! ## Sound worlds -/

/-- Configurations are stored under their keys. -/
def ConfigsKeyed (w : World) : Prop := ∀ k c, w.installerConfigs.lookup k = some c → c.key = k

/-- Objects are stored under their keys, and hosts are read from the server. -/
structure Sound (w : World) : Prop where
  hosts : WellKeyed w
  machines : MachinesKeyed w
  configs : ConfigsKeyed w
  secrets : SecretsKeyed w
  fresh : w.informer = none

theorem sound_small (hosts machines : List String) : Sound (Small.world hosts machines) where
  hosts k h hk := by
    obtain ⟨name, rfl, rfl⟩ := Small.hosts_lookup hk
    rfl
  machines k m hk := by
    obtain ⟨name, rfl, rfl⟩ := Small.machines_lookup hk
    rfl
  configs k c hk := by cases hk
  secrets k s hk := by
    -- each bootstrap secret was inserted under its own key
    induction machines with
    | nil => cases hk
    | cons m ms ih =>
      rcases lookup_insert_some hk with ⟨rfl, rfl⟩ | ⟨-, hk⟩
      · rfl
      · exact ih hk
  fresh := rfl

/-- Conditions on all objects of a table can be evaluated. -/
instance decidableForallLookup {α β : Type} [DecidableEq α] (l : AList fun _ : α => β)
    (P : β → Prop) [DecidablePred P] : Decidable (∀ k b, l.lookup k = some b → P b) :=
  decidable_of_iff (∀ e ∈ l.entries, P e.2) <| by
    rw [← List.forall_mem_map (f := fun e : Sigma fun _ : α => β => e.2) (P := P)]
    constructor
    · exact fun h k b hb => h b ((lookup_iff_mem_entries l b).1 ⟨k, hb⟩)
    · intro h b hb
      obtain ⟨k, hk⟩ := (lookup_iff_mem_entries l b).2 hb
      exact h k b hk

/-! ## Steps -/

/-- One step of a site: a reconcile that did something, an action of the environment, or nothing. -/
inductive SiteStep (setup : Setup) (s : Site) : Action → Site → Prop
  | idle {a : Action} : SiteStep setup s a s
  | machine {k : NamespacedName} {os : List Outcome} {scope : ByoMachineReconciler.Scope}
      {how : Leave} {m : ByoMachine} {w' : World} (h : MachineRan s.world k scope how m w') :
      SiteStep setup s (.reconcile (.byoMachine k) os) { s with world := w' }
  | config {k : NamespacedName} {os : List Outcome} {w' : World}
      (h : ∀ ok : Outcome → Prop, ok default → (∀ o ∈ os, ok o) →
        ConfigRan setup.skipKernelModuleCleanup ok k s.world w') :
      SiteStep setup s (.reconcile (.k8sInstallerConfig k) os) { s with world := w' }
  | byoHost {k : NamespacedName} {os : List Outcome} {w' : World} (h : ByoHostRan k s.world w') :
      SiteStep setup s (.reconcile (.byoHost k) os) { s with world := w' }
  | agent {k : NamespacedName} {os : List Outcome} {s' : Site} {h h' cur : ByoHost}
      {log : List HostEvent} {c sp st : Bool}
      (hran : AgentRan setup.agent k s s' h h' cur log c sp st) :
      SiteStep setup s (.reconcile (.agent k) os) s'
  | env {a : EnvAction} {w' : World} (h : envStep a s.world = some w') :
      SiteStep setup s (.env a) { s with world := w' }

/-- The program of a thread does what its reconcile does; its result is dropped. -/
theorem run_dropped {α : Type} (p : ApiProg α) (os : List Outcome) (w : World) :
    (Prog.run exec os (p.bind fun _ => .ret ()) w).2 = (Prog.run exec os p w).2 := by
  obtain ⟨n, hn⟩ := Prog.run_bind exec p (fun _ => .ret ()) os w
  rw [hn]
  rfl

/-- Every action of a site is a step. -/
theorem act_step (setup : Setup) {s : Site} (hs : Sound s.world) (a : Action) :
    SiteStep setup s a (setup.act s a) := by
  rcases a with ⟨t, os⟩ | a
  · cases t with
    | byoMachine k =>
      simp only [Setup.act, Setup.program, run_dropped]
      rcases machineStep_ran hs.hosts hs.machines hs.fresh k os with hsame | ⟨scope, how, m, hran⟩
      · rw [hsame]
        exact .idle
      · exact .machine hran
    | k8sInstallerConfig k =>
      simp only [Setup.act, Setup.program, run_dropped]
      exact .config fun ok hdefault hos =>
        configStep_ensures hdefault (fun c hc => hs.configs _ c hc) os hos
    | byoHost k =>
      simp only [Setup.act, Setup.program, run_dropped]
      exact .byoHost (byoHostStep_ensures trivial hs.hosts hs.secrets k os fun _ _ => trivial)
    | agent k =>
      rw [Setup.act]
      rcases agentStep_cases setup.agent k os s hs.hosts with
        hsame | ⟨h, h', cur, log, c, sp, st, hran, -⟩
      · rw [hsame]
        exact .idle
      · exact .agent hran
  · simp only [Setup.act]
    cases he : envStep a s.world with
    | none => exact .idle
    | some w' => exact .env he

/-! ## What an agent leaves of its host -/

/-- Labels, annotations, secrets and machine reference are the same. -/
structure SameSpec (h cur : ByoHost) : Prop where
  labels : ∀ k, cur.labels.get k = h.labels.get k
  annotations : ∀ k, cur.annotations.get k = h.annotations.get k
  bootstrapSecret : cur.bootstrapSecret = h.bootstrapSecret
  installationSecret : cur.installationSecret = h.installationSecret
  uninstallationSecret : cur.uninstallationSecret = h.uninstallationSecret
  machineRef : cur.machineRef = h.machineRef

theorem SameSpec.carries {h cur : ByoHost} (hsame : SameSpec h cur) (key : AnnotationKey) :
    cur.carries key = h.carries key := by
  rw [ByoHost.carries, hsame.annotations]
  rfl

theorem SameSpec.attachedLabel {h cur : ByoHost} (hsame : SameSpec h cur) :
    cur.attachedLabel = h.attachedLabel := hsame.labels _

theorem SameSpec.clusterLabel {h cur : ByoHost} (hsame : SameSpec h cur) :
    cur.clusterLabel = h.clusterLabel := hsame.labels _

/-- The host was marked and is being released; `spec` says that metadata and spec have arrived,
`status` that the status has. The reference to the uninstall secret stays. -/
structure ReleasedInPart (spec status : Bool) (h cur : ByoHost) : Prop where
  wasMarked : h.carries .hostCleanup = true
  marked : cur.carries .hostCleanup = !spec
  paused : cur.carries .paused = h.carries .paused
  attachedLabel : cur.attachedLabel = if spec then none else h.attachedLabel
  clusterLabel : cur.clusterLabel = if spec then none else h.clusterLabel
  installationSecret : cur.installationSecret = if spec then none else h.installationSecret
  uninstallationSecret : cur.uninstallationSecret = h.uninstallationSecret
  machineRef : cur.machineRef = if status then none else h.machineRef

/-- A patch of conditions leaves the rest. -/
theorem Patched.sameSpec {h h' cur : ByoHost} {c sp st : Bool} (hp : Patched h h' c sp st cur)
    (hsame : ConditionsOnly h h') : SameSpec h cur := by
  have hchange := hsame
  rw [ConditionsOnly] at hchange
  constructor
  · intro k
    rw [hp.labels, hchange]
    exact ite_self _
  · intro k
    rw [hp.annotations, hchange]
    exact ite_self _
  · rw [hp.bootstrapSecret, hchange]
    exact ite_self _
  · rw [hp.installationSecret, hchange]
    exact ite_self _
  · rw [hp.uninstallationSecret, hchange]
    exact ite_self _
  · rw [hp.machineRef, hchange]
    exact ite_self _

/-- A reconcile of an agent keeps its host or releases it, in part at least. -/
theorem AgentRan.effect {cfg : HostReconciler.Config} {k : NamespacedName} {s s' : Site}
    {h h' cur : ByoHost} {log : List HostEvent} {c sp st : Bool}
    (hran : AgentRan cfg k s s' h h' cur log c sp st) : SameSpec h cur ∨ ReleasedInPart sp st h cur := by
  have hp := hran.patched
  rcases hran.course.shape with hsame | ⟨hmarked, hreleased⟩
  · exact .inl (hp.sameSpec hsame)
  · right
    have hlabels : h'.attachedLabel = none ∧ h'.clusterLabel = none := by
      rw [hreleased]
      simp [releasedHost, HostReconciler.removeAnnotations, ByoHost.attachedLabel,
        ByoHost.clusterLabel]
    have hannotations : h'.annotations.get .hostCleanup = none ∧
        h'.annotations.get .paused = h.annotations.get .paused := by
      rw [hreleased]
      simp [releasedHost, HostReconciler.removeAnnotations]
    have hspec : h'.installationSecret = none ∧ h'.uninstallationSecret = h.uninstallationSecret ∧
        h'.machineRef = none := by
      rw [hreleased]
      exact ⟨rfl, rfl, rfl⟩
    refine ⟨hmarked, ?_, ?_, ?_, ?_, ?_, ?_, ?_⟩
    · rw [ByoHost.carries, hp.annotations, hannotations.1]
      cases sp with
      | true => rfl
      | false => exact hmarked
    · rw [ByoHost.carries, hp.annotations, hannotations.2, ite_self]
      rfl
    · rw [ByoHost.attachedLabel, hp.labels]
      exact congrArg (fun x => if sp then x else _) hlabels.1
    · rw [ByoHost.clusterLabel, hp.labels]
      exact congrArg (fun x => if sp then x else _) hlabels.2
    · rw [hp.installationSecret, hspec.1]
    · rw [hp.uninstallationSecret, hspec.2.1, ite_self]
    · rw [hp.machineRef, hspec.2.2]

/-! ## Steps keep worlds sound -/

section Sound

variable {w w' : World} {k : NamespacedName} {reason : HostEdit → ByoHost → Prop} {h h' : ByoHost}
  {scope : ByoMachineReconciler.Scope} {how : Leave} {m : ByoMachine} {skip : Bool}
  {ok : Outcome → Prop} {c c' : InstallerConfig} {a : EnvAction}

/-- Edits do not move a host to another key. -/
theorem EditedBy.key (hran : EditedBy reason h h') : h'.key = h.key := by
  refine hran.invariant (P := fun x => x.key = h.key) (fun hsame hP => ?_)
    (fun _ hP hpatched => hpatched.key.trans hP) rfl
  exact hsame.key.symm.trans hP

/-- Edits do not change what a host says about its system. -/
theorem EditedBy.hostDetails (hran : EditedBy reason h h') : h'.hostDetails = h.hostDetails := by
  refine hran.invariant (P := fun x => x.hostDetails = h.hostDetails) (fun hsame hP => ?_)
    (fun _ hP hpatched => ?_) rfl
  · exact hsame.hostDetails.symm.trans hP
  · rw [hpatched.hostDetails, HostEdit.apply_hostDetails, ite_self]
    exact hP

/-- Edits do not remove a reference to an install script. -/
theorem EditedBy.installationSecret (hran : EditedBy reason h h')
    (hh : h.installationSecret ≠ none) : h'.installationSecret ≠ none := by
  refine hran.invariant (P := fun x => x.installationSecret ≠ none) (fun hsame hP => ?_)
    (fun _ hP hpatched => ?_) hh
  · exact fun hb => hP (hsame.installationSecret.trans hb)
  · rcases hpatched.edit_installationSecret with heq | ⟨ref, -, heq⟩ <;> rw [heq]
    · exact hP
    · exact nofun

/-- The labels of a host are what they were, or it was in no cluster and has been attached to the
machine, which had no host. -/
theorem EditedBy.labels (hran : EditedBy (EditReason w scope) h h') :
    (h'.attachedLabel = h.attachedLabel ∧ h'.clusterLabel = h.clusterLabel) ∨
      (Labelled scope.byoMachine.key h' ∧ h'.clusterLabel ≠ none ∧ h.clusterLabel = none ∧
        NoneLabelled scope.byoMachine.key w) := by
  refine hran.invariant (P := fun x =>
    (x.attachedLabel = h.attachedLabel ∧ x.clusterLabel = h.clusterLabel) ∨
      (Labelled scope.byoMachine.key x ∧ x.clusterLabel ≠ none ∧ h.clusterLabel = none ∧
        NoneLabelled scope.byoMachine.key w)) (fun hsame hP => ?_) (fun hreason hP hpatched => ?_)
    (.inl ⟨rfl, rfl⟩)
  · rw [Labelled, ← hsame.attachedLabel, ← hsame.clusterLabel]
    exact hP
  · rcases hpatched.edit_labels with ⟨hattached, hcluster⟩ | ⟨a, rfl, hattached, hcluster⟩
    · rw [Labelled, hattached, hcluster]
      exact hP
    · obtain ⟨-, hfree, hnone, dataSecretName, version, -, -, rfl⟩ := hreason
      rcases hP with ⟨-, hsame⟩ | ⟨-, hin, -⟩
      · refine .inr ⟨hattached, ?_, hsame.symm.trans hfree, hnone⟩
        rw [hcluster]
        exact Option.some_ne_none _
      · exact absurd hfree hin

/-- A machine picks a host only when none carries its label, so labels stay unique. -/
theorem MachineRan.uniqueLabels (hran : MachineRan w k scope how m w') (hw : UniqueLabels w) :
    UniqueLabels w' := by
  obtain ⟨key, hone⟩ := hran.oneHost
  -- a host that has just been labelled is the one that was written
  have hnew : ∀ {k' h'}, w'.hosts.lookup k' = some h' → Labelled scope.byoMachine.key h' →
      NoneLabelled scope.byoMachine.key w → k' = key := by
    intro k' h' hh' hlabelled hnone
    by_contra hk
    rw [hone k' hk] at hh'
    exact hnone k' h' hh' hlabelled
  intro k₁ h₁' k₂ h₂' hh₁' hh₂' hsome heq
  obtain ⟨h₁, hh₁, hedited₁⟩ := hran.hosts.of_some hh₁'
  obtain ⟨h₂, hh₂, hedited₂⟩ := hran.hosts.of_some hh₂'
  rcases hedited₁.labels with ⟨hsame₁, -⟩ | ⟨hl₁, -, -, hnone⟩
  · rcases hedited₂.labels with ⟨hsame₂, -⟩ | ⟨hl₂, -, -, hnone⟩
    · exact hw k₁ h₁ k₂ h₂ hh₁ hh₂ (hsame₁ ▸ hsome) (by rw [← hsame₁, heq, hsame₂])
    · rw [hnew hh₁' (heq.trans hl₂) hnone, hnew hh₂' hl₂ hnone]
  · rw [hnew hh₁' hl₁ hnone, hnew hh₂' (heq.symm.trans hl₁) hnone]

/-- The machine on the server is stored under its key after a reconcile, if it is still there. -/
theorem MachineRan.machine_key {m' : ByoMachine} (hran : MachineRan w k scope how m w')
    (hmachines : MachinesKeyed w) (hm' : w'.machines.lookup k = some m') : m'.key = k := by
  obtain ⟨-, ⟨hnone, -⟩ | ⟨cur, hcur, hpatched, -⟩⟩ := hran.left
  · rw [hm'] at hnone
    cases hnone
  · obtain rfl : m' = cur := Option.some.inj (hm'.symm.trans hcur)
    have hkey : scope.byoMachine.key = k := hmachines k _ hran.read.byoMachine
    rw [(machine_of_patched hpatched).1]
    exact hkey

/-- A reconcile of a machine keeps the store sound. -/
theorem MachineRan.sound (hran : MachineRan w k scope how m w') (hw : Sound w) : Sound w' where
  hosts k' h' hh' := by
    obtain ⟨h, hh, hedited⟩ := hran.hosts.of_some hh'
    exact hedited.key.trans (hw.hosts k' h hh)
  machines k' m' hm' := by
    by_cases hk : k' = k
    · subst hk
      exact hran.machine_key hw.machines hm'
    · rw [hran.others k' hk] at hm'
      exact hw.machines k' m' hm'
  configs k' c hc := by
    cases hran.configs with
    | none heq =>
      rw [heq] at hc
      exact hw.configs k' c hc
    | @created _ _ _ made _ _ _ _ _ _ heq =>
      rw [heq] at hc
      exact forall_lookup_insert hw.configs rfl k' c hc
  secrets k' s hs := by
    rw [hran.secrets] at hs
    exact hw.secrets k' s hs
  fresh := hran.informer

theorem SecretsKeyed.withSecret (hw : SecretsKeyed w) (s : Secret) :
    SecretsKeyed (w.withSecret s) :=
  forall_lookup_insert hw rfl

/-- The part under the deferred patch stores secrets and does nothing else. -/
theorem ConfigBody.rest (h : ConfigBody skip ok c w c' w') :
    w' = { w with secrets := w'.secrets } := by
  cases h <;> rfl

theorem ConfigBody.secretsKeyed (h : ConfigBody skip ok c w c' w') (hw : SecretsKeyed w) :
    SecretsKeyed w' := by
  cases h with
  | left => exact hw
  | installStored => exact hw.withSecret _
  | stored => exact (hw.withSecret _).withSecret _

/-- A reconcile of a configuration touches configurations and secrets. -/
theorem ConfigRan.rest (h : ConfigRan skip ok k w w') :
    w' = { w with secrets := w'.secrets, installerConfigs := w'.installerConfigs } := by
  cases h with
  | idle => rfl
  | ran _ hbody honly _ => rw [honly.rest, hbody.rest]

/-- A configuration that was written has the key it had. -/
theorem ConfigWritten.key {c'' : InstallerConfig} (h : ConfigWritten ok c c' (some c'')) :
    c''.key = c.key := by
  cases h <;> rfl

/-- A reconcile of a configuration keeps the store sound. -/
theorem ConfigRan.sound (hran : ConfigRan skip ok k w w') (hw : Sound w) : Sound w' where
  hosts := by
    rw [hran.rest]
    exact hw.hosts
  machines := by
    rw [hran.rest]
    exact hw.machines
  configs k' c'' hc'' := by
    cases hran with
    | idle => exact hw.configs k' c'' hc''
    | ran hread hbody honly hwritten =>
      by_cases hk : k' = K8sInstallerConfigReconciler.configKey k
      · subst hk
        rw [hc''] at hwritten
        exact hwritten.key.trans (hw.configs _ _ hread)
      · rw [honly.others k' hk, hbody.installerConfigs] at hc''
        exact hw.configs k' c'' hc''
  secrets := by
    cases hran with
    | idle => exact hw.secrets
    | ran hread hbody honly hwritten =>
      rw [honly.rest]
      exact hbody.secretsKeyed hw.secrets
  fresh := by
    rw [hran.rest]
    exact hw.fresh

theorem SecretGone.secretsKeyed {key : NamespacedName} (h : SecretGone w key w')
    (hw : SecretsKeyed w) : SecretsKeyed w' := by
  intro k' s hs
  rcases h.secrets with heq | heq <;> rw [heq] at hs
  · exact hw k' s hs
  · exact hw k' s (lookup_erase_some hs).2

theorem SecretGone.sound {key : NamespacedName} (h : SecretGone w key w') (hw : Sound w) :
    Sound w' := by
  have hsecrets := h.secretsKeyed hw.secrets
  rw [h.rest] at hsecrets ⊢
  exact ⟨hw.hosts, hw.machines, hw.configs, hsecrets, hw.fresh⟩

theorem Sound.setHost (hw : Sound w) (hk : h.key = k) : Sound (w.setHost k h) where
  hosts := forall_lookup_insert hw.hosts hk
  machines := hw.machines
  configs := hw.configs
  secrets := hw.secrets
  fresh := by simp [World.setHost, hw.fresh]

/-- A reconcile of the controller of hosts keeps the store sound. -/
theorem ByoHostRan.sound (hran : ByoHostRan k w w') (hw : Sound w) : Sound w' := by
  cases hran with
  | idle => exact hw
  | deleted hread hstale hgone => exact hgone.sound hw
  | @cleared h _ _ hread hstale hgone =>
    have hkey : h.key = k := hw.hosts k h hread
    exact (hgone.sound hw).setHost hkey

theorem OnlyHost.sound (honly : OnlyHost k w w') (hw : Sound w)
    (hk : ∀ h, w'.hosts.lookup k = some h → h.key = k) : Sound w' := by
  have hhosts := honly.wellKeyed hw.hosts hk
  have hfresh := honly.informer hw.fresh
  rw [honly.rest] at hhosts hfresh ⊢
  exact ⟨hhosts, hw.machines, hw.configs, hw.secrets, hfresh⟩

/-- The environment does not touch hosts, configurations and secrets. -/
theorem envStep_rest (h : envStep a w = some w') :
    w'.hosts = w.hosts ∧ w'.installerConfigs = w.installerConfigs ∧ w'.secrets = w.secrets ∧
      w'.installerTemplates = w.installerTemplates := by
  cases a <;> simp only [envStep, Option.map_eq_some_iff, Option.some.injEq] at h
  case createByoMachine m =>
    split at h
    · cases h
    · cases h
      exact ⟨rfl, rfl, rfl, rfl⟩
  all_goals first
    | (subst h; exact ⟨rfl, rfl, rfl, rfl⟩)
    | (obtain ⟨x, -, rfl⟩ := h; exact ⟨rfl, rfl, rfl, rfl⟩)

theorem envStep_informer (h : envStep a w = some w') (hw : w.informer = none) :
    w'.informer = none := by
  cases a <;> simp only [envStep, Option.map_eq_some_iff, Option.some.injEq] at h
  case createByoMachine m =>
    split at h
    · cases h
    · cases h
      exact hw
  case deliver => simp [hw] at h
  all_goals first
    | (subst h; exact hw)
    | (obtain ⟨x, -, rfl⟩ := h; exact hw)

/-- The environment keeps the store sound. -/
theorem envStep_sound (h : envStep a w = some w') (hw : Sound w) : Sound w' := by
  obtain ⟨hhosts, hconfigs, hsecrets, -⟩ := envStep_rest h
  refine ⟨?_, hw.machines.env h, ?_, ?_, envStep_informer h hw.fresh⟩
  · rw [WellKeyed, hhosts]
    exact hw.hosts
  · rw [ConfigsKeyed, hconfigs]
    exact hw.configs
  · rw [SecretsKeyed, hsecrets]
    exact hw.secrets

end Sound

/-- Every step keeps the world sound. -/
theorem SiteStep.sound {setup : Setup} {s s' : Site} {a : Action} (h : SiteStep setup s a s')
    (hs : Sound s.world) : Sound s'.world := by
  cases h with
  | idle => exact hs
  | machine hran => exact hran.sound hs
  | config hran => exact (hran (fun _ => True) trivial fun _ _ => trivial).sound hs
  | byoHost hran => exact hran.sound hs
  | @agent k _ _ _ _ _ _ _ _ _ hran =>
    refine hran.onlyHost.sound hs fun x hx => ?_
    cases hran.written.symm.trans hx
    exact hran.patched.key.trans (hs.hosts k _ hran.read)
  | env henv => exact envStep_sound henv hs

/-! ## One host, one machine -/

/-- The host without the reference to its uninstall secret. -/
structure Cleared (h cur : ByoHost) : Prop where
  attachedLabel : cur.attachedLabel = h.attachedLabel
  clusterLabel : cur.clusterLabel = h.clusterLabel
  carries : ∀ key, cur.carries key = h.carries key
  installationSecret : cur.installationSecret = h.installationSecret
  uninstallationSecret : cur.uninstallationSecret = none
  machineRef : cur.machineRef = h.machineRef

theorem cleared_merge {h : ByoHost} {ref : ObjectReference}
    (href : h.uninstallationSecret = some ref) :
    Cleared h (h.merge (ByoHostReconciler.clearedHost h) h) where
  attachedLabel := by
    rw [ByoHost.merge_attachedLabel]
    exact mergeField_self ..
  clusterLabel := by
    rw [ByoHost.merge_clusterLabel]
    exact mergeField_self ..
  carries key := by
    rw [ByoHost.merge_carries, ByoHostReconciler.clearedHost, mergeField_self]
    rfl
  installationSecret := by simp [ByoHost.merge, ByoHostReconciler.clearedHost, mergeRef]
  uninstallationSecret := by simp [ByoHost.merge, ByoHostReconciler.clearedHost, href]
  machineRef := rfl

/-- What a step did to one host. -/
inductive HostChange (s : Site) (a : Action) (w' : World) (h : ByoHost) : ByoHost → Prop
  | same : HostChange s a w' h h
  | edited {k : NamespacedName} {os : List Outcome} {scope : ByoMachineReconciler.Scope}
      {how : Leave} {m : ByoMachine} {h' : ByoHost} (ha : a = .reconcile (.byoMachine k) os)
      (hran : MachineRan s.world k scope how m w')
      (hedited : EditedBy (EditReason s.world scope) h h') : HostChange s a w' h h'
  | cleared {ref : ObjectReference} {h' : ByoHost}
      (hstale : ByoHostReconciler.staleReference h = some ref) (hcleared : Cleared h h')
      (hgone : w'.secrets.lookup ⟨ref.ns, ref.name⟩ = none) : HostChange s a w' h h'
  | agent {k : NamespacedName} {os : List Outcome} {sp st : Bool} {h' : ByoHost}
      (ha : a = .reconcile (.agent k) os) (heffect : SameSpec h h' ∨ ReleasedInPart sp st h h') :
      HostChange s a w' h h'

/-- A step neither creates nor removes hosts, and changes each in one of these ways. -/
theorem SiteStep.hostsVia {setup : Setup} {s s' : Site} {a : Action}
    (hstep : SiteStep setup s a s') : HostsVia (HostChange s a s'.world) s.world s'.world := by
  have hsame : ∀ {w' : World}, w'.hosts = s.world.hosts →
      HostsVia (HostChange s a w') s.world w' := fun heq => .of_hosts_eq (fun _ => .same) heq
  cases hstep with
  | idle => exact hsame rfl
  | machine hran => exact hran.hosts.mono fun _ _ hedited => .edited rfl hran hedited
  | config hran =>
    refine hsame ?_
    rw [(hran (fun _ => True) trivial fun _ _ => trivial).rest]
  | @byoHost k _ w' hran =>
    cases hran with
    | idle => exact hsame rfl
    | deleted _ _ hgone =>
      refine hsame ?_
      rw [hgone.rest]
    | @cleared h ref w₁ hread hstale hgone =>
      intro key
      by_cases hk : key = k
      · subst hk
        rw [hread, World.setHost, AList.lookup_insert]
        exact .some (.cleared hstale (cleared_merge (staleReference_eq_some hstale).1) hgone.gone)
      · have hother : w₁.hosts.lookup key = s.world.hosts.lookup key := by rw [hgone.rest]
        rw [World.setHost, AList.lookup_insert_ne hk, hother]
        exact HostsVia.refl (fun _ => .same) s.world key
  | @agent k _ _ h _ _ _ _ _ _ hran =>
    intro key
    by_cases hk : key = k
    · subst hk
      rw [hran.read, hran.written]
      exact .some (.agent rfl hran.effect)
    · rw [hran.onlyHost.others key hk]
      exact HostsVia.refl (fun _ => .same) s.world key
  | env henv => exact hsame (envStep_rest henv).1

/-- Every machine after a step was there before it, or has just been created. -/
theorem SiteStep.machine_cases {setup : Setup} {s s' : Site} {a : Action} {k : NamespacedName}
    {m' : ByoMachine} (hstep : SiteStep setup s a s')
    (hm' : s'.world.machines.lookup k = some m') :
    (∃ m, s.world.machines.lookup k = some m) ∨
      ∃ m, a = .env (.createByoMachine m) ∧ m.key = k := by
  cases hstep with
  | idle => exact .inl ⟨m', hm'⟩
  | @machine k' _ _ _ _ _ hran =>
    by_cases hk : k = k'
    · subst hk
      exact .inl ⟨_, hran.read.byoMachine⟩
    · rw [hran.others k hk] at hm'
      exact .inl ⟨m', hm'⟩
  | config hran =>
    rw [(hran (fun _ => True) trivial fun _ _ => trivial).rest] at hm'
    exact .inl ⟨m', hm'⟩
  | byoHost hran =>
    rw [hran.machines] at hm'
    exact .inl ⟨m', hm'⟩
  | agent hran =>
    rw [hran.onlyHost.rest] at hm'
    exact .inl ⟨m', hm'⟩
  | @env e _ henv =>
    cases e <;> simp only [envStep, Option.map_eq_some_iff, Option.some.injEq] at henv
    case createByoMachine m =>
      split at henv
      · cases henv
      · cases henv
        rcases lookup_insert_some hm' with ⟨hk, -⟩ | ⟨-, hm'⟩
        · exact .inr ⟨m, rfl, hk.symm⟩
        · exact .inl ⟨m', hm'⟩
    case deleteByoMachine k' | pauseByoMachine k' _ =>
      obtain ⟨m, hm, rfl⟩ := henv
      by_cases hk : k = k'
      · subst hk
        exact .inl ⟨m, hm⟩
      · rw [setMachine_lookup_ne _ hk] at hm'
        exact .inl ⟨m', hm'⟩
    case deliver =>
      obtain ⟨i, -, rfl⟩ := henv
      exact .inl ⟨m', hm'⟩
    all_goals
      subst henv
      exact .inl ⟨m', hm'⟩

/-! ## The references of configurations -/

/-- The configuration of a machine, which has its namespace and its name. -/
def configOf (k : NamespacedName) : InstallerConfig :=
  { apiVersion := groupVersion, kind := "K8sInstallerConfig", ns := k.ns, name := k.name }

open K8sInstallerConfigReconciler in
/-- A configuration references its own secrets, and both when it is ready. -/
structure ConfigOk (c : InstallerConfig) : Prop where
  install : ∀ ref, c.installationSecret = .value ref → ref = installSecretRef c
  uninstall : ∀ ref, c.uninstallationSecret = .value ref → ref = uninstallSecretRef c
  ready : c.ready = .value true → c.installationSecret = .value (installSecretRef c) ∧
    c.uninstallationSecret = .value (uninstallSecretRef c)

def ConfigsOk (w : World) : Prop := ∀ k c, w.installerConfigs.lookup k = some c → ConfigOk c

section ConfigsOk

variable {w w' w₁ : World} {k : NamespacedName} {skip : Bool} {ok : Outcome → Prop}
  {c c' c'' : InstallerConfig}

/-- The references and the flag of the configuration in memory: as read, or its own. -/
theorem ConfigBody.status (h : ConfigBody skip ok c w c' w₁) :
    (c'.installationSecret = c.installationSecret ∨
      c'.installationSecret = .value (K8sInstallerConfigReconciler.installSecretRef c)) ∧
    ((c'.uninstallationSecret = c.uninstallationSecret ∧ c'.ready = c.ready) ∨
      (c'.installationSecret = .value (K8sInstallerConfigReconciler.installSecretRef c) ∧
        c'.uninstallationSecret = .value (K8sInstallerConfigReconciler.uninstallSecretRef c))) := by
  cases h with
  | left hc' =>
    obtain ⟨f, rfl⟩ := hc'
    exact ⟨.inl rfl, .inl ⟨rfl, rfl⟩⟩
  | installStored _ _ hc' =>
    obtain ⟨f, rfl⟩ := hc'
    exact ⟨.inr rfl, .inl ⟨rfl, rfl⟩⟩
  | stored _ hc' =>
    obtain ⟨f, rfl⟩ := hc'
    exact ⟨.inr rfl, .inr ⟨rfl, rfl⟩⟩

/-- A written configuration refers to its own secrets if the one read did. -/
theorem ConfigWritten.configOk (h : ConfigWritten ok c c' (some c''))
    (hbody : ConfigBody skip ok c w c' w₁) (hc : ConfigOk c) : ConfigOk c'' := by
  cases h with
  | kept f => exact ⟨hc.install, hc.uninstall, hc.ready⟩
  | written f =>
    obtain ⟨hinstall, hrest⟩ := hbody.status
    refine ⟨fun ref href => ?_, fun ref href => ?_, fun hready => ?_⟩
    · rcases hinstall with heq | heq
      · exact hc.install ref (heq.symm.trans href)
      · cases heq.symm.trans href
        rfl
    · rcases hrest with ⟨heq, -⟩ | ⟨-, heq⟩
      · exact hc.uninstall ref (heq.symm.trans href)
      · cases heq.symm.trans href
        rfl
    · rcases hrest with ⟨huninstall, heq⟩ | hown
      · obtain ⟨hi, hu⟩ := hc.ready (heq.symm.trans hready)
        refine ⟨?_, huninstall.trans hu⟩
        rcases hinstall with heq' | heq'
        · exact heq'.trans hi
        · exact heq'
      · exact hown

/-- A configuration as it is created references nothing. -/
theorem configOk_made {m : ByoMachine} {ref : ObjectReference} {template : InstallerTemplate}
    {version : String}
    (h : ByoMachineReconciler.installerConfigFor m ref template version = .ok c) : ConfigOk c := by
  obtain ⟨hready, hinstall, huninstall⟩ := installerConfigFor_ready h
  refine ⟨fun ref href => ?_, fun ref href => ?_, fun hr => ?_⟩
  · cases hinstall.symm.trans href
  · cases huninstall.symm.trans href
  · cases hready.symm.trans hr

/-- Every step keeps the references of configurations in order. -/
theorem SiteStep.configsOk {setup : Setup} {s s' : Site} {a : Action} (h : SiteStep setup s a s')
    (hs : ConfigsOk s.world) : ConfigsOk s'.world := by
  cases h with
  | idle => exact hs
  | machine hran =>
    intro key c hc
    cases hran.configs with
    | none heq =>
      rw [heq] at hc
      exact hs key c hc
    | @created _ _ _ made _ _ _ _ hmade _ heq =>
      rw [heq] at hc
      exact forall_lookup_insert hs (configOk_made hmade) key c hc
  | @config k os w' hran =>
    intro key c hc
    cases hran (fun _ => True) trivial fun _ _ => trivial with
    | idle => exact hs key c hc
    | ran hread hbody honly hwritten =>
      by_cases hk : key = K8sInstallerConfigReconciler.configKey k
      · subst hk
        rw [hc] at hwritten
        exact hwritten.configOk hbody (hs _ _ hread)
      · rw [honly.others key hk, hbody.installerConfigs] at hc
        exact hs key c hc
  | byoHost hran =>
    intro key c hc
    rw [hran.installerConfigs] at hc
    exact hs key c hc
  | agent hran =>
    intro key c hc
    rw [hran.onlyHost.rest] at hc
    exact hs key c hc
  | env henv =>
    intro key c hc
    rw [(envStep_rest henv).2.1] at hc
    exact hs key c hc

end ConfigsOk

/-- What every step from a sound world keeps, every run keeps. -/
theorem site_run_invariant {setup : Setup} {ok : Site → Action → Prop} {I : Site → Prop}
    (hstep : ∀ {s a s'}, Sound s.world → I s → ok s a → SiteStep setup s a s' → I s')
    {s₀ s : Site} {as : List Action} (hrun : ActionRun setup.act ok s₀ as s)
    (hsound : Sound s₀.world) (hinit : I s₀) : Sound s.world ∧ I s := by
  refine hrun.invariant (I := fun s => Sound s.world ∧ I s) ?_ ⟨hsound, hinit⟩
  rintro s a ⟨hs, hI⟩ ha
  have hact := act_step setup hs a
  exact ⟨hact.sound hs, hstep hs hI ha hact⟩

/-- Worlds stay sound, whatever is allowed. -/
theorem site_run_sound {setup : Setup} {ok : Site → Action → Prop} {s₀ s : Site} {as : List Action}
    (hrun : ActionRun setup.act ok s₀ as s) (hsound : Sound s₀.world) : Sound s.world := by
  refine hrun.invariant (I := fun s : Site => Sound s.world) ?_ hsound
  intro s a hs _
  exact (act_step setup hs a).sound hs

end Byoh.Protocol
