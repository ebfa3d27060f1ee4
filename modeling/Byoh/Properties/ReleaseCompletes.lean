import Byoh.Properties.Handshake
import Byoh.Properties.HostReuse
import Byoh.Properties.UninstallSecrets
import Byoh.Protocol.ReleaseProgress

/-!
# Deleted machines give their hosts back

In every state of every run, when a machine is being deleted and nothing fails from now on: one
reconcile of the machine, one of the agent and one of the ByoHost controller bring the host back to
the pool, and neither the machine nor the uninstall secret stays behind (`deletion_completes`).

The runs are those of `UninstallSecrets`, in which hosts are picked only when their reference has been
cleared. In others the script of a host can be gone when it is needed, and
the cleanup fails every time (`cleanup_never_completes`).
-/

set_option autoImplicit false

namespace Byoh.Properties

open Byoh.Foundation Byoh.Model Byoh.Protocol

/-! ## Statement -/

/-- The reconciles of the machine `k`, of the agent of the host `key`, and of this host by the
manager. -/
def release (cfg : HostReconciler.Config) (k key : NamespacedName) : ApiProg Unit := do
  let _ ← ByoMachineReconciler.reconcile k
  let _ ← HostReconciler.reconcile cfg key
  let _ ← ByoHostReconciler.reconcile key

/-- The machine `k` has given its host `h` back. -/
structure GivenBack (k : NamespacedName) (h : ByoHost) (w : World) : Prop where
  machine : Finalized k w
  host : ∃ cur, w.hosts.lookup h.key = some cur ∧ Detached cur ∧ cur.uninstallationSecret = none
  secret : ∀ r, h.uninstallationSecret = some r → ¬SecretExists r w

/-- The uninstall secrets of the configurations have scripts. -/
def Uninstallable (w : World) : Prop :=
  ∀ k r secret, Offers w k r → w.secrets.lookup (secretKey r) = some secret →
    secret.data.get "uninstall" ≠ none

/-! ## Secrets are those of the start -/

/-- Every secret was there at the start. -/
def Inherited (w₀ w : World) : Prop :=
  ∀ key secret, w.secrets.lookup key = some secret → w₀.secrets.lookup key = some secret

theorem Inherited.of_eq {w₀ w w' : World} (h : Inherited w₀ w) (hs : w'.secrets = w.secrets) :
    Inherited w₀ w' := by
  rw [Inherited, hs]
  exact h

theorem Inherited.deleted {w₀ w : World} (h : Inherited w₀ w) (r : ObjectReference) :
    Inherited w₀ (withoutSecret r w) :=
  forall_lookup_erase h

/-- A call of a reconcile of a machine leaves the secrets alone. -/
theorem MachineMove.secrets {k : NamespacedName} {o : Outcome} {w w' : World} {q q' : MachinePhase}
    {c : Call} (hmove : MachineMove k o w q c q' w') : w'.secrets = w.secrets := by
  cases hmove with
  | look hw =>
    obtain ⟨nodes, rfl⟩ := hw
    rfl
  | _ => rfl

/-- All steps leave the secrets alone or delete one. -/
theorem inherited_relyGuarantee (setup : Setup) {names : List NamespacedName}
    (hdistinct : DistinctLabels names) {w₀ : World} (hscripts : Scripted w₀) :
    RelyGuarantee (system setup) (clearedRules names) Next (Silent setup) firstPhase Done
      (NotBothMachines names)
      (fun w => ((Lifecycle names w ∧ Full names w₀ w) ∧ Secrets names w₀ w) ∧ Inherited w₀ w)
      (fun t w q => ((LifecycleThread names t w q ∧ FullThread names w₀ t w q) ∧
        SecretThread w₀ t w q) ∧ True) := by
  refine (secret_relyGuarantee setup hdistinct hscripts).extend
    { start := fun _ _ _ _ _ => trivial, call := ?_, others := ?_
      silent := fun _ _ _ _ _ => trivial, finish := fun _ _ _ _ _ => trivial, env := ?_ }
  · intro w t q o c q' hG hI hH _ _ hnext _ _
    refine ⟨?_, trivial⟩
    change Inherited w₀ (exec o c w).2
    cases hnext with
    | @machine k q q' c _ h => exact hI.of_eq (MachineMove.secrets h.move)
    | @config k q q' c _ h => cases hH.2.config k rfl
    | @host k q q' c _ h =>
      rcases (hH.2.host k q rfl rfl).effect h.move with ⟨hstep, -⟩ | ⟨r, -, hw⟩
      · exact hI.of_eq hstep.secrets
      · rw [hw]
        exact hI.deleted r
    | @agent k q q' c _ h =>
      exact hI.of_eq (Clearing.secretStep (hH.1.1.agent k q rfl rfl) (hH.1.2.agent k q rfl rfl)
        h.move).1.secrets
  · intros
    trivial
  · intro w busy a w' hG hI ha henv
    exact ⟨hI.of_eq (SecretStep.env ha henv).secrets, fun _ _ _ _ => trivial⟩

/-! ## The agent -/

section Agent

variable {cfg : HostReconciler.Config} {w : World} {k : NamespacedName} {h cur cur' : ByoHost}

/-- One reconcile of a marked host in which nothing fails releases it. -/
theorem agent_releases (hread : w.hosts.lookup k = some h) (hkey : h.key = k)
    (hmarked : h.carries .hostCleanup = true) (hscript : HasScript h w) :
    Prog.Meets NothingFails (fun _ w' => OnlyHost k w w' ∧ ∃ cur, w'.hosts.lookup k = some cur ∧
      cur.key = k ∧ Detached cur ∧ cur.uninstallationSecret = h.uninstallationSecret)
      (HostReconciler.reconcile cfg k) w := by
  -- the cleanup comes to its end, so it takes a course that does
  have hcleanup : GoM.Meets NothingFails (HostReconciler.reconcileHost cfg) h w fun e h' w' =>
      w' = w ∧ h'.key = k ∧ ∃ log, CleanupCourse cfg h log h' true := by
    have hreturns : GoM.Meets NothingFails (HostReconciler.reconcileHost cfg) h w fun e _ _ =>
        ∃ a, e = .ok a := by
      refine .get_bind ?_
      rw [if_pos hmarked]
      refine .ok_bind (hostCleanUp_completes hscript) ?_
      rintro _ h' w' -
      exact .pure ⟨{}, rfl⟩
    refine ((meets_nothingFails (reconcileHost_ensures hmarked)).and hreturns).mono ?_
    rintro ⟨exit, h'⟩ w' ⟨⟨hw', log, hends⟩, a, hexit⟩
    refine ⟨hw', (hends.course hmarked).key.trans hkey, log, ?_⟩
    obtain ⟨⟨e, he⟩, -⟩ | ⟨-, hc⟩ := hends
    · cases hexit.symm.trans he
    · exact hc
  refine (agent_runs hread hcleanup).mono ?_
  rintro _ w' ⟨honly, e, h', cur, ⟨log, hc⟩, hcur, hp⟩
  refine ⟨honly, cur, hcur, hp.key.trans hkey, detached_of_completed hc hp, ?_⟩
  have hshape : h' = { releasedHost h with conditions := h'.conditions } := hc.shape
  rw [hp.uninstallationSecret, hshape]
  rfl

/-- The reference of a released host is cleared. -/
theorem Detached.cleared (hd : Detached cur)
    (hp : Patched cur (ByoHostReconciler.clearedHost cur) true true true cur') : Detached cur' where
  machineRef := hp.machineRef.trans hd.machineRef
  bootstrapSecret := hp.bootstrapSecret.trans hd.bootstrapSecret
  installationSecret := hp.installationSecret.trans hd.installationSecret
  labels := fun key hkey => (hp.labels key).trans (hd.labels key hkey)
  annotations := fun key hkey => (hp.annotations key).trans (hd.annotations key hkey)
  notInstalled := by
    rw [isInstalled, hp.conditions]
    exact hd.notInstalled
  notBootstrapped := by
    rw [isBootstrapped, hp.conditions]
    exact hd.notBootstrapped

theorem Detached.not_marked (hd : Detached cur) : cur.carries .hostCleanup = false := by
  rw [ByoHost.carries, hd.annotations .hostCleanup (by simp)]
  rfl

end Agent

/-! ## Whole runs -/

/-- In every state of every run: if the machine `k` is being deleted and nothing fails any more, the
three reconciles give its host back. -/
theorem deletion_completes (setup : Setup) {names : List NamespacedName}
    (hdistinct : DistinctLabels names) {w : World} (hw : Pristine w) (hscripts : Scripted w)
    (huninstall : Uninstallable w) {ls : List (Label Outcome Tid EnvAction)}
    {σ : Pool Call Resp World Tid} (hrun : (system setup).Steps (clearedRules names) (.init w) ls σ)
    {k : NamespacedName} {s : ByoMachineReconciler.Scope} (hs : Deletable σ.store k s) {h : ByoHost}
    (hh : σ.store.hosts.lookup h.key = some h) (hlabelled : Labelled k h) :
    Prog.Meets NothingFails (fun _ w' => GivenBack k h w') (release setup.agent k h.key) σ.store := by
  have hstart : ((Lifecycle names w ∧ Full names w w) ∧ Secrets names w w) ∧ Inherited w w :=
    ⟨⟨⟨hw.lifecycle names, full_of_pristine hw names⟩, secrets_of_pristine hw hscripts names⟩,
      fun _ _ h => h⟩
  have hthreads : ∀ t, ((LifecycleThread names t w none ∧ FullThread names w t w none) ∧
      SecretThread w t w none) ∧ True :=
    fun t => ⟨⟨⟨lifecycleThread_none t, fullThread_of_pristine hw names t⟩, secretThread_none t⟩,
      trivial⟩
  obtain ⟨⟨⟨hG, -⟩, hS⟩, hI⟩ :=
    (inherited_relyGuarantee setup hdistinct hscripts).holds hstart hthreads hrun
  -- the script is there, as the host has the label
  have hscript : HasScript h σ.store := by
    intro r hr
    have hattached : h.attachedLabel ≠ none := by
      rw [hlabelled]
      exact Option.some_ne_none _
    have hpresent := (hS.each h.key h hh).present r hr (.inl hattached)
    obtain ⟨secret, hsecret⟩ := Option.isSome_iff_exists.1 hpresent
    obtain ⟨k', -, hoffers⟩ := (hS.each h.key h hh).known r hr
    exact ⟨secret, hsecret, huninstall k' r secret hoffers (hI _ secret hsecret)⟩
  have hkey := hG.machines k _ hs.byoMachine
  refine .bind ((meets_nothingFails (reconcile_releases hs hkey hG.hosts hG.fresh hG.unique hh
    hlabelled)).mono ?_)
  rintro _ w₁ ⟨hfinal, hsecrets, cur, hcur, hcurKey, hmarked, hsame⟩
  have hscript₁ : HasScript cur w₁ := by
    intro r hr
    rw [hsecrets]
    exact hscript r (hsame ▸ hr)
  refine .bind ((agent_releases hcur hcurKey hmarked hscript₁).mono ?_)
  rintro _ w₂ ⟨honly, cur₂, hcur₂, hkey₂, hdetached, hsame₂⟩
  have hkeyed : SecretsKeyed w₂ := by
    rw [SecretsKeyed, honly.rest, hsecrets]
    exact hS.keyed
  refine .bind ((meets_nothingFails (reconcile_clears hkeyed hcur₂ hkey₂ hdetached.machineRef
    hdetached.not_marked)).mono ?_)
  rintro _ w₃ ⟨-, hmachines, hgone, cur₃, hcur₃, hp⟩
  refine .ret ⟨?_, ⟨cur₃, hcur₃, hdetached.cleared hp, hp.uninstallationSecret⟩, fun r hr => ?_⟩
  · rw [Finalized, hmachines, honly.rest]
    exact hfinal
  · have hnone := hgone r (hsame₂.trans (hsame.trans hr))
    rw [SecretExists, secretKey, hnone]
    exact Bool.false_ne_true

/-- The uninstall secrets of the small cluster have scripts. -/
theorem uninstallable_scriptedWorld (hosts machines : List String) :
    Uninstallable (scriptedWorld hosts machines) := by
  intro k r secret _ hsecret
  obtain ⟨name, -, -, rfl⟩ := lookup_foldr (fun n => (scriptSecret n).key) scriptSecret hsecret
  simp [scriptSecret]

/-- The machine `k` is being deleted, and the host `key` has its label and a reference to an uninstall
secret. -/
def isDeletable (w : World) (k key : NamespacedName) : Bool :=
  (readScope w k).any fun s => (w.hosts.lookup key).any fun h =>
    decide (isValidLabelValue k.labelValue = true ∧ s.byoHost = none ∧
      s.byoMachine.labels.get .clusterName ≠ some "" ∧
      isPaused s.cluster s.byoMachine.annotations = false ∧
      s.byoMachine.deletionTimestamp = true ∧ h.key = key ∧ Labelled k h ∧
      h.uninstallationSecret ≠ none)

theorem deletable_of_isDeletable {w : World} {k key : NamespacedName}
    (hcheck : isDeletable w k key = true) : ∃ s h, Deletable w k s ∧
      w.hosts.lookup h.key = some h ∧ h.key = key ∧ Labelled k h ∧ h.uninstallationSecret ≠ none := by
  simp only [isDeletable, Option.any_eq_true, decide_eq_true_eq] at hcheck
  obtain ⟨s, hs, h, hh, hlabel, hnone, hnamed, hpaused, hdeleting, hkey, hlabelled, href⟩ := hcheck
  obtain ⟨hread, hinfrastructure⟩ := readScope_eq_some hs
  have hdeletable : Deletable w k s := { hread with
    noHost := hnone
    validLabel := hlabel
    named := hnamed
    infrastructure := hinfrastructure
    notPaused := hpaused
    deleting := hdeleting }
  exact ⟨s, h, hdeletable, hkey.symm ▸ hh, hkey, hlabelled, href⟩

/-- The machine `m1` is deleted when `h1` has all that a machine gives it. -/
theorem deletion_completes_small : ∃ σ s h,
    (system {}).Steps (clearedRules [Small.key "m1"]) (.init (scriptedWorld ["h1"] ["m1"]))
      (Small.calls (.byoMachine (Small.key "m1")) 19 ++ [.env (.deleteByoMachine (Small.key "m1"))])
      σ ∧ Deletable σ.store (Small.key "m1") s ∧ h.uninstallationSecret ≠ none ∧
    Prog.Meets NothingFails (fun _ w' => GivenBack (Small.key "m1") h w')
      (release {} (Small.key "m1") (Small.key "h1")) σ.store := by
  obtain ⟨σ, hsteps, hend⟩ := (system {}).exists_steps (clearedRules [Small.key "m1"])
    (Small.calls (.byoMachine (Small.key "m1")) 19 ++ [.env (.deleteByoMachine (Small.key "m1"))])
    (fun σ => isDeletable σ.store (Small.key "m1") (Small.key "h1"))
    (σ := .init (scriptedWorld ["h1"] ["m1"])) (by decide +kernel)
  obtain ⟨s, h, hs, hh, hkey, hlabelled, href⟩ := deletable_of_isDeletable hend
  refine ⟨σ, s, h, hsteps, hs, href, ?_⟩
  rw [← hkey]
  exact deletion_completes {} (by decide) (pristine_scriptedWorld ["h1"] ["m1"])
    (scripted_scriptedWorld ["h1"] ["m1"]) (uninstallable_scriptedWorld ["h1"] ["m1"]) hsteps hs hh
    hlabelled

/-! ## Without its script a host stays marked -/

/-- The host `k` is marked, and the uninstall secret that it references does not exist. -/
def Wedged (k : NamespacedName) (w : World) : Prop :=
  ∃ h r, w.hosts.lookup k = some h ∧ h.key = k ∧ h.carries .hostCleanup = true ∧
    h.uninstallationSecret = some r ∧ w.secrets.lookup (secretKey r) = none

section Wedged

open Byoh.Model.HostReconciler

variable {cfg : Config} {w : World} {k : NamespacedName} {h h' : ByoHost} {r : ObjectReference}
  {ok : Outcome → Prop} {setup : Setup} {s : Site} {a : Action}

theorem resetInstalledNode_ensures :
    GoM.Ensures exec ok resetInstalledNode h w fun _ h' w' =>
      h'.uninstallationSecret = h.uninstallationSecret ∧ w' = w := by
  intro os _
  have hruns : Protocol.Runs (fun _ h' _ => h'.uninstallationSecret = h.uninstallationSecret)
      resetInstalledNode h [] := by
    refine resetInstalledNode_runs (fun log h₁ hr => ?_) fun _ _ => rfl
    rw [hr.conditionsOnly]
  obtain ⟨log, hsame, hw⟩ := Prog.Follows.run exec (J := fun w' _ => w' = w)
    (fun o w' c q q' hJ hnext => (hnext.world_eq o w').trans hJ) (fun _ _ _ hJ _ => hJ) hruns rfl os
  exact ⟨hsame, hw⟩

/-- A cleanup that cannot read its script fails. -/
theorem hostCleanUp_fails (hdefault : ok default) (hskip : cfg.skipK8sInstallation = false)
    (hr : h.uninstallationSecret = some r) (hgone : w.secrets.lookup (secretKey r) = none) :
    GoM.Ensures exec ok (hostCleanUp cfg) h w fun e _ _ => ∀ a, e ≠ .ok a := by
  refine .bind (resetInstalledNode_ensures.mono ?_)
  rintro e h₁ w' ⟨hsame, hw'⟩
  subst w'
  cases e with
  | err e | panic m =>
    intro a ha
    cases ha
  | ok _ =>
    refine .bind (.get_bind ?_)
    simp only [hskip, hsame.trans hr, Bool.not_false, if_true]
    refine .bind (.call_bind hdefault fun o _ => ?_)
    -- whatever the outcome, the secret is not found
    obtain ⟨e, he⟩ : ∃ e, (exec o (.getSecret ⟨r.ns, r.name⟩) w).1 = .error e := by
      rw [exec, show w.secrets.lookup ⟨r.ns, r.name⟩ = none from hgone, readObject]
      cases o.readOk <;> exact ⟨_, rfl⟩
    rw [he]
    exact .throw fun a ha => by cases ha

/-- A patch of conditions. -/
theorem patchConditions_ensures (hdefault : ok default) (hshape : ConditionsOnly h h')
    (hread : w.hosts.lookup h.key = some h) :
    Prog.Ensures exec ok (patchByoHost h h') w fun _ w' => w'.secrets = w.secrets ∧
      ∃ cur, w'.hosts.lookup h.key = some cur ∧ ConditionsOnly h cur := by
  rw [ConditionsOnly] at hshape
  have hkey : h'.key = h.key := by
    rw [hshape]
    rfl
  have hspec : h.changed h' = false := by
    rw [hshape]
    simp [ByoHost.changed]
  have hstatus : h.statusChanged h' = false := by
    rw [hshape]
    simp [ByoHost.statusChanged]
  have hrest : ∀ {w' : World} (e : Option ApiError), w'.secrets = w.secrets →
      (∃ cur, w'.hosts.lookup h.key = some cur ∧ ConditionsOnly h cur) →
      Prog.Ensures exec ok ((sendIf (h.changed h') (call (.patchByoHost h'.key h h'))).bind fun e₂ =>
        (sendIf (h.statusChanged h') (call (.patchByoHostStatus h'.key h h'))).bind fun e₃ =>
          .ret ((e.or (e₂.or e₃)).map Err.api)) w' fun _ w' => w'.secrets = w.secrets ∧
            ∃ cur, w'.hosts.lookup h.key = some cur ∧ ConditionsOnly h cur := by
    intro w' e hsecrets hcur
    rw [hspec, hstatus]
    exact .ret ⟨hsecrets, hcur⟩
  refine ensures_sendIf (fun _ => .call hdefault fun o _ => ?_) fun _ => hrest none rfl ⟨h, hread, rfl⟩
  rcases exec_patchByoHostConditions o w h'.key h h' with ⟨cur, cs, hcur, -, hexec⟩ | ⟨e, hexec, -⟩
  · rw [hkey, hread] at hcur
    cases hcur
    rw [hexec]
    refine hrest none rfl ⟨{ h with conditions := cs }, ?_, rfl⟩
    rw [hkey]
    exact AList.lookup_insert _
  · rw [hexec]
    exact hrest (some e) rfl ⟨h, hread, rfl⟩

/-- One reconcile of a host without its script, whatever the outcomes. -/
theorem Wedged.reconcile (hskip : cfg.skipK8sInstallation = false) (hw : Wedged k w) :
    Prog.Ensures exec (fun _ => True) (HostReconciler.reconcile cfg k) w fun e w' =>
      (∀ a, e ≠ .ok a) ∧ Wedged k w' := by
  obtain ⟨h, r, hread, hkey, hmarked, hr, hgone⟩ := hw
  refine .bind (.call trivial fun o _ => ?_)
  cases hget : (exec o (.getByoHost k) w).1 with
  | error e =>
    exact .ret (.ret ⟨fun a ha => (by cases ha), h, r, hread, hkey, hmarked, hr, hgone⟩)
  | ok h₀ =>
    obtain rfl : h₀ = h := Option.some.inj ((readObject_ok hget).symm.trans hread)
    rw [Prog.ret_bind]
    -- the cleanup fails at the script and changes nothing but conditions
    have hbody : Prog.Ensures exec (fun _ => True) (reconcileHost cfg h₀) w fun x w' =>
        (∀ a, x.1 ≠ .ok a) ∧ ConditionsOnly h₀ x.2 ∧ w' = w := by
      intro os hos
      have hfails : GoM.Ensures exec (fun _ => True) (reconcileHost cfg) h₀ w
          fun e _ _ => ∀ a, e ≠ .ok a := by
        refine .get_bind ?_
        rw [if_pos hmarked]
        refine .bind ((hostCleanUp_fails trivial hskip hr hgone).mono ?_)
        rintro e h' w' hnot
        cases e with
        | ok a => exact absurd rfl (hnot a)
        | err e | panic m =>
          intro a ha
          cases ha
      obtain ⟨hsame, log, ⟨-, hc⟩ | ⟨⟨a, ha⟩, -⟩⟩ := reconcileHost_ensures hmarked os hos
      · exact ⟨hfails os hos, by simpa using hc.shape, hsame⟩
      · exact absurd ha (hfails os hos a)
    refine .bind (.bind (hbody.mono ?_))
    rintro ⟨e, h'⟩ w' ⟨hnot, hshape, hw'⟩
    subst w'
    refine .bind ((patchConditions_ensures trivial hshape (hkey ▸ hread)).mono ?_)
    rintro e' w' ⟨hsecrets, cur, hcur, hcurShape⟩
    rw [hkey] at hcur
    rw [ConditionsOnly] at hcurShape
    -- the deferred patch writes conditions, so the host stays marked and without its script
    have hwedged : Wedged k w' := by
      refine ⟨cur, r, hcur, ?_, ?_, ?_, by rwa [hsecrets]⟩
      · rw [hcurShape]
        exact hkey
      · rw [hcurShape]
        exact hmarked
      · rw [hcurShape]
        exact hr
    cases e with
    | ok a => exact absurd rfl (hnot a)
    | err e | panic m => exact .ret (.ret (.ret ⟨fun a ha => (by cases ha), hwedged⟩))

/-- Edits keep the mark of a host, and the reference that it has. -/
theorem EditedBy.keeps_reference {scope : ByoMachineReconciler.Scope}
    (hran : EditedBy (EditReason w scope) h h') (hmarked : h.carries .hostCleanup = true)
    (hr : h.uninstallationSecret = some r) :
    h'.carries .hostCleanup = true ∧ h'.uninstallationSecret = some r := by
  refine hran.invariant (P := fun x => x.carries .hostCleanup = true ∧
    x.uninstallationSecret = some r) (fun hsame hP => ?_) (fun hreason hP hpatched => ?_) ⟨hmarked, hr⟩
  · exact ⟨(hsame.carries _).symm.trans hP.1, hsame.uninstallationSecret.symm.trans hP.2⟩
  · constructor
    · rcases hpatched.edit_marked with heq | ⟨-, heq⟩
      · exact heq.trans hP.1
      · exact heq
    · rcases hpatched.edit_uninstallationSecret with heq | ⟨ref, rfl, -⟩
      · exact heq.trans hP.2
      · -- a reference is published only to a host that has none
        cases hP.2.symm.trans hreason.2.2.1

/-- No reconcile of a configuration, which could store the secret again. -/
def NotConfig (_ : Site) : Action → Prop
  | .reconcile (.k8sInstallerConfig _) _ => False
  | _ => True

/-- Secrets that are missing stay missing. -/
theorem SiteStep.secrets_missing {s' : Site} {key : NamespacedName} (hstep : SiteStep setup s a s')
    (ha : NotConfig s a) (hgone : s.world.secrets.lookup key = none) :
    s'.world.secrets.lookup key = none := by
  cases hstep with
  | idle => exact hgone
  | machine hran => rwa [hran.secrets]
  | config _ => exact ha.elim
  | byoHost hran =>
    by_contra hsome
    exact hran.secrets_subset hsome hgone
  | agent hran => rwa [hran.onlyHost.rest]
  | env henv => rwa [(envStep_rest henv).2.2.1]

/-- A step of anyone but the agent of the host. -/
theorem Wedged.step_others {s' : Site} (hw : Wedged k s.world) (hstep : SiteStep setup s a s')
    (ha : NotConfig s a) (hother : ∀ os, a ≠ .reconcile (.agent k) os) : Wedged k s'.world := by
  obtain ⟨h, r, hread, hkey, hmarked, hr, hgone⟩ := hw
  have hmissing := SiteStep.secrets_missing hstep ha hgone
  have hkept : ∀ {w' : World}, w'.hosts.lookup k = s.world.hosts.lookup k →
      w'.secrets.lookup (secretKey r) = none → Wedged k w' :=
    fun heq hnone => ⟨h, r, heq.trans hread, hkey, hmarked, hr, hnone⟩
  cases hstep with
  | idle => exact hkept rfl hgone
  | machine hran =>
    obtain ⟨cur, hcur, hedited⟩ := hran.hosts.some hread
    obtain ⟨hmarked', hr'⟩ := EditedBy.keeps_reference hedited hmarked hr
    exact ⟨cur, r, hcur, hedited.key.trans hkey, hmarked', hr', hmissing⟩
  | config _ => exact ha.elim
  | @byoHost k' _ w' hran =>
    cases hran with
    | idle => exact hkept rfl hgone
    | deleted _ _ hsecret => exact hkept (by rw [hsecret.rest]) hmissing
    | @cleared b ref w₁ hb hstale hsecret =>
      -- the manager clears references of hosts that are not marked
      have hne : k ≠ k' := by
        rintro rfl
        cases hread.symm.trans hb
        exact Bool.false_ne_true ((staleReference_eq_some hstale).2.2.symm.trans hmarked)
      refine hkept ?_ hmissing
      rw [World.setHost, AList.lookup_insert_ne hne, hsecret.rest]
  | @agent k' os _ _ _ _ _ _ _ _ hran =>
    have hne : k ≠ k' := by
      rintro rfl
      exact hother os rfl
    exact hkept (hran.onlyHost.others k hne) hmissing
  | env henv => exact hkept (by rw [(envStep_rest henv).1]) hmissing

/-- A step of a site. -/
theorem Wedged.step (hskip : setup.agent.skipK8sInstallation = false) (hsound : Sound s.world)
    (ha : NotConfig s a) (hw : Wedged k s.world) : Wedged k (setup.act s a).world := by
  by_cases hagent : ∃ os, a = .reconcile (.agent k) os
  · obtain ⟨os, rfl⟩ := hagent
    change Wedged k (s.agentStep setup.agent k os).world
    rw [agentStep_world]
    exact (hw.reconcile hskip os fun _ _ => trivial).2
  · exact hw.step_others (act_step setup hsound a) ha fun os heq => hagent ⟨os, heq⟩

/-- Whatever machines, agents, the manager and users do, and whatever fails or does not: a marked host
whose uninstall secret is gone stays as it is, and every reconcile of its agent fails. -/
theorem cleanup_never_completes (setup : Setup) (hskip : setup.agent.skipK8sInstallation = false)
    {s₀ s : Site} {as : List Action} (hsound : Sound s₀.world) {k : NamespacedName}
    (hwedged : Wedged k s₀.world) (hrun : ActionRun setup.act NotConfig s₀ as s) (os : List Outcome) :
    Wedged k s.world ∧ ∀ a, (Prog.run exec os (reconcile setup.agent k) s.world).1 ≠ .ok a := by
  obtain ⟨-, hend⟩ : Sound s.world ∧ Wedged k s.world := by
    refine hrun.invariant (I := fun s => Sound s.world ∧ Wedged k s.world) ?_ ⟨hsound, hwedged⟩
    rintro s a ⟨hs, hw⟩ ha
    exact ⟨(act_step setup hs a).sound hs, hw.step hskip hs ha⟩
  exact ⟨hend, (hend.reconcile hskip os fun _ _ => trivial).1⟩

instance (s : Site) (a : Action) : Decidable (NotConfig s a) :=
  match a with
  | .reconcile (.k8sInstallerConfig _) _ => .isFalse id
  | .reconcile (.byoMachine _) _ | .reconcile (.byoHost _) _ | .reconcile (.agent _) _ | .env _ =>
    .isTrue trivial

/-- The host is marked, and the uninstall secret that it references does not exist. -/
def isWedged (w : World) (k : NamespacedName) : Bool :=
  (w.hosts.lookup k).any fun h => decide (h.key = k) && h.carries .hostCleanup &&
    h.uninstallationSecret.any fun r => (w.secrets.lookup (secretKey r)).isNone

theorem wedged_of_isWedged (h : isWedged w k = true) : Wedged k w := by
  simp only [isWedged, Option.any_eq_true, Bool.and_eq_true, decide_eq_true_eq,
    Option.isNone_iff_eq_none] at h
  obtain ⟨h, hread, ⟨hkey, hmarked⟩, r, hr, hgone⟩ := h
  exact ⟨h, r, hread, hkey, hmarked, hr, hgone⟩

/-- `m1` lives and dies on the host, the reference is not cleared, and `m2` takes the host and is
deleted. -/
def wedge : List Action :=
  (Small.life "m1" "h1").dropLast ++
    [.reconcile (.byoHost (Small.key "h1")) [{}, {}, {}, { writeOk := false }],
      Small.reconcile (.byoMachine (Small.key "m2")), .env (.deleteByoMachine (Small.key "m2")),
      Small.reconcile (.byoMachine (Small.key "m2"))]

/-- After one request has failed, the host is not released any more. -/
theorem cleanup_never_completes_wedge :
    let s₀ := wedge.foldl (Setup.act {}) { world := Small.world ["h1"] ["m1", "m2"] }
    let s := [Small.reconcile (.agent (Small.key "h1")), Small.reconcile (.byoHost (Small.key "h1")),
      Small.reconcile (.byoMachine (Small.key "m2"))].foldl (Setup.act {}) s₀
    Wedged (Small.key "h1") s₀.world ∧ Wedged (Small.key "h1") s.world ∧
      ∀ a, (Prog.run exec [] (reconcile {} (Small.key "h1")) s.world).1 ≠ .ok a := by
  intro s₀ s
  have hrun : ActionRun (Setup.act {}) (fun _ _ => True) { world := Small.world ["h1"] ["m1", "m2"] }
      wedge s₀ := .of_allowed rfl
  have hsound : Sound s₀.world := site_run_sound hrun (sound_small ["h1"] ["m1", "m2"])
  have hwedged : Wedged (Small.key "h1") s₀.world := wedged_of_isWedged (by decide +kernel)
  exact ⟨hwedged, cleanup_never_completes {} rfl hsound hwedged (.of_allowed rfl) []⟩

end Wedged

end Byoh.Properties
