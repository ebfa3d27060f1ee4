import Byoh.Model.ByoHostWebhook
import Byoh.Protocol.SiteRuns

/-!
# Uninstall secrets that nobody references

The uninstall secret of a machine has no owner, so that it outlives the configuration it was
generated for. Someone has to reference it at any time, or no controller will ever delete it: first
the configuration, then also the host, and after the cleanup the host alone, until the ByoHost
controller deletes the secret.

There is a gap at each end. If the machine is deleted before its host has the reference, the
configuration is collected as the last one that has it (`secret_leaked`). And a host that was
released may be deleted before the ByoHost controller has seen it. In runs in which the references
are handed over before an object goes away (`HandedOver`), no secret is leaked
(`no_secret_leaked`).
-/

set_option autoImplicit false

namespace Byoh.Properties

open Byoh.Foundation Byoh.Model Byoh.Protocol Byoh.Model.K8sInstallerConfigReconciler

/-! ## References -/

/-- The key of the uninstall secret for the configuration of `k`. -/
def uninstallKey (k : NamespacedName) : NamespacedName :=
  ⟨(uninstallSecretRef (configOf k)).ns, (uninstallSecretRef (configOf k)).name⟩

/-- The host references the secret. -/
def HostReferences (key : NamespacedName) (h : ByoHost) : Prop :=
  ∃ ref ∈ h.uninstallationSecret, (⟨ref.ns, ref.name⟩ : NamespacedName) = key

/-- The status of the configuration references the secret. -/
def ConfigReferences (key : NamespacedName) (c : InstallerConfig) : Prop :=
  ∃ ref, c.uninstallationSecret = .value ref ∧ (⟨ref.ns, ref.name⟩ : NamespacedName) = key

def HeldByHost (key : NamespacedName) (w : World) : Prop :=
  ∃ k h, w.hosts.lookup k = some h ∧ HostReferences key h

def HeldByConfig (key : NamespacedName) (w : World) : Prop :=
  ∃ k c, w.installerConfigs.lookup (configKey k) = some c ∧ ConfigReferences key c

/-- Every uninstall secret is referenced by a host or by a configuration. -/
def NoneLeaked (w : World) : Prop :=
  ∀ k secret, w.secrets.lookup (uninstallKey k) = some secret →
    HeldByConfig (uninstallKey k) w ∨ HeldByHost (uninstallKey k) w

/-- The secret that the configuration references is gone, or a host references it too. -/
def Expendable (w : World) (c : InstallerConfig) : Prop :=
  ∀ ref, c.uninstallationSecret = .value ref → w.secrets.lookup ⟨ref.ns, ref.name⟩ ≠ none →
    HeldByHost ⟨ref.ns, ref.name⟩ w

/-- No call of a reconcile of a configuration fails; a configuration goes away, and a host is
deleted, only when the uninstall secret does not need it. -/
def HandedOver (s : Site) : DeletionAction → Prop
  | .site (.reconcile (.k8sInstallerConfig k) os) =>
      (∀ o ∈ os, o.readOk = true ∧ o.writeOk = true) ∧
        ∀ c, s.world.installerConfigs.lookup (configKey k) = some c → c.deletionTimestamp = true →
          Expendable s.world c
  | .site _ => True
  | .deleteByoHost key _ _ => ∀ h, s.world.hosts.lookup key = some h → h.uninstallationSecret = none
  | .collectGarbage key => ∀ c, s.world.installerConfigs.lookup key = some c → c.finalizers = [] →
      Expendable s.world c

instance (key : NamespacedName) (h : ByoHost) : Decidable (HostReferences key h) :=
  inferInstanceAs (Decidable (∃ ref ∈ h.uninstallationSecret,
    (⟨ref.ns, ref.name⟩ : NamespacedName) = key))

instance (key : NamespacedName) (w : World) : Decidable (HeldByHost key w) :=
  decidable_of_iff (¬∀ k h, w.hosts.lookup k = some h → ¬HostReferences key h) <| by
    simp [HeldByHost]

instance (w : World) (c : InstallerConfig) : Decidable (Expendable w c) :=
  match hc : c.uninstallationSecret with
  | .value ref => decidable_of_iff (w.secrets.lookup ⟨ref.ns, ref.name⟩ ≠ none →
      HeldByHost ⟨ref.ns, ref.name⟩ w) <| by simp [Expendable, hc]
  | .absent => .isTrue fun ref href => by cases hc.symm.trans href
  | .malformed => .isTrue fun ref href => by cases hc.symm.trans href
  | .inconvertible => .isTrue fun ref href => by cases hc.symm.trans href

instance (s : Site) : (a : DeletionAction) → Decidable (HandedOver s a)
  | .site (.reconcile (.k8sInstallerConfig k) os) => inferInstanceAs (Decidable
      ((∀ o ∈ os, o.readOk = true ∧ o.writeOk = true) ∧
        ∀ c ∈ s.world.installerConfigs.lookup (configKey k), c.deletionTimestamp = true →
          Expendable s.world c))
  | .site (.reconcile (.byoMachine _) _) => .isTrue trivial
  | .site (.reconcile (.byoHost _) _) => .isTrue trivial
  | .site (.reconcile (.agent _) _) => .isTrue trivial
  | .site (.env _) => .isTrue trivial
  | .deleteByoHost key _ _ => inferInstanceAs (Decidable
      (∀ h ∈ s.world.hosts.lookup key, h.uninstallationSecret = none))
  | .collectGarbage key => inferInstanceAs (Decidable
      (∀ c ∈ s.world.installerConfigs.lookup key, c.finalizers = [] → Expendable s.world c))

/-- The install secret of one machine is not the uninstall secret of another. -/
theorem installSecret_key_ne (c : InstallerConfig) (cluster : Cluster) (script : String)
    (k : NamespacedName) : (installSecret c cluster script).key ≠ uninstallKey k := by
  intro heq
  have hname : "byoh-install-" ++ c.name = "byoh-uninstall-" ++ k.name :=
    congrArg NamespacedName.name heq
  have htake := congrArg (fun s => s.toList.take 6) hname
  simp at htake

/-- The uninstall secret is stored under the key that its reference names. -/
theorem uninstallSecret_key {c : InstallerConfig} {k : NamespacedName} (hkey : c.key = configKey k)
    (cluster : Cluster) (script : String) :
    (uninstallSecret c cluster script).key = uninstallKey k ∧
      (⟨(uninstallSecretRef c).ns, (uninstallSecretRef c).name⟩ : NamespacedName) =
        uninstallKey k := by
  simp only [InstallerConfig.key, configKey, InstallerKey.mk.injEq] at hkey
  obtain ⟨-, -, hns, hname⟩ := hkey
  simp only [uninstallSecret, Secret.key, uninstallSecretRef, uninstallKey, configOf, hns, hname,
    and_self]

/-! ## Steps of a site -/

section Site

variable {setup : Setup} {s s' : Site} {a : Action} {key : NamespacedName}

/-- A host keeps its reference as long as the secret exists. -/
theorem HeldByHost.step (hheld : HeldByHost key s.world) (hstep : SiteStep setup s a s')
    (hsecret : s'.world.secrets.lookup key ≠ none) : HeldByHost key s'.world := by
  obtain ⟨k, h, hh, ref, href, rfl⟩ := hheld
  obtain ⟨h', hh', hchange⟩ := hstep.hostsVia.some hh
  have href : h.uninstallationSecret = some ref := href
  refine ⟨k, h', hh', ref, ?_, rfl⟩
  cases hchange with
  | same => exact href
  | @edited k os scope how m _ heq hran hedited =>
    refine hedited.invariant (P := fun x => x.uninstallationSecret = some ref) ?_ ?_ href
    · intro b cur hsame hcur
      have huninstall : cur.uninstallationSecret = b.uninstallationSecret :=
        hsame.uninstallationSecret
      exact huninstall.symm.trans hcur
    · intro e b spec status cur hreason hb hp
      rcases hp.edit_uninstallationSecret with heq | ⟨ref', rfl, -⟩
      · exact heq.trans hb
      · -- only a missing reference is written
        obtain ⟨-, -, hnone, -⟩ := hreason
        cases hnone.symm.trans hb
  | cleared hstale _ hgone =>
    cases (staleReference_eq_some hstale).1.symm.trans href
    exact absurd hgone hsecret
  | agent _ heffect =>
    rcases heffect with hsame | hrel
    · exact hsame.uninstallationSecret.trans href
    · exact hrel.uninstallationSecret.trans href

/-- A reconcile of a machine creates configurations and changes none. -/
theorem HeldByConfig.machine {w w' : World} {k : NamespacedName}
    {scope : ByoMachineReconciler.Scope} {how : Leave} {m : ByoMachine}
    (hheld : HeldByConfig key w) (hran : MachineRan w k scope how m w') : HeldByConfig key w' := by
  obtain ⟨ck, c, hc, href⟩ := hheld
  refine ⟨ck, c, ?_, href⟩
  cases hran.configs with
  | none heq => rw [heq, hc]
  | @created _ _ _ made _ _ _ _ _ hnone heq =>
    have hne : configKey ck ≠ made.key := by
      intro hk
      rw [← hk, hc] at hnone
      cases hnone
    rw [heq, AList.lookup_insert_ne hne, hc]

/-- Apart from reconciles of configurations, no step creates a secret or changes a configuration. -/
theorem secrets_configs (key : NamespacedName) (hstep : SiteStep setup s a s')
    (ha : ∀ k os, a ≠ .reconcile (.k8sInstallerConfig k) os) :
    (s'.world.secrets.lookup key ≠ none → s.world.secrets.lookup key ≠ none) ∧
      (HeldByConfig key s.world → HeldByConfig key s'.world) := by
  have hsame : ∀ {w' : World}, w'.secrets = s.world.secrets →
      w'.installerConfigs = s.world.installerConfigs →
      (w'.secrets.lookup key ≠ none → s.world.secrets.lookup key ≠ none) ∧
        (HeldByConfig key s.world → HeldByConfig key w') := by
    intro w' hsecrets hconfigs
    rw [HeldByConfig, HeldByConfig, hsecrets, hconfigs]
    exact ⟨id, id⟩
  cases hstep with
  | idle => exact hsame rfl rfl
  | machine hran =>
    refine ⟨?_, fun hheld => hheld.machine hran⟩
    rw [hran.secrets]
    exact id
  | config => exact absurd rfl (ha _ _)
  | byoHost hran =>
    refine ⟨hran.secrets_subset, ?_⟩
    rw [HeldByConfig, HeldByConfig, hran.installerConfigs]
    exact id
  | agent hran =>
    refine hsame ?_ ?_ <;> rw [hran.onlyHost.rest]
  | env henv => exact hsame (envStep_rest henv).2.2.1 (envStep_rest henv).2.1

end Site

/-! ## Reconciles of configurations -/

section Config

variable {w w' : World} {k : NamespacedName} {skip : Bool}

/-- A configuration that is still there references the secret it referenced, and the one that has
just been stored. -/
theorem references_of_written {c c' c'' : InstallerConfig} {w₁ : World}
    (hwritten : ConfigWritten Succeeds c c' (some c'')) (hbody : ConfigBody skip Succeeds c w c' w₁)
    (hc : ConfigOk c) :
    (∀ ref, c.uninstallationSecret = .value ref → c''.uninstallationSecret = .value ref) ∧
      (c'.uninstallationSecret = .value (uninstallSecretRef c) →
        c''.uninstallationSecret = .value (uninstallSecretRef c)) := by
  obtain ⟨-, hrest⟩ := hbody.status
  cases hwritten with
  | kept f hsame =>
    refine ⟨fun ref href => href, fun hown => ?_⟩
    have hstatus := hsame.resolve_left not_fails_succeeds
    rw [← hown]
    exact (congrArg InstallerConfig.uninstallationSecret hstatus).symm
  | written f =>
    refine ⟨fun ref href => ?_, id⟩
    rcases hrest with ⟨heq, -⟩ | ⟨-, heq⟩
    · exact heq.trans href
    · rw [hc.uninstall ref href]
      exact heq

/-- A reconcile of a configuration that does not fail leaks nothing, if the configuration is not
needed when it goes away. -/
theorem NoneLeaked.config (hw : NoneLeaked w) (hsound : Sound w) (hconfigs : ConfigsOk w)
    (hexpendable : ∀ c, w.installerConfigs.lookup (configKey k) = some c →
      c.deletionTimestamp = true → Expendable w c)
    (hran : ConfigRan skip Succeeds k w w') : NoneLeaked w' := by
  cases hran with
  | idle => exact hw
  | @ran c c' w₁ w' hread hbody honly hwritten =>
    have hkey : c.key = configKey k := hsound.configs _ _ hread
    have hhosts : w'.hosts = w.hosts := by rw [honly.rest, hbody.rest]
    have hsecrets : w'.secrets = w₁.secrets := by rw [honly.rest]
    intro k₀ secret hsecret
    rw [hsecrets] at hsecret
    -- a secret that was there is held by what held it, unless that was `c` and `c` is gone
    have hold : w.secrets.lookup (uninstallKey k₀) ≠ none →
        HeldByConfig (uninstallKey k₀) w' ∨ HeldByHost (uninstallKey k₀) w' := by
      intro hsome
      obtain ⟨old, hold⟩ := Option.ne_none_iff_exists'.1 hsome
      rcases hw k₀ old hold with ⟨ck, c₀, hc₀, ref, href, hrefkey⟩ | hhost
      · by_cases hck : configKey ck = configKey k
        · rw [hck, hread] at hc₀
          obtain rfl : c = c₀ := Option.some.inj hc₀
          cases hw' : w'.installerConfigs.lookup (configKey k) with
          | none =>
            rw [hw'] at hwritten
            cases hwritten with
            | gone hdeleting =>
              right
              rw [HeldByHost, hhosts, ← hrefkey]
              exact hexpendable c hread hdeleting ref href (hrefkey ▸ hsome)
          | some c'' =>
            rw [hw'] at hwritten
            have hkept := (references_of_written hwritten hbody (hconfigs _ _ hread)).1 ref href
            exact .inl ⟨k, c'', hw', ref, hkept, hrefkey⟩
        · refine .inl ⟨ck, c₀, ?_, ref, href, hrefkey⟩
          rw [honly.others _ hck, hbody.installerConfigs, hc₀]
      · right
        rwa [HeldByHost, hhosts]
    cases hbody with
    | left => exact hold (by simp [hsecret])
    | installStored hgen hfails => exact absurd hfails not_fails_succeeds
    | @stored m cluster i hgen hc' =>
      have hbody' : ConfigBody skip Succeeds c w c' _ := .stored hgen hc'
      obtain ⟨f, rfl⟩ := hc'
      obtain ⟨hsecretkey, hrefkey⟩ := uninstallSecret_key hkey cluster i.uninstall
      by_cases hk₀ : uninstallKey k₀ = uninstallKey k
      · -- the secret that has just been stored
        cases hw' : w'.installerConfigs.lookup (configKey k) with
        | none =>
          rw [hw'] at hwritten
          cases hwritten with
          | gone hdeleting =>
            cases hgen.waits.2.2.symm.trans hdeleting
        | some c'' =>
          rw [hw'] at hwritten
          have href := (references_of_written hwritten hbody' (hconfigs _ _ hread)).2 rfl
          exact .inl ⟨k, c'', hw', _, href, hrefkey.trans hk₀.symm⟩
      · refine hold ?_
        simp only [World.withSecret] at hsecret
        rw [AList.lookup_insert_ne (by rwa [hsecretkey]),
          AList.lookup_insert_ne (Ne.symm (installSecret_key_ne _ _ _ _))] at hsecret
        simp [hsecret]

end Config

/-! ## Deletions -/

section Deletions

variable {w : World}

theorem sound_deleteByoHost (hw : Sound w) (key : NamespacedName) (userName : String)
    (os : List Outcome) : Sound (w.deleteByoHost key userName os) := by
  rw [World.deleteByoHost]
  split
  · exact hw
  · split
    · exact ⟨forall_lookup_erase hw.hosts, hw.machines, hw.configs, hw.secrets, hw.fresh⟩
    · exact hw

/-- What a host without a reference holds is nothing. -/
theorem NoneLeaked.deleteByoHost (hw : NoneLeaked w) {key : NamespacedName}
    (hkey : ∀ h, w.hosts.lookup key = some h → h.uninstallationSecret = none) (userName : String)
    (os : List Outcome) : NoneLeaked (w.deleteByoHost key userName os) := by
  rw [World.deleteByoHost]
  split
  · exact hw
  next byoHost hhost =>
  split
  · intro k secret hsecret
    rcases hw k secret hsecret with hconfig | ⟨hk, h, hh, ref, href, hrefkey⟩
    · exact .inl hconfig
    · refine .inr ⟨hk, h, ?_, ref, href, hrefkey⟩
      have hne : hk ≠ key := by
        rintro rfl
        cases (hkey h hh).symm.trans href
      rwa [AList.lookup_erase_ne hne]
  · exact hw

/-- The collector deletes a configuration or marks it for deletion. -/
theorem World.collectGarbage_cases (w : World) (key : InstallerKey) :
    w.collectGarbage key = w ∨ ∃ c, w.installerConfigs.lookup key = some c ∧
      OnlyConfig key w (w.collectGarbage key) ∧
      ((w.collectGarbage key).installerConfigs.lookup key = none ∧ c.finalizers = [] ∨
        (w.collectGarbage key).installerConfigs.lookup key =
          some { c with deletionTimestamp := true }) := by
  rw [World.collectGarbage]
  split
  · exact .inl rfl
  next c hc =>
  split
  · refine .inr ⟨c, hc, .setInstallerConfig .., ?_⟩
    rw [setInstallerConfig_lookup]
    split
    next hgone => exact .inl ⟨rfl, by simpa using hgone⟩
    · exact .inr rfl
  · exact .inl rfl

theorem sound_collectGarbage (hw : Sound w) (key : InstallerKey) : Sound (w.collectGarbage key) := by
  rcases World.collectGarbage_cases w key with heq | ⟨c, hc, honly, hcases⟩
  · rwa [heq]
  · have hconfigs : ConfigsKeyed (w.collectGarbage key) := by
      intro k c' hc'
      by_cases hk : k = key
      · subst hk
        rcases hcases with ⟨hnone, -⟩ | hsome
        · cases hnone.symm.trans hc'
        · cases hsome.symm.trans hc'
          exact hw.configs k c hc
      · rw [honly.others k hk] at hc'
        exact hw.configs k c' hc'
    rw [honly.rest] at hconfigs ⊢
    exact ⟨hw.hosts, hw.machines, hconfigs, hw.secrets, hw.fresh⟩

theorem configsOk_collectGarbage (hw : ConfigsOk w) (key : InstallerKey) :
    ConfigsOk (w.collectGarbage key) := by
  rcases World.collectGarbage_cases w key with heq | ⟨c, hc, honly, hcases⟩
  · rwa [heq]
  · intro k c' hc'
    by_cases hk : k = key
    · subst hk
      rcases hcases with ⟨hnone, -⟩ | hsome
      · cases hnone.symm.trans hc'
      · cases hsome.symm.trans hc'
        have hown := hw k c hc
        exact ⟨hown.install, hown.uninstall, hown.ready⟩
    · rw [honly.others k hk] at hc'
      exact hw k c' hc'

/-- A configuration that is not needed may be collected. -/
theorem NoneLeaked.collectGarbage (hw : NoneLeaked w) {key : InstallerKey}
    (hexpendable : ∀ c, w.installerConfigs.lookup key = some c → c.finalizers = [] →
      Expendable w c) : NoneLeaked (w.collectGarbage key) := by
  rcases World.collectGarbage_cases w key with heq | ⟨c, hc, honly, hcases⟩
  · rwa [heq]
  · have hhosts : (w.collectGarbage key).hosts = w.hosts := by rw [honly.rest]
    have hsecrets : (w.collectGarbage key).secrets = w.secrets := by rw [honly.rest]
    intro k secret hsecret
    rw [hsecrets] at hsecret
    rcases hw k secret hsecret with ⟨ck, c₀, hc₀, ref, href, hrefkey⟩ | hhost
    · by_cases hk : configKey ck = key
      · subst hk
        obtain rfl : c = c₀ := Option.some.inj (hc.symm.trans hc₀)
        rcases hcases with ⟨-, hempty⟩ | hsome
        · right
          rw [HeldByHost, hhosts, ← hrefkey]
          have hsome : w.secrets.lookup ⟨ref.ns, ref.name⟩ ≠ none := by
            rw [hrefkey, hsecret]
            exact Option.some_ne_none _
          exact hexpendable c hc hempty ref href hsome
        · exact .inl ⟨ck, _, hsome, ref, href, hrefkey⟩
      · exact .inl ⟨ck, c₀, (honly.others _ hk).trans hc₀, ref, href, hrefkey⟩
    · right
      rwa [HeldByHost, hhosts]

end Deletions

/-! ## Whole runs -/

/-- The invariant of runs. -/
structure Kept (w : World) : Prop where
  sound : Sound w
  configs : ConfigsOk w
  secrets : NoneLeaked w

theorem Kept.site {setup : Setup} {s : Site} {a : Action} (hs : Kept s.world)
    (ha : HandedOver s (.site a)) : Kept (setup.act s a).world := by
  have hstep := act_step setup hs.sound a
  refine ⟨hstep.sound hs.sound, hstep.configsOk hs.configs, ?_⟩
  by_cases hconfig : ∃ k os, a = .reconcile (.k8sInstallerConfig k) os
  · obtain ⟨k, os, rfl⟩ := hconfig
    obtain ⟨hos, hexpendable⟩ := ha
    generalize setup.act s _ = s' at hstep ⊢
    cases hstep with
    | idle => exact hs.secrets
    | config hran =>
      exact hs.secrets.config hs.sound hs.configs hexpendable (hran Succeeds ⟨rfl, rfl⟩ hos)
  · intro k secret hsecret
    have hsome : (setup.act s a).world.secrets.lookup (uninstallKey k) ≠ none := by simp [hsecret]
    obtain ⟨hsecrets, hconfigs⟩ := secrets_configs (uninstallKey k) hstep
      fun k os heq => hconfig ⟨k, os, heq⟩
    obtain ⟨old, hold⟩ := Option.ne_none_iff_exists'.1 (hsecrets hsome)
    rcases hs.secrets k old hold with hheld | hheld
    · exact .inl (hconfigs hheld)
    · exact .inr (hheld.step hstep hsome)

theorem Kept.step {setup : Setup} {s : Site} {a : DeletionAction} (hs : Kept s.world)
    (ha : HandedOver s a) : Kept (setup.actOrDelete s a).world := by
  cases a with
  | site a => exact hs.site ha
  | deleteByoHost key userName os =>
    refine ⟨sound_deleteByoHost hs.sound .., ?_, hs.secrets.deleteByoHost ha userName os⟩
    intro k c hc
    refine hs.configs k c ?_
    rw [Setup.actOrDelete, World.deleteByoHost] at hc
    dsimp only at hc
    split at hc
    · exact hc
    · split at hc <;> exact hc
  | collectGarbage key =>
    exact ⟨sound_collectGarbage hs.sound key, configsOk_collectGarbage hs.configs key,
      hs.secrets.collectGarbage ha⟩

/-- **No uninstall secret is leaked.** No call of a reconcile of a configuration fails. When a
configuration goes away, its uninstall secret is gone or a host references it, and a host is deleted
only when it references none. Then in every state of every run, of any reconciles, actions of the
environment, deletions of hosts and garbage collections, every uninstall secret is referenced by the
status of a configuration or by a host. -/
theorem no_secret_leaked {setup : Setup} {s₀ s : Site} {as : List DeletionAction}
    (hsound : Sound s₀.world) (hconfigs : ConfigsOk s₀.world)
    (hnone : ∀ k, s₀.world.secrets.lookup (uninstallKey k) = none)
    (hrun : ActionRun setup.actOrDelete HandedOver s₀ as s) : NoneLeaked s.world := by
  have hstart : Kept s₀.world := by
    refine ⟨hsound, hconfigs, fun k secret hsecret => ?_⟩
    cases (hnone k).symm.trans hsecret
  exact (hrun.invariant (I := fun s => Kept s.world) Kept.step hstart).secrets

theorem uninstallKey_small (hosts machines : List String) (k : NamespacedName) :
    (Small.world hosts machines).secrets.lookup (uninstallKey k) = none := by
  induction machines with
  | nil => rfl
  | cons m ms ih =>
    have hne : uninstallKey k ≠ (Small.bootstrapSecret m).key := by
      intro heq
      have hname : "byoh-uninstall-" ++ k.name = "bootstrap-" ++ m :=
        congrArg NamespacedName.name heq
      have htake := congrArg (fun s => s.toList.take 2) hname
      simp at htake
    simp only [Small.world, List.foldr_cons, AList.lookup_insert_ne hne]
    exact ih

/-- The machine has lived and died on its host, and its configuration is collected. The host is the
last one that references the uninstall secret. -/
theorem no_secret_leaked_life :
    let as := ((Small.life "m1" "h1").take 7).map DeletionAction.site ++
      [.collectGarbage (configKey (Small.key "m1")),
        .site (Small.reconcile (.k8sInstallerConfig (Small.key "m1")))]
    let s := as.foldl (Setup.actOrDelete {}) { world := Small.world ["h1"] ["m1"] }
    (s.world.secrets.lookup (uninstallKey (Small.key "m1"))).isSome = true ∧
      (s.world.installerConfigs.lookup (configKey (Small.key "m1"))).isNone = true ∧
      NoneLeaked s.world := by
  refine ⟨by decide +kernel, by decide +kernel, ?_⟩
  exact no_secret_leaked (sound_small ["h1"] ["m1"]) (fun k c hc => by cases hc)
    (uninstallKey_small ["h1"] ["m1"]) (.of_allowed (by decide +kernel))

/-- There is an uninstall secret, no configuration, and no host that references it. -/
def isLeaked (w : World) (k : NamespacedName) : Bool :=
  (w.secrets.lookup (uninstallKey k)).isSome && w.installerConfigs.entries.isEmpty &&
    !decide (HeldByHost (uninstallKey k) w)

theorem not_noneLeaked {w : World} (k : NamespacedName) (h : isLeaked w k = true) :
    ¬NoneLeaked w := by
  intro hnone
  simp only [isLeaked, Bool.and_eq_true, Bool.not_eq_true', decide_eq_false_iff_not,
    List.isEmpty_iff] at h
  obtain ⟨⟨hsecret, hempty⟩, hhost⟩ := h
  obtain ⟨secret, hsecret⟩ := Option.isSome_iff_exists.1 hsecret
  rcases hnone k secret hsecret with ⟨ck, c, hc, -⟩ | hheld
  · have hmem := (lookup_iff_mem_entries w.installerConfigs c).1 ⟨_, hc⟩
    rw [hempty] at hmem
    cases hmem
  · exact hhost hheld

/-- The machine is deleted after its secrets were published and before they were written to its
host. It goes away, the garbage collector deletes its configuration, and the controller of the
configuration removes the finalizer. All calls succeed. -/
def deletedBeforeHandOver : List DeletionAction :=
  [.site (Small.reconcile (.byoMachine (Small.key "m1"))),
    .site (Small.reconcile (.k8sInstallerConfig (Small.key "m1"))),
    .site (.env (.deleteByoMachine (Small.key "m1"))),
    .site (Small.reconcile (.byoMachine (Small.key "m1"))),
    .collectGarbage (configKey (Small.key "m1")),
    .site (Small.reconcile (.k8sInstallerConfig (Small.key "m1")))]

/-- The uninstall secret is there, and nothing references it. -/
theorem secret_leaked : ∃ as s,
    (∀ k, (Small.world ["h1"] ["m1"]).secrets.lookup (uninstallKey k) = none) ∧
      ActionRun (Setup.actOrDelete {}) (fun _ _ => True) { world := Small.world ["h1"] ["m1"] } as s ∧
        ¬NoneLeaked s.world :=
  ⟨deletedBeforeHandOver, _, uninstallKey_small _ _, .of_allowed rfl,
    not_noneLeaked (Small.key "m1") (by decide +kernel)⟩

end Byoh.Properties
