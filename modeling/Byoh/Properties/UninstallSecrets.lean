import Byoh.Properties.AttachedInFull
import Byoh.Protocol.HostSteps

/-!
# References to uninstall secrets

The ByoHost controller deletes the uninstall secret of a host that has been cleaned up, and clears
the reference to it with a second request. If this request fails, the host is back in the pool with a
reference to a secret that is gone, and `attachByoHost` takes it as it is (`reused_with_dangling`):
once the host has a machine reference again the controller leaves it alone, and the next cleanup
cannot read its script.

If hosts are taken from the pool only when the reference has been cleared, and attachments do not
fail half-way, then hosts that have a machine reference or are marked reference secrets that exist,
in every state of every run (`uninstall_secrets_exist`).

* `Secrets` is what holds on the server: no two hosts reference the same secret, and the secret of a
  machine that is not under deletion exists and is referenced by hosts with its label only.
* `SecretStep` is what all steps but two do to it: references are kept or cleared. The two are the
  request that publishes a reference (`Secrets.published`) and the deletion of a secret
  (`Secrets.deleted`).
* The reconcile of a machine relies on `Supplying`, that of a host on `Disposing`.
-/

set_option autoImplicit false

namespace Byoh.Properties

open Byoh.Foundation Byoh.Model Byoh.Protocol Byoh.Model.ByoMachineReconciler

/-! ## Statement -/

/-- The secret that a reference names. -/
def secretKey (r : ObjectReference) : NamespacedName := ⟨r.ns, r.name⟩

/-- The secret exists. -/
def SecretExists (r : ObjectReference) (w : World) : Prop :=
  (w.secrets.lookup (secretKey r)).isSome = true

/-- Hosts that have a machine reference or are marked reference uninstall secrets that exist. -/
def NoneDangling (w : World) : Prop :=
  ∀ key h r, w.hosts.lookup key = some h → h.uninstallationSecret = some r →
    h.machineRef ≠ none ∨ h.carries .hostCleanup = true → SecretExists r w

/-- The configuration of the machine `k` is ready with the uninstall secret `r`. -/
def Offers (w : World) (k : NamespacedName) (r : ObjectReference) : Prop :=
  ∃ m ref config, w.machines.lookup k = some m ∧ m.installerRef = some ref ∧
    w.installerConfigs.lookup (installerConfigKey m ref) = some config ∧
    config.ready = .value true ∧ config.uninstallationSecret = .value r

/-- Ready configurations have uninstall secrets, and each its own. -/
structure Scripted (w : World) : Prop where
  keyed : SecretsKeyed w
  stored : ∀ k r, Offers w k r → SecretExists r w
  distinct : ∀ k r k' r', Offers w k r → Offers w k' r' → secretKey r = secretKey r' → k = k'

/-- The thread is one of the K8sInstallerConfig controller. -/
def isInstallerConfig : Tid → Bool
  | .k8sInstallerConfig _ => true
  | _ => false

/-- Machines are reconciled one after another; agents, the ByoHost controller and users act at any
time, and any call may fail. -/
def reuseRules (names : List NamespacedName) : Rules Call Outcome World Tid EnvAction where
  start := fun _ busy t => OneAtATime names busy t ∧ isInstallerConfig t = false
  env := fun _ _ a => fixedMachines a = true

/-- A host is picked only if its reference to an uninstall secret is cleared. -/
def picksCleared (w : World) (o : Outcome) : Call → Bool
  | .listByoHosts selector (some ns) =>
      (listHosts w selector (some ns) o.pick).head?.all fun h => h.uninstallationSecret.isNone
  | _ => true

/-- The same, when attachments do not fail half-way and hosts are picked that way. -/
def clearedRules (names : List NamespacedName) : Rules Call Outcome World Tid EnvAction :=
  { reuseRules names with
    call := fun w t o c => attachSucceeds w t o c = true ∧ picksCleared w o c = true }

instance (names : List NamespacedName) : DecidableRules (reuseRules names) where
  start _ busy t := inferInstanceAs (Decidable (OneAtATime names busy t ∧ _))
  call _ _ _ _ := inferInstanceAs (Decidable True)
  env _ _ a := inferInstanceAs (Decidable (fixedMachines a = true))

instance (names : List NamespacedName) : DecidableRules (clearedRules names) where
  start _ busy t := inferInstanceAs (Decidable (OneAtATime names busy t ∧ _))
  call w t o c := inferInstanceAs (Decidable (attachSucceeds w t o c = true ∧ _))
  env _ _ a := inferInstanceAs (Decidable (fixedMachines a = true))

/-! ## Facts about the server -/

/-- The machine was read, or is, as it was at the start, as far as its configuration goes. -/
def Requests (w₀ : World) (k : NamespacedName) (m : ByoMachine) : Prop :=
  ∃ m₀, w₀.machines.lookup k = some m₀ ∧ m.installerRef = m₀.installerRef ∧ m.key = m₀.key

/-- What holds of every host. -/
structure HostSecret (names : List NamespacedName) (w₀ w : World) (h : ByoHost) : Prop where
  known : ∀ r, h.uninstallationSecret = some r → ∃ k ∈ names, Offers w₀ k r
  attached : h.attachedLabel ≠ none → h.carries .hostCleanup = false →
    h.uninstallationSecret ≠ none → h.machineRef ≠ none
  present : ∀ r, h.uninstallationSecret = some r → h.attachedLabel ≠ none ∨ h.machineRef ≠ none →
    SecretExists r w

/-- The uninstall secret of `k` exists, and only hosts with the label of `k` reference it. -/
structure Supplied (w₀ : World) (k : NamespacedName) (w : World) : Prop where
  stored : ∀ r, Offers w₀ k r → SecretExists r w
  labelled : ∀ key h r, w.hosts.lookup key = some h → h.uninstallationSecret = some r →
    Offers w₀ k r → Labelled k h

/-- What holds in every state of a run from `w₀`. -/
structure Secrets (names : List NamespacedName) (w₀ w : World) : Prop where
  keyed : SecretsKeyed w
  configs : ∀ key c, w.installerConfigs.lookup key = some c → c.ready = .value true →
    w₀.installerConfigs.lookup key = some c
  machines : ∀ k m, w.machines.lookup k = some m → Requests w₀ k m
  each : ∀ key h, w.hosts.lookup key = some h → HostSecret names w₀ w h
  single : ∀ key h r key' h' r', w.hosts.lookup key = some h → w.hosts.lookup key' = some h' →
    h.uninstallationSecret = some r → h'.uninstallationSecret = some r' →
    secretKey r = secretKey r' → key = key'
  live : ∀ k ∈ names, ¬Deleting k w → Supplied w₀ k w

/-! ## Steps that keep or clear references -/

/-- The host keeps its reference; it loses its label only when it is released, and its machine
reference only when it is released or marked. -/
structure ReferenceKept (h h' : ByoHost) : Prop where
  secret : h'.uninstallationSecret = h.uninstallationSecret
  label : h'.attachedLabel = h.attachedLabel ∨
    h.carries .hostCleanup = true ∧ h'.attachedLabel = none
  mark : h'.attachedLabel ≠ none → h.carries .hostCleanup = true → h'.carries .hostCleanup = true
  machineRef : h'.machineRef = h.machineRef ∨
    h'.machineRef = none ∧ (h'.attachedLabel = none ∨ h'.carries .hostCleanup = true)

/-- Hosts that reference an uninstall secret after a write did so before. -/
def SecretWrite (h h' : ByoHost) : Prop := h'.uninstallationSecret ≠ none → ReferenceKept h h'

theorem SecretWrite.refl (h : ByoHost) : SecretWrite h h :=
  fun _ => ⟨rfl, .inl rfl, fun _ hm => hm, .inl rfl⟩

theorem SecretWrite.of_unset {h h' : ByoHost} (hnone : h'.uninstallationSecret = none) :
    SecretWrite h h' := fun hsome => absurd hnone hsome

/-- A step that creates no references and deletes no secrets. -/
structure SecretStep (w w' : World) : Prop where
  hosts : HostsVia SecretWrite w w'
  secrets : w'.secrets = w.secrets
  configs : ∀ key c, w'.installerConfigs.lookup key = some c → c.ready = .value true →
    w.installerConfigs.lookup key = some c
  machines : ∀ k m, w'.machines.lookup k = some m →
    ∃ m₁, w.machines.lookup k = some m₁ ∧ m.installerRef = m₁.installerRef ∧ m.key = m₁.key
  deleting : ∀ k, Deleting k w → Deleting k w'

section Steps

variable {names : List NamespacedName} {w₀ w w' : World} {k : NamespacedName}

theorem SecretStep.of_eq (hh : w'.hosts = w.hosts) (hs : w'.secrets = w.secrets)
    (hc : w'.installerConfigs = w.installerConfigs) (hm : w'.machines = w.machines) :
    SecretStep w w' where
  hosts := .of_hosts_eq .refl hh
  secrets := hs
  configs := fun _ _ h _ => hc ▸ h
  machines := fun _ m h => ⟨m, hm ▸ h, rfl, rfl⟩
  deleting := fun _ h m hm' => h m (hm ▸ hm')

theorem SecretStep.setHost {key : NamespacedName} {cur h : ByoHost}
    (hcur : w.hosts.lookup key = some cur) (hw : SecretWrite cur h) :
    SecretStep w (w.setHost key h) where
  hosts := .setHost .refl hcur hw
  secrets := rfl
  configs := fun _ _ h _ => h
  machines := fun _ m h => ⟨m, h, rfl, rfl⟩
  deleting := fun _ h => h

/-- A write to a machine that keeps what its configuration depends on. -/
theorem SecretStep.setMachine {key : NamespacedName} {cur m : ByoMachine}
    (hcur : w.machines.lookup key = some cur) (href : m.installerRef = cur.installerRef)
    (hkey : m.key = cur.key) (hdel : cur.deletionTimestamp = true → m.deletionTimestamp = true) :
    SecretStep w (w.setMachine key m) where
  hosts := .of_hosts_eq .refl rfl
  secrets := rfl
  configs := fun _ _ h _ => h
  machines := by
    intro k m' hm'
    by_cases hk : k = key
    · subst hk
      rw [setMachine_lookup_self] at hm'
      split at hm'
      · cases hm'
      · cases hm'
        exact ⟨cur, hcur, href, hkey⟩
    · rw [setMachine_lookup_ne w hk] at hm'
      exact ⟨m', hm', rfl, rfl⟩
  deleting := fun _ h => h.setMachine hcur hdel

theorem Requests.of_same {m m' : ByoMachine} (h : Requests w₀ k m)
    (href : m'.installerRef = m.installerRef) (hkey : m'.key = m.key) : Requests w₀ k m' := by
  obtain ⟨m₀, hm₀, href₀, hkey₀⟩ := h
  exact ⟨m₀, hm₀, href.trans href₀, hkey.trans hkey₀⟩

theorem SecretExists.of_eq {r : ObjectReference} (h : SecretExists r w)
    (hs : w'.secrets = w.secrets) : SecretExists r w' := by
  rw [SecretExists, hs]
  exact h

variable (hstep : SecretStep w w')

include hstep

theorem HostSecret.step {h h' : ByoHost} (hh : HostSecret names w₀ w h) (hw : SecretWrite h h') :
    HostSecret names w₀ w' h' where
  known := by
    intro r hr
    have hkept := hw (hr ▸ Option.some_ne_none r)
    exact hh.known r (hkept.secret ▸ hr)
  attached := by
    intro hlabel hun hsome
    have hkept := hw hsome
    rcases hkept.label with hsame | ⟨-, hnone⟩
    · -- a host that was marked would still be
      have hun₀ : h.carries .hostCleanup = false := by
        by_contra hm
        cases (hkept.mark hlabel (by simpa using hm)).symm.trans hun
      have href := hh.attached (hsame ▸ hlabel) hun₀ (hkept.secret ▸ hsome)
      rcases hkept.machineRef with heq | ⟨-, hnone | hm⟩
      · exact heq ▸ href
      · exact absurd hnone hlabel
      · cases hm.symm.trans hun
    · exact absurd hnone hlabel
  present := by
    intro r hr hwhy
    have hkept := hw (hr ▸ Option.some_ne_none r)
    refine (hh.present r (hkept.secret ▸ hr) ?_).of_eq hstep.secrets
    rcases hwhy with hlabel | href
    · rcases hkept.label with hsame | ⟨-, hnone⟩
      · exact .inl (hsame ▸ hlabel)
      · exact absurd hnone hlabel
    · rcases hkept.machineRef with heq | ⟨hnone, -⟩
      · exact .inr (heq ▸ href)
      · exact absurd hnone href

/-- No host of `k` is released, since none of them is marked. -/
theorem Supplied.step (h : Supplied w₀ k w) (hnone : NoneMarked k w) : Supplied w₀ k w' where
  stored := fun r hr => (h.stored r hr).of_eq hstep.secrets
  labelled := by
    intro key b' r hb' hr hoffers
    obtain ⟨b, hb, hw⟩ := hstep.hosts.of_some hb'
    have hkept := hw (hr ▸ Option.some_ne_none r)
    have hl : Labelled k b := h.labelled key b r hb (hkept.secret ▸ hr) hoffers
    rcases hkept.label with hsame | ⟨hmarked, -⟩
    · exact hsame.trans hl
    · cases hmarked.symm.trans (hnone key b hb hl)

theorem Secrets.step (hS : Secrets names w₀ w) (hG : Lifecycle names w) : Secrets names w₀ w' where
  keyed := by
    rw [SecretsKeyed, hstep.secrets]
    exact hS.keyed
  configs := fun key c hc hready => hS.configs key c (hstep.configs key c hc hready) hready
  machines := by
    intro k m hm
    obtain ⟨m₁, hm₁, href, hkey⟩ := hstep.machines k m hm
    exact (hS.machines k m₁ hm₁).of_same href hkey
  each := by
    intro key b' hb'
    obtain ⟨b, hb, hw⟩ := hstep.hosts.of_some hb'
    exact (hS.each key b hb).step hstep hw
  single := by
    intro key b' r key' c' r' hb' hc' hr hr' hsame
    obtain ⟨b, hb, hw⟩ := hstep.hosts.of_some hb'
    obtain ⟨c, hc, hw'⟩ := hstep.hosts.of_some hc'
    have hkept := hw (hr ▸ Option.some_ne_none r)
    have hkept' := hw' (hr' ▸ Option.some_ne_none r')
    exact hS.single key b r key' c r' hb hc (hkept.secret ▸ hr) (hkept'.secret ▸ hr') hsame
  live := by
    intro k hk hlive
    have hlive₀ : ¬Deleting k w := fun h => hlive (hstep.deleting k h)
    refine (hS.live k hk hlive₀).step hstep fun key b hb hl => ?_
    by_contra hm
    exact hlive₀ (hG.deleting k hk key b hb hl (by simpa using hm))

end Steps

/-! ## A reference is published -/

section Published

variable {names : List NamespacedName} {w₀ w : World} {k key : NamespacedName}
  {cur h : ByoHost} {r : ObjectReference}

/-- A host with the label of `k` gets the reference to the uninstall secret of `k`. -/
theorem Secrets.published (hS : Secrets names w₀ w) (hscripts : Scripted w₀)
    (hunique : UniqueLabels w) (hk : k ∈ names) (hcur : w.hosts.lookup key = some cur)
    (hlabelled : Labelled k cur) (href : cur.machineRef ≠ none) (hsupplied : Supplied w₀ k w)
    (hoffers : Offers w₀ k r) (hlabel : h.attachedLabel = cur.attachedLabel)
    (hmachineRef : h.machineRef = cur.machineRef) (hr : h.uninstallationSecret = some r) :
    Secrets names w₀ (w.setHost key h) ∧ Supplied w₀ k (w.setHost key h) := by
  -- the host that was written, or another one as it was
  have hcases : ∀ key' b, (w.setHost key h).hosts.lookup key' = some b →
      key' = key ∧ b = h ∨ key' ≠ key ∧ w.hosts.lookup key' = some b :=
    fun _ _ => lookup_insert_some
  -- nobody else references this secret: it would carry the label
  have hother : ∀ key' b r', key' ≠ key → w.hosts.lookup key' = some b →
      b.uninstallationSecret = some r' → secretKey r ≠ secretKey r' := by
    intro key' b r' hne hb hr' hsame
    obtain ⟨k', -, hoffers'⟩ := (hS.each key' b hb).known r' hr'
    obtain rfl := hscripts.distinct k r k' r' hoffers hoffers' hsame
    have hl : Labelled k b := hsupplied.labelled key' b r' hb hr' hoffers'
    refine hne (hunique key' b key cur hb hcur ?_ (hl.trans hlabelled.symm))
    rw [hl]
    exact Option.some_ne_none _
  have hself : ∀ k', Offers w₀ k' r → k' = k := fun k' h' =>
    hscripts.distinct k' r k r h' hoffers rfl
  have hlabelled' : Labelled k h := hlabel.trans hlabelled
  have hsupplied' : ∀ k', Supplied w₀ k' w → Supplied w₀ k' (w.setHost key h) := by
    intro k' hs
    refine ⟨hs.stored, fun key' b r' hb hr' hoffers' => ?_⟩
    rcases hcases key' b hb with ⟨-, rfl⟩ | ⟨-, hb⟩
    · cases hr.symm.trans hr'
      rw [hself k' hoffers']
      exact hlabelled'
    · exact hs.labelled key' b r' hb hr' hoffers'
  refine ⟨⟨hS.keyed, hS.configs, hS.machines, ?_, ?_, fun k' hk' hlive =>
    hsupplied' k' (hS.live k' hk' hlive)⟩, hsupplied' k hsupplied⟩
  · intro key' b hb
    rcases hcases key' b hb with ⟨-, rfl⟩ | ⟨-, hb⟩
    · refine ⟨fun r' hr' => ?_, fun _ _ _ => hmachineRef ▸ href, fun r' hr' _ => ?_⟩
      · cases hr.symm.trans hr'
        exact ⟨k, hk, hoffers⟩
      · cases hr.symm.trans hr'
        exact hsupplied.stored r hoffers
    · have hb₀ := hS.each key' b hb
      exact ⟨hb₀.known, hb₀.attached, hb₀.present⟩
  · intro key₁ b₁ r₁ key₂ b₂ r₂ hb₁ hb₂ hr₁ hr₂ hsame
    rcases hcases key₁ b₁ hb₁ with ⟨hkey₁, rfl⟩ | ⟨hne₁, hold₁⟩ <;>
      rcases hcases key₂ b₂ hb₂ with ⟨hkey₂, rfl⟩ | ⟨hne₂, hold₂⟩
    · exact hkey₁.trans hkey₂.symm
    · cases hr.symm.trans hr₁
      exact absurd hsame (hother key₂ b₂ r₂ hne₂ hold₂ hr₂)
    · cases hr.symm.trans hr₂
      exact absurd hsame.symm (hother key₁ b₁ r₁ hne₁ hold₁ hr₁)
    · exact hS.single key₁ b₁ r₁ key₂ b₂ r₂ hold₁ hold₂ hr₁ hr₂ hsame

end Published

/-! ## A secret is deleted -/

/-- The host under `key` references `r`, is not attached and has no machine reference. -/
def StaleAt (key : NamespacedName) (r : ObjectReference) (w : World) : Prop :=
  ∃ cur, w.hosts.lookup key = some cur ∧ cur.uninstallationSecret = some r ∧
    cur.attachedLabel = none ∧ cur.machineRef = none

section Deleted

variable {names : List NamespacedName} {w₀ w : World} {k key : NamespacedName} {r : ObjectReference}

/-- The world without the secret. -/
def withoutSecret (r : ObjectReference) (w : World) : World :=
  { w with secrets := w.secrets.erase (secretKey r) }

theorem SecretExists.erase {r' : ObjectReference} (h : SecretExists r' w)
    (hne : secretKey r' ≠ secretKey r) : SecretExists r' (withoutSecret r w) := by
  rw [SecretExists, withoutSecret, AList.lookup_erase_ne hne]
  exact h

/-- The secret of a stale host is not that of a machine whose hosts are labelled. -/
theorem Supplied.deleted (h : Supplied w₀ k w) (hS : Secrets names w₀ w) (hscripts : Scripted w₀)
    (hstale : StaleAt key r w) : Supplied w₀ k (withoutSecret r w) := by
  refine ⟨fun r' hoffers => (h.stored r' hoffers).erase fun hsame => ?_, h.labelled⟩
  obtain ⟨cur, hcur, hr, hlabel, -⟩ := hstale
  obtain ⟨k', -, hoffers'⟩ := (hS.each key cur hcur).known r hr
  obtain rfl := hscripts.distinct k r' k' r hoffers hoffers' hsame
  have hl : Labelled k cur := h.labelled key cur r hcur hr hoffers'
  cases hlabel.symm.trans hl

theorem Secrets.deleted (hS : Secrets names w₀ w) (hscripts : Scripted w₀)
    (hstale : StaleAt key r w) : Secrets names w₀ (withoutSecret r w) where
  keyed := forall_lookup_erase hS.keyed
  configs := hS.configs
  machines := hS.machines
  each := by
    intro key' b hb
    have hb₀ := hS.each key' b hb
    refine ⟨hb₀.known, hb₀.attached, fun r' hr' hwhy => ?_⟩
    refine (hb₀.present r' hr' hwhy).erase fun hsame => ?_
    -- the host that references the secret is the stale one
    obtain ⟨cur, hcur, hr, hlabel, href⟩ := hstale
    obtain rfl := hS.single key' b r' key cur r hb hcur hr' hr hsame
    cases hcur.symm.trans hb
    exact hwhy.elim (absurd hlabel) (absurd href)
  single := hS.single
  live := fun k hk hlive => (hS.live k hk hlive).deleted hS hscripts hstale

end Deleted

/-! ## Assertions -/

/-- The host under `key` references no uninstall secret. -/
def UnsetAt (key : NamespacedName) (w : World) : Prop :=
  ∀ cur, w.hosts.lookup key = some cur → cur.uninstallationSecret = none

/-- What the reconcile relies on when the host in memory references no uninstall secret. -/
def Synced (h : ByoHost) (w : World) : Prop := h.uninstallationSecret = none → UnsetAt h.key w

/-- The machine `m` was read under the key `k`, and its uninstall secret is there if it was not under
deletion. -/
structure ReadFor (w₀ : World) (k : NamespacedName) (m : ByoMachine) (w : World) : Prop where
  requests : Requests w₀ k m
  live : m.deletionTimestamp = false → Supplied w₀ k w

/-- The edit of the host in memory can be written. -/
def EditReady (w₀ : World) (k : NamespacedName) (w : World) (h : ByoHost) (part : HostPart) :
    HostEdit → Prop
  | .attach _ => h.uninstallationSecret = none ∧ UnsetAt h.key w
  | .uninstall r =>
      h.uninstallationSecret = none ∧ Offers w₀ k r ∧ (part = .spec → UnsetAt h.key w)
  | _ => Synced h w

/-- The machine as the reconcile has read it. -/
def readMachine : MachinePhase → Option ByoMachine
  | .owner m => some m
  | .cluster m _ => some m
  | .infra m _ _ => some m
  | .fetch s => some s.byoMachine
  | .body s _ => some s.byoMachine
  | .create s _ _ => some s.byoMachine
  | .write s _ _ _ _ => some s.byoMachine
  | _ => none

/-- What holds of the host in memory. -/
def HostReady (w₀ : World) (k : NamespacedName) (w : World) : MachinePhase → Prop
  | .body _ (some h) => Synced h w
  | .create _ (some h) config => Synced h w ∧ config.ready ≠ .value true
  | .create _ none config => config.ready ≠ .value true
  | .write _ e h part _ => EditReady w₀ k w h part e
  | _ => True

/-- What holds while the reconcile of `k` is in a phase. -/
structure Supplying (w₀ : World) (k : NamespacedName) (w : World) (q : MachinePhase) : Prop where
  read : ∀ m, readMachine q = some m → ReadFor w₀ k m w
  host : HostReady w₀ k w q

/-- What holds while the reconcile of the host `k` is in a phase. -/
def Disposing (k : NamespacedName) (w : World) : HostPhase → Prop
  | .found h ref => h.key = k ∧ h.uninstallationSecret = some ref ∧ StaleAt k ref w
  | .delete h ref secret => h.key = k ∧ h.uninstallationSecret = some ref ∧ StaleAt k ref w ∧
      secret.key = secretKey ref
  | .clear h ref => h.key = k ∧ h.uninstallationSecret = some ref
  | _ => True

/-- Others do not change references that are set. -/
def SetKept (h h' : ByoHost) : Prop :=
  h.uninstallationSecret ≠ none → ReferenceKept h h'

theorem SetKept.refl (h : ByoHost) : SetKept h h :=
  fun _ => ⟨rfl, .inl rfl, fun _ hm => hm, .inl rfl⟩

section Interference

variable {names : List NamespacedName} {w₀ w w' : World} {k : NamespacedName} {q : MachinePhase}

theorem UnsetAt.step {key : NamespacedName} (h : UnsetAt key w) (hw : HostsVia SecretWrite w w') :
    UnsetAt key w' := by
  intro b' hb'
  obtain ⟨b, hb, hwrite⟩ := hw.of_some hb'
  by_contra hsome
  exact hsome ((hwrite hsome).secret.trans (h b hb))

theorem Synced.step {h : ByoHost} (hs : Synced h w) (hw : HostsVia SecretWrite w w') :
    Synced h w' := fun hnone => (hs hnone).step hw

theorem EditReady.step {e : HostEdit} {h : ByoHost} {part : HostPart}
    (hs : EditReady w₀ k w h part e) (hw : HostsVia SecretWrite w w') :
    EditReady w₀ k w' h part e := by
  cases e with
  | attach a => exact ⟨hs.1, hs.2.step hw⟩
  | uninstall r => exact ⟨hs.1, hs.2.1, fun hp => (hs.2.2 hp).step hw⟩
  | pause b => exact Synced.step hs hw
  | mark u => exact Synced.step hs hw
  | install r => exact Synced.step hs hw

theorem HostReady.step (hs : HostReady w₀ k w q) (hw : HostsVia SecretWrite w w') :
    HostReady w₀ k w' q := by
  cases q with
  | body s host =>
    cases host with
    | none => trivial
    | some h => exact Synced.step hs hw
  | create s host config =>
    cases host with
    | none => exact hs
    | some h => exact ⟨hs.1.step hw, hs.2⟩
  | write s e h part failed => exact EditReady.step hs hw
  | _ => trivial

/-- The machine that was read is not under deletion only if no host of it is marked. -/
theorem Holding.noneMarked (hH : Holding k w q) {m : ByoMachine} (hm : readMachine q = some m)
    (hlive : m.deletionTimestamp = false) : NoneMarked k w := by
  have hread : ReadMachine k m w := by
    cases q with
    | owner m' | cluster m' _ | infra m' _ _ | fetch s =>
      cases hm
      exact hH
    | body s host =>
      cases hm
      cases host <;> exact hH.1
    | create s host config =>
      cases hm
      cases host <;> exact hH.1
    | write s e h part failed =>
      cases hm
      cases e <;> cases part <;> exact hH.1
    | _ => cases hm
  exact hread.live hlive

theorem ReadFor.step {m : ByoMachine} (h : ReadFor w₀ k m w) (hold : Holding k w q)
    (hm : readMachine q = some m) (hstep : SecretStep w w') : ReadFor w₀ k m w' :=
  ⟨h.requests, fun hlive => (h.live hlive).step hstep (Holding.noneMarked hold hm hlive)⟩

theorem Supplying.mono (hH : Supplying w₀ k w q) (hold : Holding k w q) (hstep : SecretStep w w') :
    Supplying w₀ k w' q where
  read := fun m hm => (hH.read m hm).step hold hm hstep
  host := hH.host.step hstep.hosts

theorem StaleAt.mono {key : NamespacedName} {r : ObjectReference} (h : StaleAt key r w)
    (hw : HostsVia SetKept w w') : StaleAt key r w' := by
  obtain ⟨b, hb, hr, hlabel, href⟩ := h
  obtain ⟨b', hb', hkept⟩ := hw.some hb
  have hkept := hkept (hr ▸ Option.some_ne_none r)
  refine ⟨b', hb', hkept.secret.trans hr, ?_, ?_⟩
  · rcases hkept.label with hsame | ⟨-, hnone⟩
    · exact hsame.trans hlabel
    · exact hnone
  · rcases hkept.machineRef with heq | ⟨hnone, -⟩
    · exact heq.trans href
    · exact hnone

theorem Disposing.mono {q : HostPhase} (hH : Disposing k w q)
    (hstale : ∀ r, StaleAt k r w → StaleAt k r w') : Disposing k w' q := by
  cases q with
  | found h ref => exact ⟨hH.1, hH.2.1, hstale ref hH.2.2⟩
  | delete h ref secret => exact ⟨hH.1, hH.2.1, hstale ref hH.2.2.1, hH.2.2.2⟩
  | clear h ref => exact hH
  | start => trivial
  | done => trivial

end Interference

/-! ## The reconcile of a machine -/

section Moves

variable {names : List NamespacedName} {w₀ w w' : World} {k : NamespacedName} {o : Outcome}
  {q q' : MachinePhase} {c : Call}

/-- The machine in memory is read once. -/
theorem readMachine_of_move (hmove : MachineMove k o w q c q' w') {m : ByoMachine}
    (hm : readMachine q' = some m) : readMachine q = some m ∨ w.machines.lookup k = some m := by
  cases hmove with
  | read hm' =>
    cases hm
    exact .inr hm'
  | @machineWritten s how m' cur m'' part => cases part <;> cases hm
  | @machineFailed s how m' part => cases part <;> cases hm
  | quit | fetchFailed => cases hm
  | _ => exact .inl hm

/-- An edit that neither attaches nor publishes the uninstall secret. -/
def isPlainEdit : HostEdit → Bool
  | .attach _ | .uninstall _ => false
  | _ => true

theorem isPlainEdit.apply {e : HostEdit} (he : isPlainEdit e = true) (h : ByoHost) :
    (e.apply h).uninstallationSecret = h.uninstallationSecret := by
  cases e with
  | attach a => cases he
  | uninstall r => cases he
  | pause b => cases b <;> rfl
  | mark u => cases u <;> rfl
  | install r => rfl

/-- Its request keeps what it finds. -/
theorem isPlainEdit.kept {e : HostEdit} (he : isPlainEdit e = true) (h cur : ByoHost) :
    ReferenceKept cur (h.merge (e.apply h) cur) where
  secret := by
    rw [ByoHost.merge, isPlainEdit.apply he]
    exact mergeRef_self ..
  label := by
    refine .inl (HostEdit.merge_labels ?_ h cur).1
    cases e <;> first | rfl | cases he
  mark := fun _ => (ManagerWrite.spec e h : ManagerWrite cur _).cleanup
  machineRef := .inl rfl

/-- The configuration that the reconcile has read is that of the start. -/
theorem ReadFor.offers {m : ByoMachine} {ref r : ObjectReference} {config : InstallerConfig}
    (h : ReadFor w₀ k m w) (hS : Secrets names w₀ w) (href : m.installerRef = some ref)
    (hconfig : w.installerConfigs.lookup (installerConfigKey m ref) = some config)
    (hready : config.ready = .value true) (hsecret : config.uninstallationSecret = .value r) :
    Offers w₀ k r := by
  obtain ⟨m₀, hm₀, href₀, hkey₀⟩ := h.requests
  have hkey : installerConfigKey m₀ ref = installerConfigKey m ref := by
    obtain ⟨hns, hname⟩ := NamespacedName.mk.inj hkey₀
    rw [installerConfigKey, installerConfigKey, hns, hname]
  refine ⟨m₀, ref, config, hm₀, href₀ ▸ href, ?_, hready, hsecret⟩
  rw [hkey]
  exact hS.configs _ config hconfig hready

/-- A host that was listed is as it is on the server. -/
theorem synced_viewed (hG : Lifecycle names w) {key : NamespacedName} {h : ByoHost}
    (hview : w.hostView.lookup key = some h) : Synced h w := by
  intro hnone cur hcur
  rw [World.hostView, hG.fresh] at hview
  have hkey : h.key = key := hG.hosts key h hview
  rw [hkey] at hcur
  cases hview.symm.trans hcur
  exact hnone

/-- The effect of a call of the reconcile of `k` that does not publish the uninstall secret. -/
theorem Supplying.effect (hH : Supplying w₀ k w q) (hmove : MachineMove k o w q c q' w')
    (hplain : ∀ s r h failed, q ≠ .write s (.uninstall r) h .spec failed) :
    SecretStep w w' ∧ HostsVia SetKept w w' := by
  have hsame : SecretStep w w ∧ HostsVia SetKept w w :=
    ⟨.of_eq rfl rfl rfl rfl, .refl SetKept.refl w⟩
  cases hmove with
  | look hw =>
    obtain ⟨nodes, rfl⟩ := hw
    exact ⟨.of_eq rfl rfl rfl rfl, .of_hosts_eq SetKept.refl rfl⟩
  | @created s host config hnone =>
    have hready : config.ready ≠ .value true := by
      have hhost := hH.host
      cases host with
      | none => exact hhost
      | some h => exact hhost.2
    refine ⟨⟨.of_hosts_eq .refl rfl, rfl, fun key c hc hc' => ?_, fun _ m hm => ⟨m, hm, rfl, rfl⟩,
      fun _ h => h⟩, .of_hosts_eq SetKept.refl rfl⟩
    rcases lookup_insert_some hc with ⟨-, rfl⟩ | ⟨-, hc⟩
    · exact absurd hc' hready
    · exact hc
  | @specWritten s e h cur failed hcur =>
    cases he : isPlainEdit e with
    | true =>
      have hkept := isPlainEdit.kept he h cur
      exact ⟨.setHost hcur fun _ => hkept, .setHost SetKept.refl hcur fun _ => hkept⟩
    | false =>
      cases e with
      | attach a =>
        -- the host that was picked still references no secret
        obtain ⟨-, hunset⟩ : h.uninstallationSecret = none ∧ UnsetAt h.key w := hH.host
        have hnone : (h.merge ((HostEdit.attach a).apply h) cur).uninstallationSecret = none := by
          rw [ByoHost.merge]
          exact (mergeRef_self ..).trans (hunset cur hcur)
        exact ⟨.setHost hcur (.of_unset hnone),
          .setHost SetKept.refl hcur fun hsome => absurd (hunset cur hcur) hsome⟩
      | uninstall r => exact absurd rfl (hplain s r h failed)
      | _ => cases he
  | @statusWritten s e h cur failed hchanged hcur =>
    cases e with
    | attach a =>
      obtain ⟨-, hunset⟩ : h.uninstallationSecret = none ∧ UnsetAt h.key w := hH.host
      exact ⟨.setHost hcur (.of_unset (hunset cur hcur)),
        .setHost SetKept.refl hcur fun hsome => absurd (hunset cur hcur) hsome⟩
    | _ => rw [HostEdit.statusChanged_eq_false rfl] at hchanged; cases hchanged
  | machineWritten _ hcur hm' =>
    refine ⟨.setMachine hcur ?_ ?_ ?_, .of_hosts_eq SetKept.refl rfl⟩
    · rw [hm'.rest]
    · rw [hm'.rest]
      rfl
    · intro hdel
      rw [hm'.rest]
      exact hdel
  | _ => exact hsame

/-- What holds of the host in memory after a call. -/
theorem Supplying.hostReady (hG : Lifecycle names w) (hS : Secrets names w₀ w)
    (hH : Supplying w₀ k w q) (hpicks : picksCleared w o c = true)
    (hmove : MachineMove k o w q c q' w') (hw : HostsVia SecretWrite w w') :
    HostReady w₀ k w' q' := by
  cases hmove with
  | @fetched s =>
    cases hhead : (listHosts w (attachedSelector s.byoMachine) none o.pick).head? with
    | none => trivial
    | some h =>
      obtain ⟨⟨key, hview⟩, -⟩ := labelled_of_fetched hhead
      exact synced_viewed hG hview
  | look _ => exact hH.host.step hw
  | @template s host _ _ _ _ config _ _ _ _ hconfig =>
    have hready : config.ready ≠ .value true := by simp [(installerConfigFor_ready hconfig).1]
    cases host with
    | none => exact hready
    | some h => exact ⟨hH.host, hready⟩
  | @created s host | @notCreated s host =>
    have hhost := hH.host
    cases host with
    | none => trivial
    | some h => exact hhost.1.step hw
  | @listed s selector _ _ h _ _ _ hh =>
    -- the rule for listings
    have hnone : h.uninstallationSecret = none := by simpa [picksCleared, hh] using hpicks
    obtain ⟨⟨key, hview⟩, -⟩ := clusterLabel_of_listed (List.mem_of_head? hh)
    exact ⟨hnone, synced_viewed hG hview hnone⟩
  | installReady _ _ _ _ _ _ => exact hH.host
  | uninstallReady _ href hnone hconfig hready hsecret =>
    exact ⟨hnone, (hH.read _ rfl).offers hS href hconfig hready hsecret, fun _ => hH.host hnone⟩
  | @specWritten s e h cur failed hcur | @specFailed s e h failed =>
    have hedit : EditReady w₀ k _ h .spec e := EditReady.step hH.host hw
    cases e with
    | uninstall r => exact ⟨hedit.1, hedit.2.1, fun hp => by cases hp⟩
    | _ => exact hedit
  | @statusWritten s e h cur failed _ hcur | @statusFailed s e h failed =>
    have hedit : EditReady w₀ k _ h .status e := EditReady.step hH.host hw
    cases e with
    | uninstall r => exact ⟨hedit.1, hedit.2.1, fun hp => by cases hp⟩
    | _ => exact hedit
  | @machineWritten s how m _ _ part | @machineFailed s how m part => cases part <;> trivial
  | _ => trivial

/-- One call of the reconcile of `k`. -/
theorem Supplying.move (hG : Lifecycle names w) (hS : Secrets names w₀ w) (hscripts : Scripted w₀)
    (hk : k ∈ names) (hold : Holding k w q) (hfull : Completing w₀ k w q) (hH : Supplying w₀ k w q)
    (hpicks : picksCleared w o c = true) (hmove : MachineMove k o w q c q' w') :
    Secrets names w₀ w' ∧ Supplying w₀ k w' q' ∧ HostsVia SetKept w w' := by
  by_cases hplain : ∀ s r h failed, q ≠ .write s (.uninstall r) h .spec failed
  · obtain ⟨hstep, hset⟩ := hH.effect hmove hplain
    refine ⟨hS.step hstep hG, ⟨fun m hm => ?_, hH.hostReady hG hS hpicks hmove hstep.hosts⟩, hset⟩
    rcases readMachine_of_move hmove hm with hm₀ | hm₀
    · exact (hH.read m hm₀).step hold hm₀ hstep
    · -- the machine has just been read
      have hlive : m.deletionTimestamp = false → ¬Deleting k w := by
        intro hlive hdel
        cases (hdel m hm₀).symm.trans hlive
      refine ⟨hS.machines k m hm₀, fun hd => (hS.live k hk (hlive hd)).step hstep ?_⟩
      intro key b hb hl
      by_contra hmarked
      exact hlive hd (hG.deleting k hk key b hb hl (by simpa using hmarked))
  · simp only [ne_eq, not_forall, not_not] at hplain
    obtain ⟨s, r, h, failed, rfl⟩ := hplain
    cases hmove with
    | quit hq => cases hq
    | @specFailed =>
      exact ⟨hS, ⟨hH.read, hH.host.1, hH.host.2.1, fun hp => by cases hp⟩, .refl SetKept.refl w⟩
    | @specWritten _ _ _ cur _ hcur =>
      obtain ⟨hread, hfetched, hnormal⟩ := hold
      obtain ⟨hnone, hoffers, hunset⟩ :
        h.uninstallationSecret = none ∧ Offers w₀ k r ∧ (HostPart.spec = .spec → UnsetAt h.key w) :=
        hH.host
      obtain ⟨hlabelled, hun⟩ := hfetched.attached (hfetched.normal hnormal) cur hcur
      -- the attachment of the host is complete
      obtain ⟨ref, href, -⟩ := hfull h.key cur hcur hlabelled hun
      have hlive : s.byoMachine.deletionTimestamp = false := deletionTimestamp_of_normal hnormal
      have hr : (h.merge ((HostEdit.uninstall r).apply h) cur).uninstallationSecret = some r := by
        rw [ByoHost.merge]
        dsimp only
        rw [hnone, hunset rfl cur hcur]
        exact mergeRef_before ..
      obtain ⟨hS', hsupplied⟩ := hS.published hscripts hG.unique hk hcur hlabelled
        (href ▸ Option.some_ne_none ref) ((hH.read _ rfl).live hlive) hoffers
        (HostEdit.merge_labels rfl h cur).1 rfl hr
      refine ⟨hS', ⟨fun m hm => ?_, hnone, hoffers, fun hp => by cases hp⟩,
        .setHost SetKept.refl hcur fun hsome => absurd (hunset rfl cur hcur) hsome⟩
      cases hm
      exact ⟨(hH.read _ rfl).requests, fun _ => hsupplied⟩

/-- What happens between calls. -/
theorem Supplying.step (hH : Supplying w₀ k w q) (hstep : MachineSilent q q') :
    Supplying w₀ k w q' := by
  cases hstep with
  | pause _ => exact ⟨hH.read, hH.host⟩
  | unpause _ => exact ⟨hH.read, hH.host⟩
  | mark _ => exact ⟨hH.read, hH.host⟩
  | @skipSpec s e h failed _ | @skipStatus s e h failed _ =>
    refine ⟨hH.read, ?_⟩
    have hedit := hH.host
    cases e with
    | uninstall r => exact ⟨hedit.1, hedit.2.1, fun hp => by cases hp⟩
    | _ => exact hedit
  | @wrote s e h _ =>
    refine ⟨hH.read, ?_⟩
    have hedit : EditReady w₀ k w h .done e := hH.host
    show (e.apply h).uninstallationSecret = none → UnsetAt (e.apply h).key w
    rw [HostEdit.apply_key]
    intro hnone
    cases e with
    | attach a => exact hedit.2
    | uninstall r => cases hnone
    | pause b => exact hedit (by rwa [isPlainEdit.apply rfl] at hnone)
    | mark u => exact hedit (by rwa [isPlainEdit.apply rfl] at hnone)
    | install r => exact hedit (by rwa [isPlainEdit.apply rfl] at hnone)
  | _ => exact ⟨fun m hm => (by cases hm), trivial⟩

end Moves

/-! ## Agents and the ByoHost controller -/

section Peers

variable {names : List NamespacedName} {w₀ w w' : World} {k : NamespacedName} {o : Outcome}
  {c : Call}

/-- A call of an agent. -/
theorem Clearing.secretStep {q q' : AgentPhase} (hold : Releasing k w q) (hH : Clearing k w q)
    (hmove : AgentMove k o w q c q' w') : SecretStep w w' ∧ HostsVia SetKept w w' := by
  -- every write of an agent keeps the reference
  have hwrite : ∀ {key cur h}, w.hosts.lookup key = some cur → ReferenceKept cur h →
      SecretStep w (w.setHost key h) ∧ HostsVia SetKept w (w.setHost key h) :=
    fun hcur hkept => ⟨.setHost hcur fun _ => hkept, .setHost SetKept.refl hcur fun _ => hkept⟩
  cases hmove with
  | conditionsWritten hcur => exact hwrite hcur ⟨rfl, .inl rfl, fun _ hm => hm, .inl rfl⟩
  | @specWritten h h' cur log hreleased hcur =>
    obtain ⟨hmarked, hfree⟩ := hold.release hreleased hcur
    refine hwrite hcur ⟨?_, .inr ⟨hmarked, hfree.label⟩, fun hlabel => absurd hfree.label hlabel,
      .inl rfl⟩
    rw [ByoHost.merge, hreleased.2]
    exact mergeRef_self ..
  | @statusWritten h h' cur log hreleased _ hcur =>
    refine hwrite hcur ⟨rfl, .inl rfl, fun _ hm => hm, ?_⟩
    rw [released_machineRef hreleased]
    by_cases hnone : h.machineRef = none
    · exact .inl (if_pos hnone)
    · have hkey : h.key = k := hold
      exact .inr ⟨if_neg hnone, (hH hreleased.1 hnone cur (hkey ▸ hcur)).2⟩
  | _ => exact ⟨.of_eq rfl rfl rfl rfl, .refl SetKept.refl w⟩

/-- The host that the ByoHost controller has read. -/
theorem HostSecret.stale {h : ByoHost} {ref : ObjectReference} (hh : HostSecret names w₀ w h)
    (hlookup : w.hosts.lookup k = some h) (href : ByoHostReconciler.staleReference h = some ref) :
    h.uninstallationSecret = some ref ∧ StaleAt k ref w := by
  obtain ⟨hr, hnone, hun⟩ := staleReference_eq_some href
  refine ⟨hr, h, hlookup, hr, ?_, hnone⟩
  by_contra hlabel
  exact hh.attached hlabel hun (hr ▸ Option.some_ne_none ref) hnone

/-- What a call of the reconcile of the host `k` does to the server. -/
theorem Disposing.effect {q q' : HostPhase} (hH : Disposing k w q)
    (hmove : HostMove k o w q c q' w') :
    SecretStep w w' ∧ (∀ key, key ≠ k → w'.hosts.lookup key = w.hosts.lookup key) ∨
      ∃ r, StaleAt k r w ∧ w' = withoutSecret r w := by
  cases hmove with
  | @deleted h ref secret =>
    obtain ⟨-, -, hstale, hkey⟩ := hH
    exact .inr ⟨ref, hstale, by rw [hkey]; rfl⟩
  | @cleared h cur ref hcur =>
    obtain ⟨hkey, hr⟩ := hH
    refine .inl ⟨.setHost hcur (.of_unset ?_), fun key hne => AList.lookup_insert_ne (hkey ▸ hne)⟩
    show mergeRef h.uninstallationSecret none cur.uninstallationSecret = none
    rw [hr, mergeRef_some_none]
  | _ => exact .inl ⟨.of_eq rfl rfl rfl rfl, fun _ _ => rfl⟩

theorem Disposing.move (hG : Lifecycle names w) (hS : Secrets names w₀ w) {q q' : HostPhase}
    (hH : Disposing k w q) (hmove : HostMove k o w q c q' w') : Disposing k w' q' := by
  cases hmove with
  | @read h ref href hh =>
    obtain ⟨hr, hstale⟩ := (hS.each k h hh).stale hh href
    exact ⟨hG.hosts k h hh, hr, hstale⟩
  | quit => trivial
  | gone => exact ⟨hH.1, hH.2.1⟩
  | present hsecret => exact ⟨hH.1, hH.2.1, hH.2.2, hS.keyed _ _ hsecret⟩
  | deleted => exact ⟨hH.1, hH.2.1⟩
  | notDeleted => exact ⟨hH.1, hH.2.1⟩
  | cleared _ => trivial

end Peers

/-! ## All threads -/

section Threads

variable {names : List NamespacedName} {w₀ w w' : World} {k : NamespacedName} {o : Outcome}
  {q : Option Phase} {t : Tid}

/-- What holds while a thread is in a phase; the K8sInstallerConfig controller does not run. -/
structure SecretThread (w₀ : World) (t : Tid) (w : World) (q : Option Phase) : Prop where
  machine : ∀ k p, t = .byoMachine k → q = some (.machine p) → Supplying w₀ k w p
  host : ∀ k p, t = .byoHost k → q = some (.host p) → Disposing k w p
  config : ∀ k, t = .k8sInstallerConfig k → q = none

theorem secretThread_none (t : Tid) : SecretThread w₀ t w none := by
  refine ⟨?_, ?_, fun _ _ => rfl⟩ <;> (rintro _ _ _ ⟨⟩)

theorem secretThread_machine {q : MachinePhase} (hH : Supplying w₀ k w q) :
    SecretThread w₀ (.byoMachine k) w (some (.machine q)) := by
  constructor
  · rintro _ _ ⟨⟩ ⟨⟩
    exact hH
  · rintro _ _ ⟨⟩
  · rintro _ ⟨⟩

theorem secretThread_host {q : HostPhase} (hH : Disposing k w q) :
    SecretThread w₀ (.byoHost k) w (some (.host q)) := by
  constructor
  · rintro _ _ ⟨⟩
  · rintro _ _ ⟨⟩ ⟨⟩
    exact hH
  · rintro _ ⟨⟩

theorem secretThread_agent : SecretThread w₀ (.agent k) w q := by
  constructor
  · rintro _ _ ⟨⟩
  · rintro _ _ ⟨⟩
  · rintro _ ⟨⟩

/-- A step of another thread. -/
theorem SecretThread.mono (hH : SecretThread w₀ t w q)
    (hmachine : ∀ k p, t = .byoMachine k → q = some (.machine p) → Supplying w₀ k w p →
      Supplying w₀ k w' p) (hhost : ∀ k, t = .byoHost k → ∀ r, StaleAt k r w → StaleAt k r w') :
    SecretThread w₀ t w' q where
  machine := fun k p ht hq => hmachine k p ht hq (hH.machine k p ht hq)
  host := fun k p ht hq => (hH.host k p ht hq).mono (hhost k ht)
  config := hH.config

/-- The same, when the step keeps references that are set. -/
theorem SecretThread.step_others (hH : SecretThread w₀ t w q) (hold : LifecycleThread names t w q)
    (hstep : SecretStep w w') (hset : HostsVia SetKept w w') : SecretThread w₀ t w' q :=
  hH.mono (fun k p ht hq hp => hp.mono (hold.machine k p ht hq).2 hstep)
    fun _ _ _ hstale => hstale.mono hset

/-- The reconcile of a machine when a secret is deleted. -/
theorem Supplying.deleted {q : MachinePhase} {key : NamespacedName} {r : ObjectReference}
    (hH : Supplying w₀ k w q) (hS : Secrets names w₀ w) (hscripts : Scripted w₀)
    (hstale : StaleAt key r w) : Supplying w₀ k (withoutSecret r w) q := by
  refine ⟨fun m hm => ⟨(hH.read m hm).requests, fun hlive => ?_⟩, hH.host.step ?_⟩
  · exact ((hH.read m hm).live hlive).deleted hS hscripts hstale
  · exact .of_hosts_eq .refl rfl

/-- A call of a thread: what holds on the server, of the thread itself and of the others. -/
theorem SecretThread.call (hG : Lifecycle names w) (hS : Secrets names w₀ w)
    (hscripts : Scripted w₀) {q q' : Phase} {c : Call} (hold : LifecycleThread names t w (some q))
    (hfull : FullThread names w₀ t w (some q)) (hH : SecretThread w₀ t w (some q))
    (hpicks : picksCleared w o c = true) (hnext : Next t q c (exec o c w).1 q') :
    Secrets names w₀ (exec o c w).2 ∧ SecretThread w₀ t (exec o c w).2 (some q') ∧
      ∀ t' q₁, t' ≠ t → (q₁.isSome = true → NotBothMachines names t t') →
        LifecycleThread names t' w q₁ → SecretThread w₀ t' w q₁ →
          SecretThread w₀ t' (exec o c w).2 q₁ := by
  cases hnext with
  | @machine k q q' c _ h =>
    obtain ⟨hk, hp⟩ := hold.machine k q rfl rfl
    obtain ⟨hS', hq', hset⟩ := (hH.machine k q rfl rfl).move hG hS hscripts hk hp
      (hfull.machine k q rfl rfl) hpicks h.move
    refine ⟨hS', secretThread_machine hq', fun t' q₁ hne hcompat hold₁ hH₁ => hH₁.mono ?_ ?_⟩
    · -- two machines are not reconciled at the same time
      rintro k' p rfl rfl _
      exact absurd rfl (hcompat rfl k hk k' (hold₁.machine k' p rfl rfl).1 rfl)
    · exact fun _ _ _ hstale => hstale.mono hset
  | @config k q q' c _ h => cases hH.config k rfl
  | @host k q q' c _ h =>
    have hq := hH.host k q rfl rfl
    have hq' := hq.move hG hS h.move
    rcases hq.effect h.move with ⟨hstep, honly⟩ | ⟨r, hstale, hw⟩
    · refine ⟨hS.step hstep hG, secretThread_host hq', fun t' q₁ hne _ hold₁ hH₁ => hH₁.mono ?_ ?_⟩
      · exact fun k' p ht hq₁ hp => hp.mono (hold₁.machine k' p ht hq₁).2 hstep
      · -- the controller writes the host that it reconciles
        rintro k' rfl r ⟨cur, hcur, hstale⟩
        refine ⟨cur, ?_, hstale⟩
        rw [honly k' fun heq => hne (congrArg Tid.byoHost heq)]
        exact hcur
    · rw [hw] at hq' ⊢
      exact ⟨hS.deleted hscripts hstale, secretThread_host hq', fun t' q₁ _ _ _ hH₁ =>
        hH₁.mono (fun _ _ _ _ hp => hp.deleted hS hscripts hstale) fun _ _ _ h => h⟩
  | @agent k q q' c _ h =>
    obtain ⟨hstep, hset⟩ := Clearing.secretStep (hold.agent k q rfl rfl)
      (hfull.agent k q rfl rfl) h.move
    exact ⟨hS.step hstep hG, secretThread_agent, fun t' q₁ _ _ hold₁ hH₁ =>
      hH₁.step_others hold₁ hstep hset⟩

end Threads

theorem SecretStep.env {w w' : World} {a : EnvAction} (ha : fixedMachines a = true)
    (henv : envStep a w = some w') : SecretStep w w' := by
  cases a <;> simp only [envStep, Option.map_eq_some_iff, Option.some.injEq] at henv
  case createByoMachine m => cases ha
  case deliver key => cases ha
  case putMachine m => cases ha
  case deleteByoMachine key =>
    obtain ⟨m, hm, rfl⟩ := henv
    exact .setMachine hm rfl rfl fun _ => rfl
  case pauseByoMachine key paused =>
    obtain ⟨m, hm, rfl⟩ := henv
    exact .setMachine hm rfl rfl id
  all_goals
    subst henv
    exact .of_eq rfl rfl rfl rfl

/-- All steps keep the facts about uninstall secrets. -/
theorem secret_extension (setup : Setup) {names : List NamespacedName} {w₀ : World}
    (hscripts : Scripted w₀) :
    RelyGuarantee.Extension (system setup) (clearedRules names) Next (Silent setup) firstPhase Done
      (NotBothMachines names) (fun w => Lifecycle names w ∧ Full names w₀ w) (Secrets names w₀)
      (fun t w q => LifecycleThread names t w q ∧ FullThread names w₀ t w q) (SecretThread w₀) where
  start := by
    intro w busy t _ _ _ _ hstart
    cases t with
    | byoMachine k => exact secretThread_machine ⟨fun m hm => (by cases hm), trivial⟩
    | agent k => exact secretThread_agent
    | k8sInstallerConfig k => cases hstart.2
    | byoHost k => exact secretThread_host trivial
  call := by
    intro w t q o c q' hG hS hold hH hrule hnext _ _
    obtain ⟨hS', hH', -⟩ := SecretThread.call hG.1 hS hscripts hold.1 hold.2 hH hrule.2 hnext
    exact ⟨hS', hH'⟩
  others := by
    intro w t q o c q' t' q₁ hG hS hold hH hrule hnext hne hcompat hold₁ hH₁
    exact (SecretThread.call hG.1 hS hscripts hold.1 hold.2 hH hrule.2 hnext).2.2 t' q₁ hne hcompat
      hold₁.1 hH₁
  silent := by
    intro w t q q' _ _ _ hH hstep
    cases hstep with
    | @machine k q q' h => exact secretThread_machine ((hH.machine k q rfl rfl).step h)
    | @config k q q' h => cases hH.config k rfl
    | agent h => exact secretThread_agent
  finish := fun _ _ _ _ _ => secretThread_none _
  env := by
    intro w busy a w' hG hS ha henv
    have hstep := SecretStep.env ha henv
    refine ⟨hS.step hstep hG.1, fun t q hold hH => hH.step_others hold.1 hstep ?_⟩
    exact .of_hosts_eq SetKept.refl (envStep_hosts henv)

theorem secret_relyGuarantee (setup : Setup) {names : List NamespacedName}
    (hdistinct : DistinctLabels names) {w₀ : World} (hscripts : Scripted w₀) :
    RelyGuarantee (system setup) (clearedRules names) Next (Silent setup) firstPhase Done
      (NotBothMachines names)
      (fun w => (Lifecycle names w ∧ Full names w₀ w) ∧ Secrets names w₀ w)
      (fun t w q => (LifecycleThread names t w q ∧ FullThread names w₀ t w q) ∧
        SecretThread w₀ t w q) := by
  have hfull : RelyGuarantee (system setup) (clearedRules names) Next (Silent setup) firstPhase Done
      (NotBothMachines names) (fun w => Lifecycle names w ∧ Full names w₀ w)
      (fun t w q => LifecycleThread names t w q ∧ FullThread names w₀ t w q) :=
    (full_relyGuarantee setup hdistinct w₀).restrict (fun h => h.1) (fun h => h.1) (fun h => h)
  exact hfull.extend (secret_extension setup hscripts)

/-! ## Whole runs -/

theorem secrets_of_pristine {w : World} (hw : Pristine w) (hscripts : Scripted w)
    (names : List NamespacedName) : Secrets names w w := by
  have hnone : ∀ {key h r}, w.hosts.lookup key = some h → ¬h.uninstallationSecret = some r :=
    fun hh hr => by cases (hw.bare _ _ hh).2.2.2.symm.trans hr
  refine ⟨hscripts.keyed, fun _ _ hc _ => hc, fun _ m hm => ⟨m, hm, rfl, rfl⟩, fun key h hh => ?_,
    fun _ _ _ _ _ _ hh _ hr => absurd hr (hnone hh),
    fun k _ _ => ⟨hscripts.stored k, fun _ _ _ hh hr => absurd hr (hnone hh)⟩⟩
  exact ⟨fun _ hr => absurd hr (hnone hh),
    fun _ _ hsome => absurd (hw.bare key h hh).2.2.2 hsome, fun _ hr => absurd hr (hnone hh)⟩

/-- When hosts are picked whose reference is cleared and attachments do not fail half-way, hosts that
have a machine reference or are marked reference secrets that exist, in every state of every run. -/
theorem uninstall_secrets_exist (setup : Setup) {names : List NamespacedName}
    (hdistinct : DistinctLabels names) {w : World} (hw : Pristine w) (hscripts : Scripted w)
    {ls : List (Label Outcome Tid EnvAction)} {σ : Pool Call Resp World Tid}
    (hrun : (system setup).Steps (clearedRules names) (.init w) ls σ) : NoneDangling σ.store := by
  have hM := secret_relyGuarantee setup hdistinct hscripts
  have hstart : (Lifecycle names w ∧ Full names w w) ∧ Secrets names w w :=
    ⟨⟨hw.lifecycle names, full_of_pristine hw names⟩, secrets_of_pristine hw hscripts names⟩
  have hthreads : ∀ t, (LifecycleThread names t w none ∧ FullThread names w t w none) ∧
      SecretThread w t w none :=
    fun t => ⟨⟨lifecycleThread_none t, fullThread_of_pristine hw names t⟩, secretThread_none t⟩
  obtain ⟨⟨hG, -⟩, hS⟩ := hM.holds hstart hthreads hrun
  intro key h r hh hr hwhy
  refine (hS.each key h hh).present r hr ?_
  rcases hwhy with href | hmarked
  · exact .inr href
  · exact .inl ((hG.each key h hh).marked hmarked)

/-! ## A cluster with scripts, and a run that leaves a dangling reference -/

/-- The secret with the uninstall script of a machine. -/
def scriptSecret (machine : String) : Secret :=
  { ns := "default", name := "uninstall-" ++ machine
    data := GoMap.insert none "uninstall" "rm -rf /opt/cni" }

/-- A reference to a secret. -/
def scriptRef (name : String) : ObjectReference :=
  { kind := "Secret", ns := "default", name := name }

/-- The configuration of a machine, with its secrets. -/
def readyConfig (machine : String) : InstallerConfig :=
  { apiVersion := groupVersion, kind := "K8sInstallerConfig", ns := "default", name := machine
    ready := .value true
    installationSecret := .value (scriptRef ("install-" ++ machine))
    uninstallationSecret := .value (scriptRef ("uninstall-" ++ machine)) }

/-- The cluster in which the configurations of the machines are ready. -/
def scriptedWorld (hosts machines : List String) : World :=
  { Small.world hosts machines with
    installerConfigs := machines.foldr (fun m l => l.insert (readyConfig m).key (readyConfig m)) ∅
    secrets := machines.foldr (fun m l => l.insert (scriptSecret m).key (scriptSecret m)) ∅ }

/-- A machine of the scripted cluster is offered its own uninstall secret. -/
theorem offers_scripted {hosts machines : List String} {k : NamespacedName} {r : ObjectReference}
    (h : Offers (scriptedWorld hosts machines) k r) :
    ∃ name ∈ machines, k = Small.key name ∧ r = scriptRef ("uninstall-" ++ name) := by
  obtain ⟨m, ref, config, hm, href, hc, -, hr⟩ := h
  obtain ⟨name, -, rfl, rfl⟩ := lookup_foldr Small.key Small.machine hm
  obtain ⟨name', hname', hkey, rfl⟩ :=
    lookup_foldr (fun n => (readyConfig n).key) readyConfig hc
  have heq : name = name' := congrArg InstallerKey.name hkey
  cases hr
  exact ⟨name, heq ▸ hname', rfl, by rw [heq]⟩

theorem scripted_scriptedWorld (hosts machines : List String) :
    Scripted (scriptedWorld hosts machines) where
  keyed := by
    intro k s hs
    obtain ⟨name, -, rfl, rfl⟩ := lookup_foldr (fun n => (scriptSecret n).key) scriptSecret hs
    rfl
  stored := by
    intro k r hoffers
    obtain ⟨name, hname, -, rfl⟩ := offers_scripted hoffers
    exact lookup_foldr_isSome (fun n => (scriptSecret n).key) scriptSecret hname
  distinct := by
    intro k r k' r' hoffers hoffers' hkey
    obtain ⟨name, -, rfl, rfl⟩ := offers_scripted hoffers
    obtain ⟨name', -, rfl, rfl⟩ := offers_scripted hoffers'
    have hname : "uninstall-" ++ name = "uninstall-" ++ name' := congrArg NamespacedName.name hkey
    rw [(String.append_right_inj _).1 hname]

theorem pristine_scriptedWorld (hosts machines : List String) :
    Pristine (scriptedWorld hosts machines) :=
  have h := small_pristine hosts machines
  ⟨h.fresh, h.hosts, h.machines, h.free, h.bare⟩

/-- The host has a machine reference and references an uninstall secret; does the secret exist? -/
def referencesSecret (w : World) (host : NamespacedName) (stored : Bool) : Bool :=
  (w.hosts.lookup host).any fun h => h.machineRef.isSome &&
    h.uninstallationSecret.any fun r => (w.secrets.lookup (secretKey r)).isSome = stored

/-- The life of `m1` on `h1` until the host is back in the pool, with the outcome `o` of the request
that clears the reference, and then the reconcile of `m2` that takes the host again. -/
def reuseAfter (o : Outcome) : List (Label Outcome Tid EnvAction) :=
  Small.calls (.byoMachine (Small.key "m1")) 19 ++
    [.env (.deleteByoMachine (Small.key "m1"))] ++
    Small.calls (.byoMachine (Small.key "m1")) 7 ++
    Small.calls (.agent (Small.key "h1")) 11 ++
    Small.calls (.byoHost (Small.key "h1")) 3 ++ [.call (.byoHost (Small.key "h1")) o] ++
    Small.calls (.byoMachine (Small.key "m2")) 17

/-- A host is reused after its reference was cleared, and references the secret of its new
machine. -/
theorem uninstall_secrets_exist_reused : ∃ σ,
    (system {}).Steps (clearedRules [Small.key "m1", Small.key "m2"])
      (.init (scriptedWorld ["h1"] ["m1", "m2"])) (reuseAfter {}) σ ∧
      referencesSecret σ.store (Small.key "h1") true = true ∧ NoneDangling σ.store := by
  obtain ⟨σ, hsteps, hend⟩ := (system {}).exists_steps
    (clearedRules [Small.key "m1", Small.key "m2"]) (reuseAfter {})
    (fun σ => referencesSecret σ.store (Small.key "h1") true)
    (σ := .init (scriptedWorld ["h1"] ["m1", "m2"])) (by decide +kernel)
  exact ⟨σ, hsteps, hend, uninstall_secrets_exist {} (by decide)
    (pristine_scriptedWorld ["h1"] ["m1", "m2"]) (scripted_scriptedWorld ["h1"] ["m1", "m2"]) hsteps⟩

/-- When the request that clears the reference fails, the host is taken with a reference to a secret
that is gone; the reconcile of the host has ended. -/
theorem reused_with_dangling : ∃ σ,
    (system {}).Steps (reuseRules [Small.key "m1", Small.key "m2"])
      (.init (scriptedWorld ["h1"] ["m1", "m2"])) (reuseAfter { writeOk := false }) σ ∧
      σ.busy (.byoHost (Small.key "h1")) = false ∧ ¬NoneDangling σ.store := by
  obtain ⟨σ, hsteps, hend⟩ := (system {}).exists_steps
    (reuseRules [Small.key "m1", Small.key "m2"]) (reuseAfter { writeOk := false })
    (fun σ => !σ.busy (.byoHost (Small.key "h1")) &&
      referencesSecret σ.store (Small.key "h1") false)
    (σ := .init (scriptedWorld ["h1"] ["m1", "m2"])) (by decide +kernel)
  rw [Bool.and_eq_true, Bool.not_eq_true'] at hend
  obtain ⟨hidle, hrefs⟩ := hend
  refine ⟨σ, hsteps, hidle, fun hnone => ?_⟩
  simp only [referencesSecret, Option.any_eq_true, Bool.and_eq_true, decide_eq_true_eq] at hrefs
  obtain ⟨h, hh, href, r, hr, hgone⟩ := hrefs
  have hexists := hnone _ h r hh hr (.inl (Option.isSome_iff_ne_none.1 href))
  rw [SecretExists, hgone] at hexists
  exact Bool.false_ne_true hexists

end Byoh.Properties
