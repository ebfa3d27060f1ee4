import Byoh.Model.K8sInstallerConfigController
import Byoh.Protocol.HostEdits

/-!
# The phases of the K8sInstallerConfig and of the ByoHost controller

A K8sInstallerConfig reconcile reads its configuration, the machine and the cluster, stores two
secrets and patches the configuration. A ByoHost reconcile reads its host, deletes the uninstall
secret and clears the reference.
-/

set_option autoImplicit false

namespace Byoh.Protocol

open Byoh.Foundation Byoh.Model

/-! ## K8sInstallerConfig -/

/-- The two secrets of a configuration. -/
inductive SecretKind where
  | install
  | uninstall
  deriving DecidableEq, Repr

open K8sInstallerConfigReconciler in
/-- The secret that is stored. -/
def SecretKind.secret (kind : SecretKind) (config : InstallerConfig) (cluster : Cluster)
    (i : Installer.K8sInstaller) : Secret :=
  match kind with
  | .install => installSecret config cluster i.install
  | .uninstall => uninstallSecret config cluster i.uninstall

/-- The status that a reconcile leaves in memory: as it was read, with the install secret, or
ready. -/
inductive ConfigLeave where
  | unchanged
  | installStored
  | ready
  deriving DecidableEq, Repr

open K8sInstallerConfigReconciler in
/-- The configuration in memory; reconciles also change finalizers. -/
def ConfigLeaves (c : InstallerConfig) : ConfigLeave → InstallerConfig → Prop
  | .unchanged, c' => ∃ finalizers, c' = { c with finalizers := finalizers }
  | .installStored, c' => ∃ finalizers, c' = { c with
      finalizers := finalizers, installationSecret := .value (installSecretRef c) }
  | .ready, c' => ∃ finalizers, c' = { c with
      finalizers := finalizers, installationSecret := .value (installSecretRef c)
      uninstallationSecret := .value (uninstallSecretRef c), ready := .value true }

/-- The machine waits for this configuration, and the configuration is not ready. -/
def WaitsFor (m : ByoMachine) (c : InstallerConfig) : Prop :=
  m.conditions.getReason .byoHostReady = some .installationSecretNotAvailable ∧
    c.ready ≠ .value true ∧ c.deletionTimestamp = false

/-- How far a reconcile of a configuration has come. -/
inductive ConfigPhase where
  | start
  | owner (c : InstallerConfig)
  | body (c : InstallerConfig) (m : Option ByoMachine)
  | create (c : InstallerConfig) (cluster : Cluster) (i : Installer.K8sInstaller)
      (kind : SecretKind)
  | update (c : InstallerConfig) (cluster : Cluster) (i : Installer.K8sInstaller)
      (kind : SecretKind)
  | stored (c : InstallerConfig)
  | finish (c : InstallerConfig) (how : ConfigLeave) (after : InstallerConfig) (part : HostPart)
  | done

/-- The phase after a secret was stored. -/
def afterStore (c : InstallerConfig) (cluster : Cluster) (i : Installer.K8sInstaller) :
    SecretKind → ConfigPhase
  | .install => .create c cluster i .uninstall
  | .uninstall => .stored c

/-- The status in memory when a secret could not be stored. -/
def failedStore : SecretKind → ConfigLeave
  | .install => .unchanged
  | .uninstall => .installStored

/-- The phase after an attempt to create a secret. -/
def afterCreate (c₀ : InstallerConfig) (cluster : Cluster) (i : Installer.K8sInstaller)
    (kind : SecretKind) (c : InstallerConfig) : Option ApiError → ConfigPhase
  | none => afterStore c₀ cluster i kind
  | some .alreadyExists => .update c₀ cluster i kind
  | some _ => .finish c₀ (failedStore kind) c .spec

/-- The phase after an attempt to update a secret. -/
def afterUpdate (c₀ : InstallerConfig) (cluster : Cluster) (i : Installer.K8sInstaller)
    (kind : SecretKind) (c : InstallerConfig) : Option ApiError → ConfigPhase
  | none => afterStore c₀ cluster i kind
  | some _ => .finish c₀ (failedStore kind) c .spec

/-- One call of the reconcile of the configuration `k`. -/
inductive ConfigNext (k : NamespacedName) :
    ConfigPhase → (c : Call) → Resp c → ConfigPhase → Prop
  | read {c : InstallerConfig} :
      ConfigNext k .start (.getInstallerConfig (K8sInstallerConfigReconciler.configKey k)) (.ok c)
        (.owner c)
  | readFailed {key : InstallerKey} {e : ApiError} :
      ConfigNext k .start (.getInstallerConfig key) (.error e) .done
  | owner {c : InstallerConfig} {name : String} {m : ByoMachine}
      (hname : findOwner "ByoMachine" group c.ownerReferences = .ok (some name)) :
      ConfigNext k (.owner c) (.getByoMachine ⟨c.ns, name⟩) (.ok m) (.body c (some m))
  | ownerNotFound {c : InstallerConfig} {key : NamespacedName} {e : ApiError} :
      ConfigNext k (.owner c) (.getByoMachine key) (.error e) (.body c none)
  | ownerFailed {c : InstallerConfig} {key : NamespacedName} {e : ApiError} :
      ConfigNext k (.owner c) (.getByoMachine key) (.error e) .done
  | cluster {c : InstallerConfig} {m : Option ByoMachine} {key : NamespacedName}
      {r : Except ApiError Cluster} : ConfigNext k (.body c m) (.getCluster key) r (.body c m)
  | created {c : InstallerConfig} {cluster : Cluster} {i : Installer.K8sInstaller}
      {kind : SecretKind} :
      ConfigNext k (.create c cluster i kind) (.createSecret (kind.secret c cluster i)) none
        (afterStore c cluster i kind)
  | exists_ {c : InstallerConfig} {cluster : Cluster} {i : Installer.K8sInstaller}
      {kind : SecretKind} :
      ConfigNext k (.create c cluster i kind) (.createSecret (kind.secret c cluster i))
        (some .alreadyExists) (.update c cluster i kind)
  | createFailed {c c' : InstallerConfig} {cluster : Cluster} {i : Installer.K8sInstaller}
      {kind : SecretKind} {e : ApiError} (hc' : ConfigLeaves c (failedStore kind) c') :
      ConfigNext k (.create c cluster i kind) (.createSecret (kind.secret c cluster i)) (some e)
        (.finish c (failedStore kind) c' .spec)
  | updated {c : InstallerConfig} {cluster : Cluster} {i : Installer.K8sInstaller}
      {kind : SecretKind} :
      ConfigNext k (.update c cluster i kind) (.updateSecret (kind.secret c cluster i)) none
        (afterStore c cluster i kind)
  | updateFailed {c c' : InstallerConfig} {cluster : Cluster} {i : Installer.K8sInstaller}
      {kind : SecretKind} {e : ApiError} (hc' : ConfigLeaves c (failedStore kind) c') :
      ConfigNext k (.update c cluster i kind) (.updateSecret (kind.secret c cluster i)) (some e)
        (.finish c (failedStore kind) c' .spec)
  | specWritten {c c' : InstallerConfig} {how : ConfigLeave} {r : Option ApiError}
      {key : InstallerKey} (hkey : key = c.key) :
      ConfigNext k (.finish c how c' .spec) (.patchInstallerConfig key c c') r
        (.finish c how c' .status)
  | statusWritten {c c' : InstallerConfig} {how : ConfigLeave} {r : Option ApiError}
      {key : InstallerKey} (hkey : key = c.key) :
      ConfigNext k (.finish c how c' .status) (.patchInstallerConfigStatus key c c') r .done

/-- What a reconcile of a configuration does between calls. -/
inductive ConfigSilent : ConfigPhase → ConfigPhase → Prop
  | noOwner {c : InstallerConfig} : ConfigSilent (.owner c) (.body c none)
  | badOwner {c : InstallerConfig} : ConfigSilent (.owner c) .done
  | leave {c c' : InstallerConfig} {m : Option ByoMachine} (hc' : ConfigLeaves c .unchanged c') :
      ConfigSilent (.body c m) (.finish c .unchanged c' .spec)
  | generate {c : InstallerConfig} {m : ByoMachine} {cluster : Cluster}
      {i : Installer.K8sInstaller} (hwait : WaitsFor m c) :
      ConfigSilent (.body c (some m)) (.create c cluster i .install)
  | ready {c c' : InstallerConfig} (hc' : ConfigLeaves c .ready c') :
      ConfigSilent (.stored c) (.finish c .ready c' .spec)
  | skipSpec {c c' : InstallerConfig} {how : ConfigLeave} :
      ConfigSilent (.finish c how c' .spec) (.finish c how c' .status)
  | skipStatus {c c' : InstallerConfig} {how : ConfigLeave} :
      ConfigSilent (.finish c how c' .status) .done

section ConfigFollows

open K8sInstallerConfigReconciler

variable {k : NamespacedName} {c₀ c : InstallerConfig}

/-- The reconcile is over and the configuration in memory is about to be patched. -/
def AboutToPatch (c₀ c : InstallerConfig) (q : ConfigPhase) : Prop :=
  ∃ how, ConfigLeaves c₀ how c ∧ q = .finish c₀ how c .spec

/-- A part of the reconcile that ended with an error or a panic is about to patch. -/
def ConfigExits {α : Type} (c₀ : InstallerConfig)
    (P : α → InstallerConfig → ConfigPhase → Prop) :
    Exit Err α → InstallerConfig → ConfigPhase → Prop
  | .ok a, c, q => P a c q
  | .err _, c, q => AboutToPatch c₀ c q
  | .panic _, c, q => AboutToPatch c₀ c q

/-- Composition: an error of the first part ends the reconcile as it ended there. -/
theorem ConfigExits.bind {α β : Type} {P : α → InstallerConfig → ConfigPhase → Prop}
    {P' : β → InstallerConfig → ConfigPhase → Prop} {x : ConfigM α} {f : α → ConfigM β}
    {q : ConfigPhase} (hx : GoM.Follows (ConfigNext k) ConfigSilent (ConfigExits c₀ P) x c q)
    (hf : ∀ a c' q', P a c' q' →
      GoM.Follows (ConfigNext k) ConfigSilent (ConfigExits c₀ P') (f a) c' q') :
    GoM.Follows (ConfigNext k) ConfigSilent (ConfigExits c₀ P') (x >>= f) c q := by
  refine GoM.Follows.bind (hx.mono ?_)
  intro e c' q' he
  cases e with
  | ok a => exact hf a c' q' he
  | err e => exact he
  | panic m => exact he

/-- A secret is stored; if that fails, the configuration is left as the failed store leaves it. -/
theorem storeSecret_exits (what : String) (config : InstallerConfig) (cluster : Cluster)
    (i : Installer.K8sInstaller) (kind : SecretKind) (hc : ConfigLeaves c₀ (failedStore kind) c) :
    GoM.Follows (ConfigNext k) ConfigSilent
      (ConfigExits c₀ fun _ c' q => c' = c ∧ q = afterStore c₀ cluster i kind)
      (storeSecret what config (kind.secret c₀ cluster i)) c (.create c₀ cluster i kind) := by
  refine .lift_bind (.call (afterCreate c₀ cluster i kind c) (fun r => ?_) fun r => .ret ?_)
  · rcases r with _ | e
    · exact .created
    · cases e
      case alreadyExists => exact .exists_
      all_goals exact .createFailed hc
  rcases r with _ | e
  · exact .pure ⟨rfl, rfl⟩
  cases e
  case alreadyExists =>
    refine .lift_bind (.call (afterUpdate c₀ cluster i kind c) (fun r => ?_) fun r => .ret ?_)
    · rcases r with _ | e
      · exact .updated
      · exact .updateFailed hc
    · rcases r with _ | e
      · exact .pure ⟨rfl, rfl⟩
      · exact .throw ⟨_, hc, rfl⟩
  all_goals exact .throw ⟨_, hc, rfl⟩

/-- `storeInstallationData`, called on the configuration with any finalizers. -/
theorem storeInstallationData_exits (cluster : Cluster) (i : Installer.K8sInstaller)
    (hc : ConfigLeaves c₀ .unchanged c) :
    GoM.Follows (ConfigNext k) ConfigSilent
      (ConfigExits c₀ fun _ => AboutToPatch c₀)
      (storeInstallationData cluster i.install i.uninstall) c (.create c₀ cluster i .install) := by
  obtain ⟨finalizers, rfl⟩ := hc
  refine .get_bind (ConfigExits.bind
    (storeSecret_exits _ _ cluster i .install ⟨finalizers, rfl⟩) ?_)
  rintro _ c' q ⟨hc', rfl⟩
  subst c'
  refine .modify_bind (ConfigExits.bind
    (storeSecret_exits _ _ cluster i .uninstall ⟨finalizers, rfl⟩) ?_)
  rintro _ c' q ⟨hc', rfl⟩
  subst c'
  exact .modify_bind (.move (.ready ⟨finalizers, rfl⟩) (.modify ⟨.ready, ⟨finalizers, rfl⟩, rfl⟩))

/-- A reconcile that changes finalizers only. -/
theorem config_pure_exits {m : Option ByoMachine} (hc : ConfigLeaves c₀ .unchanged c) (r : Result) :
    GoM.Follows (ConfigNext k) ConfigSilent
      (ConfigExits c₀ fun _ => AboutToPatch c₀) (pure r) c (.body c₀ m) :=
  .move (.leave hc) (.pure ⟨_, hc, rfl⟩)

/-- Looking up the cluster stays in the phase. -/
theorem config_cluster_follows (m : ByoMachine) :
    Prog.Follows (ConfigNext k) ConfigSilent (fun _ q => q = .body c₀ (some m))
      (getClusterFromMetadata m) (.body c₀ (some m)) := by
  unfold getClusterFromMetadata
  split
  · exact .ret rfl
  · exact .ret rfl
  · refine .perform _ (fun _ => .cluster) fun r => ?_
    cases r <;> exact .ret rfl

/-- The body of the reconcile ends with the configuration about to be patched. -/
theorem reconcileConfig_exits (skip : Bool) (m : Option ByoMachine) :
    GoM.Follows (ConfigNext k) ConfigSilent
      (ConfigExits c₀ fun _ => AboutToPatch c₀)
      (reconcileConfig skip m) c₀ (.body c₀ m) := by
  refine .modify_bind (.get_bind ?_)
  dsimp only
  split
  · exact .modify_bind (config_pure_exits ⟨_, rfl⟩ _)
  rename_i hdeleted
  cases m with
  | none => exact config_pure_exits ⟨_, rfl⟩ _
  | some m =>
  refine .lift_bind ((config_cluster_follows m).mono ?_)
  rintro r q rfl
  cases r with
  | error e => exact .move (.leave ⟨_, rfl⟩) (.throw ⟨.unchanged, ⟨_, rfl⟩, rfl⟩)
  | ok cluster =>
  simp only [GoM.ofExcept_ok, GoM.pure_bind]
  split
  · exact config_pure_exits ⟨_, rfl⟩ _
  split
  · exact config_pure_exits ⟨_, rfl⟩ _
  rename_i hreason
  split
  · exact config_pure_exits ⟨_, rfl⟩ _
  rename_i hready
  refine .get_bind ?_
  dsimp only
  cases hi : Installer.newInstaller m.hostInfo.osImage m.hostInfo.architecture
      ((c₀.annotations.get .k8sVersion).getD "") c₀.bundleRepo skip with
  | err e => exact .move (.leave ⟨_, rfl⟩) (.throw ⟨.unchanged, ⟨_, rfl⟩, rfl⟩)
  | panic msg => exact .move (.leave ⟨_, rfl⟩) (.panic ⟨.unchanged, ⟨_, rfl⟩, rfl⟩)
  | ok i =>
    have hwait : WaitsFor m c₀ := ⟨by simpa using hreason, hready, by simpa using hdeleted⟩
    refine .move (@ConfigSilent.generate c₀ m cluster i hwait) ?_
    simp only [ofExit, GoM.pure_bind]
    refine ConfigExits.bind (storeInstallationData_exits cluster i ⟨_, rfl⟩) ?_
    exact fun _ _ _ hq => .pure hq

/-- The deferred patch of the configuration. -/
theorem patchInstallerConfig_follows (how : ConfigLeave) {c' : InstallerConfig}
    (hkey : c'.key = c₀.key) :
    Prog.Follows (ConfigNext k) ConfigSilent (fun _ q => q = .done)
      (patchInstallerConfig c₀ c') (.finish c₀ how c' .spec) := by
  have hstatus : ∀ f : Option ApiError → Option Err, Prog.Follows (ConfigNext k) ConfigSilent
      (fun _ q => q = .done)
      ((sendIf (c₀.statusChanged c')
        (call (.patchInstallerConfigStatus c'.key c₀ c'))).bind fun e₃ => .ret (f e₃))
      (.finish c₀ how c' .status) := by
    intro f
    cases hc : c₀.statusChanged c' with
    | false => exact .silent .skipStatus (.ret rfl)
    | true => exact .perform _ (fun _ => .statusWritten hkey) fun _ => .ret rfl
  by_cases hc : c₀.finalizers = c'.finalizers
  · simp only [patchInstallerConfig, hc, ne_eq, not_true_eq_false, decide_false, sendIf,
      Bool.false_eq_true, if_false, Prog.bind_eq, Prog.pure_eq, Prog.ret_bind]
    exact .silent .skipSpec (hstatus _)
  · simp only [patchInstallerConfig, hc, ne_eq, not_false_eq_true, decide_true, Prog.bind_eq,
      Prog.pure_eq]
    exact .perform _ (fun _ => .specWritten hkey) fun _ => hstatus _

theorem findOwner_error {kind ownerGroup : String} {refs : List OwnerReference} {e : Err}
    (h : findOwner kind ownerGroup refs = .error e) : e.isNotFound = false := by
  induction refs with
  | nil => cases h
  | cons ref refs ih =>
    simp only [findOwner] at h
    split at h
    · rename_i e' he'
      cases h
      simp only [parseGroup] at he'
      split at he'
      · cases he'
      · split at he' <;> cases he'
        rfl
    · split at h
      · cases h
      · exact ih h

/-- The owner decides the next phase: an owner that is not found is no owner, other errors end the
reconcile. -/
theorem getOwnerByoMachine_follows (c : InstallerConfig) :
    Prog.Follows (ConfigNext k) ConfigSilent
      (fun r q => match r with
        | .ok m => q = .body c m
        | .error e => if e.isNotFound then q = .body c none else q = .done)
      (getOwnerByoMachine c) (.owner c) := by
  unfold getOwnerByoMachine
  split
  · rename_i e he
    exact .silent .badOwner (.ret (by simp [findOwner_error he]))
  · exact .silent .noOwner (.ret rfl)
  · rename_i name hname
    refine .perform (fun r => match r with
      | .ok m => .body c (some m)
      | .error e => if e = .notFound then .body c none else .done) (fun r => ?_) fun r => ?_
    · rcases r with e | m
      · by_cases he : e = .notFound
        · simpa [he] using .ownerNotFound
        · simpa [he] using .ownerFailed
      · exact .owner hname
    · rcases r with e | m
      · refine .ret ?_
        by_cases he : e = .notFound <;> simp [Err.isNotFound, he]
      · exact .ret rfl

theorem ConfigLeaves.key {c' : InstallerConfig} {how : ConfigLeave} (h : ConfigLeaves c how c') :
    c'.key = c.key := by
  cases how <;> (obtain ⟨_, rfl⟩ := h; rfl)

/-- Every reconcile of the K8sInstallerConfig controller follows the phases. -/
theorem configReconcile_follows (skip : Bool) (k : NamespacedName) :
    Prog.Follows (ConfigNext k) ConfigSilent (fun _ q => q = .done) (reconcile skip k) .start := by
  refine .perform (fun r => match r with
    | .ok c => .owner c
    | .error _ => .done) (fun r => ?_) fun r => ?_
  · rcases r with e | c
    · exact .readFailed
    · exact .read
  rcases r with e | c
  · cases e <;> exact .ret rfl
  have hrun : ∀ m, Prog.Follows (ConfigNext k) ConfigSilent (fun _ q => q = .done)
      ((GoM.deferred (reconcileConfig skip m) (fun c' => patchInstallerConfig c c') c).bind
        fun r => .ret r.1) (.body c m) := by
    intro m
    refine .bind (.bind (Prog.Follows.mono (reconcileConfig_exits skip m) ?_))
    rintro ⟨exit, c'⟩ q hq
    obtain ⟨how, hleave, rfl⟩ : AboutToPatch c c' q := by cases exit <;> exact hq
    refine .bind ((patchInstallerConfig_follows how hleave.key).mono ?_)
    rintro e q rfl
    dsimp only
    split <;> exact .ret (.ret rfl)
  refine .bind ((getOwnerByoMachine_follows c).mono ?_)
  rintro (e | m) q hq
  · dsimp only at hq ⊢
    split
    · rw [if_pos ‹_›] at hq
      exact hq ▸ hrun none
    · rw [if_neg ‹_›] at hq
      exact .ret hq
  · exact hq ▸ hrun m

end ConfigFollows

/-! ## ByoHost -/

/-- How far a reconcile of a host by the manager has come. -/
inductive HostPhase where
  | start
  | found (h : ByoHost) (ref : ObjectReference)
  | delete (h : ByoHost) (ref : ObjectReference) (secret : Secret)
  | clear (h : ByoHost) (ref : ObjectReference)
  | done

open ByoHostReconciler in
/-- One call of the reconcile of the host `k`. -/
inductive HostNext (k : NamespacedName) : HostPhase → (c : Call) → Resp c → HostPhase → Prop
  | read {h : ByoHost} {ref : ObjectReference} (href : staleReference h = some ref) :
      HostNext k .start (.getByoHost k) (.ok h) (.found h ref)
  | nothing {r : Except ApiError ByoHost} : HostNext k .start (.getByoHost k) r .done
  | gone {h : ByoHost} {ref : ObjectReference} :
      HostNext k (.found h ref) (.getSecret ⟨ref.ns, ref.name⟩) (.error .notFound) (.clear h ref)
  | present {h : ByoHost} {ref : ObjectReference} {secret : Secret} :
      HostNext k (.found h ref) (.getSecret ⟨ref.ns, ref.name⟩) (.ok secret)
        (.delete h ref secret)
  | getFailed {h : ByoHost} {ref : ObjectReference} {key : NamespacedName} {e : ApiError} :
      HostNext k (.found h ref) (.getSecret key) (.error e) .done
  | deleted {h : ByoHost} {ref : ObjectReference} {secret : Secret} {r : Option ApiError} :
      HostNext k (.delete h ref secret) (.deleteSecret secret.key) r (.clear h ref)
  | deleteFailed {h : ByoHost} {ref : ObjectReference} {secret : Secret} {e : ApiError} :
      HostNext k (.delete h ref secret) (.deleteSecret secret.key) (some e) .done
  | cleared {h : ByoHost} {ref : ObjectReference} {r : Option ApiError} :
      HostNext k (.clear h ref) (.patchByoHost h.key h (clearedHost h)) r .done

section HostFollows

open ByoHostReconciler

variable {k : NamespacedName} {h : ByoHost} {ref : ObjectReference}

/-- The reference is cleared by one patch, which ends the reconcile. -/
theorem clearReference_follows (href : h.uninstallationSecret = some ref) :
    Prog.Follows (HostNext k) (fun _ _ => False) (fun _ q => q = .done) (clearReference h)
      (.clear h ref) := by
  have hchanged : h.changed (clearedHost h) = true := by
    simp [ByoHost.changed, clearedHost, href]
  have hstatus : h.statusChanged (clearedHost h) = false := by
    simp [ByoHost.statusChanged, clearedHost]
  simp only [clearReference, patchByoHost, hchanged, hstatus]
  simp only [clearedHost, ne_eq, not_true_eq_false, decide_false, sendIf, Bool.false_eq_true,
    if_false, if_true, Prog.bind_eq, Prog.pure_eq, Prog.ret_bind]
  refine .perform _ (fun _ => .cleared) fun r => ?_
  cases r <;> exact .ret rfl

/-- A stale reference is that of a host without a machine and without the cleanup mark. -/
theorem staleReference_eq_some (href : staleReference h = some ref) :
    h.uninstallationSecret = some ref ∧ h.machineRef = none ∧
      h.carries .hostCleanup = false := by
  simp only [staleReference, Bool.and_eq_true, Option.isNone_iff_eq_none, Bool.not_eq_true'] at href
  split at href
  · rename_i hc
    exact ⟨href, hc.1, hc.2⟩
  · cases href

/-- The phase after a read of the secret. -/
def afterGet (h : ByoHost) (ref : ObjectReference) : Except ApiError Secret → HostPhase
  | .error .notFound => .clear h ref
  | .error _ => .done
  | .ok secret => .delete h ref secret

/-- The phase after an attempt to delete the secret. -/
def afterDelete (h : ByoHost) (ref : ObjectReference) : Option ApiError → HostPhase
  | none | some .notFound => .clear h ref
  | some _ => .done

/-- The secret is deleted before the reference to it is cleared. -/
theorem deleteUninstallSecret_follows (href : h.uninstallationSecret = some ref) :
    Prog.Follows (HostNext k) (fun _ _ => False) (fun _ q => q = .done)
      (deleteUninstallSecret h ref) (.found h ref) := by
  have hclear := clearReference_follows (k := k) href
  refine .perform (afterGet h ref) (fun r => ?_) fun r => ?_
  · rcases r with e | secret
    · cases e
      case notFound => exact .gone
      all_goals exact .getFailed
    · exact .present
  rcases r with e | secret
  · cases e
    case notFound => exact hclear
    all_goals exact .ret rfl
  refine .perform (afterDelete h ref) (fun r => ?_) fun r => ?_
  · rcases r with _ | e
    · exact .deleted
    · cases e
      case notFound => exact .deleted
      all_goals exact .deleteFailed
  rcases r with _ | e
  · exact hclear
  · cases e
    case notFound => exact hclear
    all_goals exact .ret rfl

/-- The phase after the host was read. -/
def afterHost : Except ApiError ByoHost → HostPhase
  | .error _ => .done
  | .ok h =>
      match staleReference h with
      | none => .done
      | some ref => .found h ref

/-- Every reconcile of the ByoHost controller follows the phases. -/
theorem hostReconcile_follows (k : NamespacedName) :
    Prog.Follows (HostNext k) (fun _ _ => False) (fun _ q => q = .done) (reconcile k) .start := by
  refine .perform afterHost (fun r => ?_) fun r => ?_
  · rcases r with e | h
    · exact .nothing
    · cases hstale : staleReference h with
      | none => simpa only [afterHost, hstale] using .nothing
      | some ref => simpa only [afterHost, hstale] using .read hstale
  rcases r with e | h
  · cases e <;> exact .ret rfl
  cases hstale : staleReference h with
  | none =>
    simp only [afterHost, hstale]
    exact .ret rfl
  | some ref =>
    simp only [afterHost, hstale]
    exact deleteUninstallSecret_follows (staleReference_eq_some hstale).1

end HostFollows

end Byoh.Protocol
