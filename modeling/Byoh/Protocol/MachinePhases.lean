import Byoh.Protocol.HostEdits

/-!
# The phases of a ByoMachine reconcile

`reconcile` looks its objects up, fetches the attached host, works on it, and patches the machine.
A phase says how far it has come and keeps what later writes depend on: the objects as they were
read (`Scope`), the host in memory, and the edit that is being written. `MachineNext` is what one
call can do in a phase, `MachineSilent` what happens between calls.

`reconcile_follows` is the only place where the program is taken apart. Everything that is proved
about runs of the controller uses the phases.
-/

set_option autoImplicit false

namespace Byoh.Protocol

open Byoh.Foundation Byoh.Model Byoh.Model.ByoMachineReconciler

/-! ## Modes -/

/-- The reconcile returns early because the machine or its cluster is paused. -/
def isPausedScope (s : Scope) : Bool := isPaused s.cluster s.byoMachine.annotations

/-- The reconcile runs `reconcileDelete`. -/
def isDeleteScope (s : Scope) : Bool := !isPausedScope s && s.byoMachine.deletionTimestamp

/-- The reconcile runs `reconcileNormal`. -/
def isNormalScope (s : Scope) : Bool := !isPausedScope s && !s.byoMachine.deletionTimestamp

/-! ## Phases -/

/-- How the machine in memory is left. -/
inductive Leave where
  | unchanged
  | paused
  | released
  | reconciled (host : Option ByoHost)

/-- What `reconcileNormal` may have made of the machine, with this host in its scope. -/
def Reconciled (m : ByoMachine) (host : Option ByoHost) (m' : ByoMachine) : Prop :=
  ∃ providerID hostInfo ready conditions,
    m' = { m with finalizers := addFinalizer m.finalizers machineFinalizer
                  providerID := providerID, hostInfo := hostInfo, ready := ready
                  conditions := conditions } ∧
    (hostInfo = m.hostInfo ∨ ∃ h, host = some h ∧ hostInfo = h.hostDetails)

/-- The machine as a paused reconcile leaves it. -/
def pausedMachine (m : ByoMachine) : ByoMachine :=
  { m with conditions := m.conditions.markFalse .byoHostReady .clusterOrResourcePaused .info "" }

/-- The machine as `reconcileDelete` leaves it. -/
def releasedMachine (m : ByoMachine) : ByoMachine :=
  { m with finalizers := removeFinalizer m.finalizers machineFinalizer }

/-- A configuration as it is created is not ready. -/
theorem installerConfigFor_ready {m : ByoMachine} {ref : ObjectReference}
    {template : InstallerTemplate} {version : String} {config : InstallerConfig}
    (h : installerConfigFor m ref template version = .ok config) :
    config.ready = .absent ∧ config.installationSecret = .absent ∧
      config.uninstallationSecret = .absent := by
  unfold installerConfigFor generateTemplate at h
  split at h
  · cases h
  · cases h
    exact ⟨rfl, rfl, rfl⟩

/-- The machine in memory, for each way to leave it. -/
def Leaves (s : Scope) : Leave → ByoMachine → Prop
  | .unchanged, m' => m' = s.byoMachine
  | .paused, m' => isPausedScope s ∧ m' = pausedMachine s.byoMachine
  | .released, m' => isDeleteScope s ∧ m' = releasedMachine s.byoMachine
  | .reconciled host, m' => isNormalScope s ∧ Reconciled s.byoMachine host m'

/-- How far a reconcile has come. -/
inductive MachinePhase where
  | start
  | owner (m : ByoMachine)
  | cluster (m : ByoMachine) (machine : Machine)
  | infra (m : ByoMachine) (machine : Machine) (cluster : Cluster)
  | fetch (s : Scope)
  | body (s : Scope) (host : Option ByoHost)
  | create (s : Scope) (host : Option ByoHost) (config : InstallerConfig)
  | write (s : Scope) (edit : HostEdit) (before : ByoHost) (part : HostPart) (failed : Bool)
  | finish (s : Scope) (how : Leave) (after : ByoMachine) (part : PatchPart)
  | done

/-- Calls that change neither hosts nor machines nor configurations nor secrets. -/
def isQuiet : Call → Bool
  | .getCluster _ | .getInstallerConfig _ | .getInstallerTemplate _ | .getRemoteClient _
  | .getNode _ _ | .patchNode _ _ _ _ | .randomString _ => true
  | _ => false

/-- The selector of `FetchAttachedByoHost`. -/
def attachedSelector (m : ByoMachine) : Selector :=
  [⟨.attachedByoMachine, .opIn, [generateSafeLabelValue m.ns m.name]⟩]

/-- One call of the reconcile of `k`. -/
inductive MachineNext (k : NamespacedName) :
    MachinePhase → (c : Call) → Resp c → MachinePhase → Prop
  | read {m : ByoMachine} : MachineNext k .start (.getByoMachine k) (.ok m) (.owner m)
  | readFailed {e : ApiError} : MachineNext k .start (.getByoMachine k) (.error e) .done
  | owner {m : ByoMachine} {name : String} {machine : Machine}
      (hname : findOwner "Machine" clusterGroup m.ownerReferences = .ok (some name)) :
      MachineNext k (.owner m) (.getMachine ⟨m.ns, name⟩) (.ok machine) (.cluster m machine)
  | ownerFailed {m : ByoMachine} {key : NamespacedName} {e : ApiError} :
      MachineNext k (.owner m) (.getMachine key) (.error e) .done
  | cluster {m : ByoMachine} {machine : Machine} {name : String} {c : Cluster}
      (hname : m.labels.get .clusterName = some name) :
      MachineNext k (.cluster m machine) (.getCluster ⟨m.ns, name⟩) (.ok c) (.infra m machine c)
  | clusterFailed {m : ByoMachine} {machine : Machine} {key : NamespacedName} {e : ApiError} :
      MachineNext k (.cluster m machine) (.getCluster key) (.error e) .done
  | infra {m : ByoMachine} {machine : Machine} {c : Cluster} {key : NamespacedName}
      {byoCluster : ByoCluster} :
      MachineNext k (.infra m machine c) (.getByoCluster key) (.ok byoCluster)
        (.fetch { cluster := c, machine := machine, byoCluster := byoCluster, byoMachine := m })
  | infraFailed {m : ByoMachine} {machine : Machine} {c : Cluster} {key : NamespacedName}
      {e : ApiError} : MachineNext k (.infra m machine c) (.getByoCluster key) (.error e) .done
  | fetched {s : Scope} {hosts : List ByoHost} :
      MachineNext k (.fetch s) (.listByoHosts (attachedSelector s.byoMachine) none) (.ok hosts)
        (.body s hosts.head?)
  | fetchFailed {s : Scope} {e : ApiError} :
      MachineNext k (.fetch s) (.listByoHosts (attachedSelector s.byoMachine) none) (.error e)
        (.finish s .unchanged s.byoMachine .conditions)
  | quiet {s : Scope} {host : Option ByoHost} {c : Call} {r : Resp c} (hc : isQuiet c = true) :
      MachineNext k (.body s host) c r (.body s host)
  | template {s : Scope} {host : Option ByoHost} {ref : ObjectReference}
      {template : InstallerTemplate} {version : String} {config : InstallerConfig}
      (hs : isNormalScope s) (href : s.byoMachine.installerRef = some ref)
      (hversion : s.machine.version = some version)
      (hconfig : installerConfigFor s.byoMachine ref template version = .ok config) :
      MachineNext k (.body s host)
        (.getInstallerTemplate ⟨ref.apiVersion, ref.kind, ref.ns, ref.name⟩) (.ok template)
        (.create s host config)
  | created {s : Scope} {host : Option ByoHost} {config : InstallerConfig} {r : Option ApiError} :
      MachineNext k (.create s host config) (.createInstallerConfig config) r (.body s host)
  | listed {s : Scope} {selector : Selector} {dataSecretName version : String} {h : ByoHost}
      {hs : List ByoHost} (hnormal : isNormalScope s)
      (hselector : machineSelector s.byoMachine = .ok selector)
      (hdata : s.machine.dataSecretName = some dataSecretName)
      (hversion : s.machine.version = some version) :
      MachineNext k (.body s none)
        (.listByoHosts (selector ++ [notInCluster]) (some s.byoMachine.ns)) (.ok (h :: hs))
        (.write s (.attach (attachmentFor s dataSecretName version)) h .spec false)
  | notListed {s : Scope} {selector : Selector} {r : Except ApiError (List ByoHost)} :
      MachineNext k (.body s none)
        (.listByoHosts (selector ++ [notInCluster]) (some s.byoMachine.ns)) r (.body s none)
  | installReady {s : Scope} {h : ByoHost} {ref secret : ObjectReference} {config : InstallerConfig}
      (hs : isNormalScope s) (href : s.byoMachine.installerRef = some ref)
      (hnone : h.installationSecret = none) (hready : config.ready = .value true)
      (hsecret : config.installationSecret = .value secret) :
      MachineNext k (.body s (some h)) (.getInstallerConfig (installerConfigKey s.byoMachine ref))
        (.ok config) (.write s (.install secret) h .spec false)
  | uninstallReady {s : Scope} {h : ByoHost} {ref secret : ObjectReference}
      {config : InstallerConfig} (hs : isNormalScope s)
      (href : s.byoMachine.installerRef = some ref)
      (hnone : h.uninstallationSecret = none) (hready : config.ready = .value true)
      (hsecret : config.uninstallationSecret = .value secret) :
      MachineNext k (.body s (some h)) (.getInstallerConfig (installerConfigKey s.byoMachine ref))
        (.ok config) (.write s (.uninstall secret) h .spec false)
  | specWritten {s : Scope} {e : HostEdit} {h : ByoHost} {failed : Bool} {r : Option ApiError}
      {key : NamespacedName} (hkey : key = h.key) :
      MachineNext k (.write s e h .spec failed) (.patchByoHost key h (e.apply h)) r
        (.write s e h .status (failed || r.isSome))
  | statusWritten {s : Scope} {e : HostEdit} {h : ByoHost} {failed : Bool} {r : Option ApiError}
      {key : NamespacedName} (hkey : key = h.key) (hchanged : h.statusChanged (e.apply h) = true) :
      MachineNext k (.write s e h .status failed) (.patchByoHostStatus key h (e.apply h)) r
        (.write s e h .done (failed || r.isSome))
  | machineConditions {s : Scope} {how : Leave} {m' : ByoMachine} {r : Option ApiError} :
      MachineNext k (.finish s how m' .conditions)
        (.patchByoMachineConditions m'.key s.byoMachine m') r (.finish s how m' .spec)
  | machineSpec {s : Scope} {how : Leave} {m' : ByoMachine} {r : Option ApiError} :
      MachineNext k (.finish s how m' .spec) (.patchByoMachine m'.key s.byoMachine m') r
        (.finish s how m' .status)
  | machineStatus {s : Scope} {how : Leave} {m' : ByoMachine} {r : Option ApiError} :
      MachineNext k (.finish s how m' .status) (.patchByoMachineStatus m'.key s.byoMachine m') r
        .done

/-- What a reconcile does between calls. -/
inductive MachineSilent : MachinePhase → MachinePhase → Prop
  | noOwner {m : ByoMachine} : MachineSilent (.owner m) .done
  | noCluster {m : ByoMachine} {machine : Machine} : MachineSilent (.cluster m machine) .done
  | noInfra {m : ByoMachine} {machine : Machine} {c : Cluster} :
      MachineSilent (.infra m machine c) .done
  | invalidLabel {s : Scope} :
      MachineSilent (.fetch s) (.finish s .unchanged s.byoMachine .conditions)
  | pause {s : Scope} {h : ByoHost} (hs : isPausedScope s) :
      MachineSilent (.body s (some h)) (.write s (.pause true) h .spec false)
  | unpause {s : Scope} {h : ByoHost} (hs : isNormalScope s) :
      MachineSilent (.body s (some h)) (.write s (.pause false) h .spec false)
  | mark {s : Scope} {h : ByoHost} {upgradeInProgress : Bool} (hs : isDeleteScope s) :
      MachineSilent (.body s (some h)) (.write s (.mark upgradeInProgress) h .spec false)
  | skipSpec {s : Scope} {e : HostEdit} {h : ByoHost} {failed : Bool}
      (hsame : h.changed (e.apply h) = false) :
      MachineSilent (.write s e h .spec failed) (.write s e h .status failed)
  | skipStatus {s : Scope} {e : HostEdit} {h : ByoHost} {failed : Bool}
      (hsame : h.statusChanged (e.apply h) = false) :
      MachineSilent (.write s e h .status failed) (.write s e h .done failed)
  | wrote {s : Scope} {e : HostEdit} {h : ByoHost} (hs : isNormalScope s) :
      MachineSilent (.write s e h .done false) (.body s (some (e.apply h)))
  | writeFailed {s : Scope} {e : HostEdit} {h : ByoHost} {m' : ByoMachine}
      (hs : isNormalScope s)
      (hm : Reconciled s.byoMachine (if e.isAttach then none else some h) m') :
      MachineSilent (.write s e h .done true)
        (.finish s (.reconciled (if e.isAttach then none else some h)) m' .conditions)
  | leave {s : Scope} {host : Option ByoHost} {m' : ByoMachine} (hs : isNormalScope s)
      (hm : Reconciled s.byoMachine host m') :
      MachineSilent (.body s host) (.finish s (.reconciled host) m' .conditions)
  | pausedNoHost {s : Scope} (hs : isPausedScope s) :
      MachineSilent (.body s none) (.finish s .paused (pausedMachine s.byoMachine) .conditions)
  | pausedHost {s : Scope} {h : ByoHost} {failed : Bool} (hs : isPausedScope s) :
      MachineSilent (.write s (.pause true) h .done failed)
        (.finish s .paused (pausedMachine s.byoMachine) .conditions)
  | releasedNoHost {s : Scope} (hs : isDeleteScope s) :
      MachineSilent (.body s none) (.finish s .released (releasedMachine s.byoMachine) .conditions)
  | marked {s : Scope} {u : Bool} {h : ByoHost} (hs : isDeleteScope s) :
      MachineSilent (.write s (.mark u) h .done false)
        (.finish s .released (releasedMachine s.byoMachine) .conditions)
  | markFailed {s : Scope} {u : Bool} {h : ByoHost} (hs : isDeleteScope s) :
      MachineSilent (.write s (.mark u) h .done true)
        (.finish s .unchanged s.byoMachine .conditions)
  | skipConditions {s : Scope} {how : Leave} {m' : ByoMachine} :
      MachineSilent (.finish s how m' .conditions) (.finish s how m' .spec)
  | skipMachineSpec {s : Scope} {how : Leave} {m' : ByoMachine}
      (hsame : s.byoMachine.changed m' = false) :
      MachineSilent (.finish s how m' .spec) (.finish s how m' .status)
  | skipMachineStatus {s : Scope} {how : Leave} {m' : ByoMachine} :
      MachineSilent (.finish s how m' .status) .done

/-! ## The program follows the phases -/

section Follows

variable {k : NamespacedName} {s₀ : Scope} {α β : Type} {P : α → Scope → MachinePhase → Prop}
  {x : ScopeM α} {s : Scope} {q : MachinePhase} {host : Option ByoHost} {m : ByoMachine}
  {h : ByoHost} {ref : ObjectReference}

/-- The scope `s` in memory, for the objects `s₀` as they were read. -/
structure InScope (s₀ : Scope) (host : Option ByoHost) (s : Scope) : Prop where
  cluster : s.cluster = s₀.cluster
  machine : s.machine = s₀.machine
  byoCluster : s.byoCluster = s₀.byoCluster
  byoHost : s.byoHost = host
  byoMachine : Reconciled s₀.byoMachine host s.byoMachine

/-- The exit of a part of `reconcileNormal`: it goes on in a phase that satisfies `P`, or the
reconcile is over and the machine is about to be patched. -/
def Exits (s₀ : Scope) (P : α → Scope → MachinePhase → Prop) :
    Exit Err α → Scope → MachinePhase → Prop
  | .ok a, s, q => P a s q
  | .err _, s, q => ∃ how, q = .finish s₀ how s.byoMachine .conditions
  | .panic _, s, q => ∃ how, q = .finish s₀ how s.byoMachine .conditions

/-- The reconcile is over and the machine is about to be patched. -/
def Over (s₀ : Scope) (_ : Exit Err α) (s : Scope) (q : MachinePhase) : Prop :=
  ∃ how, q = .finish s₀ how s.byoMachine .conditions

/-- `reconcileNormal` goes on with a host in its scope. -/
def Continues (s₀ : Scope) (_ : α) (s : Scope) (q : MachinePhase) : Prop :=
  ∃ host, InScope s₀ host s ∧ q = .body s₀ host

/-- Composition: where the first part ends the reconcile, so does the whole. -/
theorem Exits.bind {post : Exit Err β → Scope → MachinePhase → Prop} {f : α → ScopeM β}
    (hx : GoM.Follows (MachineNext k) MachineSilent (Exits s₀ P) x s q)
    (hf : ∀ a s' q', P a s' q' → GoM.Follows (MachineNext k) MachineSilent post (f a) s' q')
    (herr : ∀ e s' how, post (.err e) s' (.finish s₀ how s'.byoMachine .conditions))
    (hpanic : ∀ m s' how, post (.panic m) s' (.finish s₀ how s'.byoMachine .conditions)) :
    GoM.Follows (MachineNext k) MachineSilent post (x >>= f) s q := by
  refine GoM.Follows.bind (hx.mono ?_)
  intro e s' q' he
  cases e with
  | ok a => exact hf a s' q' he
  | err e =>
    obtain ⟨how, rfl⟩ := he
    exact herr e s' how
  | panic m =>
    obtain ⟨how, rfl⟩ := he
    exact hpanic m s' how

/-- Composition inside `reconcileNormal`. -/
theorem Exits.bind_exits {P' : β → Scope → MachinePhase → Prop} {f : α → ScopeM β}
    (hx : GoM.Follows (MachineNext k) MachineSilent (Exits s₀ P) x s q) (hf : ∀ a s' q', P a s' q' →
      GoM.Follows (MachineNext k) MachineSilent (Exits s₀ P') (f a) s' q') :
    GoM.Follows (MachineNext k) MachineSilent (Exits s₀ P') (x >>= f) s q :=
  Exits.bind hx hf (fun _ _ how => ⟨how, rfl⟩) (fun _ _ how => ⟨how, rfl⟩)

/-- Composition at the end of a reconcile. -/
theorem Exits.bind_over {f : α → ScopeM β}
    (hx : GoM.Follows (MachineNext k) MachineSilent (Exits s₀ P) x s q)
    (hf : ∀ a s' q', P a s' q' → GoM.Follows (MachineNext k) MachineSilent (Over s₀) (f a) s' q') :
    GoM.Follows (MachineNext k) MachineSilent (Over s₀) (x >>= f) s q :=
  Exits.bind hx hf (fun _ _ how => ⟨how, rfl⟩) (fun _ _ how => ⟨how, rfl⟩)

/-- An error ends `reconcileNormal`. -/
theorem throw_exits (hn : isNormalScope s₀) (hs : InScope s₀ host s) (e : Err) :
    GoM.Follows (MachineNext k) MachineSilent (Exits s₀ P) (GoM.throw e) s (.body s₀ host) :=
  .move (.leave hn hs.byoMachine) (.throw ⟨_, rfl⟩)

/-- A panic ends `reconcileNormal`. -/
theorem panic_exits (hn : isNormalScope s₀) (hs : InScope s₀ host s) (m : String) :
    GoM.Follows (MachineNext k) MachineSilent (Exits s₀ P) (GoM.panic m) s (.body s₀ host) :=
  .move (.leave hn hs.byoMachine) (.panic ⟨_, rfl⟩)

/-- A value ends `reconcileNormal`. -/
theorem pure_over (hn : isNormalScope s₀) (hs : InScope s₀ host s) (a : α) :
    GoM.Follows (MachineNext k) MachineSilent (Over s₀) (pure a) s (.body s₀ host) :=
  .move (.leave hn hs.byoMachine) (.pure ⟨_, rfl⟩)

theorem ofExcept_exits (hn : isNormalScope s₀) (hs : InScope s₀ host s) (x : Except Err α) :
    GoM.Follows (MachineNext k) MachineSilent
      (Exits s₀ fun a s' q => x = .ok a ∧ s' = s ∧ q = .body s₀ host) (GoM.ofExcept x) s
      (.body s₀ host) := by
  cases x with
  | ok a => exact .pure ⟨rfl, rfl, rfl⟩
  | error e => exact throw_exits hn hs e

theorem deref_exits (hn : isNormalScope s₀) (hs : InScope s₀ host s) (what : String)
    (x : Option α) :
    GoM.Follows (MachineNext k) MachineSilent
      (Exits s₀ fun a s' q => x = some a ∧ s' = s ∧ q = .body s₀ host) (GoM.deref what x) s
      (.body s₀ host) := by
  cases x with
  | some a => exact .pure ⟨rfl, rfl, rfl⟩
  | none => exact panic_exits hn hs what

/-! ### Writing a host -/

/-- The requests of a patch of a host, in their order; the phase records whether one failed. -/
theorem patchByoHost_follows (e : HostEdit) (h : ByoHost) :
    Prog.Follows (MachineNext k) MachineSilent
      (fun r q => q = .write s₀ e h .done r.isSome) (patchByoHost h (e.apply h))
      (.write s₀ e h .spec false) := by
  have hstatus : ∀ e₂ : Option ApiError, Prog.Follows (MachineNext k) MachineSilent
      (fun r q => q = .write s₀ e h .done (Option.isSome r))
      ((sendIf (h.statusChanged (e.apply h))
        (call (.patchByoHostStatus (e.apply h).key h (e.apply h)))).bind
          fun e₃ => .ret ((e₂.or e₃).map Err.api)) (.write s₀ e h .status e₂.isSome) := by
    intro e₂
    cases hc : h.statusChanged (e.apply h) with
    | false =>
      refine .silent (.skipStatus hc) ?_
      simp only [sendIf, Bool.false_eq_true, if_false, Prog.pure_eq, Prog.ret_bind]
      exact .ret (by simp)
    | true =>
      simp only [sendIf, if_true]
      refine .perform _ (fun r => .statusWritten (e.apply_key h) hc) fun r => .ret ?_
      cases e₂ <;> simp
  have hconditions : sendIf (decide (h.conditions ≠ (e.apply h).conditions))
      (call (.patchByoHostConditions (e.apply h).key h (e.apply h))) = .ret none := by
    simp [sendIf]
  simp only [patchByoHost, hconditions, Prog.pure_eq, Prog.bind_eq, Prog.ret_bind, Option.none_or]
  cases hc : h.changed (e.apply h) with
  | false =>
    refine .silent (.skipSpec hc) ?_
    simp only [sendIf, Bool.false_eq_true, if_false, Prog.pure_eq, Prog.ret_bind]
    exact hstatus none
  | true =>
    rw [sendIf, if_pos rfl]
    refine .perform _ (fun r => .specWritten (e.apply_key h)) fun r => ?_
    simpa using hstatus r

/-- `patchHost` keeps the edited host in memory, whether its requests succeed or not. -/
theorem patchHost_follows {post : Exit Err Unit → Scope → MachinePhase → Prop} (e : HostEdit)
    (h : ByoHost) (hok : GoM.Follows (MachineNext k) MachineSilent post (pure ())
      { s with byoHost := some (e.apply h) } (.write s₀ e h .done false))
    (herr : ∀ err, GoM.Follows (MachineNext k) MachineSilent post (GoM.throw err)
      { s with byoHost := some (e.apply h) } (.write s₀ e h .done true)) :
    GoM.Follows (MachineNext k) MachineSilent post (patchHost h (e.apply h)) s
      (.write s₀ e h .spec false) := by
  refine .modify_bind (.lift_bind ((patchByoHost_follows e h).mono ?_))
  rintro r q rfl
  cases r with
  | none => exact hok
  | some err => exact herr err

theorem Reconciled.apply {m' : ByoMachine} (hm : Reconciled m (some h) m') (e : HostEdit) :
    Reconciled m (some (e.apply h)) m' := by
  obtain ⟨providerID, hostInfo, ready, conditions, hm', hinfo⟩ := hm
  refine ⟨providerID, hostInfo, ready, conditions, hm', ?_⟩
  rcases hinfo with hinfo | ⟨h', hh', hinfo⟩
  · exact .inl hinfo
  · cases hh'
    exact .inr ⟨_, rfl, by simpa using hinfo⟩

/-- An edit of the host in the scope, in `reconcileNormal`. -/
theorem patchHost_exits (hn : isNormalScope s₀) (hs : InScope s₀ (some h) s) {e : HostEdit}
    (he : e.isAttach = false) :
    GoM.Follows (MachineNext k) MachineSilent
      (Exits s₀ fun _ s' q => InScope s₀ (some (e.apply h)) s' ∧ q = .body s₀ (some (e.apply h)))
      (patchHost h (e.apply h)) s (.write s₀ e h .spec false) := by
  have hscope : InScope s₀ (some (e.apply h)) { s with byoHost := some (e.apply h) } :=
    ⟨hs.cluster, hs.machine, hs.byoCluster, rfl, hs.byoMachine.apply e⟩
  have hmachine : Reconciled s₀.byoMachine (if e.isAttach then none else some h) s.byoMachine := by
    simpa [he] using hs.byoMachine
  exact patchHost_follows e h (.move (.wrote hn) (.pure ⟨hscope, rfl⟩))
    fun _ => .move (.writeFailed hn hmachine) (.throw ⟨_, rfl⟩)

/-! ### Parts of `reconcileNormal` -/

/-- A quiet call stays in the phase. -/
theorem quiet_bind {post : Exit Err β → Scope → MachinePhase → Prop} {c : Call}
    (hc : isQuiet c = true) {f : Resp c → ScopeM β}
    (hf : ∀ r, GoM.Follows (MachineNext k) MachineSilent post (f r) s (.body s₀ host)) :
    GoM.Follows (MachineNext k) MachineSilent post (GoM.lift (call c) >>= f) s (.body s₀ host) :=
  .lift_bind (.call _ (fun _ => .quiet hc) fun r => .ret (hf r))

/-- The pause annotation of the host is removed. -/
theorem setPaused_exits (hn : isNormalScope s₀) (hs : InScope s₀ (some h) s) :
    GoM.Follows (MachineNext k) MachineSilent (Exits s₀ (Continues s₀))
      (setPausedConditionForByoHost false) s (.body s₀ (some h)) := by
  refine .get_bind ?_
  rw [hs.byoHost]
  refine .move (.unpause hn) ((patchHost_exits hn hs (e := .pause false) rfl).mono ?_)
  intro exit s' q hq
  cases exit with
  | ok _ => exact ⟨_, hq⟩
  | err _ => exact hq
  | panic _ => exact hq

/-- The machine in memory still has the fields that no reconcile changes. -/
theorem InScope.installerRef (hs : InScope s₀ host s) :
    s.byoMachine.installerRef = s₀.byoMachine.installerRef := by
  obtain ⟨_, _, _, _, hm, _⟩ := hs.byoMachine
  rw [hm]

theorem InScope.installerConfigKey (hs : InScope s₀ host s) (ref : ObjectReference) :
    installerConfigKey s.byoMachine ref = installerConfigKey s₀.byoMachine ref := by
  obtain ⟨_, _, _, _, hm, _⟩ := hs.byoMachine
  rw [hm]
  rfl

theorem InScope.installerConfigFor (hs : InScope s₀ host s) (ref : ObjectReference)
    (template : InstallerTemplate) (version : String) :
    installerConfigFor s.byoMachine ref template version =
      installerConfigFor s₀.byoMachine ref template version := by
  obtain ⟨_, _, _, _, hm, _⟩ := hs.byoMachine
  rw [hm]
  rfl

theorem InScope.attachmentFor (hs : InScope s₀ host s) (dataSecretName version : String) :
    attachmentFor s dataSecretName version = attachmentFor s₀ dataSecretName version := by
  obtain ⟨_, _, _, _, hm, _⟩ := hs.byoMachine
  simp [ByoMachineReconciler.attachmentFor, hm, hs.cluster, hs.byoCluster, ByoMachine.apiVersion,
    ByoMachine.kind]

theorem InScope.machineSelector (hs : InScope s₀ host s) :
    machineSelector s.byoMachine = machineSelector s₀.byoMachine := by
  obtain ⟨_, _, _, _, hm, _⟩ := hs.byoMachine
  rw [hm]
  rfl

theorem InScope.ns (hs : InScope s₀ host s) : s.byoMachine.ns = s₀.byoMachine.ns := by
  obtain ⟨_, _, _, _, hm, _⟩ := hs.byoMachine
  rw [hm]

/-- Reading the installer configuration, for a caller that stays in its phase. -/
theorem getInstallerConfig_follows (href : m.installerRef = some ref) :
    GoM.Follows (MachineNext k) MachineSilent
      (fun exit s' q => (∀ m, exit ≠ .panic m) ∧ s' = s ∧ q = .body s₀ host)
      (getInstallerConfig m) s (.body s₀ host) := by
  simp only [getInstallerConfig, href]
  refine quiet_bind rfl fun r => ?_
  cases r with
  | error e => exact .throw ⟨by simp, rfl, rfl⟩
  | ok config => exact .pure ⟨by simp, rfl, rfl⟩

/-- The phase after the template was read; it decides whether a configuration will be created. -/
def afterTemplate (s₀ : Scope) (host : Option ByoHost) (ref : ObjectReference) :
    Except ApiError InstallerTemplate → MachinePhase
  | .error _ => .body s₀ host
  | .ok template =>
      match s₀.machine.version with
      | none => .body s₀ host
      | some version =>
          match installerConfigFor s₀.byoMachine ref template version with
          | .ok config => .create s₀ host config
          | .error _ => .body s₀ host

/-- The installer configuration is created, or was there before. -/
theorem createInstallerConfig_exits (hn : isNormalScope s₀) (hs : InScope s₀ host s)
    (href : s.byoMachine.installerRef.isSome) :
    GoM.Follows (MachineNext k) MachineSilent (Exits s₀ (Continues s₀)) createInstallerConfig s
      (.body s₀ host) := by
  obtain ⟨ref, href⟩ := Option.isSome_iff_exists.1 href
  have hdone : Continues s₀ () s (.body s₀ host) := ⟨host, hs, rfl⟩
  refine .get_bind (.attempt_bind ((getInstallerConfig_follows href).mono ?_))
  rintro exit s' q ⟨hpanic, hs', rfl⟩
  subst s'
  cases exit with
  | panic m => exact absurd rfl (hpanic m)
  | ok config => exact .pure hdone
  | err e =>
    dsimp only
    split
    · exact throw_exits hn hs e
    simp only [href, GoM.deref_some, GoM.pure_bind]
    refine .lift_bind (.call (afterTemplate s₀ host ref) (fun r => ?_) fun r => .ret ?_)
    · -- the answer of the server decides the next phase
      cases r with
      | error e => exact .quiet rfl
      | ok template =>
        cases hv : s₀.machine.version with
        | none => simpa only [afterTemplate, hv] using .quiet rfl
        | some version =>
          cases hc : installerConfigFor s₀.byoMachine ref template version with
          | error e => simpa only [afterTemplate, hv, hc] using .quiet rfl
          | ok config =>
            simpa only [afterTemplate, hv, hc] using .template hn (hs.installerRef ▸ href) hv hc
    · cases r with
      | error e => exact throw_exits hn hs _
      | ok template =>
        cases hv : s₀.machine.version with
        | none =>
          -- a machine without a version makes the call panic
          simp only [afterTemplate, hs.machine, hv, GoM.deref_none, GoM.panic_bind]
          exact panic_exits hn hs _
        | some version =>
          cases hc : installerConfigFor s₀.byoMachine ref template version with
          | error e =>
            simp only [afterTemplate, hs.machine, hv, hs.installerConfigFor, hc, GoM.deref_some,
              GoM.pure_bind, GoM.ofExcept_error, GoM.throw_bind]
            exact throw_exits hn hs _
          | ok config =>
            simp only [afterTemplate, hs.machine, hv, hs.installerConfigFor, hc, GoM.deref_some,
              GoM.pure_bind, GoM.ofExcept_ok]
            refine .lift_bind (.call _ (fun _ => .created) fun r => .ret ?_)
            cases r with
            | none => exact .pure hdone
            | some e => exact throw_exits hn hs _

/-- The machine in memory may change in the fields that `reconcileNormal` sets. -/
theorem InScope.update (hs : InScope s₀ host s) {m' : ByoMachine}
    (hm : Reconciled s₀.byoMachine host m') : InScope s₀ host { s with byoMachine := m' } :=
  ⟨hs.cluster, hs.machine, hs.byoCluster, hs.byoHost, hm⟩

theorem InScope.markFalse (hs : InScope s₀ host s) (reason : Reason) :
    InScope s₀ host { s with byoMachine := { s.byoMachine with
      conditions := s.byoMachine.conditions.markFalse .byoHostReady reason .info "" } } := by
  refine hs.update ?_
  obtain ⟨providerID, hostInfo, ready, conditions, hm, hinfo⟩ := hs.byoMachine
  rw [hm]
  exact ⟨providerID, hostInfo, ready, _, rfl, hinfo⟩

/-- The phase after the pool was listed. -/
def afterListing (s₀ : Scope) : Except ApiError (List ByoHost) → MachinePhase
  | .ok (h :: _) =>
      match s₀.machine.dataSecretName, s₀.machine.version with
      | some dataSecretName, some version =>
          .write s₀ (.attach (ByoMachineReconciler.attachmentFor s₀ dataSecretName version)) h .spec
            false
      | _, _ => .body s₀ none
  | _ => .body s₀ none

/-- The list of the capacity pool decides whether there is a host to attach. -/
theorem afterListing_next {selector : Selector} (hn : isNormalScope s₀)
    (hselector : ByoMachineReconciler.machineSelector s₀.byoMachine = .ok selector)
    (r : Except ApiError (List ByoHost)) :
    MachineNext k (.body s₀ none)
      (.listByoHosts (selector ++ [notInCluster]) (some s₀.byoMachine.ns)) r
      (afterListing s₀ r) := by
  rcases r with e | hosts
  · exact .notListed
  rcases hosts with _ | ⟨h, hs⟩
  · exact .notListed
  cases hd : s₀.machine.dataSecretName with
  | none => simpa only [afterListing, hd] using .notListed
  | some d =>
    cases hv : s₀.machine.version with
    | none => simpa only [afterListing, hd, hv] using .notListed
    | some v => simpa only [afterListing, hd, hv] using .listed hn hselector hd hv

/-- A host of the capacity pool is attached. -/
theorem attachByoHost_exits (hn : isNormalScope s₀) (hs : InScope s₀ none s) :
    GoM.Follows (MachineNext k) MachineSilent (Exits s₀ (Continues s₀)) attachByoHost s
      (.body s₀ none) := by
  refine .get_bind ?_
  simp only [hs.byoHost, Option.isSome_none, Bool.false_eq_true, if_false]
  refine Exits.bind_exits (ofExcept_exits hn hs _) ?_
  rintro selector s' q ⟨hselector, hs', rfl⟩
  subst s'
  rw [hs.machineSelector] at hselector
  rw [hs.ns]
  refine .lift_bind (.call (afterListing s₀) (afterListing_next hn hselector) fun r => .ret ?_)
  rcases r with e | hosts
  · exact throw_exits hn hs _
  rcases hosts with _ | ⟨h, rest⟩
  · exact .modify_bind (throw_exits hn (hs.markFalse _) _)
  cases hd : s₀.machine.dataSecretName with
  | none =>
    simp only [afterListing, hs.machine, hd, GoM.deref_none, GoM.panic_bind]
    exact panic_exits hn hs _
  | some d =>
    cases hv : s₀.machine.version with
    | none =>
      simp only [afterListing, hs.machine, hd, hv, GoM.deref_some, GoM.pure_bind, GoM.deref_none,
        GoM.panic_bind]
      exact panic_exits hn hs _
    | some v =>
      simp only [afterListing, hs.machine, hd, hv, GoM.deref_some, GoM.pure_bind,
        hs.attachmentFor]
      refine .lift_bind ((patchByoHost_follows
        (.attach (ByoMachineReconciler.attachmentFor s₀ d v)) h).mono ?_)
      rintro r q rfl
      cases r with
      | some err => exact .move (.writeFailed hn hs.byoMachine) (.throw ⟨_, rfl⟩)
      | none =>
        refine .move (.wrote hn) (.modify_bind (.pure ⟨_, ⟨hs.cluster, hs.machine, hs.byoCluster,
          rfl, ?_⟩, rfl⟩))
        obtain ⟨providerID, hostInfo, ready, conditions, hm, hinfo⟩ := hs.byoMachine
        exact ⟨providerID, hostInfo, ready, conditions, hm, .inl (by simpa using hinfo)⟩

/-- A machine that has a host keeps it; otherwise one is attached. -/
theorem reserveHost_exits (hn : isNormalScope s₀) (hs : InScope s₀ host s) :
    GoM.Follows (MachineNext k) MachineSilent (Exits s₀ (Continues s₀)) reserveHost s
      (.body s₀ host) := by
  refine .get_bind (.when (fun hnone => ?_) fun _ => ⟨host, hs, rfl⟩)
  have hhost : host = none := by
    rw [hs.byoHost] at hnone
    simpa using hnone
  subst hhost
  refine Exits.bind_exits (attachByoHost_exits hn hs) ?_
  rintro _ s' q ⟨host', hs', rfl⟩
  exact .modify ⟨host', hs'.markFalse _, rfl⟩

/-! ### Secrets and provider ID -/

/-- The phase after the installer configuration was read for one of its secrets. -/
def afterConfig (s₀ : Scope) (h : ByoHost) (field : InstallerConfig → Nested ObjectReference)
    (edit : ObjectReference → HostEdit) : Except ApiError InstallerConfig → MachinePhase
  | .error _ => .body s₀ (some h)
  | .ok config =>
      match config.ready, field config with
      | .value true, .value ref => .write s₀ (edit ref) h .spec false
      | _, _ => .body s₀ (some h)

/-- A call of `getInstallerConfig` that leads on to the secret in `field`. -/
def LeadsTo (k : NamespacedName) (s₀ : Scope) (h : ByoHost) (ref : ObjectReference)
    (field : InstallerConfig → Nested ObjectReference) (edit : ObjectReference → HostEdit) : Prop :=
  ∀ config secret, config.ready = .value true → field config = .value secret →
    MachineNext k (.body s₀ (some h))
      (.getInstallerConfig (ByoMachineReconciler.installerConfigKey s₀.byoMachine ref))
      (.ok config) (.write s₀ (edit secret) h .spec false)

/-- A configuration that is read and ready leads on to the secret. -/
theorem getInstallerConfigAndHelper_exits (hn : isNormalScope s₀) (hs : InScope s₀ (some h) s)
    (href : s₀.byoMachine.installerRef = some ref)
    {field : InstallerConfig → Nested ObjectReference} {edit : ObjectReference → HostEdit}
    (hnext : LeadsTo k s₀ h ref field edit) :
    GoM.Follows (MachineNext k) MachineSilent
      (Exits s₀ fun a s' q => s' = s ∧ match a with
        | .error _ => q = .body s₀ (some h)
        | .ok config =>
            config.ready = .value true ∧ q = afterConfig s₀ h field edit (.ok config))
      getInstallerConfigAndHelper s (.body s₀ (some h)) := by
  rw [LeadsTo, ← hs.installerConfigKey] at hnext
  refine .get_bind ?_
  simp only [getInstallerConfig, hs.installerRef, href, GoM.deref_some, GoM.pure_bind]
  refine .bind (.lift_bind (.call (afterConfig s₀ h field edit) (fun r => ?_) fun r => .ret ?_))
  · rcases r with e | config
    · exact .quiet rfl
    simp only [afterConfig]
    split
    · exact hnext config _ ‹_› ‹_›
    · exact .quiet rfl
  rcases r with e | config
  · exact .move (.leave hn hs.byoMachine) (.throw ⟨_, rfl⟩)
  refine .pure ?_
  -- a configuration that is not ready leaves the reconcile in its phase
  cases hready : config.ready with
  | absent =>
    simp only [InstallerConfig.isReady, hready, afterConfig]
    exact .pure ⟨rfl, rfl⟩
  | malformed =>
    simp only [InstallerConfig.isReady, hready, afterConfig]
    exact throw_exits hn hs _
  | inconvertible =>
    simp only [InstallerConfig.isReady, hready, afterConfig]
    exact throw_exits hn hs _
  | value ready =>
    simp only [InstallerConfig.isReady, hready]
    cases ready with
    | false =>
      simp only [afterConfig, hready]
      exact .pure ⟨rfl, rfl⟩
    | true => exact .pure ⟨rfl, hready, rfl⟩

/-- `reconcileNormal` goes on with its host, edited or not. -/
def ContinuesWith (s₀ : Scope) (h : ByoHost) (edit : ObjectReference → HostEdit) (_ : α)
    (s : Scope) (q : MachinePhase) : Prop :=
  ∃ h', (h' = h ∨ ∃ ref, h' = (edit ref).apply h) ∧ InScope s₀ (some h') s ∧
    q = .body s₀ (some h')

/-- The reference in the configuration is copied to the host. -/
theorem setSecretForByoHost_exits (hn : isNormalScope s₀) (hs : InScope s₀ (some h) s)
    (href : s₀.byoMachine.installerRef = some ref)
    {field : InstallerConfig → Nested ObjectReference} {edit : ObjectReference → HostEdit}
    (hedit : ∀ r, (edit r).isAttach = false) {what convert : String}
    (hnext : LeadsTo k s₀ h ref field edit) :
    GoM.Follows (MachineNext k) MachineSilent (Exits s₀ (ContinuesWith s₀ h edit))
      (setSecretForByoHost field (fun r => (edit r).apply) what convert) s
      (.body s₀ (some h)) := by
  refine Exits.bind_exits (getInstallerConfigAndHelper_exits hn hs href hnext) ?_
  rintro a s' q ⟨hs', hq⟩
  subst s'
  cases a with
  | error result =>
    subst hq
    exact .pure ⟨h, .inl rfl, hs, rfl⟩
  | ok config =>
    obtain ⟨hready, rfl⟩ := hq
    cases hf : field config with
    | absent =>
      simp only [afterConfig, hready, hf, secretRef, GoM.throw_bind]
      exact throw_exits hn hs _
    | malformed =>
      simp only [afterConfig, hready, hf, secretRef, GoM.panic_bind]
      exact panic_exits hn hs _
    | inconvertible =>
      simp only [afterConfig, hready, hf, secretRef, GoM.throw_bind]
      exact throw_exits hn hs _
    | value secret =>
      simp only [afterConfig, hready, hf, secretRef, GoM.pure_bind]
      refine .get_bind ?_
      simp only [hs.byoHost, GoM.deref_some, GoM.pure_bind]
      refine Exits.bind_exits (patchHost_exits hn hs (hedit secret)) ?_
      rintro _ s' q ⟨hs', rfl⟩
      exact .pure ⟨_, .inr ⟨secret, rfl⟩, hs', rfl⟩

theorem publishInstallationSecret_exits (hn : isNormalScope s₀) (hs : InScope s₀ (some h) s)
    (hm : m.installerRef = s₀.byoMachine.installerRef) :
    GoM.Follows (MachineNext k) MachineSilent (Exits s₀ (ContinuesWith s₀ h .install))
      (publishInstallationSecret m h) s (.body s₀ (some h)) := by
  unfold publishInstallationSecret
  split
  case isFalse => exact .pure ⟨h, .inl rfl, hs, rfl⟩
  case isTrue hc =>
    simp only [hm, Bool.and_eq_true, Option.isNone_iff_eq_none] at hc
    obtain ⟨ref, href⟩ := Option.isSome_iff_exists.1 hc.1
    exact setSecretForByoHost_exits hn hs href (fun _ => rfl)
      fun _ _ hready hsecret => .installReady hn href hc.2 hready hsecret

theorem publishUninstallationSecret_exits (hn : isNormalScope s₀) (hs : InScope s₀ (some h) s)
    (hm : m.installerRef = s₀.byoMachine.installerRef) {h₀ : ByoHost}
    (hsecret : h₀.uninstallationSecret = h.uninstallationSecret) :
    GoM.Follows (MachineNext k) MachineSilent (Exits s₀ (ContinuesWith s₀ h .uninstall))
      (publishUninstallationSecret m h₀) s (.body s₀ (some h)) := by
  unfold publishUninstallationSecret
  split
  case isFalse => exact .pure ⟨h, .inl rfl, hs, rfl⟩
  case isTrue hc =>
    simp only [hm, hsecret, Bool.and_eq_true, Option.isNone_iff_eq_none] at hc
    obtain ⟨ref, href⟩ := Option.isSome_iff_exists.1 hc.1
    exact setSecretForByoHost_exits hn hs href (fun _ => rfl)
      fun _ _ hready hsecret => .uninstallReady hn href hc.2 hready hsecret

/-- Connecting to the cluster of the machine stays in the phase. -/
theorem getRemoteClient_exits (hn : isNormalScope s₀) (hs : InScope s₀ host s) (m : ByoMachine) :
    GoM.Follows (MachineNext k) MachineSilent
      (Exits s₀ fun _ s' q => s' = s ∧ q = .body s₀ host) (getRemoteClient m) s
      (.body s₀ host) := by
  have hlookup : Prog.Follows (MachineNext k) MachineSilent
      (fun _ q => q = .body s₀ host) (getClusterFromMetadata m) (.body s₀ host) := by
    unfold getClusterFromMetadata
    split
    · exact .ret rfl
    · exact .ret rfl
    · refine .perform _ (fun _ => .quiet rfl) fun r => ?_
      cases r <;> exact .ret rfl
  refine .lift_bind (hlookup.mono ?_)
  rintro r q rfl
  refine Exits.bind_exits (ofExcept_exits hn hs r) ?_
  rintro cluster s' q ⟨-, hs', rfl⟩
  subst s'
  refine quiet_bind rfl fun r => ?_
  cases r with
  | none => exact .pure ⟨rfl, rfl⟩
  | some e => exact throw_exits hn hs _

theorem setNodeProviderID_exits (hn : isNormalScope s₀) (hs : InScope s₀ host s)
    (cluster : NamespacedName) (h : ByoHost) :
    GoM.Follows (MachineNext k) MachineSilent
      (Exits s₀ fun _ s' q => s' = s ∧ q = .body s₀ host) (setNodeProviderID cluster h) s
      (.body s₀ host) := by
  refine quiet_bind rfl fun r => ?_
  rcases r with e | providerID
  · exact throw_exits hn hs _
  dsimp only
  split
  · split
    · exact .pure ⟨rfl, rfl⟩
    · exact throw_exits hn hs _
  · refine quiet_bind rfl fun suffix => quiet_bind rfl fun r => ?_
    cases r with
    | none => exact .pure ⟨rfl, rfl⟩
    | some e => exact throw_exits hn hs _

/-- Setting the provider ID ends the reconcile. -/
theorem updateNodeProviderID_over (hn : isNormalScope s₀) (hs : InScope s₀ host s) :
    GoM.Follows (MachineNext k) MachineSilent (Over s₀) updateNodeProviderID s
      (.body s₀ host) := by
  refine .get_bind (Exits.bind_over (getRemoteClient_exits hn hs _) ?_)
  rintro remoteClient s' q ⟨hs', rfl⟩
  subst s'
  refine Exits.bind_over (deref_exits hn hs _ _) ?_
  rintro byoHost s' q ⟨-, hs', rfl⟩
  subst s'
  refine Exits.bind_over (setNodeProviderID_exits hn hs _ _) ?_
  rintro providerID s' q ⟨hs', rfl⟩
  subst s'
  refine .modify_bind (pure_over hn (hs.update ?_) _)
  obtain ⟨_, hostInfo, _, _, hm, hinfo⟩ := hs.byoMachine
  rw [hm]
  exact ⟨_, hostInfo, _, _, rfl, hinfo⟩

/-! ### The reconcile as a whole -/

theorem fillHostInfo_exits (hs : InScope s₀ (some h) s) (c : Bool) :
    GoM.Follows (MachineNext k) MachineSilent
      (Exits s₀ fun _ s' q => InScope s₀ (some h) s' ∧ q = .body s₀ (some h))
      (GoM.when c (GoM.modify fun s =>
        { s with byoMachine := { s.byoMachine with hostInfo := h.hostDetails } })) s
      (.body s₀ (some h)) := by
  refine .when (fun _ => .modify ⟨hs.update ?_, rfl⟩) fun _ => ⟨hs, rfl⟩
  obtain ⟨providerID, _, ready, conditions, hm, _⟩ := hs.byoMachine
  rw [hm]
  exact ⟨providerID, _, ready, conditions, rfl, .inr ⟨h, rfl, rfl⟩⟩

/-- What `reconcileNormal` does once it has looked for a host ends at the patch of the machine. -/
theorem reconcileAttached_over (hn : isNormalScope s₀) (hs : InScope s₀ host s) :
    GoM.Follows (MachineNext k) MachineSilent (Over s₀) reconcileAttached s (.body s₀ host) := by
  refine .get_bind ?_
  cases host with
  | none =>
    simp only [hs.byoHost, GoM.deref_none, GoM.panic_bind]
    exact .move (.leave hn hs.byoMachine) (.panic ⟨_, rfl⟩)
  | some h =>
  simp only [hs.byoHost, GoM.deref_some, GoM.pure_bind]
  refine Exits.bind_over (fillHostInfo_exits hs _) ?_
  rintro _ s₁ q ⟨hs₁, rfl⟩
  refine Exits.bind_over (publishInstallationSecret_exits hn hs₁ hs.installerRef) ?_
  rintro res s₂ q ⟨h₂, hh₂, hs₂, rfl⟩
  split
  · exact pure_over hn hs₂ _
  have hsecret : h.uninstallationSecret = h₂.uninstallationSecret := by
    rcases hh₂ with rfl | ⟨ref, rfl⟩ <;> rfl
  refine Exits.bind_over (publishUninstallationSecret_exits hn hs₂ hs.installerRef hsecret) ?_
  rintro res s₃ q ⟨h₃, -, hs₃, rfl⟩
  split
  · exact pure_over hn hs₃ _
  · exact updateNodeProviderID_over hn hs₃

/-- Every run of `reconcileNormal` ends at the patch of the machine. -/
theorem reconcileNormal_over (hn : isNormalScope s₀) (hs : s = { s₀ with byoHost := host }) :
    GoM.Follows (MachineNext k) MachineSilent (Over s₀) reconcileNormal s (.body s₀ host) := by
  subst hs
  refine .modify_bind (.get_bind ?_)
  dsimp only
  have hs₁ : InScope s₀ host { s₀ with
      byoMachine := { s₀.byoMachine with
        finalizers := addFinalizer s₀.byoMachine.finalizers machineFinalizer }
      byoHost := host } := ⟨rfl, rfl, rfl, rfl, _, _, _, _, rfl, .inl rfl⟩
  have hpause : GoM.Follows (MachineNext k) MachineSilent (Exits s₀ (Continues s₀))
      (GoM.when host.isSome (setPausedConditionForByoHost false)) _ (.body s₀ host) :=
    .when (fun hsome => by
      obtain ⟨h, rfl⟩ := Option.isSome_iff_exists.1 hsome
      exact setPaused_exits hn hs₁) fun _ => ⟨host, hs₁, rfl⟩
  refine Exits.bind_over hpause ?_
  rintro _ s₂ q ⟨host₂, hs₂, rfl⟩
  have hcreate : GoM.Follows (MachineNext k) MachineSilent (Exits s₀ (Continues s₀))
      (GoM.when s₀.byoMachine.installerRef.isSome createInstallerConfig) s₂ (.body s₀ host₂) :=
    .when (fun href => createInstallerConfig_exits hn hs₂ (hs₂.installerRef ▸ href))
      fun _ => ⟨host₂, hs₂, rfl⟩
  refine Exits.bind_over hcreate ?_
  rintro _ s₃ q ⟨host₃, hs₃, rfl⟩
  split
  · exact .modify_bind (pure_over hn (hs₃.markFalse _) _)
  split
  · exact .modify_bind (pure_over hn (hs₃.markFalse _) _)
  refine Exits.bind_over (reserveHost_exits hn hs₃) ?_
  rintro _ s₄ q ⟨host₄, hs₄, rfl⟩
  exact reconcileAttached_over hn hs₄

theorem markHostForCleanup_exits (hd : isDeleteScope s₀) :
    GoM.Follows (MachineNext k) MachineSilent
      (Exits s₀ fun _ s' q => s'.byoMachine = s₀.byoMachine ∧
        ∃ u, q = .write s₀ (.mark u) h .done false)
      markHostForCleanup { s₀ with byoHost := some h } (.body s₀ (some h)) :=
  .get_bind (.move (.mark hd) (patchHost_follows (.mark _) h (.pure ⟨rfl, _, rfl⟩)
    fun _ => .move (.markFailed hd) (.throw ⟨.unchanged, rfl⟩)))

/-- Every run of `reconcileDelete` ends at the patch of the machine. -/
theorem reconcileDelete_over (hd : isDeleteScope s₀) (host : Option ByoHost) :
    GoM.Follows (MachineNext k) MachineSilent (Over s₀) reconcileDelete
      { s₀ with byoHost := host } (.body s₀ host) := by
  refine .get_bind ?_
  cases host with
  | none => exact .modify_bind (.move (.releasedNoHost hd) (.pure ⟨.released, rfl⟩))
  | some h =>
    refine Exits.bind_over (markHostForCleanup_exits hd) ?_
    rintro _ s' q ⟨hm, u, rfl⟩
    refine .modify_bind (.move (.marked hd) (.pure ⟨.released, ?_⟩))
    simp only [hm, releasedMachine]

/-- The paused branch of `Reconcile`; an error of the patch is ignored. -/
theorem reconcilePaused_over (hp : isPausedScope s₀) (host : Option ByoHost) :
    GoM.Follows (MachineNext k) MachineSilent (Over s₀) (reconcilePaused host)
      { s₀ with byoHost := host } (.body s₀ host) := by
  cases host with
  | none => exact .modify_bind (.move (.pausedNoHost hp) (.pure ⟨.paused, rfl⟩))
  | some h =>
    have hpatch : GoM.Follows (MachineNext k) MachineSilent
        (Exits s₀ fun _ s' q => s'.byoMachine = s₀.byoMachine ∧
          ∃ failed, q = .write s₀ (.pause true) h .done failed)
        (do let _ ← GoM.attempt (setPausedConditionForByoHost true))
        { s₀ with byoHost := some h } (.body s₀ (some h)) :=
      .attempt_bind (.get_bind (.move (.pause hp) (patchHost_follows (.pause true) h
        (.pure (.pure ⟨rfl, _, rfl⟩)) fun _ => .throw (.pure ⟨rfl, _, rfl⟩))))
    refine Exits.bind_over hpatch ?_
    rintro _ s' q ⟨hm, failed, rfl⟩
    refine .modify_bind (.move (.pausedHost hp) (.pure ⟨.paused, ?_⟩))
    simp only [hm, pausedMachine]

/-- The host of the machine is found by its label. -/
theorem fetchAttachedByoHost_exits (s₀ : Scope) :
    GoM.Follows (MachineNext k) MachineSilent
      (Exits s₀ fun host s' q => s' = s₀ ∧ q = .body s₀ host)
      (fetchAttachedByoHost s₀.byoMachine.name s₀.byoMachine.ns) s₀ (.fetch s₀) := by
  simp only [fetchAttachedByoHost, newRequirement, List.isEmpty_cons, Bool.false_eq_true, if_false]
  by_cases hv : isValidLabelValue (generateSafeLabelValue s₀.byoMachine.ns s₀.byoMachine.name)
  · simp only [List.all_cons, hv, List.all_nil, Bool.and_self, if_true]
    refine .lift_bind (.call (fun r => match r with
      | .ok hosts => .body s₀ hosts.head?
      | .error _ => .finish s₀ .unchanged s₀.byoMachine .conditions) (fun r => ?_) fun r => .ret ?_)
    · rcases r with e | hosts
      · exact .fetchFailed
      · exact .fetched
    · rcases r with e | hosts
      · exact .throw ⟨.unchanged, rfl⟩
      · exact .pure ⟨rfl, rfl⟩
  · simp only [List.all_cons, hv, List.all_nil, Bool.false_and, Bool.false_eq_true, if_false]
    exact .move .invalidLabel (.panic ⟨.unchanged, rfl⟩)

/-- Whatever the scope asks for, the reconcile ends at the patch of the machine. -/
theorem reconcileScope_over (s₀ : Scope) :
    GoM.Follows (MachineNext k) MachineSilent (Over s₀) reconcileScope s₀ (.fetch s₀) := by
  refine .get_bind (Exits.bind_over (fetchAttachedByoHost_exits s₀) ?_)
  rintro host s' q ⟨hs', rfl⟩
  subst s'
  refine .modify_bind ?_
  by_cases hp : isPaused s₀.cluster s₀.byoMachine.annotations
  · rw [if_pos hp]
    exact reconcilePaused_over hp host
  · rw [if_neg hp]
    by_cases hd : s₀.byoMachine.deletionTimestamp
    · rw [if_pos hd]
      exact reconcileDelete_over (by simp [isDeleteScope, isPausedScope, hp, hd]) host
    · rw [if_neg hd]
      exact reconcileNormal_over (by simp [isNormalScope, isPausedScope, hp, hd]) rfl

/-- The deferred patch of the machine. -/
theorem patchByoMachine_follows (how : Leave) (m' : ByoMachine) :
    Prog.Follows (MachineNext k) MachineSilent (fun _ q => q = .done)
      (patchByoMachine s₀.byoMachine m') (.finish s₀ how m' .conditions) := by
  have hstatus : ∀ f : Option ApiError → Option Err, Prog.Follows (MachineNext k) MachineSilent
      (fun _ q => q = .done)
      ((sendIf (s₀.byoMachine.statusChanged m')
        (call (.patchByoMachineStatus m'.key s₀.byoMachine m'))).bind fun e₃ => .ret (f e₃))
      (.finish s₀ how m' .status) := by
    intro f
    cases hc : s₀.byoMachine.statusChanged m' with
    | false => exact .silent .skipMachineStatus (.ret rfl)
    | true => exact .perform _ (fun _ => .machineStatus) fun _ => .ret rfl
  have hspec : ∀ f : Option ApiError → Option ApiError → Option Err,
      Prog.Follows (MachineNext k) MachineSilent (fun _ q => q = .done)
      ((sendIf (s₀.byoMachine.changed m')
        (call (.patchByoMachine m'.key s₀.byoMachine m'))).bind fun e₂ =>
          (sendIf (s₀.byoMachine.statusChanged m')
            (call (.patchByoMachineStatus m'.key s₀.byoMachine m'))).bind fun e₃ => .ret (f e₂ e₃))
      (.finish s₀ how m' .spec) := by
    intro f
    cases hc : s₀.byoMachine.changed m' with
    | false => exact .silent (.skipMachineSpec hc) (hstatus _)
    | true => exact .perform _ (fun _ => .machineSpec) fun _ => hstatus _
  by_cases hc : s₀.byoMachine.conditions = m'.conditions
  · simp only [patchByoMachine, hc, ne_eq, not_true_eq_false, decide_false, sendIf,
      Bool.false_eq_true, if_false, Prog.bind_eq, Prog.pure_eq, Prog.ret_bind]
    exact .silent .skipConditions (hspec _)
  · simp only [patchByoMachine, hc, ne_eq, not_false_eq_true, decide_true, Prog.bind_eq,
      Prog.pure_eq]
    exact .perform _ (fun _ => .machineConditions) fun _ => hspec _

/-- What happens once the scope has been set up. -/
theorem deferred_follows (s₀ : Scope) :
    Prog.Follows (MachineNext k) MachineSilent (fun _ q => q = .done)
      (GoM.deferred reconcileScope (fun s => patchByoMachine s₀.byoMachine s.byoMachine) s₀)
      (.fetch s₀) := by
  refine .bind (Prog.Follows.mono (reconcileScope_over s₀) ?_)
  rintro ⟨exit, s⟩ q ⟨how, rfl⟩
  refine .bind ((patchByoMachine_follows how s.byoMachine).mono ?_)
  rintro e q rfl
  dsimp only
  split <;> exact .ret rfl

theorem getOwnerMachine_follows (m : ByoMachine) :
    Prog.Follows (MachineNext k) MachineSilent
      (fun r q => match r with
        | .ok (some machine) => q = .cluster m machine
        | _ => q = .done) (getOwnerMachine m) (.owner m) := by
  unfold getOwnerMachine
  split
  · exact .silent .noOwner (.ret rfl)
  · exact .silent .noOwner (.ret rfl)
  · rename_i name hname
    refine .perform (fun r => match r with
      | .ok machine => .cluster m machine
      | .error _ => .done) (fun r => ?_) fun r => ?_
    · rcases r with e | machine
      · exact .ownerFailed
      · exact .owner hname
    · cases r <;> exact .ret rfl

theorem getClusterFromMetadata_follows (m : ByoMachine) (machine : Machine) :
    Prog.Follows (MachineNext k) MachineSilent
      (fun r q => match r with
        | .ok cluster => q = .infra m machine cluster
        | .error _ => q = .done) (getClusterFromMetadata m) (.cluster m machine) := by
  unfold getClusterFromMetadata
  split
  · exact .silent .noCluster (.ret rfl)
  · exact .silent .noCluster (.ret rfl)
  · rename_i name _ hname
    refine .perform (fun r => match r with
      | .ok cluster => .infra m machine cluster
      | .error _ => .done) (fun r => ?_) fun r => ?_
    · rcases r with e | cluster
      · exact .clusterFailed
      · exact .cluster hname
    · cases r <;> exact .ret rfl

/-- Every reconcile of the ByoMachine controller follows the phases. -/
theorem reconcile_follows (k : NamespacedName) :
    Prog.Follows (MachineNext k) MachineSilent (fun _ q => q = .done) (reconcile k) .start := by
  refine .perform (fun r => match r with
    | .ok m => .owner m
    | .error _ => .done) (fun r => ?_) fun r => ?_
  · rcases r with e | m
    · exact .readFailed
    · exact .read
  rcases r with e | m
  · cases e <;> exact .ret rfl
  refine .bind ((getOwnerMachine_follows m).mono ?_)
  rintro (e | _ | machine) q hq
  · exact .ret hq
  · exact .ret hq
  subst hq
  refine .bind ((getClusterFromMetadata_follows m machine).mono ?_)
  rintro (e | cluster) q hq
  · exact .ret hq
  subst hq
  dsimp only
  split
  · exact .silent .noInfra (.ret rfl)
  refine .perform (fun r => match r with
    | .ok byoCluster => .fetch { cluster, machine, byoCluster, byoMachine := m }
    | .error _ => .done) (fun r => ?_) fun r => ?_
  · rcases r with e | byoCluster
    · exact .infraFailed
    · exact .infra
  rcases r with e | byoCluster
  · exact .ret rfl
  refine .bind ((deferred_follows _).mono ?_)
  exact fun _ _ hq => .ret hq

end Follows

end Byoh.Protocol
