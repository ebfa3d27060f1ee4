import Byoh.Model.System
import Byoh.Protocol.HostEdits

/-!
# The courses of an agent reconcile

A reconcile of the agent reads its host, runs commands and looks at secrets, and patches the host.
What it can do is listed here: `NormalCourse` and `CleanupCourse` relate the host as it was read
to the log of commands and to the host in memory when the patch is sent, one constructor for each
way through the code. `reconcileHost_course` is the only place where the program is taken apart.
-/

set_option autoImplicit false

namespace Byoh.Protocol

open Byoh.Foundation Byoh.Model Byoh.Model.HostReconciler

/-! ## Logs -/

/-- Calls of the agent that run no command and change no object. -/
def isLook : Call → Bool
  | .getSecret _ | .sentinelFileExists | .newVipConfig _ | .parseTemplate _ _ => true
  | _ => false

/-- The calls of `reconcileHost` and their effect on the log. -/
inductive AgentNext : List HostEvent → (c : Call) → Resp c → List HostEvent → Prop
  | command {log : List HostEvent} {c : HostCommand} {h : ByoHost} {ok : Bool} :
      AgentNext log (.hostCommand c h) ok (log ++ [⟨c, h, ok⟩])
  | look {log : List HostEvent} {c : Call} {r : Resp c} (hc : isLook c = true) :
      AgentNext log c r log

/-! ## Courses -/

/-- Both conditions of the agent. -/
def isInstalled (h : ByoHost) : Bool := h.conditions.isTrue .k8sComponentsInstallationSucceeded

def isBootstrapped (h : ByoHost) : Bool := h.conditions.isTrue .k8sNodeBootstrapSucceeded

/-- The host with a condition set to false. -/
def withFalse (t : ConditionType) (reason : Reason) (severity : ConditionSeverity) (h : ByoHost) :
    ByoHost :=
  { h with conditions := h.conditions.markFalse t reason severity "" }

/-- The host with a condition set to true. -/
def withTrue (t : ConditionType) (h : ByoHost) : ByoHost :=
  { h with conditions := h.conditions.markTrue t }

/-- The host that `reconcileNormal` works on: attached, with its bootstrap secret, and not yet
bootstrapped. -/
structure Attached (h : ByoHost) : Prop where
  notMarked : h.carries .hostCleanup = false
  notDeleted : h.deletionTimestamp = false
  machineRef : h.machineRef ≠ none
  bootstrapSecret : h.bootstrapSecret ≠ none
  notBootstrapped : isBootstrapped h = false

/-- The components are there, or installation is skipped; the log of this part and the host in
memory after it. -/
inductive Installed (cfg : Config) (h : ByoHost) : List HostEvent → ByoHost → Prop
  | skipped (hskip : cfg.skipK8sInstallation = true) : Installed cfg h [] h
  | already (hskip : cfg.skipK8sInstallation = false) (h₁ : isInstalled h = true) :
      Installed cfg h [] h
  | now (script : String) (hskip : cfg.skipK8sInstallation = false) (h₁ : isInstalled h = false)
      (hsecret : h.installationSecret ≠ none) :
      Installed cfg h [⟨.install script, h, true⟩]
        (withTrue .k8sComponentsInstallationSucceeded h)

/-- The directories are cleaned one after the other; the log of this part. -/
def globLog (h : ByoHost) (oks : List Bool) : List HostEvent :=
  List.zipWith (fun dir ok => ⟨.removeGlob dir, h, ok⟩) k8sDirectories oks

/-- The courses of a reconcile of a host without the cleanup annotation. -/
inductive NormalCourse (cfg : Config) (h : ByoHost) : List HostEvent → ByoHost → Prop
  | deleted (hd : h.deletionTimestamp = true) : NormalCourse cfg h [] h
  | waitsForMachineRef (hm : h.machineRef = none) :
      NormalCourse cfg h [] (withFalse .k8sNodeBootstrapSucceeded .waitingForMachineRef .info h)
  | waitsForBootstrapSecret (hm : h.machineRef ≠ none) (hs : h.bootstrapSecret = none) :
      NormalCourse cfg h []
        (withFalse .k8sNodeBootstrapSucceeded .bootstrapDataSecretUnavailable .info h)
  | alreadyBootstrapped (hb : isBootstrapped h = true) : NormalCourse cfg h [] h
  | secretUnreadable (ha : Attached h) : NormalCourse cfg h [] h
  | waitsForInstallSecret (ha : Attached h) (hskip : cfg.skipK8sInstallation = false)
      (hi : isInstalled h = false) (hs : h.installationSecret = none) :
      NormalCourse cfg h []
        (withFalse .k8sComponentsInstallationSucceeded .k8sInstallationSecretUnavailable .info h)
  | installFailed (script : String) (ha : Attached h) (hskip : cfg.skipK8sInstallation = false)
      (hi : isInstalled h = false) (hs : h.installationSecret ≠ none) :
      NormalCourse cfg h [⟨.install script, h, false⟩]
        (withFalse .k8sComponentsInstallationSucceeded .k8sComponentsInstallationFailed .info h)
  | directoriesFailed {log : List HostEvent} {h₁ : ByoHost} (oks : List Bool) (ha : Attached h)
      (hi : Installed cfg h log h₁) :
      NormalCourse cfg h (log ++ globLog h₁ oks)
        (withFalse .k8sNodeBootstrapSucceeded .cleanK8sDirectoriesFailed .error h₁)
  | bootstrapFailed {log : List HostEvent} {h₁ : ByoHost} (script : String) (reset : Bool)
      (ha : Attached h) (hi : Installed cfg h log h₁) :
      NormalCourse cfg h
        (log ++ globLog h₁ [true, true] ++
          [⟨.bootstrap script, h₁, false⟩, ⟨.kubeadmReset false, h₁, reset⟩])
        (withFalse .k8sNodeBootstrapSucceeded .cloudInitExecutionFailed .error h₁)
  | bootstrapped {log : List HostEvent} {h₁ : ByoHost} (script : String) (ha : Attached h)
      (hi : Installed cfg h log h₁) :
      NormalCourse cfg h (log ++ globLog h₁ [true, true] ++ [⟨.bootstrap script, h₁, true⟩])
        (withTrue .k8sNodeBootstrapSucceeded h₁)

/-- The node is reset if it was installed; the log of this part and the host in memory after
it. -/
inductive Reset (h : ByoHost) : List HostEvent → ByoHost → Prop
  | notInstalled (hi : isInstalled h = false) : Reset h [] h
  | now (hi : isInstalled h = true) :
      Reset h [⟨.kubeadmReset true, h, true⟩]
        (withFalse .k8sComponentsInstallationSucceeded .k8sNodeAbsent .info h)

/-- The uninstall script has succeeded, or there is none to run. -/
inductive Uninstalled (cfg : Config) (h : ByoHost) : List HostEvent → Prop
  | notNeeded (hn : cfg.skipK8sInstallation = true ∨ h.uninstallationSecret = none) :
      Uninstalled cfg h []
  | now (script : String) (hskip : cfg.skipK8sInstallation = false)
      (hs : h.uninstallationSecret ≠ none) : Uninstalled cfg h [⟨.uninstall script, h, true⟩]

/-- The last steps of `hostCleanUp` only remove the sentinel file and the endpoint address. -/
def isLocal (e : HostEvent) : Bool :=
  match e.command with
  | .removeSentinelFile | .deleteIP _ => true
  | _ => false

/-- The host in memory once `hostCleanUp` has left the node. -/
def absentHost (h : ByoHost) : ByoHost :=
  withFalse .k8sNodeBootstrapSucceeded .k8sNodeAbsent .info h

/-- The host in memory at the end of `hostCleanUp`. -/
def cleanedHost (h : ByoHost) : ByoHost :=
  absentHost (removeAnnotations { absentHost h with installationSecret := none })

/-- The courses of a reconcile of a host with the cleanup annotation; the flag says that
`hostCleanUp` has come to its end. -/
inductive CleanupCourse (cfg : Config) (h : ByoHost) : List HostEvent → ByoHost → Bool → Prop
  | resetFailed (hi : isInstalled h = true) :
      CleanupCourse cfg h [⟨.kubeadmReset true, h, false⟩] h false
  | uninstallUnreadable {log : List HostEvent} {h₁ : ByoHost} (hr : Reset h log h₁)
      (hskip : cfg.skipK8sInstallation = false) (hs : h₁.uninstallationSecret ≠ none) :
      CleanupCourse cfg h log h₁ false
  | uninstallFailed {log : List HostEvent} {h₁ : ByoHost} (script : String) (hr : Reset h log h₁)
      (hskip : cfg.skipK8sInstallation = false) (hs : h₁.uninstallationSecret ≠ none) :
      CleanupCourse cfg h (log ++ [⟨.uninstall script, h₁, false⟩]) h₁ false
  | localFailed {log log' rest : List HostEvent} {h₁ : ByoHost} (hr : Reset h log h₁)
      (hu : Uninstalled cfg h₁ log') (hl : rest.all isLocal = true) :
      CleanupCourse cfg h (log ++ log' ++ rest) (absentHost h₁) false
  | completed {log log' rest : List HostEvent} {h₁ : ByoHost} (hr : Reset h log h₁)
      (hu : Uninstalled cfg h₁ log') (hl : rest.all isLocal = true) :
      CleanupCourse cfg h (log ++ log' ++ rest) (cleanedHost h₁) true

/-- The courses of a reconcile. -/
def Course (cfg : Config) (h : ByoHost) (log : List HostEvent) (h' : ByoHost) : Prop :=
  if h.carries .hostCleanup then ∃ completed, CleanupCourse cfg h log h' completed
  else NormalCourse cfg h log h'

/-! ## The program takes one of the courses -/

section Follows

variable {cfg : Config} {α : Type} {h : ByoHost} {log : List HostEvent}
  {post : Exit Err Unit → ByoHost → List HostEvent → Prop}

/-- `x`, called on the host `h` with the log `log`, ends so that `post` holds. -/
abbrev Runs (post : Exit Err α → ByoHost → List HostEvent → Prop) (x : HostM α) (h : ByoHost)
    (log : List HostEvent) : Prop :=
  GoM.Follows AgentNext (fun _ _ => False) post x h log

/-- A call that only looks leaves the log as it is. -/
theorem look_bind {β : Type} {post : Exit Err β → ByoHost → List HostEvent → Prop} {c : Call}
    (hc : isLook c = true) {f : Resp c → HostM β} (hf : ∀ r, Runs post (f r) h log) :
    Runs post (GoM.lift (call c) >>= f) h log :=
  .lift_bind (.call _ (fun _ => .look hc) fun r => .ret (hf r))

/-- A command is logged with its result; its failure is the error of `runCmd`. -/
theorem runCmd_runs {c : HostCommand} (hok : post (.ok ()) h (log ++ [⟨c, h, true⟩]))
    (herr : post (.err .command) h (log ++ [⟨c, h, false⟩])) : Runs post (runCmd c) h log := by
  refine .get_bind (.lift_bind (.call (fun ok => log ++ [⟨c, h, ok⟩]) (fun _ => .command)
    fun ok => .ret ?_))
  cases ok with
  | true => exact .pure hok
  | false => exact .throw herr

theorem getSecret_runs {post : Exit Err Secret → ByoHost → List HostEvent → Prop}
    {ref : ObjectReference} (hok : ∀ secret, post (.ok secret) h log)
    (herr : ∀ e, post (.err e) h log) : Runs post (getSecret ref) h log := by
  refine look_bind rfl fun r => ?_
  cases r with
  | error e => exact .throw (herr _)
  | ok secret => exact .pure (hok secret)

theorem parseScript_runs {post : Exit Err String → ByoHost → List HostEvent → Prop}
    {script : String} (hok : ∀ data, post (.ok data) h log) (herr : ∀ e, post (.err e) h log) :
    Runs post (parseScript cfg script) h log := by
  refine look_bind rfl fun r => ?_
  cases r with
  | none => exact .throw (herr _)
  | some data => exact .pure (hok data)

/-- `resetNode` runs one command, `kubeadm reset`. -/
theorem resetNode_runs {inCleanup : Bool}
    (hok : post (.ok ()) h (log ++ [⟨.kubeadmReset inCleanup, h, true⟩]))
    (herr : ∀ e, post (.err e) h (log ++ [⟨.kubeadmReset inCleanup, h, false⟩])) :
    Runs post (resetNode inCleanup) h log :=
  .attempt_bind (runCmd_runs (.pure hok) (.throw (herr _)))

/-! ### Cleanup -/

/-- Only a host whose components are installed is reset; a failed reset is an error. -/
theorem resetInstalledNode_runs (hok : ∀ log h₁, Reset h log h₁ → post (.ok ()) h₁ log)
    (herr : isInstalled h = true → ∀ e, post (.err e) h [⟨.kubeadmReset true, h, false⟩]) :
    Runs post resetInstalledNode h [] := by
  refine .get_bind ?_
  split
  case isTrue hi => exact .bind (resetNode_runs (.modify (hok _ _ (.now hi))) (herr hi))
  case isFalse hi => exact .pure (hok _ _ (.notInstalled (Bool.eq_false_iff.2 hi)))

/-- The uninstall script runs only where installation is not skipped and a secret holds the script.
Reading and rendering it may fail before anything runs. -/
theorem uninstallNode_runs (hok : ∀ log', Uninstalled cfg h log' → post (.ok ()) h (log ++ log'))
    (hunreadable : cfg.skipK8sInstallation = false → h.uninstallationSecret ≠ none →
      ∀ e, post (.err e) h log)
    (herr : cfg.skipK8sInstallation = false → h.uninstallationSecret ≠ none →
      ∀ e script, post (.err e) h (log ++ [⟨.uninstall script, h, false⟩])) :
    Runs post (uninstallNode cfg) h log := by
  have hnone : ∀ hn : cfg.skipK8sInstallation = true ∨ h.uninstallationSecret = none,
      post (.ok ()) h log := fun hn => by simpa using hok [] (.notNeeded hn)
  refine .get_bind ?_
  cases hskip : cfg.skipK8sInstallation with
  | true => exact .pure (hnone (.inl hskip))
  | false =>
    cases hs : h.uninstallationSecret with
    | none => exact .pure (hnone (.inr hs))
    | some ref =>
      have hs' : h.uninstallationSecret ≠ none := by simp [hs]
      refine .bind (getSecret_runs (fun secret => ?_) fun e => hunreadable hskip hs' e)
      dsimp only
      split
      · exact .throw (hunreadable hskip hs' _)
      · exact .bind (parseScript_runs (fun script => runCmd_runs (hok _ (.now script hskip hs'))
          (herr hskip hs' _ script)) fun e => hunreadable hskip hs' e)

theorem removeSentinelFile_runs
    (hpost : ∀ exit rest, rest.all isLocal = true → (∀ m, exit ≠ .panic m) →
      post exit h (log ++ rest)) : Runs post removeSentinelFile h log := by
  refine look_bind rfl fun present => ?_
  cases present with
  | false => exact .pure (by simpa using hpost (.ok ()) [] rfl (by simp))
  | true =>
    exact .attempt_bind (runCmd_runs (.pure (hpost _ _ rfl (by simp)))
      (.throw (hpost _ _ rfl (by simp))))

theorem deleteEndpointIP_runs
    (hpost : ∀ exit rest, rest.all isLocal = true → (∀ m, exit ≠ .panic m) →
      post exit h (log ++ rest)) : Runs post deleteEndpointIP h log := by
  have hnone : post (.ok ()) h log := by simpa using hpost (.ok ()) [] rfl (by simp)
  refine .get_bind ?_
  cases h.annotations.get .endPointIP with
  | none => exact .pure hnone
  | some ip =>
    refine look_bind rfl fun ok => ?_
    cases ok with
    | false => exact .pure hnone
    | true => exact runCmd_runs (hpost _ _ rfl (by simp)) (hpost _ _ rfl (by simp))

/-- A cleanup returns nil exactly when it has come to its end. -/
def CleanupEnds (cfg : Config) {α : Type} (h : ByoHost) (exit : Exit Err α) (h' : ByoHost)
    (log : List HostEvent) : Prop :=
  (∃ e, exit = .err e) ∧ CleanupCourse cfg h log h' false ∨
    (∃ a, exit = .ok a) ∧ CleanupCourse cfg h log h' true

/-- Every run of `hostCleanUp` is one of the courses of a cleanup. -/
theorem hostCleanUp_runs (h : ByoHost) : Runs (CleanupEnds cfg h) (hostCleanUp cfg) h [] := by
  refine .bind (resetInstalledNode_runs (fun log h₁ hr => ?_)
    fun hi e => .inl ⟨⟨e, rfl⟩, .resetFailed hi⟩)
  refine .bind (uninstallNode_runs (fun log' hu => ?_)
    (fun hskip hs e => .inl ⟨⟨e, rfl⟩, .uninstallUnreadable hr hskip hs⟩)
    fun hskip hs e script => .inl ⟨⟨e, rfl⟩, .uninstallFailed script hr hskip hs⟩)
  refine .modify_bind (.bind (removeSentinelFile_runs fun exit rest hl hpanic => ?_))
  cases exit with
  | err e => exact .inl ⟨⟨e, rfl⟩, .localFailed hr hu hl⟩
  | panic m => exact absurd rfl (hpanic m)
  | ok _ =>
    refine .bind (deleteEndpointIP_runs fun exit rest' hl' hpanic' => ?_)
    have hrest : (rest ++ rest').all isLocal = true := by simp [List.all_append, hl, hl']
    rw [List.append_assoc]
    cases exit with
    | err e => exact .inl ⟨⟨e, rfl⟩, .localFailed hr hu hrest⟩
    | panic m => exact absurd rfl (hpanic' m)
    | ok _ =>
      exact .modify_bind (.modify_bind (.modify (.inr ⟨⟨(), rfl⟩, .completed hr hu hrest⟩)))

/-! ### Installation and bootstrap -/

/-- The install script is read and rendered before it runs; only its own failure marks the condition
false. -/
theorem executeInstallerController_runs (hs : h.installationSecret ≠ none)
    (hok : ∀ script, post (.ok ()) h [⟨.install script, h, true⟩])
    (hunreadable : ∀ e, post (.err e) h []) (herr : ∀ e script, post (.err e)
      (withFalse .k8sComponentsInstallationSucceeded .k8sComponentsInstallationFailed .info h)
      [⟨.install script, h, false⟩]) : Runs post (executeInstallerController cfg) h [] := by
  refine .get_bind ?_
  cases hi : h.installationSecret with
  | none => exact absurd hi hs
  | some ref =>
    refine .bind (getSecret_runs (fun secret => ?_) hunreadable)
    dsimp only
    split
    · exact .throw (hunreadable _)
    · refine .bind (parseScript_runs (fun script => ?_) hunreadable)
      exact .attempt_bind (runCmd_runs (.pure (hok script)) (.modify_bind (.throw (herr _ script))))

/-- The ways out of the installation: the components are there, the secret is awaited, a read fails,
or the script fails. -/
theorem installComponents_runs {post : Exit Err Bool → ByoHost → List HostEvent → Prop}
    (hok : ∀ log h₁, Installed cfg h log h₁ → post (.ok true) h₁ log)
    (hwait : cfg.skipK8sInstallation = false → isInstalled h = false →
      h.installationSecret = none → post (.ok false)
        (withFalse .k8sComponentsInstallationSucceeded .k8sInstallationSecretUnavailable .info h) [])
    (hunreadable : ∀ e, post (.err e) h [])
    (herr : cfg.skipK8sInstallation = false → isInstalled h = false →
      h.installationSecret ≠ none → ∀ e script, post (.err e)
        (withFalse .k8sComponentsInstallationSucceeded .k8sComponentsInstallationFailed .info h)
        [⟨.install script, h, false⟩]) : Runs post (installComponents cfg) h [] := by
  refine .get_bind ?_
  split
  case isTrue hskip => exact .pure (hok _ _ (.skipped hskip))
  case isFalse hskip =>
  have hskip : cfg.skipK8sInstallation = false := by simpa using hskip
  split
  case isTrue hi => exact .pure (hok _ _ (.already hskip hi))
  case isFalse hi =>
  have hi : isInstalled h = false := Bool.eq_false_iff.2 hi
  split
  case isTrue hs => exact .modify_bind (.pure (hwait hskip hi (by simpa using hs)))
  case isFalse hs =>
    have hs : h.installationSecret ≠ none := by simpa using hs
    exact .bind (executeInstallerController_runs hs
      (fun script => .modify_bind (.pure (hok _ _ (.now script hskip hi hs)))) hunreadable
      (herr hskip hi hs))

/-- The directories are cleaned one after the other, and success means that both were. -/
theorem removeGlobs_runs (h : ByoHost) (log : List HostEvent) :
    Prog.Follows AgentNext (fun _ _ => False)
      (fun ok log' => ∃ oks, log' = log ++ globLog h oks ∧ (ok = true → oks = [true, true]))
      (removeGlobs h k8sDirectories) log := by
  refine .perform (fun ok => log ++ [⟨.removeGlob "/run/kubeadm/*", h, ok⟩]) (fun _ => .command)
    fun ok₁ => .perform (fun ok => log ++ [⟨.removeGlob "/run/kubeadm/*", h, ok₁⟩] ++
      [⟨.removeGlob "/etc/cni/net.d/*", h, ok⟩]) (fun _ => .command) fun ok₂ => .ret ?_
  refine ⟨[ok₁, ok₂], by simp [globLog, k8sDirectories], ?_⟩
  cases ok₁ <;> cases ok₂ <;> simp

/-- The bootstrap script runs after both directories are cleaned, and its failure is followed by a
reset. -/
theorem bootstrap_runs {script : String}
    (hok : post (.ok ()) (withTrue .k8sNodeBootstrapSucceeded h)
      (log ++ globLog h [true, true] ++ [⟨.bootstrap script, h, true⟩]))
    (hdirs : ∀ e oks, post (.err e)
      (withFalse .k8sNodeBootstrapSucceeded .cleanK8sDirectoriesFailed .error h)
      (log ++ globLog h oks)) (herr : ∀ e reset, post (.err e)
      (withFalse .k8sNodeBootstrapSucceeded .cloudInitExecutionFailed .error h)
      (log ++ globLog h [true, true] ++
        [⟨.bootstrap script, h, false⟩, ⟨.kubeadmReset false, h, reset⟩])) :
    Runs post (bootstrap script) h log := by
  refine .attempt_bind (.get_bind (.lift_bind ((removeGlobs_runs h log).mono ?_)))
  rintro ok _ ⟨oks, rfl, hoks⟩
  cases ok with
  | false => exact .throw (.modify_bind (.throw (hdirs _ oks)))
  | true =>
    obtain rfl := hoks rfl
    refine .pure (.attempt_bind (runCmd_runs (.modify hok) ?_))
    refine .attempt_bind (resetNode_runs (.modify_bind (.throw ?_))
      fun e => .modify_bind (.throw ?_))
    · rw [List.append_assoc (log ++ _)]
      exact herr .command true
    · rw [List.append_assoc (log ++ _)]
      exact herr .command false

/-- Every run of `reconcileNormal` is one of the normal courses. -/
theorem reconcileNormal_runs (hm : h.carries .hostCleanup = false)
    (hd : h.deletionTimestamp = false) :
    Runs (fun _ h' log => NormalCourse cfg h log h') (reconcileNormal cfg) h [] := by
  refine .get_bind ?_
  split
  case isTrue hr => exact .modify_bind (.pure (.waitsForMachineRef (by simpa using hr)))
  case isFalse hr =>
  have hr : h.machineRef ≠ none := by simpa using hr
  cases hb : h.bootstrapSecret with
  | none => exact .modify_bind (.pure (.waitsForBootstrapSecret hr hb))
  | some ref =>
  dsimp only
  by_cases hboot : isBootstrapped h = true
  · have : h.conditions.isTrue .k8sNodeBootstrapSucceeded = true := hboot
    simp only [this, Bool.not_true]
    exact .pure (.alreadyBootstrapped hboot)
  have ha : Attached h := ⟨hm, hd, hr, by simp [hb], by simpa using hboot⟩
  refine .bind (.when (fun _ => ?_) fun hc => ?_)
  · refine .bind (.bind (getSecret_runs (fun secret => .pure ?_) fun e => .secretUnreadable ha))
    refine .bind (installComponents_runs (fun log h₁ hi => ?_)
      (fun hskip hi hs => .pure (.pure (.waitsForInstallSecret ha hskip hi hs)))
      (fun e => .secretUnreadable ha) fun hskip hi hs e script =>
        .installFailed script ha hskip hi hs)
    exact bootstrap_runs (.pure (.bootstrapped _ ha hi)) (fun e oks => .directoriesFailed oks ha hi)
      fun e reset => .bootstrapFailed _ reset ha hi
  · exact absurd ((Bool.not_eq_false' _).mp hc) hboot

/-- A reconcile of a marked host is a cleanup. -/
theorem reconcileHost_cleanup (hm : h.carries .hostCleanup = true) :
    Runs (CleanupEnds cfg h) (reconcileHost cfg) h [] := by
  refine .get_bind ?_
  rw [if_pos hm]
  refine .bind ((hostCleanUp_runs h).mono ?_)
  rintro exit h' log hends
  rcases hends with ⟨⟨e, rfl⟩, hcourse⟩ | ⟨⟨a, rfl⟩, hcourse⟩
  · exact .inl ⟨⟨e, rfl⟩, hcourse⟩
  · exact .pure (.inr ⟨⟨_, rfl⟩, hcourse⟩)

theorem CleanupEnds.course {α : Type} {h' : ByoHost} {exit : Exit Err α}
    (hends : CleanupEnds cfg h exit h' log) (hm : h.carries .hostCleanup = true) :
    Course cfg h log h' := by
  rw [Course, if_pos hm]
  rcases hends with ⟨_, hcourse⟩ | ⟨_, hcourse⟩
  · exact ⟨false, hcourse⟩
  · exact ⟨true, hcourse⟩

/-- Every reconcile of the agent takes one of the courses. -/
theorem reconcileHost_course (cfg : Config) (h : ByoHost) :
    Runs (fun _ h' log => Course cfg h log h') (reconcileHost cfg) h [] := by
  by_cases hm : h.carries .hostCleanup = true
  · exact (reconcileHost_cleanup hm).mono fun _ _ _ hends => hends.course hm
  · refine .get_bind ?_
    rw [if_neg hm]
    have hm' : h.carries .hostCleanup = false := by simpa using hm
    simp only [Course, hm', Bool.false_eq_true, if_false]
    by_cases hd : h.deletionTimestamp = true
    · rw [if_pos hd]
      exact .pure (.deleted hd)
    · rw [if_neg hd]
      exact reconcileNormal_runs hm' (by simpa using hd)

end Follows

end Byoh.Protocol
