import Byoh.Protocol.ManagerWrites
import Mathlib.Data.List.DropRight

/-!
# The command history of a host

The agent encodes what it has done to its machine in two conditions of the host object. This
module connects the conditions with the commands that actually ran, over any number of reconciles
of the agent, with the manager working in between.

`Tracks` replays installations and resets: `K8sComponentsInstallationSucceeded` is true exactly when
an installation has succeeded that no cleanup has reset since. `InOrder` says what a
cleanup runs on which node: resets on installed ones, uninstallations on the others.
-/

set_option autoImplicit false

namespace Byoh.Model.HostEvent

/-! ## Events -/

def isInstall (e : HostEvent) : Bool := match e.command with | .install _ => true | _ => false

def isBootstrap (e : HostEvent) : Bool := match e.command with | .bootstrap _ => true | _ => false

def isUninstall (e : HostEvent) : Bool := match e.command with | .uninstall _ => true | _ => false

/-- A `kubeadm reset` of `hostCleanUp`; the reset after a failed bootstrap is not meant. -/
def isCleanupReset (e : HostEvent) : Bool := decide (e.command = .kubeadmReset true)

/-- The install script succeeded. -/
def installs (e : HostEvent) : Bool := e.isInstall && e.succeeded

/-- The bootstrap script succeeded. -/
def bootstraps (e : HostEvent) : Bool := e.isBootstrap && e.succeeded

/-- The reset of a cleanup succeeded. -/
def resets (e : HostEvent) : Bool := e.isCleanupReset && e.succeeded

end Byoh.Model.HostEvent

namespace Byoh.Properties

open Byoh.Foundation Byoh.Model Byoh.Protocol Byoh.Model.HostReconciler

/-! ## Installations and resets -/

/-- Is the node installed after these events? -/
def replay : Bool → List HostEvent → Bool
  | b, [] => b
  | b, e :: es => replay (if e.installs then true else if e.resets then false else b) es

theorem replay_append (b : Bool) (es es' : List HostEvent) :
    replay b (es ++ es') = replay (replay b es) es' := by
  induction es generalizing b with
  | nil => rfl
  | cons e es ih => exact ih _

/-- A node that is installed at the end was installed at the start and never reset, or was
installed by an event after which there was no reset. -/
theorem replay_eq_true {b : Bool} {es : List HostEvent} (h : replay b es = true) :
    (b = true ∧ ∀ e ∈ es, e.resets = false) ∨
      ∃ pre i post, es = pre ++ i :: post ∧ i.installs = true ∧ ∀ e ∈ post, e.resets = false := by
  induction es generalizing b with
  | nil => exact .inl ⟨h, by simp⟩
  | cons e es ih =>
    rw [replay] at h
    rcases ih h with ⟨hb, hes⟩ | ⟨pre, i, post, rfl, hi, hpost⟩
    · by_cases hi : e.installs = true
      · exact .inr ⟨[], e, es, rfl, hi, hes⟩
      · rw [if_neg hi] at hb
        by_cases hr : e.resets = true
        · simp [hr] at hb
        · rw [if_neg hr] at hb
          refine .inl ⟨hb, ?_⟩
          simpa [Bool.not_eq_true _ ▸ hr] using hes
    · exact .inr ⟨e :: pre, i, post, rfl, hi, hpost⟩

/-- Without a reset, a node stays installed. -/
theorem replay_of_not_resets {es : List HostEvent} (h : ∀ e ∈ es, ¬e.resets = true) :
    replay true es = true := by
  induction es with
  | nil => rfl
  | cons e es ih =>
    rw [List.forall_mem_cons] at h
    rw [replay, if_neg h.1, ite_self]
    exact ih h.2

/-- After an installation, a node is only uninstalled by a reset. -/
theorem replay_eq_false {pre post : List HostEvent} {b : Bool} {i : HostEvent}
    (h : replay b (pre ++ i :: post) = false) (hi : i.installs = true) :
    ∃ e ∈ post, e.resets = true := by
  by_contra hno
  rw [replay_append, replay, if_pos hi, replay_of_not_resets fun e he hr => hno ⟨e, he, hr⟩] at h
  cases h

/-- The installation condition in memory agrees with the history whenever a command starts (the
last local steps of a cleanup apart), and at the end. -/
structure Tracks (b : Bool) (log : List HostEvent) (b' : Bool) : Prop where
  memory : ∀ pre e post, log = pre ++ e :: post → isLocal e = false →
    isInstalled e.byoHost = replay b pre
  last : replay b log = b'

namespace Tracks

variable {b b' b'' : Bool} {log log' : List HostEvent}

theorem nil (b : Bool) : Tracks b [] b := ⟨by simp, rfl⟩

theorem append (h : Tracks b log b') (h' : Tracks b' log' b'') : Tracks b (log ++ log') b'' where
  memory := by
    intro pre e post heq he
    rcases List.append_eq_append_iff.1 heq with ⟨mid, rfl, hlog'⟩ | ⟨mid, rfl, hmid⟩
    · rw [replay_append, h.last]
      exact h'.memory mid e post hlog' he
    · cases mid with
      | nil =>
        have := h'.memory [] e post (by simpa using hmid.symm) he
        rw [List.append_nil] at h
        rw [this, h.last]
        rfl
      | cons e' mid =>
        obtain ⟨rfl, rfl⟩ := List.cons.inj hmid
        exact h.memory pre _ mid rfl he
  last := by rw [replay_append, h.last, h'.last]

/-- One command on a host that says what is true. -/
theorem single {e : HostEvent} (hb : isInstalled e.byoHost = b) :
    Tracks b [e] (if e.installs then true else if e.resets then false else b) where
  memory := by
    intro pre e' post heq _
    cases pre with
    | nil =>
      obtain ⟨rfl, rfl⟩ := List.cons.inj heq
      exact hb
    | cons x pre =>
      obtain ⟨_, hnil⟩ := List.cons.inj heq
      exact absurd hnil (by simp)
  last := rfl

/-- Commands that neither install nor reset, on a host that says what is true. -/
theorem neutral (h : ∀ e ∈ log, e.installs = false ∧ e.resets = false ∧
    (isLocal e = true ∨ isInstalled e.byoHost = b)) : Tracks b log b := by
  induction log with
  | nil => exact nil b
  | cons e log ih =>
    rw [List.forall_mem_cons] at h
    obtain ⟨⟨hi, hr, he⟩, hlog⟩ := h
    have hone : Tracks b [e] b := by
      refine ⟨?_, by simp [replay, hi, hr]⟩
      intro pre e' post heq hlocal
      cases pre with
      | nil =>
        obtain ⟨rfl, rfl⟩ := List.cons.inj heq
        rcases he with he | he
        · rw [he] at hlocal
          cases hlocal
        · exact he
      | cons x pre =>
        obtain ⟨_, hnil⟩ := List.cons.inj heq
        exact absurd hnil (by simp)
    exact hone.append (ih hlog)

end Tracks

section Courses

variable {cfg : Config} {h h' : ByoHost} {log : List HostEvent} {e : HostEvent}

theorem isInstalled_withTrue (h : ByoHost) :
    isInstalled (withTrue .k8sComponentsInstallationSucceeded h) = true := by
  simp [isInstalled, withTrue]

theorem isInstalled_withFalse (reason : Reason) (severity : ConditionSeverity) (h : ByoHost) :
    isInstalled (withFalse .k8sComponentsInstallationSucceeded reason severity h) = false := by
  simp [isInstalled, withFalse]

/-- The bootstrap condition does not matter. -/
@[simp] theorem isInstalled_bootstrap_withFalse (reason : Reason) (severity : ConditionSeverity)
    (h : ByoHost) :
    isInstalled (withFalse .k8sNodeBootstrapSucceeded reason severity h) = isInstalled h := by
  simp [isInstalled, withFalse]

@[simp] theorem isInstalled_bootstrap_withTrue (h : ByoHost) :
    isInstalled (withTrue .k8sNodeBootstrapSucceeded h) = isInstalled h := by
  simp [isInstalled, withTrue]

@[simp] theorem isInstalled_cleanedHost (h : ByoHost) :
    isInstalled (cleanedHost h) = isInstalled h := by
  simp [cleanedHost, absentHost, isInstalled, withFalse, removeAnnotations]

theorem Installed.tracks (hi : Installed cfg h log h') :
    Tracks (isInstalled h) log (isInstalled h') := by
  cases hi with
  | skipped _ => exact .nil _
  | already _ _ => exact .nil _
  | now script _ _ _ =>
    rw [isInstalled_withTrue]
    exact .single rfl

theorem mem_globLog {oks : List Bool} (he : e ∈ globLog h oks) :
    ∃ dir ok, e = ⟨.removeGlob dir, h, ok⟩ := by
  rw [globLog, List.mem_iff_getElem] at he
  obtain ⟨i, hi, rfl⟩ := he
  rw [List.getElem_zipWith]
  exact ⟨_, _, rfl⟩

theorem globLog_tracks (h : ByoHost) (oks : List Bool) :
    Tracks (isInstalled h) (globLog h oks) (isInstalled h) := by
  refine .neutral fun e he => ?_
  obtain ⟨dir, ok, rfl⟩ := mem_globLog he
  exact ⟨rfl, rfl, .inr rfl⟩

theorem NormalCourse.tracks (hc : NormalCourse cfg h log h') :
    Tracks (isInstalled h) log (isInstalled h') := by
  cases hc with
  | deleted _ | alreadyBootstrapped _ | secretUnreadable _ => exact .nil _
  | waitsForMachineRef _ | waitsForBootstrapSecret _ _ =>
    rw [isInstalled_bootstrap_withFalse]
    exact .nil _
  | waitsForInstallSecret _ _ hi _ =>
    rw [isInstalled_withFalse, hi]
    exact .nil _
  | installFailed script _ _ hi _ =>
    rw [isInstalled_withFalse, hi]
    exact .single hi
  | directoriesFailed oks _ hi =>
    rw [isInstalled_bootstrap_withFalse]
    exact (Installed.tracks hi).append (globLog_tracks _ oks)
  | @bootstrapFailed _ h₁ script reset _ hi =>
    rw [isInstalled_bootstrap_withFalse]
    refine ((Installed.tracks hi).append (globLog_tracks _ _)).append (.neutral fun e he => ?_)
    rcases List.mem_pair.1 he with rfl | rfl
    · exact ⟨rfl, rfl, .inr rfl⟩
    · exact ⟨rfl, rfl, .inr rfl⟩
  | bootstrapped script _ hi =>
    rw [isInstalled_bootstrap_withTrue]
    exact ((Installed.tracks hi).append (globLog_tracks _ _)).append (.single rfl)

theorem Reset.not_installed (hr : Reset h log h') : isInstalled h' = false := by
  cases hr with
  | notInstalled hi => exact hi
  | now _ => exact isInstalled_withFalse ..

theorem Reset.tracks (hr : Reset h log h') : Tracks (isInstalled h) log (isInstalled h') := by
  rw [Reset.not_installed hr]
  cases hr with
  | notInstalled hi =>
    rw [hi]
    exact .nil _
  | now hi => exact .single rfl

theorem Uninstalled.tracks (hu : Uninstalled cfg h log) :
    Tracks (isInstalled h) log (isInstalled h) := by
  cases hu with
  | notNeeded _ => exact .nil _
  | now script _ _ => exact .single rfl

theorem tracks_of_isLocal (b : Bool) (hl : log.all isLocal = true) : Tracks b log b := by
  refine .neutral fun e he => ?_
  have hlocal := List.all_eq_true.1 hl e he
  refine ⟨?_, ?_, .inl hlocal⟩
  all_goals
    obtain ⟨c, _, _⟩ := e
    cases c <;> first | rfl | cases hlocal

theorem CleanupCourse.tracks {completed : Bool} (hc : CleanupCourse cfg h log h' completed) :
    Tracks (isInstalled h) log (isInstalled h') := by
  cases hc with
  | resetFailed hi => exact .single rfl
  | uninstallUnreadable hr _ _ => exact Reset.tracks hr
  | uninstallFailed script hr _ _ => exact (Reset.tracks hr).append (.single rfl)
  | localFailed hr hu hl =>
    rw [absentHost, isInstalled_bootstrap_withFalse]
    exact ((Reset.tracks hr).append (Uninstalled.tracks hu)).append (tracks_of_isLocal _ hl)
  | completed hr hu hl =>
    rw [isInstalled_cleanedHost]
    exact ((Reset.tracks hr).append (Uninstalled.tracks hu)).append (tracks_of_isLocal _ hl)

/-- Every course keeps the installation condition in step with the history. -/
theorem Course.tracks (hc : Course cfg h log h') : Tracks (isInstalled h) log (isInstalled h') := by
  rw [Protocol.Course] at hc
  split at hc
  · obtain ⟨completed, hc⟩ := hc
    exact CleanupCourse.tracks hc
  · exact NormalCourse.tracks hc

/-! ## Resets and uninstallations within one reconcile -/

/-- A cleanup resets installed nodes only, and uninstalls nodes that are not installed only. -/
def InOrder (e : HostEvent) : Prop :=
  (e.isCleanupReset = true → isInstalled e.byoHost = true) ∧
    (e.isUninstall = true → isInstalled e.byoHost = false)

theorem inOrder_of_other (hr : e.isCleanupReset = false) (hu : e.isUninstall = false) :
    InOrder e := by
  simp [InOrder, hr, hu]

theorem inOrder_of_isLocal (h : isLocal e = true) : InOrder e := by
  obtain ⟨c, _, _⟩ := e
  cases c <;> first | exact inOrder_of_other rfl rfl | cases h

theorem Installed.inOrder (hi : Installed cfg h log h') (he : e ∈ log) : InOrder e := by
  cases hi with
  | skipped _ => cases he
  | already _ _ => cases he
  | now script _ _ _ =>
    obtain rfl := List.mem_singleton.1 he
    exact inOrder_of_other rfl rfl

theorem NormalCourse.inOrder (hc : NormalCourse cfg h log h') (he : e ∈ log) : InOrder e := by
  have hglob : ∀ {h : ByoHost} {oks : List Bool}, e ∈ globLog h oks → InOrder e := fun he => by
    obtain ⟨dir, ok, rfl⟩ := mem_globLog he
    exact inOrder_of_other rfl rfl
  cases hc with
  | installFailed script _ _ _ _ =>
    obtain rfl := List.mem_singleton.1 he
    exact inOrder_of_other rfl rfl
  | directoriesFailed oks _ hi =>
    rcases List.mem_append.1 he with he | he
    · exact Installed.inOrder hi he
    · exact hglob he
  | bootstrapFailed script reset _ hi =>
    rcases List.mem_append.1 he with he | he
    · rcases List.mem_append.1 he with he | he
      · exact Installed.inOrder hi he
      · exact hglob he
    · rcases List.mem_pair.1 he with rfl | rfl <;>
        exact inOrder_of_other rfl rfl
  | bootstrapped script _ hi =>
    rcases List.mem_append.1 he with he | he
    · rcases List.mem_append.1 he with he | he
      · exact Installed.inOrder hi he
      · exact hglob he
    · obtain rfl := List.mem_singleton.1 he
      exact inOrder_of_other rfl rfl
  | _ => cases he

theorem Reset.inOrder (hr : Reset h log h') (he : e ∈ log) : InOrder e := by
  cases hr with
  | notInstalled _ => cases he
  | now hi =>
    obtain rfl := List.mem_singleton.1 he
    exact ⟨fun _ => hi, nofun⟩

theorem Uninstalled.inOrder (hu : Uninstalled cfg h log) (hi : isInstalled h = false)
    (he : e ∈ log) : InOrder e := by
  cases hu with
  | notNeeded _ => cases he
  | now script _ _ =>
    obtain rfl := List.mem_singleton.1 he
    exact ⟨nofun, fun _ => hi⟩

theorem CleanupCourse.inOrder {completed : Bool} (hc : CleanupCourse cfg h log h' completed)
    (he : e ∈ log) : InOrder e := by
  have hthree : ∀ {log log' rest : List HostEvent} {h₁ : ByoHost}, Reset h log h₁ →
      Uninstalled cfg h₁ log' → rest.all isLocal = true → e ∈ log ++ log' ++ rest → InOrder e := by
    intro log log' rest h₁ hr hu hl he
    rcases List.mem_append.1 he with he | he
    · rcases List.mem_append.1 he with he | he
      · exact Reset.inOrder hr he
      · exact Uninstalled.inOrder hu (Reset.not_installed hr) he
    · exact inOrder_of_isLocal (List.all_eq_true.1 hl e he)
  cases hc with
  | resetFailed hi =>
    obtain rfl := List.mem_singleton.1 he
    exact ⟨fun _ => hi, nofun⟩
  | uninstallUnreadable hr _ _ => exact Reset.inOrder hr he
  | uninstallFailed script hr _ _ =>
    rcases List.mem_append.1 he with he | he
    · exact Reset.inOrder hr he
    · obtain rfl := List.mem_singleton.1 he
      exact ⟨nofun, fun _ => Reset.not_installed hr⟩
  | localFailed hr hu hl => exact hthree hr hu hl he
  | completed hr hu hl => exact hthree hr hu hl he

theorem Course.inOrder (hc : Course cfg h log h') (he : e ∈ log) : InOrder e := by
  rw [Protocol.Course] at hc
  split at hc
  · obtain ⟨completed, hc⟩ := hc
    exact CleanupCourse.inOrder hc he
  · exact NormalCourse.inOrder hc he

/-- A course that takes the cleanup annotation away is a completed cleanup. -/
theorem Course.of_cleanedUp (hc : Course cfg h log h') (hm : h.carries .hostCleanup = true)
    (hm' : h'.carries .hostCleanup = false) : CleanupCourse cfg h log h' true := by
  rw [Protocol.Course, if_pos hm] at hc
  obtain ⟨completed, hc⟩ := hc
  cases completed with
  | true => exact hc
  | false =>
    have hshape : ConditionsOnly h h' := hc.shape
    rw [ConditionsOnly] at hshape
    rw [hshape] at hm'
    exact absurd (hm.symm.trans hm') (by simp)

/-- A completed cleanup ran the uninstall script if it had one to run. -/
theorem CleanupCourse.uninstalled (hc : CleanupCourse cfg h log h' true)
    (hskip : cfg.skipK8sInstallation = false) (hs : h.uninstallationSecret ≠ none) :
    ∃ e ∈ log, e.isUninstall = true ∧ e.succeeded = true := by
  cases hc with
  | @completed log log' rest h₁ hr hu hl =>
    have hs₁ : h₁.uninstallationSecret ≠ none := by
      have := hr.conditionsOnly
      rw [ConditionsOnly] at this
      rw [this]
      exact hs
    cases hu with
    | notNeeded hn =>
      rcases hn with hn | hn
      · exact absurd (hskip.symm.trans hn) (by simp)
      · exact absurd hn hs₁
    | now script _ _ =>
      exact ⟨_, List.mem_append_left _ (List.mem_append_right _ (List.mem_singleton_self _)),
        rfl, rfl⟩

end Courses

/-! ## Runs of a site -/

/-- The deferred patches of the agents succeed; everything else is arbitrary. -/
def PatchesSucceed (_ : Site) : Action → Prop
  | .reconcile (.agent _) os => ∀ o ∈ os, o.writeOk = true
  | _ => True

instance (s : Site) : (a : Action) → Decidable (PatchesSucceed s a)
  | .reconcile (.agent _) os => inferInstanceAs (Decidable (∀ o ∈ os, o.writeOk = true))
  | .reconcile (.byoMachine _) _ => .isTrue trivial
  | .reconcile (.k8sInstallerConfig _) _ => .isTrue trivial
  | .reconcile (.byoHost _) _ => .isTrue trivial
  | .env _ => .isTrue trivial

/-- No agent has run, and no host is installed or bootstrapped. -/
structure FreshSite (s : Site) : Prop where
  keys : WellKeyed s.world
  runs : ∀ k, s.runs k = []
  conditions : ∀ k h, s.world.hosts.lookup k = some h →
    isInstalled h = false ∧ isBootstrapped h = false

theorem freshSite_small (hosts machines : List String) :
    FreshSite { world := Small.world hosts machines } where
  keys k h hk := by
    obtain ⟨name, rfl, rfl⟩ := Small.hosts_lookup hk
    rfl
  runs _ := rfl
  conditions k h hk := by
    obtain ⟨name, rfl, rfl⟩ := Small.hosts_lookup hk
    exact ⟨rfl, rfl⟩

/-- A machine lives and dies on a host, and every patch of the agent succeeds. -/
theorem small_life (machine host : String) (hosts machines : List String) :
    ActionRun (Setup.act {}) PatchesSucceed { world := Small.world hosts machines }
      (Small.life machine host)
      ((Small.life machine host).foldl (Setup.act {}) { world := Small.world hosts machines }) :=
  .of_allowed (by rfl)

/-- The record that a course leaves. -/
def recordOf (h : ByoHost) (log : List HostEvent) (h' : ByoHost) : AgentRun :=
  ⟨h, log, h.carries .hostCleanup && !h'.carries .hostCleanup⟩

section Runs

variable {setup : Setup} {s : Site}

/-- One step, seen from the host `k`: its agent took a course and wrote the host, or the manager
wrote to the host any number of times. -/
theorem act_cases (setup : Setup) {a : Action} (hkeys : WellKeyed s.world) (ha : PatchesSucceed s a)
    (k : NamespacedName) :
    (∃ h h' cur log, s.world.hosts.lookup k = some h ∧ Course setup.agent h log h' ∧
      (setup.act s a).world.hosts.lookup k = some cur ∧ Patched h h' true true true cur ∧
      (setup.act s a).runs k = s.runs k ++ [recordOf h log h']) ∨
    (setup.act s a).runs k = s.runs k ∧
      Option.Rel ManagerWrites (s.world.hosts.lookup k) ((setup.act s a).world.hosts.lookup k) := by
  have hsame : HostsVia ManagerWrites s.world s.world := .refl (fun _ => .refl) _
  rcases a with ⟨t, os⟩ | a
  · by_cases ht : isManager t = true
    · right
      cases t with
      | agent _ => cases ht
      | _ => exact ⟨rfl, manager_hostsVia setup ht os s.world k⟩
    · cases t with
      | agent k' =>
        rcases agentStep_cases setup.agent k' os s hkeys with
          hsame' | ⟨h, h', cur, log, c, sp, st, hran, hall⟩
        · right
          rw [Setup.act, hsame']
          exact ⟨rfl, hsame k⟩
        · obtain ⟨rfl, rfl, rfl⟩ := hall ha
          by_cases hk : k = k'
          · subst hk
            refine .inl ⟨h, h', cur, log, hran.read, hran.course, hran.written, hran.patched, ?_⟩
            rw [Setup.act, hran.record, Function.update_self]
            rfl
          · right
            rw [Setup.act, hran.record, Function.update_of_ne hk, hran.onlyHost.others k hk]
            exact ⟨rfl, hsame k⟩
      | _ => exact absurd rfl ht
  · right
    refine ⟨rfl, ?_⟩
    simp only [Setup.act]
    cases he : envStep a s.world with
    | none => exact hsame k
    | some w' => exact HostsVia.of_hosts_eq (fun _ => .refl) (envStep_hosts he) k

theorem act_wellKeyed {a : Action} (hkeys : WellKeyed s.world) (ha : PatchesSucceed s a) :
    WellKeyed (setup.act s a).world := by
  intro k h' hh'
  rcases act_cases setup hkeys ha k with ⟨h, _, cur, _, hh, _, hcur, hp, _⟩ | ⟨_, hrel⟩
  · cases hcur.symm.trans hh'
    exact hp.key.trans (hkeys k h hh)
  · rw [hh'] at hrel
    generalize hx : s.world.hosts.lookup k = x at hrel
    cases hrel with
    | some hw => exact hw.keeps.1.trans (hkeys k _ hx)

/-- What a host and its record satisfy in every state of a run. -/
theorem site_invariant {P : ByoHost → List AgentRun → Prop}
    (hagent : ∀ {h h' cur log runs}, P h runs → Course setup.agent h log h' →
      Patched h h' true true true cur → P cur (runs ++ [recordOf h log h']))
    (hmanager : ∀ {h h' runs}, P h runs → ManagerWrites h h' → P h' runs) {s₀ : Site}
    {as : List Action} (hrun : ActionRun setup.act PatchesSucceed s₀ as s) (hfresh : FreshSite s₀)
    (hinit : ∀ h, isInstalled h = false → isBootstrapped h = false → P h []) (k : NamespacedName) :
    s.runs k = [] ∨ ∃ h, s.world.hosts.lookup k = some h ∧ P h (s.runs k) := by
  have hI := hrun.invariant (I := fun s => WellKeyed s.world ∧
    ((s.world.hosts.lookup k = none ∧ s.runs k = []) ∨
      ∃ h, s.world.hosts.lookup k = some h ∧ P h (s.runs k))) ?_ ?_
  · rcases hI.2 with ⟨_, hnil⟩ | hP
    · exact .inl hnil
    · exact .inr hP
  · rintro s a ⟨hkeys, hP⟩ ha
    refine ⟨act_wellKeyed hkeys ha, ?_⟩
    rcases act_cases setup hkeys ha k with
      ⟨h, h', cur, log, hh, hc, hcur, hp, hruns⟩ | ⟨hruns, hrel⟩
    · rcases hP with ⟨hnone, _⟩ | ⟨h₁, hh₁, hP⟩
      · cases hnone.symm.trans hh
      · cases hh.symm.trans hh₁
        rw [hruns]
        exact .inr ⟨cur, hcur, hagent hP hc hp⟩
    · rw [hruns]
      rcases hP with ⟨hnone, hnil⟩ | ⟨h₁, hh₁, hP⟩
      · rw [hnone] at hrel
        generalize (setup.act s a).world.hosts.lookup k = x at hrel
        cases hrel
        exact .inl ⟨rfl, hnil⟩
      · rw [hh₁] at hrel
        generalize (setup.act s a).world.hosts.lookup k = x at hrel
        cases hrel with
        | some hw => exact .inr ⟨_, rfl, hmanager hP hw⟩
  · refine ⟨hfresh.keys, ?_⟩
    rw [hfresh.runs k]
    cases hh : s₀.world.hosts.lookup k with
    | none => exact .inl ⟨rfl, rfl⟩
    | some h =>
      obtain ⟨hi, hb⟩ := hfresh.conditions k h hh
      exact .inr ⟨h, rfl, hinit h hi hb⟩

end Runs

/-- A position in a list that got longer by one is a position before, or the last one. -/
theorem split_concat {α : Type} {l earlier later : List α} {a x : α}
    (h : l ++ [a] = earlier ++ x :: later) :
    earlier = l ∧ x = a ∨ ∃ later', l = earlier ++ x :: later' := by
  rcases List.eq_nil_or_concat later with rfl | ⟨later', y, rfl⟩
  · obtain ⟨hl, hx⟩ := List.append_inj' h rfl
    exact .inl ⟨hl.symm, (List.singleton_inj.1 hx).symm⟩
  · simp only [List.concat_eq_append, ← List.cons_append, ← List.append_assoc] at h
    exact .inr ⟨later', (List.append_inj' h rfl).1⟩

/-- All commands of a list of reconciles, in order. -/
def eventsOfRuns (runs : List AgentRun) : List HostEvent := runs.flatMap (·.events)

/-- What a record says about cleanups, and that the installation condition is in step with it. -/
structure CleanupHistory (cfg : Config) (h : ByoHost) (runs : List AgentRun) : Prop where
  tracks : Tracks false (eventsOfRuns runs) (isInstalled h)
  inOrder : ∀ e ∈ eventsOfRuns runs, InOrder e
  uninstalled : ∀ r ∈ runs, r.cleanedUp = true → cfg.skipK8sInstallation = false →
    r.before.uninstallationSecret ≠ none → ∃ e ∈ r.events, e.isUninstall = true ∧ e.succeeded = true

theorem eventsOfRuns_append (runs : List AgentRun) (r : AgentRun) :
    eventsOfRuns (runs ++ [r]) = eventsOfRuns runs ++ r.events := by
  simp [eventsOfRuns]

theorem isInstalled_congr {h h' : ByoHost} (hc : h.conditions = h'.conditions) :
    isInstalled h = isInstalled h' := by
  simp [isInstalled, hc]

theorem CleanupHistory.course {cfg : Config} {h h' cur : ByoHost} {log : List HostEvent}
    {runs : List AgentRun} (hP : CleanupHistory cfg h runs) (hc : Course cfg h log h')
    (hp : Patched h h' true true true cur) :
    CleanupHistory cfg cur (runs ++ [recordOf h log h']) where
  tracks := by
    rw [eventsOfRuns_append, isInstalled_congr hp.conditions]
    exact hP.tracks.append (Course.tracks hc)
  inOrder := by
    intro e he
    rw [eventsOfRuns_append] at he
    rcases List.mem_append.1 he with he | he
    · exact hP.inOrder e he
    · exact Course.inOrder hc he
  uninstalled := by
    intro r hr hclean hskip hs
    rcases List.mem_append.1 hr with hr | hr
    · exact hP.uninstalled r hr hclean hskip hs
    · obtain rfl := List.mem_singleton.1 hr
      simp only [recordOf, Bool.and_eq_true, Bool.not_eq_true'] at hclean
      exact CleanupCourse.uninstalled (Course.of_cleanedUp hc hclean.1 hclean.2) hskip hs

/-- The manager leaves the conditions alone. -/
theorem CleanupHistory.manager {cfg : Config} {h h' : ByoHost} {runs : List AgentRun}
    (hP : CleanupHistory cfg h runs) (hw : ManagerWrites h h') : CleanupHistory cfg h' runs :=
  { hP with tracks := isInstalled_congr hw.keeps.2.1 ▸ hP.tracks }

theorem CleanupHistory.init {h : ByoHost} (cfg : Config) (hi : isInstalled h = false) :
    CleanupHistory cfg h [] :=
  ⟨hi ▸ .nil _, by simp [eventsOfRuns], by simp⟩

/-- **Resets and uninstallations.** In every run in which the agents' deferred patches succeed:
each successful reset of a cleanup has its own successful installation before it; no uninstall
script starts while the installation condition is true, that is, before every installation so far
has been reset; and a cleanup with an uninstall secret is completed only by a reconcile in which
the uninstall script succeeded. -/
theorem cleanup_commands (setup : Setup) {s₀ s : Site} {as : List Action} (hfresh : FreshSite s₀)
    (hrun : ActionRun setup.act PatchesSucceed s₀ as s) (k : NamespacedName) :
    (∀ pre e post, eventsOfRuns (s.runs k) = pre ++ e :: post → e.resets = true →
      ∃ pre₁ i pre₂, pre = pre₁ ++ i :: pre₂ ∧ i.installs = true ∧
        ∀ e' ∈ pre₂, e'.resets = false) ∧
    (∀ pre e post, eventsOfRuns (s.runs k) = pre ++ e :: post → e.isUninstall = true →
      isInstalled e.byoHost = false ∧
        ∀ pre₁ i pre₂, pre = pre₁ ++ i :: pre₂ → i.installs = true →
          ∃ e' ∈ pre₂, e'.resets = true) ∧
    (∀ r ∈ s.runs k, r.cleanedUp = true → setup.agent.skipK8sInstallation = false →
      r.before.uninstallationSecret ≠ none →
        ∃ e ∈ r.events, e.isUninstall = true ∧ e.succeeded = true) := by
  have hhist : s.runs k = [] ∨ ∃ h, s.world.hosts.lookup k = some h ∧
      CleanupHistory setup.agent h (s.runs k) :=
    site_invariant (P := CleanupHistory setup.agent) CleanupHistory.course CleanupHistory.manager
      hrun hfresh (fun _ hi _ => .init setup.agent hi) k
  rcases hhist with hnil | ⟨h, -, hP⟩
  · simp [hnil, eventsOfRuns]
  have hnotLocal : ∀ {e : HostEvent}, e.isCleanupReset = true ∨ e.isUninstall = true →
      isLocal e = false := by
    rintro ⟨c, _, _⟩ he
    cases c <;> first | rfl | (rcases he with he | he <;> cases he)
  refine ⟨?_, ?_, hP.uninstalled⟩
  · intro pre e post heq he
    have hreset : e.isCleanupReset = true := by
      simp only [HostEvent.resets, Bool.and_eq_true] at he
      exact he.1
    have hinstalled := (hP.inOrder e (heq ▸ by simp)).1 hreset
    rw [hP.tracks.memory pre e post heq (hnotLocal (.inl hreset))] at hinstalled
    rcases replay_eq_true hinstalled with ⟨hfalse, _⟩ | h
    · cases hfalse
    · exact h
  · intro pre e post heq he
    have hnot := (hP.inOrder e (heq ▸ by simp)).2 he
    refine ⟨hnot, ?_⟩
    rintro pre₁ i pre₂ rfl hi
    rw [hP.tracks.memory _ e post heq (hnotLocal (.inr he))] at hnot
    exact replay_eq_false hnot hi

/-- The cleanup of a deleted machine: the reset and the uninstallation both happen. -/
theorem cleanup_commands_life :
    let s := (Small.life "m1" "h1").foldl (Setup.act {}) { world := Small.world ["h1"] ["m1"] }
    (eventsOfRuns (s.runs (Small.key "h1"))).countP HostEvent.resets = 1 ∧
      ∀ r ∈ s.runs (Small.key "h1"), r.cleanedUp = true → r.before.uninstallationSecret ≠ none →
        ∃ e ∈ r.events, e.isUninstall = true ∧ e.succeeded = true := by
  refine ⟨by decide +kernel, fun r hr hclean hs => ?_⟩
  exact (cleanup_commands {} (freshSite_small ["h1"] ["m1"]) (small_life "m1" "h1" _ _)
    (Small.key "h1")).2.2 r hr hclean rfl hs

end Byoh.Properties
