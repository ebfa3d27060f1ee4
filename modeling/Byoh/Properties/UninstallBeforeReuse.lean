import Byoh.Properties.BackToPool
import Byoh.Protocol.SiteRuns

/-!
# Uninstalling before a host is reused

A host on which the agent has installed Kubernetes should be uninstalled before it goes back to the
capacity pool. The agent runs the uninstall script when the host references it, and that reference
is written by a request of its own, after the one that lets the agent install.

When the machine is deleted between the two requests, or after the second one failed, the host is
marked for cleanup without the reference, and the cleanup completes with the components still
installed (`installed_host_reused`). With the reference in place whenever a machine is deleted,
every cleanup uninstalls (`uninstalled_before_reuse`).
-/

set_option autoImplicit false

namespace Byoh.Properties

open Byoh.Foundation Byoh.Model Byoh.Protocol Byoh.Model.HostReconciler

/-! ## Histories -/

/-- At every completed cleanup, a successful uninstall script has followed each successful install
script since the cleanup before. -/
def UninstalledAfterInstall (runs : List AgentRun) : Prop :=
  ∀ earlier r later, runs = earlier ++ r :: later → r.cleanedUp = true →
    ∀ pre i post, sinceCleanup earlier ++ r.events = pre ++ i :: post → i.installs = true →
      ∃ e ∈ post, e.isUninstall = true ∧ e.succeeded = true

/-- The agent has installed the host since the last completed cleanup. -/
def HasInstalled (runs : List AgentRun) : Prop := ∃ e ∈ sinceCleanup runs, e.installs = true

/-- The references that a host must have for the history of its agent. -/
structure HoldsScripts (runs : List AgentRun) (h : ByoHost) : Prop where
  installed : HasInstalled runs → h.installationSecret ≠ none
  marked : HasInstalled runs → h.carries .hostCleanup = true → h.uninstallationSecret ≠ none

/-- When a machine that is being deleted is reconciled, its host references the uninstall script
if it references the install script. -/
def UninstallReady (s : Site) : Action → Prop
  | .reconcile (.byoMachine k) _ => ∀ m, s.world.machines.lookup k = some m →
      m.deletionTimestamp = true → ∀ key h, s.world.hosts.lookup key = some h → Labelled k h →
        h.installationSecret ≠ none → h.uninstallationSecret ≠ none
  | _ => True

instance (s : Site) : (a : Action) → Decidable (UninstallReady s a)
  | .reconcile (.byoMachine k) _ => inferInstanceAs (Decidable (∀ m ∈ s.world.machines.lookup k,
      m.deletionTimestamp = true → ∀ key h, s.world.hosts.lookup key = some h → Labelled k h →
        h.installationSecret ≠ none → h.uninstallationSecret ≠ none))
  | .reconcile (.k8sInstallerConfig _) _ => .isTrue trivial
  | .reconcile (.byoHost _) _ => .isTrue trivial
  | .reconcile (.agent _) _ => .isTrue trivial
  | .env _ => .isTrue trivial

/-! ## Reconciles of the agent -/

section Agent

variable {cfg : Config} {h h' cur : ByoHost} {log : List HostEvent} {runs : List AgentRun}
  {c sp st : Bool}

/-- A patch that leaves references and annotations leaves what the history asks for. -/
theorem HoldsScripts.of_sameSpec {runs' : List AgentRun} (hP : HoldsScripts runs h)
    (hsame : SameSpec h cur)
    (hnew : HasInstalled runs' → HasInstalled runs ∨
      h.installationSecret ≠ none ∧ h.carries .hostCleanup = false) : HoldsScripts runs' cur := by
  refine ⟨fun hi => ?_, fun hi hm => ?_⟩
  · rw [hsame.installationSecret]
    rcases hnew hi with hi | ⟨hs, -⟩
    · exact hP.installed hi
    · exact hs
  · rw [hsame.uninstallationSecret]
    rw [hsame.carries] at hm
    rcases hnew hi with hi | ⟨-, hnot⟩
    · exact hP.marked hi hm
    · cases hm.symm.trans hnot

/-- The record of a reconcile that completed no cleanup adds its events. -/
theorem sinceCleanup_recordOf (hnot : (recordOf h log h').cleanedUp = false) :
    sinceCleanup (runs ++ [recordOf h log h']) = sinceCleanup runs ++ log := by
  rw [sinceCleanup_concat, hnot]
  rfl

theorem HoldsScripts.course (hP : HoldsScripts runs h) (hc : Course cfg h log h')
    (hp : Patched h h' c sp st cur) : HoldsScripts (runs ++ [recordOf h log h']) cur := by
  cases hclean : (recordOf h log h').cleanedUp with
  | true =>
    -- the history starts again
    have hnone : ¬HasInstalled (runs ++ [recordOf h log h']) := by
      rw [HasInstalled, sinceCleanup_concat, hclean]
      simp
    exact ⟨fun hi => absurd hi hnone, fun hi => absurd hi hnone⟩
  | false =>
    have hsplit : HasInstalled (runs ++ [recordOf h log h']) →
        HasInstalled runs ∨ ∃ e ∈ log, e.installs = true := by
      rintro ⟨e, he, hi⟩
      rw [sinceCleanup_recordOf hclean] at he
      rcases List.mem_append.1 he with he | he
      · exact .inl ⟨e, he, hi⟩
      · exact .inr ⟨e, he, hi⟩
    rw [Protocol.Course] at hc
    split at hc
    next hm =>
      obtain ⟨completed, hc⟩ := hc
      cases completed with
      | true =>
        have hm' : h'.carries .hostCleanup = true := by simpa [recordOf, hm] using hclean
        cases hc with
        | completed =>
          simp [cleanedHost, absentHost, withFalse, removeAnnotations, ByoHost.carries] at hm'
      | false =>
        refine hP.of_sameSpec (hp.sameSpec hc.shape) fun hi => .inl ?_
        rcases hsplit hi with hi | ⟨e, he, hi⟩
        · exact hi
        · have hneutral := (CleanupCourse.neutral hc he).1
          simp [HostEvent.installs, hneutral] at hi
    next hm =>
      refine hP.of_sameSpec (hp.sameSpec hc.conditionsOnly) fun hi => ?_
      rcases hsplit hi with hi | ⟨e, he, hi⟩
      · exact .inl hi
      · exact .inr ⟨(NormalCourse.of_installs hc he hi).2, by simpa using hm⟩

/-- A cleanup that completes uninstalls what has been installed. -/
theorem HoldsScripts.uninstalled (hP : HoldsScripts runs h)
    (hskip : cfg.skipK8sInstallation = false) (hc : Course cfg h log h')
    (hruns : UninstalledAfterInstall runs) :
    UninstalledAfterInstall (runs ++ [recordOf h log h']) := by
  intro earlier r later heq hclean pre i post hevents hi
  rcases split_concat heq with ⟨rfl, rfl⟩ | ⟨later', hsplit⟩
  · simp only [recordOf, Bool.and_eq_true, Bool.not_eq_true'] at hclean hevents
    have hcleanup := Course.of_cleanedUp hc hclean.1 hclean.2
    have hlog : ∀ e ∈ log, e.installs = false := fun e he => by
      simp [HostEvent.installs, (CleanupCourse.neutral hcleanup he).1]
    -- the install is in the history, so the commands of this cleanup follow it
    have hafter : i ∈ sinceCleanup earlier ∧ log <:+ post := by
      rcases List.append_eq_append_iff.1 hevents with ⟨mid, hpre, hmid⟩ | ⟨mid, hsince, hmid⟩
      · have hmem : i ∈ log := by simp [hmid]
        cases hi.symm.trans (hlog i hmem)
      · cases mid with
        | nil =>
          have hmem : i ∈ log := by
            rw [List.nil_append] at hmid
            simp [← hmid]
          cases hi.symm.trans (hlog i hmem)
        | cons x mid =>
          obtain ⟨rfl, hpost⟩ := List.cons.inj hmid
          exact ⟨by simp [hsince], mid, hpost.symm⟩
    have hsecret := hP.marked ⟨i, hafter.1, hi⟩ hclean.1
    obtain ⟨e, he, huninstall⟩ := CleanupCourse.uninstalled hcleanup hskip hsecret
    exact ⟨e, hafter.2.subset he, huninstall⟩
  · exact hruns earlier r later' hsplit hclean pre i post hevents hi

end Agent

/-! ## Reconciles of the manager -/

section Manager

variable {runs : List AgentRun} {w : World} {h h' : ByoHost}

/-- Machines that are being deleted mark hosts that reference the uninstall script. -/
theorem HoldsScripts.machine {scope : ByoMachineReconciler.Scope} (hP : HoldsScripts runs h)
    (hran : EditedBy (EditReason w scope) h h')
    (hready : scope.byoMachine.deletionTimestamp = true → Labelled scope.byoMachine.key h →
      h.installationSecret ≠ none → h.uninstallationSecret ≠ none) : HoldsScripts runs h' := by
  -- the reference that is there when the reconcile begins is there when it marks the host
  refine (hran.invariant (P := fun x => HoldsScripts runs x ∧ (isDeleteScope scope = true →
    Labelled scope.byoMachine.key x → x.installationSecret ≠ none →
      x.uninstallationSecret ≠ none)) ?_ ?_ ⟨hP, fun hdelete => ?_⟩).1
  · rintro b cur hsame ⟨hcur, hdelete⟩
    have hinstall : cur.installationSecret = b.installationSecret := hsame.installationSecret
    have huninstall : cur.uninstallationSecret = b.uninstallationSecret :=
      hsame.uninstallationSecret
    rw [Labelled, hsame.attachedLabel, hinstall, huninstall] at hdelete
    refine ⟨⟨fun hi => ?_, fun hi hm => ?_⟩, hdelete⟩
    · rw [← hinstall]
      exact hcur.installed hi
    · rw [← huninstall]
      exact hcur.marked hi ((hsame.carries _).trans hm)
  · rintro e b spec status cur hreason ⟨hb, hdelete⟩ hp
    have huninstall : b.uninstallationSecret ≠ none → cur.uninstallationSecret ≠ none := by
      intro hne
      rcases hp.edit_uninstallationSecret with heq | ⟨ref, -, heq⟩ <;> rw [heq]
      · exact hne
      · simp
    refine ⟨⟨fun hi => ?_, fun hi hm => huninstall ?_⟩, fun hs hlabel hinstall => huninstall ?_⟩
    · rcases hp.edit_installationSecret with heq | ⟨ref, -, heq⟩ <;> rw [heq]
      · exact hb.installed hi
      · simp
    · rcases hp.edit_marked with heq | ⟨⟨u, rfl⟩, -⟩
      · exact hb.marked hi (heq.symm.trans hm)
      · exact hdelete hreason.1 hreason.2 (hb.installed hi)
    · -- neither attachments nor references are written for a machine that is being deleted
      have hnormal : isNormalScope scope = false := by
        simp only [isDeleteScope, Bool.and_eq_true] at hs
        simp [isNormalScope, hs.2]
      have hlabel' : Labelled scope.byoMachine.key b := by
        rcases hp.edit_labels with ⟨heq, -⟩ | ⟨a, rfl, -⟩
        · exact heq.symm.trans hlabel
        · cases hnormal.symm.trans hreason.1
      rcases hp.edit_installationSecret with heq | ⟨ref, rfl, -⟩
      · exact hdelete hs hlabel' (heq ▸ hinstall)
      · cases hnormal.symm.trans hreason.1
  · simp only [isDeleteScope, Bool.and_eq_true] at hdelete
    exact hready hdelete.2

/-- The reference is cleared on hosts that are not marked. -/
theorem HoldsScripts.cleared {ref : ObjectReference} (hP : HoldsScripts runs h)
    (hstale : ByoHostReconciler.staleReference h = some ref) (hcleared : Cleared h h') :
    HoldsScripts runs h' := by
  have hnot := (staleReference_eq_some hstale).2.2
  refine ⟨fun hi => ?_, fun hi hm => ?_⟩
  · rw [hcleared.installationSecret]
    exact hP.installed hi
  · rw [hcleared.carries] at hm
    cases hm.symm.trans hnot

end Manager

/-! ## Whole runs -/

/-- Every host holds what the history of its agent asks for, and the history is in order; the agent
of a host that does not exist has not run. -/
def Histories (s : Site) : Prop :=
  ∀ k, UninstalledAfterInstall (s.runs k) ∧ match s.world.hosts.lookup k with
    | some h => HoldsScripts (s.runs k) h
    | none => s.runs k = []

/-- A step of the manager or of the environment keeps the histories if hosts keep what they
hold. -/
theorem Histories.of_hosts {s s' : Site} (hs : Histories s) (hruns : s'.runs = s.runs)
    (hhosts : HostsVia (fun h h' => ∀ runs, HoldsScripts runs h → HoldsScripts runs h') s.world
      s'.world) : Histories s' := by
  intro k
  obtain ⟨horder, hhost⟩ := hs k
  rw [hruns]
  refine ⟨horder, ?_⟩
  have hrel := hhosts k
  generalize s.world.hosts.lookup k = x at hhost hrel
  generalize s'.world.hosts.lookup k = y at hrel ⊢
  cases hrel with
  | none => exact hhost
  | some hkeep => exact hkeep _ hhost

theorem Histories.step {setup : Setup} (hskip : setup.agent.skipK8sInstallation = false)
    {s s' : Site} {a : Action} (hsound : Sound s.world) (hs : Histories s)
    (ha : UninstallReady s a) (hstep : SiteStep setup s a s') : Histories s' := by
  -- the condition is about hosts as they are before the step
  have hkeep : (∀ k os, a ≠ .reconcile (.agent k) os) → HostsVia (fun h h' => ∀ runs,
      HoldsScripts runs h → HoldsScripts runs h') s.world s'.world := by
    intro hnot key
    have hrel := hstep.hostsVia key
    cases hh : s.world.hosts.lookup key with
    | none =>
      rw [hh] at hrel
      generalize s'.world.hosts.lookup key = y at hrel ⊢
      cases hrel
      exact .none
    | some h =>
      obtain ⟨h', hh', hchange⟩ := hstep.hostsVia.some hh
      rw [hh']
      refine .some fun runs hP => ?_
      cases hchange with
      | same => exact hP
      | @edited k os scope how m _ heq hran hedited =>
        subst heq
        refine hP.machine hedited fun hdeleting hlabel hinstall => ?_
        rw [hsound.machines k _ hran.read.byoMachine] at hlabel
        exact ha _ hran.read.byoMachine hdeleting key h hh hlabel hinstall
      | cleared hstale hcleared _ => exact hP.cleared hstale hcleared
      | agent heq => exact absurd heq (hnot _ _)
  cases hstep with
  | @agent k os s' h h' cur log c sp st hran =>
    intro key
    by_cases hk : key = k
    · subst hk
      obtain ⟨horder, hhost⟩ := hs key
      rw [hran.read] at hhost
      rw [hran.written, hran.record, Function.update_self]
      exact ⟨hhost.uninstalled hskip hran.course horder, hhost.course hran.course hran.patched⟩
    · rw [hran.record, Function.update_of_ne hk, hran.onlyHost.others key hk]
      exact hs key
  | idle => exact hs
  | machine | config | byoHost | env => exact hs.of_hosts rfl (hkeep nofun)

/-- **Installed hosts are uninstalled before they are reused.** Installation is not skipped, no
agent has run, and every reconcile of a machine that is being deleted finds its host with a
reference to the uninstall script if it has one to the install script. Then, whatever fails and in
whatever order the reconciles run, whenever a cleanup completes, a successful uninstall script has
followed each successful install script since the previous completed cleanup. -/
theorem uninstalled_before_reuse {setup : Setup} (hskip : setup.agent.skipK8sInstallation = false)
    {s₀ s : Site} {as : List Action} (hsound : Sound s₀.world) (hfresh : ∀ k, s₀.runs k = [])
    (hrun : ActionRun setup.act UninstallReady s₀ as s) (k : NamespacedName) :
    UninstalledAfterInstall (s.runs k) := by
  refine ((site_run_invariant (I := Histories) (Histories.step hskip) hrun hsound ?_).2 k).1
  intro key
  rw [hfresh key]
  refine ⟨by simp [UninstalledAfterInstall], ?_⟩
  have hnone : ¬HasInstalled [] := by simp [HasInstalled, sinceCleanup, eventsOfRuns]
  cases s₀.world.hosts.lookup key with
  | none => rfl
  | some h => exact ⟨fun hi => absurd hi hnone, fun hi => absurd hi hnone⟩

/-- The life of a machine: its host is installed, and uninstalled when it is cleaned up. -/
theorem uninstalled_before_reuse_life :
    let s := (Small.life "m1" "h1").foldl (Setup.act {}) { world := Small.world ["h1"] ["m1"] }
    (eventsOfRuns (s.runs (Small.key "h1"))).any HostEvent.installs = true ∧
      (s.runs (Small.key "h1")).any (·.cleanedUp) = true ∧
      UninstalledAfterInstall (s.runs (Small.key "h1")) := by
  refine ⟨by decide +kernel, by decide +kernel, ?_⟩
  exact uninstalled_before_reuse rfl (sound_small ["h1"] ["m1"]) (fun _ => rfl)
    (.of_allowed (by decide +kernel)) (Small.key "h1")

/-- The last reconcile completed a cleanup; nothing was uninstalled since an install. -/
def reusedInstalled (runs : List AgentRun) : Bool :=
  runs.getLast?.any (·.cleanedUp) && (sinceCleanup runs.dropLast).any HostEvent.installs &&
    (eventsOfRuns runs).all fun e => !e.isUninstall

theorem not_uninstalledAfterInstall {runs : List AgentRun} (h : reusedInstalled runs = true) :
    ¬UninstalledAfterInstall runs := by
  intro huninstalled
  simp only [reusedInstalled, Bool.and_eq_true, List.all_eq_true, Bool.not_eq_true'] at h
  obtain ⟨⟨hlast, hstarts⟩, hnone⟩ := h
  obtain ⟨e, he, hu, -⟩ := exists_of_followed huninstalled hlast hstarts
  cases (hnone e he).symm.trans hu

/-- The request that writes the reference to the uninstall script is the tenth of its reconcile, and
fails. Before the next try the agent installs and bootstraps the host, and the machine is deleted. -/
def uninstallReferenceLost : List Action :=
  [Small.reconcile (.byoMachine (Small.key "m1")),
    Small.reconcile (.k8sInstallerConfig (Small.key "m1")),
    .reconcile (.byoMachine (Small.key "m1"))
      (List.replicate 9 ({} : Outcome) ++ [{ writeOk := false }]),
    Small.reconcile (.agent (Small.key "h1")), .env (.deleteByoMachine (Small.key "m1")),
    Small.reconcile (.byoMachine (Small.key "m1")), Small.reconcile (.agent (Small.key "h1"))]

/-- The cleanup of the host completes, and no uninstall script has run on it. -/
theorem installed_host_reused : ∃ as s, Sound (Small.world ["h1"] ["m1"]) ∧
    ActionRun (Setup.act {}) (fun _ _ => True) { world := Small.world ["h1"] ["m1"] } as s ∧
      ¬UninstalledAfterInstall (s.runs (Small.key "h1")) :=
  ⟨uninstallReferenceLost, _, sound_small _ _, .of_allowed rfl,
    not_uninstalledAfterInstall (by decide +kernel)⟩

end Byoh.Properties
