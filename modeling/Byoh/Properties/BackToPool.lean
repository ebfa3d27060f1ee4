import Byoh.Properties.BootstrapOnce

/-!
# Hosts that go back to the pool

When a cleanup completes, its host goes back to the capacity pool. It should then have left its old
cluster: a node that was bootstrapped has been reset.

The agent decides on the reset by the installation condition. With installation this is the right
question, since a node is bootstrapped only when it is installed (`reset_before_reuse`). When
installation is skipped the condition is never set, and the host goes back to the pool as a member
of its old cluster (`joined_host_reused`).
-/

set_option autoImplicit false

namespace Byoh.Properties

open Byoh.Foundation Byoh.Model Byoh.Protocol Byoh.Model.HostReconciler

/-! ## Resets -/

/-- At every completed cleanup, a reset has followed each bootstrap since the cleanup before. -/
def ResetAfterBootstrap (runs : List AgentRun) : Prop :=
  ∀ earlier r later, runs = earlier ++ r :: later → r.cleanedUp = true →
    ∀ pre b post, sinceCleanup earlier ++ r.events = pre ++ b :: post → b.bootstraps = true →
      ∃ e ∈ post, e.resets = true

/-- No node is installed when a cleanup completes. -/
def ResetWhenCleaned (runs : List AgentRun) : Prop :=
  ∀ earlier r later, runs = earlier ++ r :: later → r.cleanedUp = true →
    replay false (eventsOfRuns (earlier ++ [r])) = false

/-- The commands since the last cleanup are the last ones. -/
theorem sinceCleanup_suffix (runs : List AgentRun) : sinceCleanup runs <:+ eventsOfRuns runs := by
  refine ⟨eventsOfRuns (runs.rdropWhile fun r => !r.cleanedUp), ?_⟩
  rw [sinceCleanup, eventsOfRuns, eventsOfRuns, eventsOfRuns, ← List.flatMap_append,
    List.rdropWhile_append_rtakeWhile]

/-- The invariant: the histories of cleanups and of bootstraps, and resets at the end of
cleanups. -/
structure ResetHistory (cfg : Config) (h : ByoHost) (runs : List AgentRun) : Prop where
  cleanups : CleanupHistory cfg h runs
  bootstraps : BootstrapHistory cfg h runs
  reset : ResetWhenCleaned runs

namespace ResetHistory

variable {cfg : Config} {h h' cur : ByoHost} {log : List HostEvent} {runs : List AgentRun}

theorem course (hP : ResetHistory cfg h runs) (hc : Course cfg h log h')
    (hp : Patched h h' true true true cur) : ResetHistory cfg cur (runs ++ [recordOf h log h']) := by
  have hcleanups := hP.cleanups.course hc hp
  refine ⟨hcleanups, hP.bootstraps.course hc hp, fun earlier r later heq hclean => ?_⟩
  rcases split_concat heq with ⟨rfl, rfl⟩ | ⟨later', hruns⟩
  · -- the conditions of the host agree with the history, and the cleanup left them false
    simp only [recordOf, Bool.and_eq_true, Bool.not_eq_true'] at hclean
    rw [hcleanups.tracks.last, isInstalled_congr hp.conditions]
    exact (CleanupCourse.conditions (Course.of_cleanedUp hc hclean.1 hclean.2)).1
  · exact hP.reset earlier r later' hruns hclean

theorem manager (hP : ResetHistory cfg h runs) (hw : ManagerWrites h h') :
    ResetHistory cfg h' runs :=
  ⟨hP.cleanups.manager hw, hP.bootstraps.manager hw, hP.reset⟩

theorem init (cfg : Config) (hi : isInstalled h = false) (hb : isBootstrapped h = false) :
    ResetHistory cfg h [] :=
  ⟨.init cfg hi, .init cfg hi hb, by simp [ResetWhenCleaned]⟩

/-- A bootstrap found the node installed. -/
theorem installed_of_bootstraps (hP : ResetHistory cfg h runs)
    (hskip : cfg.skipK8sInstallation = false) {pre post : List HostEvent} {b : HostEvent}
    (heq : eventsOfRuns runs = pre ++ b :: post) (hb : b.bootstraps = true) :
    replay false pre = true := by
  have hboot : b.isBootstrap = true := by
    simp only [HostEvent.bootstraps, Bool.and_eq_true] at hb
    exact hb.1
  have hlocal : isLocal b = false := by
    obtain ⟨c, _, _⟩ := b
    cases c <;> first | rfl | cases hboot
  rw [← hP.cleanups.tracks.memory pre b post heq hlocal]
  -- the reconcile that made the attempt checked the condition
  have hmem : b ∈ eventsOfRuns runs := by simp [heq]
  obtain ⟨r, hr, hbr⟩ := List.mem_flatMap.1 hmem
  obtain ⟨earlier, later, hruns⟩ := List.append_of_mem hr
  obtain ⟨pre', post', hevents⟩ := List.append_of_mem hbr
  have hattempt := hP.bootstraps.attempts earlier r later hruns pre' b post' hevents hboot
  rcases hattempt.installed with hs | ⟨hi, -⟩
  · cases hskip.symm.trans hs
  · exact hi

theorem resetAfterBootstrap (hP : ResetHistory cfg h runs)
    (hskip : cfg.skipK8sInstallation = false) : ResetAfterBootstrap runs := by
  intro earlier r later hruns hclean pre b post heq hb
  obtain ⟨front, hfront⟩ := sinceCleanup_suffix earlier
  -- the commands up to the end of this cleanup
  have hevents : eventsOfRuns (earlier ++ [r]) = (front ++ pre) ++ b :: post := by
    rw [eventsOfRuns_append, ← hfront, List.append_assoc, heq, List.append_assoc]
  have hall : eventsOfRuns runs = (front ++ pre) ++ b :: (post ++ eventsOfRuns later) := by
    have hsplit : runs = (earlier ++ [r]) ++ later := by simp [hruns]
    rw [hsplit, eventsOfRuns, List.flatMap_append]
    change eventsOfRuns (earlier ++ [r]) ++ _ = _
    rw [hevents]
    simp [eventsOfRuns]
  have hinstalled : replay false (front ++ pre) = true := hP.installed_of_bootstraps hskip hall hb
  have hend := hP.reset earlier r later hruns hclean
  rw [hevents, replay_append, hinstalled] at hend
  by_contra hno
  have hkeep : replay true (b :: post) = true := by
    refine replay_of_not_resets fun e he hr => ?_
    rcases List.mem_cons.1 he with rfl | he
    · obtain ⟨c, _, _⟩ := e
      cases c <;> first | cases hr | cases hb
    · exact hno ⟨e, he, hr⟩
  cases hkeep.symm.trans hend

end ResetHistory

/-- **A bootstrapped host is reset before it is reused.** In every run in which the agents' deferred
patches succeed and installation is not skipped, whenever a cleanup completes, a reset has followed
each bootstrap since the previous completed cleanup. -/
theorem reset_before_reuse {setup : Setup} (hskip : setup.agent.skipK8sInstallation = false)
    {s₀ s : Site} {as : List Action} (hfresh : FreshSite s₀)
    (hrun : ActionRun setup.act PatchesSucceed s₀ as s) (k : NamespacedName) :
    ResetAfterBootstrap (s.runs k) := by
  have hhist := site_invariant (P := ResetHistory setup.agent) ResetHistory.course
    ResetHistory.manager hrun hfresh (fun _ => .init setup.agent) k
  rcases hhist with hnil | ⟨h, -, hP⟩
  · simp [ResetAfterBootstrap, hnil]
  · exact hP.resetAfterBootstrap hskip

/-- The life of a machine: its host is bootstrapped, and reset when it is cleaned up. -/
theorem reset_before_reuse_life :
    let s := (Small.life "m1" "h1").foldl (Setup.act {}) { world := Small.world ["h1"] ["m1"] }
    (eventsOfRuns (s.runs (Small.key "h1"))).any HostEvent.bootstraps = true ∧
      (s.runs (Small.key "h1")).any (·.cleanedUp) = true ∧
      ResetAfterBootstrap (s.runs (Small.key "h1")) := by
  refine ⟨by decide +kernel, by decide +kernel, ?_⟩
  exact reset_before_reuse rfl (freshSite_small ["h1"] ["m1"]) (small_life "m1" "h1" _ _)
    (Small.key "h1")

/-- The last reconcile completed a cleanup; nothing was reset since a bootstrap. -/
def reusedUnreset (runs : List AgentRun) : Bool :=
  runs.getLast?.any (·.cleanedUp) && (sinceCleanup runs.dropLast).any HostEvent.bootstraps &&
    (eventsOfRuns runs).all fun e => !e.resets

/-- If the last reconcile completed a cleanup, and every event of a kind since the cleanup before
is followed by one with `P`, then one with `P` has happened. -/
theorem exists_of_followed {starts : HostEvent → Bool} {P : HostEvent → Prop} {runs : List AgentRun}
    (hfollowed : ∀ earlier r later, runs = earlier ++ r :: later → r.cleanedUp = true →
      ∀ pre b post, sinceCleanup earlier ++ r.events = pre ++ b :: post → starts b = true →
        ∃ e ∈ post, P e)
    (hlast : runs.getLast?.any (·.cleanedUp) = true)
    (hstarts : (sinceCleanup runs.dropLast).any starts = true) : ∃ e ∈ eventsOfRuns runs, P e := by
  obtain ⟨r, hlast, hclean⟩ := (Option.any_eq_true _ _).1 hlast
  obtain ⟨b, hb, hboot⟩ := List.any_eq_true.1 hstarts
  have hruns : runs = runs.dropLast ++ [r] := (List.dropLast_append_getLast? r hlast).symm
  obtain ⟨pre, post, hsplit⟩ := List.append_of_mem hb
  obtain ⟨e, he, hP⟩ := hfollowed runs.dropLast r [] hruns hclean pre b (post ++ r.events)
    (by rw [hsplit]; simp) hboot
  refine ⟨e, ?_, hP⟩
  rw [hruns, eventsOfRuns_append]
  rcases List.mem_append.1 he with he | he
  · refine List.mem_append_left _ ((sinceCleanup_suffix _).subset ?_)
    rw [hsplit]
    exact List.mem_append_right _ (List.mem_cons_of_mem _ he)
  · exact List.mem_append_right _ he

theorem not_resetAfterBootstrap {runs : List AgentRun} (h : reusedUnreset runs = true) :
    ¬ResetAfterBootstrap runs := by
  intro hreset
  simp only [reusedUnreset, Bool.and_eq_true, List.all_eq_true, Bool.not_eq_true'] at h
  obtain ⟨⟨hlast, hstarts⟩, hnone⟩ := h
  obtain ⟨e, he, her⟩ := exists_of_followed hreset hlast hstarts
  cases (hnone e he).symm.trans her

/-- Agents that were started with `--skip-installation`. -/
def skipInstallation : Setup := { agent := { skipK8sInstallation := true } }

/-- With `--skip-installation` the host of a deleted machine is cleaned up without a reset. -/
theorem joined_host_reused : ∃ as s, FreshSite { world := Small.world ["h1"] ["m1"] } ∧
    ActionRun skipInstallation.act PatchesSucceed { world := Small.world ["h1"] ["m1"] } as s ∧
      ¬ResetAfterBootstrap (s.runs (Small.key "h1")) :=
  ⟨Small.life "m1" "h1", _, freshSite_small _ _, .of_allowed rfl,
    not_resetAfterBootstrap (by decide +kernel)⟩

end Byoh.Properties
