import Byoh.Properties.CommandHistory

/-!
# One installation and one bootstrap per attachment

Between two completed cleanups the install script succeeds at most once, the bootstrap script
succeeds at most once, and neither runs again once the bootstrap has succeeded. Every bootstrap
attempt is made for an attached host, on directories that the same reconcile has cleaned, with the
components installed.

The proof is one invariant of a host and its record (`BootstrapHistory`): without the cleanup
annotation, the two conditions say which scripts have succeeded since the last completed cleanup.
-/

set_option autoImplicit false

namespace Byoh.Properties

open Byoh.Foundation Byoh.Model Byoh.Protocol Byoh.Model.HostReconciler

/-! ## Order of commands -/

/-- What may follow an event: no second installation, and after the bootstrap neither script. -/
def Once (e e' : HostEvent) : Prop :=
  (e.installs = true → e'.installs = false) ∧
    (e.bootstraps = true → e'.isInstall = false ∧ e'.isBootstrap = false)

/-- An event that starts neither script. -/
def Neutral (e : HostEvent) : Prop := e.isInstall = false ∧ e.isBootstrap = false

theorem Neutral.once_left {e : HostEvent} (h : Neutral e) (e' : HostEvent) : Once e e' := by
  constructor <;> simp [HostEvent.installs, HostEvent.bootstraps, h.1, h.2]

theorem Neutral.once_right {e' : HostEvent} (h : Neutral e') (e : HostEvent) : Once e e' :=
  ⟨fun _ => by simp [HostEvent.installs, h.1], fun _ => h⟩

theorem once_of_isInstall {e e' : HostEvent} (h : e.isBootstrap = false)
    (h' : e'.isInstall = false) : Once e e' := by
  constructor <;> simp [HostEvent.installs, HostEvent.bootstraps, h, h']

theorem neutral_globLog {h : ByoHost} {oks : List Bool} {e : HostEvent} (he : e ∈ globLog h oks) :
    Neutral e := by
  obtain ⟨dir, ok, rfl⟩ := mem_globLog he
  exact ⟨rfl, rfl⟩

theorem neutral_of_isLocal {e : HostEvent} (h : isLocal e = true) : Neutral e := by
  obtain ⟨c, _, _⟩ := e
  cases c <;> first | exact ⟨rfl, rfl⟩ | cases h

/-- Neutral events can be added at the end. -/
theorem pairwise_append_neutral {log rest : List HostEvent} (h : log.Pairwise Once)
    (hrest : ∀ e ∈ rest, Neutral e) : (log ++ rest).Pairwise Once := by
  refine List.pairwise_append.2 ⟨h, ?_, fun e _ e' he' => (hrest e' he').once_right e⟩
  exact List.Pairwise.imp_of_mem (fun ha _ _ => (hrest _ ha).once_left _)
    (List.pairwise_of_forall (fun _ _ => trivial) (R := fun _ _ => True))

/-- At most one event of a list satisfies `p`, if none behind such an event does. -/
theorem countP_le_one {p : HostEvent → Bool} {es : List HostEvent}
    (h : es.Pairwise fun e e' => p e = true → p e' = false) : es.countP p ≤ 1 := by
  induction es with
  | nil => exact Nat.zero_le 1
  | cons e es ih =>
    rw [List.pairwise_cons] at h
    by_cases he : p e = true
    · have hzero : es.countP p = 0 := List.countP_eq_zero.2 fun e' he' => by simp [h.1 e' he' he]
      rw [List.countP_cons_of_pos he, hzero]
    · rw [List.countP_cons_of_neg he]
      exact ih h.2

/-! ## One reconcile -/

section Courses

variable {cfg : Config} {h h' : ByoHost} {log : List HostEvent} {e : HostEvent}
  {pre post : List HostEvent}

/-- A reconcile that had something to do, up to the point where the directories are cleaned. -/
theorem Installed.mem (hi : Installed cfg h log h') (he : e ∈ log) :
    e.installs = true ∧ e.isBootstrap = false ∧ isInstalled h = false ∧
      h.installationSecret ≠ none := by
  cases hi with
  | skipped _ => cases he
  | already _ _ => cases he
  | now script _ hn hsecret =>
    obtain rfl := List.mem_singleton.1 he
    exact ⟨rfl, rfl, hn, hsecret⟩

theorem Installed.pairwise (hi : Installed cfg h log h') : log.Pairwise Once := by
  cases hi with
  | skipped _ => exact .nil
  | already _ _ => exact .nil
  | now script _ _ _ => exact List.pairwise_singleton _ _

/-- The components are there afterwards exactly when they were before or have been installed. -/
theorem Installed.isInstalled_iff (hi : Installed cfg h log h') :
    isInstalled h' = true ↔ isInstalled h = true ∨ ∃ e ∈ log, e.installs = true := by
  cases hi with
  | skipped _ => simp
  | already _ hn => simp
  | now script _ _ _ =>
    simp only [isInstalled_withTrue, true_iff]
    exact .inr ⟨_, List.mem_singleton_self _, rfl⟩

/-- The commands of a normal reconcile are in order. -/
theorem NormalCourse.pairwise (hc : NormalCourse cfg h log h') : log.Pairwise Once := by
  have hglob : ∀ {ilog : List HostEvent} {h₁ : ByoHost} (oks : List Bool),
      Installed cfg h ilog h₁ → (ilog ++ globLog h₁ oks).Pairwise Once := fun oks hi =>
    pairwise_append_neutral (Installed.pairwise hi) fun _ => neutral_globLog
  cases hc with
  | installFailed script _ _ _ _ => exact List.pairwise_singleton _ _
  | directoriesFailed oks _ hi => exact hglob oks hi
  | @bootstrapFailed ilog h₁ script reset _ hi =>
    refine List.pairwise_append.2 ⟨hglob _ hi, ?_, ?_⟩
    · exact List.pairwise_pair.2 (Neutral.once_right ⟨rfl, rfl⟩ _)
    · intro e he e' he'
      rcases List.mem_append.1 he with he | he
      · have hboot := (Installed.mem hi he).2.1
        rcases List.mem_pair.1 he' with rfl | rfl <;> exact once_of_isInstall hboot rfl
      · exact (neutral_globLog he).once_left _
  | @bootstrapped ilog h₁ script _ hi =>
    refine List.pairwise_append.2 ⟨hglob _ hi, List.pairwise_singleton _ _, ?_⟩
    intro e he e' he'
    obtain rfl := List.mem_singleton.1 he'
    rcases List.mem_append.1 he with he | he
    · exact once_of_isInstall (Installed.mem hi he).2.1 rfl
    · exact (neutral_globLog he).once_left _
  | _ => exact .nil

/-- A bootstrapped host is left alone. -/
theorem NormalCourse.neutral_of_bootstrapped (hc : NormalCourse cfg h log h')
    (hb : isBootstrapped h = true) (he : e ∈ log) : Neutral e := by
  have hno : ¬Attached h := fun ha => absurd (hb.symm.trans ha.notBootstrapped) (by simp)
  cases hc with
  | installFailed _ ha _ _ _ => exact absurd ha hno
  | directoriesFailed _ ha _ => exact absurd ha hno
  | bootstrapFailed _ _ ha _ => exact absurd ha hno
  | bootstrapped _ ha _ => exact absurd ha hno
  | _ => cases he

/-- An install script runs on a host that is not installed and references its install secret. -/
theorem NormalCourse.of_installs (hc : NormalCourse cfg h log h') (he : e ∈ log)
    (hinstalls : e.installs = true) : isInstalled h = false ∧ h.installationSecret ≠ none := by
  have hilog : ∀ {ilog : List HostEvent} {h₁ : ByoHost}, Installed cfg h ilog h₁ → e ∈ ilog →
      isInstalled h = false ∧ h.installationSecret ≠ none := fun hinst he =>
    (Installed.mem hinst he).2.2
  have hglob : ∀ {h₁ : ByoHost} {oks : List Bool}, e ∉ globLog h₁ oks := fun he => by
    simp [HostEvent.installs, (neutral_globLog he).1] at hinstalls
  cases hc with
  | installFailed script _ _ _ _ =>
    obtain rfl := List.mem_singleton.1 he
    cases hinstalls
  | directoriesFailed oks _ hinst =>
    rcases List.mem_append.1 he with he | he
    · exact hilog hinst he
    · exact absurd he hglob
  | bootstrapFailed script reset _ hinst =>
    rcases List.mem_append.1 he with he | he
    · rcases List.mem_append.1 he with he | he
      · exact hilog hinst he
      · exact absurd he hglob
    · rcases List.mem_pair.1 he with rfl | rfl <;> cases hinstalls
  | bootstrapped script _ hinst =>
    rcases List.mem_append.1 he with he | he
    · rcases List.mem_append.1 he with he | he
      · exact hilog hinst he
      · exact absurd he hglob
    · obtain rfl := List.mem_singleton.1 he
      cases hinstalls
  | _ => cases he

/-- An installed host is not installed again. -/
theorem NormalCourse.not_installs (hc : NormalCourse cfg h log h') (hi : isInstalled h = true)
    (he : e ∈ log) : e.installs = false := by
  by_contra hinstalls
  have hnot := (NormalCourse.of_installs hc he (by simpa using hinstalls)).1
  cases hi.symm.trans hnot

/-- What a normal reconcile leaves in the installation condition. -/
theorem NormalCourse.isInstalled_iff (hc : NormalCourse cfg h log h') :
    isInstalled h' = true ↔ isInstalled h = true ∨ ∃ e ∈ log, e.installs = true := by
  -- only the part before the directories can install
  have hrest : ∀ {ilog rest : List HostEvent} {h₁ : ByoHost}, Installed cfg h ilog h₁ →
      (∀ e ∈ rest, e.isInstall = false) →
      (isInstalled h₁ = true ↔ isInstalled h = true ∨ ∃ e ∈ ilog ++ rest, e.installs = true) := by
    intro ilog rest h₁ hi hr
    rw [Installed.isInstalled_iff hi]
    refine or_congr_right ⟨fun ⟨e, he, hei⟩ => ⟨e, List.mem_append_left _ he, hei⟩, ?_⟩
    rintro ⟨e, he, hei⟩
    rcases List.mem_append.1 he with he | he
    · exact ⟨e, he, hei⟩
    · simp [HostEvent.installs, hr e he] at hei
  cases hc with
  | deleted _ | alreadyBootstrapped _ | secretUnreadable _ => simp
  | waitsForMachineRef _ | waitsForBootstrapSecret _ _ => simp
  | waitsForInstallSecret _ _ hi _ => simp [isInstalled_withFalse, hi]
  | installFailed script _ _ hi _ => simp [isInstalled_withFalse, hi, HostEvent.installs]
  | directoriesFailed oks _ hi =>
    rw [isInstalled_bootstrap_withFalse]
    exact hrest hi fun _ he => (neutral_globLog he).1
  | bootstrapFailed script reset _ hi =>
    rw [isInstalled_bootstrap_withFalse, List.append_assoc]
    refine hrest hi fun e he => ?_
    rcases List.mem_append.1 he with he | he
    · exact (neutral_globLog he).1
    · rcases List.mem_pair.1 he with rfl | rfl <;> rfl
  | bootstrapped script _ hi =>
    rw [isInstalled_bootstrap_withTrue, List.append_assoc]
    refine hrest hi fun e he => ?_
    rcases List.mem_append.1 he with he | he
    · exact (neutral_globLog he).1
    · obtain rfl := List.mem_singleton.1 he
      rfl

/-- What a normal reconcile leaves in the bootstrap condition, if a bootstrapped host is attached. -/
theorem NormalCourse.isBootstrapped_iff (hc : NormalCourse cfg h log h')
    (hattached : isBootstrapped h = true → h.machineRef ≠ none ∧ h.bootstrapSecret ≠ none) :
    isBootstrapped h' = true ↔ isBootstrapped h = true ∨ ∃ e ∈ log, e.bootstraps = true := by
  have hwith : ∀ (reason : Reason) (severity : ConditionSeverity) (h : ByoHost),
      isBootstrapped (withFalse .k8sNodeBootstrapSucceeded reason severity h) = false := by
    simp [isBootstrapped, withFalse]
  have hinstall : ∀ (reason : Reason) (severity : ConditionSeverity) (h : ByoHost),
      isBootstrapped (withFalse .k8sComponentsInstallationSucceeded reason severity h) =
        isBootstrapped h := by
    simp [isBootstrapped, withFalse]
  -- neither installation nor cleaning directories bootstraps
  have hilog : ∀ {ilog : List HostEvent} {h₁ : ByoHost}, Installed cfg h ilog h₁ →
      ∀ e ∈ ilog, e.bootstraps = false := fun hi e he => by
    simp [HostEvent.bootstraps, (Installed.mem hi he).2.1]
  have hglob : ∀ {h₁ : ByoHost} {oks : List Bool}, ∀ e ∈ globLog h₁ oks, e.bootstraps = false :=
    fun e he => by simp [HostEvent.bootstraps, (neutral_globLog he).2]
  cases hc with
  | deleted _ | alreadyBootstrapped _ | secretUnreadable _ => simp
  | waitsForMachineRef hm =>
    simp only [hwith, List.not_mem_nil, false_and, exists_false, or_false]
    -- a bootstrapped host has both references, so it is not waiting for one
    exact iff_of_false (by simp) fun hb => (hattached hb).1 hm
  | waitsForBootstrapSecret _ hs =>
    simp only [hwith, List.not_mem_nil, false_and, exists_false, or_false]
    exact iff_of_false (by simp) fun hb => (hattached hb).2 hs
  | waitsForInstallSecret _ _ _ _ => simp [hinstall]
  | installFailed script _ _ _ _ => simp [hinstall, HostEvent.bootstraps]
  | directoriesFailed oks ha hi =>
    rw [hwith, ha.notBootstrapped]
    refine iff_of_false (by simp) ?_
    rintro (hf | ⟨e, he, heb⟩)
    · cases hf
    · rcases List.mem_append.1 he with he | he
      · simp [hilog hi e he] at heb
      · simp [hglob e he] at heb
  | bootstrapFailed script reset ha hi =>
    rw [hwith, ha.notBootstrapped]
    refine iff_of_false (by simp) ?_
    rintro (hf | ⟨e, he, heb⟩)
    · cases hf
    · rcases List.mem_append.1 he with he | he
      · rcases List.mem_append.1 he with he | he
        · simp [hilog hi e he] at heb
        · simp [hglob e he] at heb
      · rcases List.mem_pair.1 he with rfl | rfl <;> cases heb
  | @bootstrapped _ h₁ script _ hi =>
    refine iff_of_true (by simp [isBootstrapped, withTrue])
      (.inr ⟨⟨.bootstrap script, h₁, true⟩, ?_, rfl⟩)
    exact List.mem_append_right _ (List.mem_singleton_self _)

/-- What a bootstrap attempt needs. -/
structure Attempt (cfg : Config) (before : List HostEvent) (pre : List HostEvent) (e : HostEvent) :
    Prop where
  machineRef : e.byoHost.machineRef ≠ none
  bootstrapSecret : e.byoHost.bootstrapSecret ≠ none
  notMarked : e.byoHost.carries .hostCleanup = false
  notDeleted : e.byoHost.deletionTimestamp = false
  cleaned : ∀ dir ∈ k8sDirectories, ∃ g ∈ pre, g.command = .removeGlob dir ∧ g.succeeded = true
  installed : cfg.skipK8sInstallation = true ∨
    isInstalled e.byoHost = true ∧ ∃ i ∈ before ++ pre, i.installs = true

/-- A list with one event of a kind splits at that event in one way. -/
theorem split_unique {p : HostEvent → Bool} {l₁ l₂ : List HostEvent} {x : HostEvent}
    (heq : l₁ ++ x :: l₂ = pre ++ e :: post) (h₁ : ∀ a ∈ l₁, p a = false)
    (h₂ : ∀ a ∈ l₂, p a = false) (he : p e = true) : pre = l₁ ∧ e = x := by
  rcases List.append_eq_append_iff.1 heq with ⟨mid, rfl, hmid⟩ | ⟨mid, rfl, hmid⟩
  · cases mid with
    | nil => exact ⟨List.append_nil _, (List.cons.inj hmid).1.symm⟩
    | cons y mid =>
      have hmem : e ∈ l₂ := by simp [(List.cons.inj hmid).2]
      exact absurd (he.symm.trans (h₂ e hmem)) (by simp)
  · cases mid with
    | nil => exact ⟨(List.append_nil _).symm, (List.cons.inj hmid).1⟩
    | cons y mid =>
      obtain ⟨rfl, _⟩ := List.cons.inj hmid
      exact absurd (he.symm.trans (h₁ e (by simp))) (by simp)

theorem Installed.attempt {before rest : List HostEvent} {script : String} {ok : Bool}
    (ha : Attached h) (hi : Installed cfg h log h')
    (hbefore : isInstalled h = true → ∃ i ∈ before, i.installs = true)
    (heq : log ++ globLog h' [true, true] ++ ⟨.bootstrap script, h', ok⟩ :: rest = pre ++ e :: post)
    (hrest : ∀ e ∈ rest, e.isBootstrap = false) (he : e.isBootstrap = true) :
    Attempt cfg before pre e := by
  have hpre : ∀ e ∈ log ++ globLog h' [true, true], e.isBootstrap = false := by
    intro e he
    rcases List.mem_append.1 he with he | he
    · exact (Installed.mem hi he).2.1
    · exact (neutral_globLog he).2
  obtain ⟨rfl, rfl⟩ := split_unique (p := HostEvent.isBootstrap) heq hpre hrest he
  have hsame : ConditionsOnly h h' := hi.conditionsOnly
  rw [ConditionsOnly] at hsame
  refine ⟨?_, ?_, ?_, ?_, ?_, ?_⟩
  · rw [hsame]
    exact ha.machineRef
  · rw [hsame]
    exact ha.bootstrapSecret
  · rw [hsame]
    exact ha.notMarked
  · rw [hsame]
    exact ha.notDeleted
  · intro dir hdir
    refine ⟨⟨.removeGlob dir, h', true⟩, List.mem_append_right _ ?_, rfl, rfl⟩
    rcases List.mem_pair.1 hdir with rfl | rfl
    · exact List.mem_cons_self
    · exact List.mem_cons_of_mem _ List.mem_cons_self
  · cases hskip : cfg.skipK8sInstallation with
    | true => exact .inl rfl
    | false =>
      right
      have hdone : isInstalled h = true ∨ ∃ e ∈ log, e.installs = true := by
        cases hi with
        | skipped hs => exact absurd (hskip.symm.trans hs) (by simp)
        | already _ h₁ => exact .inl h₁
        | now script _ _ _ => exact .inr ⟨_, List.mem_singleton_self _, rfl⟩
      refine ⟨(Installed.isInstalled_iff hi).2 hdone, ?_⟩
      rcases hdone with hd | ⟨i, hmem, hinst⟩
      · obtain ⟨i, hmem, hinst⟩ := hbefore hd
        exact ⟨i, List.mem_append_left _ hmem, hinst⟩
      · exact ⟨i, List.mem_append_right _ (List.mem_append_left _ hmem), hinst⟩

/-- Every bootstrap attempt of a normal reconcile has what it needs. -/
theorem NormalCourse.attempt (hc : NormalCourse cfg h log h') {before : List HostEvent}
    (hbefore : isInstalled h = true → ∃ i ∈ before, i.installs = true)
    (heq : log = pre ++ e :: post) (he : e.isBootstrap = true) : Attempt cfg before pre e := by
  have hmem : e ∈ log := by simp [heq]
  cases hc with
  | installFailed script _ _ _ _ =>
    obtain rfl := List.mem_singleton.1 hmem
    cases he
  | directoriesFailed oks _ hi =>
    rcases List.mem_append.1 hmem with hmem | hmem
    · exact absurd (he.symm.trans (Installed.mem hi hmem).2.1) (by simp)
    · exact absurd (he.symm.trans (neutral_globLog hmem).2) (by simp)
  | bootstrapFailed script reset ha hi =>
    refine Installed.attempt ha hi hbefore heq (fun e' he' => ?_) he
    obtain rfl := List.mem_singleton.1 he'
    rfl
  | bootstrapped script ha hi =>
    exact Installed.attempt ha hi hbefore heq (fun e' he' => by cases he') he
  | _ => cases hmem

/-- A cleanup starts neither script. -/
theorem CleanupCourse.neutral {completed : Bool} (hc : CleanupCourse cfg h log h' completed)
    (he : e ∈ log) : Neutral e := by
  have hreset : ∀ {log : List HostEvent} {h₁ : ByoHost}, Reset h log h₁ → e ∈ log → Neutral e := by
    intro log h₁ hr he
    cases hr with
    | notInstalled _ => cases he
    | now _ =>
      obtain rfl := List.mem_singleton.1 he
      exact ⟨rfl, rfl⟩
  have hthree : ∀ {log log' rest : List HostEvent} {h₁ : ByoHost}, Reset h log h₁ →
      Uninstalled cfg h₁ log' → rest.all isLocal = true → e ∈ log ++ log' ++ rest → Neutral e := by
    intro log log' rest h₁ hr hu hl he
    rcases List.mem_append.1 he with he | he
    · rcases List.mem_append.1 he with he | he
      · exact hreset hr he
      · cases hu with
        | notNeeded _ => cases he
        | now script _ _ =>
          obtain rfl := List.mem_singleton.1 he
          exact ⟨rfl, rfl⟩
    · exact neutral_of_isLocal (List.all_eq_true.1 hl e he)
  cases hc with
  | resetFailed _ =>
    obtain rfl := List.mem_singleton.1 he
    exact ⟨rfl, rfl⟩
  | uninstallUnreadable hr _ _ => exact hreset hr he
  | uninstallFailed script hr _ _ =>
    rcases List.mem_append.1 he with he | he
    · exact hreset hr he
    · obtain rfl := List.mem_singleton.1 he
      exact ⟨rfl, rfl⟩
  | localFailed hr hu hl => exact hthree hr hu hl he
  | completed hr hu hl => exact hthree hr hu hl he

/-- A completed cleanup leaves a host that is neither installed nor bootstrapped. -/
theorem CleanupCourse.conditions (hc : CleanupCourse cfg h log h' true) :
    isInstalled h' = false ∧ isBootstrapped h' = false := by
  cases hc with
  | completed hr _ _ =>
    refine ⟨(isInstalled_cleanedHost _).trans (Reset.not_installed hr), ?_⟩
    simp [isBootstrapped, cleanedHost, absentHost, withFalse, removeAnnotations]

end Courses

/-! ## Whole runs -/

/-- The commands since the last completed cleanup. -/
def sinceCleanup (runs : List AgentRun) : List HostEvent :=
  eventsOfRuns (runs.rtakeWhile fun r => !r.cleanedUp)

theorem sinceCleanup_concat (runs : List AgentRun) (r : AgentRun) :
    sinceCleanup (runs ++ [r]) =
      if r.cleanedUp then [] else sinceCleanup runs ++ r.events := by
  cases hr : r.cleanedUp with
  | true =>
    rw [sinceCleanup, List.rtakeWhile_concat_neg _ _ _ (by simp [hr])]
    rfl
  | false =>
    rw [sinceCleanup, List.rtakeWhile_concat_pos _ _ _ (by simp [hr]), eventsOfRuns_append]
    rfl

/-- A block of reconciles of which at most the last completes a cleanup: what happens between two
consecutive completed cleanups, or a part of it. -/
def IsBlock (runs block : List AgentRun) : Prop :=
  (∃ earlier later, runs = earlier ++ block ++ later) ∧ ∀ r ∈ block.dropLast, r.cleanedUp = false

theorem IsBlock.concat {runs block : List AgentRun} {r : AgentRun}
    (h : IsBlock (runs ++ [r]) block) :
    IsBlock runs block ∨ block = [] ∨
      ∃ block', block = block' ++ [r] ∧ eventsOfRuns block' <:+ sinceCleanup runs := by
  obtain ⟨⟨earlier, later, heq⟩, hblock⟩ := h
  rcases List.eq_nil_or_concat later with rfl | ⟨later', x, rfl⟩
  · right
    rcases List.eq_nil_or_concat block with rfl | ⟨block', y, rfl⟩
    · exact .inl rfl
    · right
      simp only [List.concat_eq_append, List.append_nil, ← List.append_assoc] at heq
      obtain ⟨hruns, hy⟩ := List.append_inj' heq rfl
      obtain rfl := List.singleton_inj.1 hy
      refine ⟨block', by simp, ?_⟩
      have hkeep : ∀ r ∈ block', r.cleanedUp = false := by simpa using hblock
      have htake : runs.rtakeWhile (fun r => !r.cleanedUp) =
          earlier.rtakeWhile (fun r => !r.cleanedUp) ++ block' := by
        rw [hruns, List.rtakeWhile, List.reverse_append, List.takeWhile_append_of_pos,
          List.reverse_append, List.reverse_reverse, List.rtakeWhile]
        simpa using hkeep
      refine ⟨eventsOfRuns (earlier.rtakeWhile fun r => !r.cleanedUp), ?_⟩
      rw [sinceCleanup, htake]
      simp [eventsOfRuns]
  · left
    simp only [List.concat_eq_append, ← List.append_assoc] at heq
    exact ⟨⟨earlier, later', (List.append_inj' heq rfl).1⟩, hblock⟩

/-- The commands since the last cleanup are those of a block. -/
theorem isBlock_rtakeWhile (runs : List AgentRun) :
    IsBlock runs (runs.rtakeWhile fun r => !r.cleanedUp) := by
  refine ⟨⟨runs.rdropWhile _, [], by rw [List.append_nil, List.rdropWhile_append_rtakeWhile]⟩, ?_⟩
  intro r hr
  simpa using List.mem_rtakeWhile_imp (List.mem_of_mem_dropLast hr)

/-- The invariant of a host and the record of its agent. -/
structure BootstrapHistory (cfg : Config) (h : ByoHost) (runs : List AgentRun) : Prop where
  once : ∀ block, IsBlock runs block → (eventsOfRuns block).Pairwise Once
  attempts : ∀ earlier r later, runs = earlier ++ r :: later → ∀ pre e post,
    r.events = pre ++ e :: post → e.isBootstrap = true → Attempt cfg (sinceCleanup earlier) pre e
  installed : h.carries .hostCleanup = false →
    (isInstalled h = true ↔ ∃ e ∈ sinceCleanup runs, e.installs = true)
  bootstrapped : h.carries .hostCleanup = false →
    (isBootstrapped h = true ↔ ∃ e ∈ sinceCleanup runs, e.bootstraps = true)
  attached : h.carries .hostCleanup = false → isBootstrapped h = true →
    h.machineRef ≠ none ∧ h.bootstrapSecret ≠ none

namespace BootstrapHistory

variable {cfg : Config} {h h' cur : ByoHost} {log : List HostEvent} {runs : List AgentRun}

/-- The part of the invariant about the record, extended by one reconcile. -/
theorem once_concat (hP : BootstrapHistory cfg h runs) {r : AgentRun}
    (hr : (sinceCleanup runs ++ r.events).Pairwise Once) :
    ∀ block, IsBlock (runs ++ [r]) block → (eventsOfRuns block).Pairwise Once := by
  intro block hblock
  rcases hblock.concat with hold | rfl | ⟨block', rfl, hsuffix⟩
  · exact hP.once block hold
  · exact .nil
  · rw [eventsOfRuns_append]
    exact hr.sublist (hsuffix.sublist.append_right _)

theorem attempts_concat (hP : BootstrapHistory cfg h runs) {r : AgentRun}
    (hr : ∀ pre e post, r.events = pre ++ e :: post → e.isBootstrap = true →
      Attempt cfg (sinceCleanup runs) pre e) :
    ∀ earlier r' later, runs ++ [r] = earlier ++ r' :: later → ∀ pre e post,
      r'.events = pre ++ e :: post → e.isBootstrap = true →
        Attempt cfg (sinceCleanup earlier) pre e := by
  intro earlier r' later heq
  rcases split_concat heq with ⟨rfl, rfl⟩ | ⟨later', hruns⟩
  · exact hr
  · exact hP.attempts earlier r' later' hruns

theorem since_pairwise (hP : BootstrapHistory cfg h runs) : (sinceCleanup runs).Pairwise Once :=
  hP.once _ (isBlock_rtakeWhile runs)

/-- A reconcile of a host without the cleanup annotation. -/
theorem normal (hP : BootstrapHistory cfg h runs) (hm : h.carries .hostCleanup = false)
    (hc : NormalCourse cfg h log h') (hp : Patched h h' true true true cur) :
    BootstrapHistory cfg cur (runs ++ [recordOf h log h']) := by
  have hrecord : (recordOf h log h').cleanedUp = false := by simp [recordOf, hm]
  have hsince : sinceCleanup (runs ++ [recordOf h log h']) = sinceCleanup runs ++ log := by
    rw [sinceCleanup_concat, hrecord]
    rfl
  have hsame : ConditionsOnly h h' := hc.conditionsOnly
  rw [ConditionsOnly] at hsame
  have hinstalled : isInstalled cur = true ↔
      ∃ e ∈ sinceCleanup runs ++ log, e.installs = true := by
    rw [isInstalled_congr hp.conditions, NormalCourse.isInstalled_iff hc, hP.installed hm]
    simp only [List.mem_append, or_and_right, exists_or]
  have hbootstrapped : isBootstrapped cur = true ↔
      ∃ e ∈ sinceCleanup runs ++ log, e.bootstraps = true := by
    have hcur : isBootstrapped cur = isBootstrapped h' := by simp [isBootstrapped, hp.conditions]
    rw [hcur, NormalCourse.isBootstrapped_iff hc (hP.attached hm), hP.bootstrapped hm]
    simp only [List.mem_append, or_and_right, exists_or]
  refine ⟨hP.once_concat ?_, hP.attempts_concat ?_, fun _ => hsince ▸ hinstalled,
    fun _ => hsince ▸ hbootstrapped, fun _ hb => ?_⟩
  · -- what has happened is known from the conditions of `h`
    refine List.pairwise_append.2 ⟨hP.since_pairwise, NormalCourse.pairwise hc, ?_⟩
    intro e he e' he'
    refine ⟨fun hi => ?_, fun hb => ?_⟩
    · exact NormalCourse.not_installs hc ((hP.installed hm).2 ⟨e, he, hi⟩) he'
    · exact NormalCourse.neutral_of_bootstrapped hc ((hP.bootstrapped hm).2 ⟨e, he, hb⟩) he'
  · intro pre e post heq he
    exact NormalCourse.attempt hc (hP.installed hm).1 heq he
  · have href : cur.machineRef = h.machineRef := hp.machineRef.trans (by rw [hsame]; rfl)
    have hsecret : cur.bootstrapSecret = h.bootstrapSecret :=
      hp.bootstrapSecret.trans (by rw [hsame]; rfl)
    rw [href, hsecret]
    have hb' : isBootstrapped h' = true := by
      rw [← hb]
      simp [isBootstrapped, hp.conditions]
    -- a bootstrap condition that is true now was true before, or this reconcile had a host to
    -- work on
    cases hc with
    | deleted _ | alreadyBootstrapped _ | secretUnreadable _ => exact hP.attached hm hb'
    | waitsForInstallSecret ha _ _ _ => exact ⟨ha.machineRef, ha.bootstrapSecret⟩
    | installFailed _ ha _ _ _ => exact ⟨ha.machineRef, ha.bootstrapSecret⟩
    | bootstrapped _ ha _ => exact ⟨ha.machineRef, ha.bootstrapSecret⟩
    | directoriesFailed _ ha _ => exact ⟨ha.machineRef, ha.bootstrapSecret⟩
    | bootstrapFailed _ _ ha _ => exact ⟨ha.machineRef, ha.bootstrapSecret⟩
    | waitsForMachineRef _ => simp [isBootstrapped, withFalse] at hb'
    | waitsForBootstrapSecret _ _ => simp [isBootstrapped, withFalse] at hb'

/-- A reconcile of a host with the cleanup annotation. -/
theorem cleanup (hP : BootstrapHistory cfg h runs) (hm : h.carries .hostCleanup = true)
    {completed : Bool} (hc : CleanupCourse cfg h log h' completed)
    (hp : Patched h h' true true true cur) :
    BootstrapHistory cfg cur (runs ++ [recordOf h log h']) := by
  have hcarries : cur.carries .hostCleanup = h'.carries .hostCleanup := by
    simp [ByoHost.carries, hp.annotations]
  have honce := hP.once_concat (r := recordOf h log h')
    (pairwise_append_neutral hP.since_pairwise fun _ => CleanupCourse.neutral hc)
  have hattempts := hP.attempts_concat (r := recordOf h log h') fun pre e post heq he => by
    have hlog : log = pre ++ e :: post := heq
    have hneutral : Neutral e := CleanupCourse.neutral hc (by simp [hlog])
    exact absurd (he.symm.trans hneutral.2) (by simp)
  cases completed with
  | false =>
    -- the annotation is still there, and the conditions need not say anything
    have hsame : ConditionsOnly h h' := hc.shape
    rw [ConditionsOnly] at hsame
    have hm' : cur.carries .hostCleanup = true := by
      rw [hcarries, hsame]
      exact hm
    have hno : ¬cur.carries .hostCleanup = false := by simp [hm']
    exact ⟨honce, hattempts, fun h => absurd h hno, fun h => absurd h hno, fun h => absurd h hno⟩
  | true =>
    have hshape : h' = { releasedHost h with conditions := h'.conditions } := hc.shape
    have hm' : h'.carries .hostCleanup = false := by
      rw [hshape]
      exact releasedHost_carries h
    have hsince : sinceCleanup (runs ++ [recordOf h log h']) = [] := by
      simp [sinceCleanup_concat, recordOf, hm, hm']
    obtain ⟨hi, hb⟩ := CleanupCourse.conditions hc
    have hi' : isInstalled cur = false := (isInstalled_congr hp.conditions).trans hi
    have hb' : isBootstrapped cur = false := by
      rw [← hb]
      simp [isBootstrapped, hp.conditions]
    refine ⟨honce, hattempts, fun _ => ?_, fun _ => ?_, fun _ h => ?_⟩
    · simp [hsince, hi']
    · simp [hsince, hb']
    · exact absurd (h.symm.trans hb') (by simp)

theorem course (hP : BootstrapHistory cfg h runs) (hc : Course cfg h log h')
    (hp : Patched h h' true true true cur) :
    BootstrapHistory cfg cur (runs ++ [recordOf h log h']) := by
  rw [Protocol.Course] at hc
  split at hc
  · rename_i hm
    obtain ⟨completed, hc⟩ := hc
    exact hP.cleanup hm hc hp
  · rename_i hm
    exact hP.normal (by simpa using hm) hc hp

/-- The manager touches neither the conditions nor, once they are there, the annotation and the
references. -/
theorem manager (hP : BootstrapHistory cfg h runs) (hw : ManagerWrites h h') :
    BootstrapHistory cfg h' runs := by
  obtain ⟨_, hcond, hclean⟩ := hw.keeps
  have hm : h'.carries .hostCleanup = false → h.carries .hostCleanup = false := by
    intro hm'
    by_contra hne
    exact absurd ((hclean (by simpa using hne)).symm.trans hm') (by simp)
  have hb : isBootstrapped h' = isBootstrapped h := by simp [isBootstrapped, hcond]
  refine ⟨hP.once, hP.attempts, fun hm' => ?_, fun hm' => ?_, fun hm' hb' => ?_⟩
  · rw [isInstalled_congr hcond]
    exact hP.installed (hm hm')
  · rw [hb]
    exact hP.bootstrapped (hm hm')
  · obtain ⟨href, hsecret⟩ := hP.attached (hm hm') (hb ▸ hb')
    exact ⟨hw.machineRef href, hw.bootstrapSecret hsecret⟩

/-- No agent has run, and the host is neither installed nor bootstrapped. -/
theorem init (cfg : Config) (hi : isInstalled h = false) (hb : isBootstrapped h = false) :
    BootstrapHistory cfg h [] := by
  refine ⟨?_, by simp, fun _ => ?_, fun _ => ?_, fun _ h => ?_⟩
  · rintro block ⟨⟨earlier, later, heq⟩, _⟩
    obtain ⟨hblock, _⟩ := List.append_eq_nil_iff.1 heq.symm
    rw [(List.append_eq_nil_iff.1 hblock).2]
    exact .nil
  · simp [sinceCleanup, eventsOfRuns, hi]
  · simp [sinceCleanup, eventsOfRuns, hb]
  · exact absurd (h.symm.trans hb) (by simp)

end BootstrapHistory

/-- **Once per attachment.** In every run in which the agents' deferred patches succeed, between two
consecutive completed cleanups the install script succeeds at most once, the bootstrap script
succeeds at most once, and neither script starts after the bootstrap has succeeded; and every
bootstrap attempt finds the host attached, not marked and not deleted, its directories cleaned in
the same reconcile and, unless installation is skipped, an installation that has succeeded since
the last completed cleanup. -/
theorem bootstrap_once (setup : Setup) {s₀ s : Site} {as : List Action} (hfresh : FreshSite s₀)
    (hrun : ActionRun setup.act PatchesSucceed s₀ as s) (k : NamespacedName) :
    (∀ block, IsBlock (s.runs k) block →
      (eventsOfRuns block).countP HostEvent.installs ≤ 1 ∧
      (eventsOfRuns block).countP HostEvent.bootstraps ≤ 1 ∧
      (eventsOfRuns block).Pairwise fun e e' => e.bootstraps = true →
        e'.isInstall = false ∧ e'.isBootstrap = false) ∧
    (∀ earlier r later, s.runs k = earlier ++ r :: later → ∀ pre e post,
      r.events = pre ++ e :: post → e.isBootstrap = true →
        Attempt setup.agent (sinceCleanup earlier) pre e) := by
  have hhist : s.runs k = [] ∨ ∃ h, s.world.hosts.lookup k = some h ∧
      BootstrapHistory setup.agent h (s.runs k) :=
    site_invariant (P := BootstrapHistory setup.agent) BootstrapHistory.course
      BootstrapHistory.manager hrun hfresh (fun _ => .init setup.agent) k
  rcases hhist with hnil | ⟨h, -, hP⟩
  · rw [hnil]
    refine ⟨?_, by simp⟩
    rintro block ⟨⟨earlier, later, heq⟩, _⟩
    obtain ⟨hblock, _⟩ := List.append_eq_nil_iff.1 heq.symm
    rw [(List.append_eq_nil_iff.1 hblock).2]
    simp [eventsOfRuns]
  refine ⟨fun block hblock => ?_, hP.attempts⟩
  have hpair := hP.once block hblock
  refine ⟨countP_le_one (hpair.imp fun h => h.1), ?_, hpair.imp fun h => h.2⟩
  refine countP_le_one (hpair.imp fun h hb => ?_)
  simp [HostEvent.bootstraps, (h.2 hb).2]

/-- The life of a machine: one bootstrap, and never a second one. -/
theorem bootstrap_once_life :
    let s := (Small.life "m1" "h1").foldl (Setup.act {}) { world := Small.world ["h1"] ["m1"] }
    (eventsOfRuns (s.runs (Small.key "h1"))).countP HostEvent.bootstraps = 1 ∧
      ∀ block, IsBlock (s.runs (Small.key "h1")) block →
        (eventsOfRuns block).countP HostEvent.bootstraps ≤ 1 := by
  refine ⟨by decide +kernel, fun block hblock => ?_⟩
  exact ((bootstrap_once {} (freshSite_small ["h1"] ["m1"]) (small_life "m1" "h1" _ _)
    (Small.key "h1")).1 block hblock).2.1

end Byoh.Properties
