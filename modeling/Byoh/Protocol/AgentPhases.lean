import Byoh.Protocol.AgentCourses

/-!
# The phases of an agent reconcile

A reconcile of the agent reads its host, takes one of the courses, and patches the host. The
patch writes conditions after most courses; only a completed cleanup also writes metadata, spec
and status (`Course.shape`), and releases the host.
-/

set_option autoImplicit false

namespace Byoh.Protocol

open Byoh.Foundation Byoh.Model Byoh.Model.HostReconciler

/-! ## What a course does to the host -/

/-- The host as a completed cleanup leaves it, its conditions apart. -/
def releasedHost (h : ByoHost) : ByoHost := removeAnnotations { h with installationSecret := none }

@[simp] theorem releasedHost_carries (h : ByoHost) :
    (releasedHost h).carries .hostCleanup = false := by
  simp [releasedHost, removeAnnotations, ByoHost.carries]

section Shape

variable {cfg : Config} {h h' : ByoHost} {log : List HostEvent}

/-- Only the conditions of a host differ. -/
def ConditionsOnly (h h' : ByoHost) : Prop := h' = { h with conditions := h'.conditions }

theorem ConditionsOnly.refl (h : ByoHost) : ConditionsOnly h h := rfl

theorem Installed.conditionsOnly (hi : Installed cfg h log h') : ConditionsOnly h h' := by
  cases hi <;> rfl

theorem NormalCourse.conditionsOnly (hc : NormalCourse cfg h log h') : ConditionsOnly h h' := by
  cases hc with
  | directoriesFailed _ _ hi | bootstrapFailed _ _ _ hi | bootstrapped _ _ hi =>
    have := hi.conditionsOnly
    rw [ConditionsOnly] at this
    rw [this]
    rfl
  | _ => rfl

theorem Reset.conditionsOnly (hr : Reset h log h') : ConditionsOnly h h' := by
  cases hr <;> rfl

/-- The flag of a cleanup course says whether the host is released. -/
theorem CleanupCourse.shape {completed : Bool} (hc : CleanupCourse cfg h log h' completed) :
    if completed then h' = { releasedHost h with conditions := h'.conditions }
    else ConditionsOnly h h' := by
  cases hc with
  | resetFailed _ => rfl
  | uninstallUnreadable hr _ _ => exact hr.conditionsOnly
  | uninstallFailed _ hr _ _ => exact hr.conditionsOnly
  | localFailed hr _ _ =>
    have := hr.conditionsOnly
    rw [ConditionsOnly] at this
    rw [this]
    rfl
  | completed hr _ _ =>
    have := hr.conditionsOnly
    rw [ConditionsOnly] at this
    rw [this]
    rfl

/-- The host was marked for cleanup and is released. -/
def Released (h h' : ByoHost) : Prop :=
  h.carries .hostCleanup = true ∧ h' = { releasedHost h with conditions := h'.conditions }

/-- A course changes conditions only, or it is a completed cleanup. -/
theorem Course.shape (hc : Course cfg h log h') : ConditionsOnly h h' ∨ Released h h' := by
  rw [Course] at hc
  split at hc
  · rename_i hm
    obtain ⟨completed, hc⟩ := hc
    have hshape := hc.shape
    cases completed with
    | false => exact .inl hshape
    | true => exact .inr ⟨hm, hshape⟩
  · exact .inl hc.conditionsOnly

/-- Metadata and spec are written only to release the host. -/
theorem Course.released_of_changed (hc : Course cfg h log h') (hchanged : h.changed h' = true) :
    Released h h' := by
  rcases hc.shape with hs | hs
  · rw [ConditionsOnly] at hs
    rw [hs] at hchanged
    simp [ByoHost.changed] at hchanged
  · exact hs

/-- So is the status, its conditions apart. -/
theorem Course.released_of_statusChanged (hc : Course cfg h log h')
    (hchanged : h.statusChanged h' = true) : Released h h' := by
  rcases hc.shape with hs | hs
  · rw [ConditionsOnly] at hs
    rw [hs] at hchanged
    simp [ByoHost.statusChanged] at hchanged
  · exact hs

theorem Course.key (hc : Course cfg h log h') : h'.key = h.key := by
  rcases hc.shape with hs | ⟨_, hs⟩
  · rw [ConditionsOnly] at hs
    rw [hs]
    rfl
  · rw [hs]
    rfl

end Shape

/-! ## Phases -/

/-- How far a reconcile of the agent has come; at the end, what it did if it could read its
host. -/
inductive AgentPhase where
  | start
  | body (h : ByoHost) (log : List HostEvent)
  | finish (h : ByoHost) (log : List HostEvent) (h' : ByoHost) (part : PatchPart)
  | done (ran : Option (ByoHost × List HostEvent × ByoHost))

/-- One call of the agent of the host `k`. -/
inductive AgentCall (k : NamespacedName) : AgentPhase → (c : Call) → Resp c → AgentPhase → Prop
  | read {h : ByoHost} : AgentCall k .start (.getByoHost k) (.ok h) (.body h [])
  | readFailed {e : ApiError} : AgentCall k .start (.getByoHost k) (.error e) (.done none)
  | work {h : ByoHost} {log log' : List HostEvent} {c : Call} {r : Resp c}
      (hc : AgentNext log c r log') : AgentCall k (.body h log) c r (.body h log')
  | conditionsWritten {h h' : ByoHost} {log : List HostEvent} {r : Option ApiError}
      {key : NamespacedName} (hkey : key = h.key) :
      AgentCall k (.finish h log h' .conditions) (.patchByoHostConditions key h h') r
        (.finish h log h' .spec)
  | specWritten {h h' : ByoHost} {log : List HostEvent} {r : Option ApiError}
      {key : NamespacedName} (hkey : key = h.key) (hreleased : Released h h') :
      AgentCall k (.finish h log h' .spec) (.patchByoHost key h h') r (.finish h log h' .status)
  | statusWritten {h h' : ByoHost} {log : List HostEvent} {r : Option ApiError}
      {key : NamespacedName} (hkey : key = h.key) (hreleased : Released h h')
      (hchanged : h.statusChanged h' = true) :
      AgentCall k (.finish h log h' .status) (.patchByoHostStatus key h h') r
        (.done (some (h, log, h')))

/-- What a reconcile of the agent does between calls. -/
inductive AgentSilent (cfg : Config) : AgentPhase → AgentPhase → Prop
  | leave {h h' : ByoHost} {log : List HostEvent} (hc : Course cfg h log h') :
      AgentSilent cfg (.body h log) (.finish h log h' .conditions)
  | skipConditions {h h' : ByoHost} {log : List HostEvent} (hsame : h.conditions = h'.conditions) :
      AgentSilent cfg (.finish h log h' .conditions) (.finish h log h' .spec)
  | skipSpec {h h' : ByoHost} {log : List HostEvent} (hsame : h.changed h' = false) :
      AgentSilent cfg (.finish h log h' .spec) (.finish h log h' .status)
  | skipStatus {h h' : ByoHost} {log : List HostEvent} (hsame : h.statusChanged h' = false) :
      AgentSilent cfg (.finish h log h' .status) (.done (some (h, log, h')))

/-- The report of a reconcile agrees with its last phase. -/
def Reports (report : Report) (q : AgentPhase) : Prop :=
  report.read = none ∧ report.left = none ∧ q = .done none ∨
    ∃ h log h', report.read = some h ∧ report.left = some h' ∧ q = .done (some (h, log, h'))

section Follows

variable {cfg : Config} {k : NamespacedName} {α : Type}

/-- A request of the patch helper that is sent only when something changed. -/
theorem sendIf_bind {post : α → AgentPhase → Prop} {changed : Bool} {c : ApiProg (Option ApiError)}
    {f : Option ApiError → ApiProg α} {q : AgentPhase}
    (hsent : changed = true → Prog.Follows (AgentCall k) (AgentSilent cfg) post (c.bind f) q)
    (hskipped : changed = false → Prog.Follows (AgentCall k) (AgentSilent cfg) post (f none) q) :
    Prog.Follows (AgentCall k) (AgentSilent cfg) post ((sendIf changed c).bind f) q := by
  cases changed with
  | true => exact hsent rfl
  | false => exact hskipped rfl

theorem agentPatch_follows {h h' : ByoHost} {log : List HostEvent} (hcourse : Course cfg h log h') :
    Prog.Follows (AgentCall k) (AgentSilent cfg) (fun _ q => q = .done (some (h, log, h')))
      (patchByoHost h h') (.finish h log h' .conditions) := by
  have hkey : h'.key = h.key := hcourse.key
  have hstatus : ∀ e : Option ApiError → Option Err,
      Prog.Follows (AgentCall k) (AgentSilent cfg) (fun _ q => q = .done (some (h, log, h')))
        ((sendIf (h.statusChanged h') (call (.patchByoHostStatus h'.key h h'))).bind
          fun e₃ => .ret (e e₃)) (.finish h log h' .status) := fun e =>
    sendIf_bind (fun hc => .perform _
      (fun _ => .statusWritten hkey (hcourse.released_of_statusChanged hc) hc) fun _ => .ret rfl)
      fun hc => .silent (.skipStatus hc) (.ret rfl)
  have hspec : ∀ e : Option ApiError → Option ApiError → Option Err,
      Prog.Follows (AgentCall k) (AgentSilent cfg) (fun _ q => q = .done (some (h, log, h')))
        ((sendIf (h.changed h') (call (.patchByoHost h'.key h h'))).bind fun e₂ =>
          (sendIf (h.statusChanged h') (call (.patchByoHostStatus h'.key h h'))).bind
            fun e₃ => .ret (e e₂ e₃)) (.finish h log h' .spec) := fun e =>
    sendIf_bind (fun hc => .perform _
      (fun _ => .specWritten hkey (hcourse.released_of_changed hc)) fun _ => hstatus _)
      fun hc => .silent (.skipSpec hc) (hstatus _)
  exact sendIf_bind (fun _ => .perform _ (fun _ => .conditionsWritten hkey) fun _ => hspec _)
    fun hc => .silent (.skipConditions (by simpa using hc)) (hspec _)

/-- The phase after a read of the host. -/
def afterRead : Except ApiError ByoHost → AgentPhase
  | .error _ => .done none
  | .ok h => .body h []

/-- Every reconcile of an agent follows the phases. -/
theorem agentReconcile_follows (cfg : Config) (k : NamespacedName) :
    Prog.Follows (AgentCall k) (AgentSilent cfg) Reports (reconcileReport cfg k) .start := by
  refine .perform afterRead (fun r => ?_) fun r => ?_
  · rcases r with e | h
    · exact .readFailed
    · exact .read
  rcases r with e | h
  · exact .ret (.inl ⟨rfl, rfl, rfl⟩)
  -- the course of `reconcileHost` is the body; the patch is deferred behind every exit
  have hbody : Prog.Follows (AgentCall k) (AgentSilent cfg)
      (fun r q => ∃ log, Course cfg h log r.2 ∧ q = .body h log) (reconcileHost cfg h)
      (.body h []) := by
    refine Prog.Follows.map (AgentPhase.body h) (fun _ _ _ _ => .work) (fun _ _ => False.elim) ?_
      (reconcileHost_course cfg h)
    exact fun _ log hc => ⟨log, hc, rfl⟩
  refine .bind (.bind (hbody.mono ?_))
  rintro ⟨exit, h'⟩ q ⟨log, hc, rfl⟩
  refine .bind (.silent (.leave hc) ((agentPatch_follows hc).mono ?_))
  rintro e q rfl
  have hreport : ∀ exit : Exit Err Result,
      Reports ⟨exit, some h, some h'⟩ (.done (some (h, log, h'))) :=
    fun _ => .inr ⟨h, log, h', rfl, rfl, rfl⟩
  cases exit with
  | ok a => cases e <;> exact .ret (.ret (hreport _))
  | err e' => cases e <;> exact .ret (.ret (hreport _))
  | panic m => cases e <;> exact .ret (.ret (hreport _))

end Follows

end Byoh.Protocol
