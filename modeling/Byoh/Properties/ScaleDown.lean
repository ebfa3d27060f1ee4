import Byoh.Foundation.ActionRun
import Byoh.Protocol.CommandCalls

/-!
# Scaling down once

How often the runs of `PerformHostOperation` for one host decrease the replicas of its
MachineDeployment. Nothing records that a run has scaled down already, so a run that is issued
again while the host is still attached does it again.
-/

set_option autoImplicit false

namespace Byoh.Properties

open Byoh.Foundation Byoh.Model Byoh.Model.HostOperations

/-! ## Where a run is -/

/-- The phases of a run: before its host is read, with the name of the host, with a host that is
attached, with the MachineDeployment that it will scale down, and after that. -/
inductive CtlPhase where
  | start
  | named (name : String)
  | attached
  | scaling (k : NamespacedName) (d : Versioned MachineDeployment)
  | settled

/-- The call updates a MachineDeployment. -/
def isScaleDown : CtlCall → Bool
  | .updateMachineDeployment _ _ => true
  | _ => false

/-- The calls of a run in the namespace `ns`. -/
inductive CtlNext (ns : String) : CtlPhase → (c : CtlCall) → CtlResp c → CtlPhase → Prop
  | other {q : CtlPhase} {c : CtlCall} {r : CtlResp c} (hc : isScaleDown c = false) :
      CtlNext ns q c r q
  | named {name : String} : CtlNext ns .start .hostname (.ok name) (.named name)
  | attached {name : String} {h : ByoHost} (href : h.machineRef ≠ none) :
      CtlNext ns (.named name) (.getByoHost ⟨ns, name⟩) (.ok h) .attached
  | reading {k : NamespacedName} {d : Versioned MachineDeployment} :
      CtlNext ns .attached (.getMachineDeployment k) (.ok d) (.scaling k d)
  | scaled {k : NamespacedName} {d : Versioned MachineDeployment} {n : Int} {r : Option String}
      (hn : d.value.replicas = some n) :
      CtlNext ns (.scaling k d) (.updateMachineDeployment k { d with value := ⟨some (n - 1)⟩ }) r
        .settled

/-- A run may be over at any time. -/
def CtlSilent (_ q' : CtlPhase) : Prop := q' = .settled

section Phases

variable {ns : String} {α β : Type} {q : CtlPhase}

/-- A call that is no update may be made in any phase. -/
theorem ctlNext_other (c : CtlCall) (r : CtlResp c) (hc : isScaleDown c = false) :
    CtlNext ns q c r q :=
  .other hc

theorem isScaleDown_of_isPlain (c : CtlCall) (hc : isPlain c = true) : isScaleDown c = false := by
  cases c <;> first | rfl | cases hc

/-! ## The functions of the command -/

/-- The host is read: when it is attached, the run is in the phase for that. -/
theorem getByoHostObject_follows :
    GoM.Follows (CtlNext ns) CtlSilent (fun e _ q => match e with
      | .ok h => if h.machineRef = none then q = .settled else q = .attached
      | _ => True) (getByoHostObject ns) () .start := by
  refine .bind (orWrap_follows ?_)
  refine .lift_bind (.call (fun r => match r with | .ok name => .named name | .error _ => .start)
    (fun r => ?_) fun r => .ret ?_)
  · cases r with
    | ok name => exact .named
    | error e => exact .other rfl
  cases r with
  | error e => exact .throw trivial
  | ok name =>
    refine .pure (orWrap_follows ?_)
    refine .lift_bind (.call (fun r => match r with
      | .ok h => if h.machineRef = none then .named name else .attached
      | .error _ => .named name) (fun r => ?_) fun r => .ret ?_)
    · cases r with
      | error e => exact .other rfl
      | ok h =>
        dsimp only
        split
        · exact .other rfl
        next href => exact .attached href
    cases r with
    | error e => exact .throw trivial
    | ok h =>
      dsimp only
      split
      next href => exact .move rfl (.pure (by simp [href]))
      next href => exact .pure (by simp [href])

theorem removeMachine_follows (name : String) :
    GoM.Follows (CtlNext ns) CtlSilent (fun _ _ _ => True) (removeMachine ns name) () .attached := by
  have hp := isScaleDown_of_isPlain
  refine then_of_only (orWrap_only (getUnstructuredMachineObject_only hp name)) ctlNext_other
    fun m => ?_
  refine then_of_only (orWrap_only (getMachineDeploymentReplicaCount_only (fun _ => rfl) m))
    ctlNext_other fun replicaCount => ?_
  refine then_of_only (.when (confirmLastNode_only hp rfl name m)) ctlNext_other fun _ => ?_
  refine then_of_only (orWrap_only (getUnstructuredMachineObject_only hp name)) ctlNext_other
    fun m => ?_
  refine then_of_only (orWrap_only (annotateMachineObject_only hp name m _ _)) ctlNext_other
    fun _ => ?_
  refine orWrap_follows ((scaleDownMachineDeployment_follows m (fun _ _ => .reading)
    (fun _ _ => .other rfl) fun _ _ _ _ => .scaled).mono ?_)
  intro e _ _ _
  cases e <;> trivial

/-- Every run goes through the phases. -/
theorem performHostOperation_scales (op : HostOperationType) :
    GoM.Follows (CtlNext ns) CtlSilent (fun _ _ _ => True) (performHostOperation op ns) ()
      .start := by
  refine performHostOperation_follows op isScaleDown_of_isPlain rfl ctlNext_other
    (fun r => .other rfl) getByoHostObject_follows fun h machineRef q hq href => ?_
  obtain rfl : q = .attached := by simpa [href] using hq
  exact removeMachine_follows machineRef.name

end Phases

/-! ## What a run does to the replicas -/

/-- The host has no MachineRef, or is gone. -/
def NoMachineRef (k : NamespacedName) (s : CtlStore) : Prop :=
  ∀ h, s.hosts.lookup k = some h → h.machineRef = none

/-- At most one update, which lowers the replicas by one. -/
structure ScaledOnce (l : List ScaleDown) : Prop where
  length_le : l.length ≤ 1
  lowered : ∀ d ∈ l, ∃ n, d.before = some n ∧ d.after = some (n - 1)

/-- The host is not attached: the MachineRef that the runs see is that of one attachment. -/
def KeepsAttachment (k : NamespacedName) : CtlEnv → Prop
  | .attach k' _ => k' ≠ k
  | _ => True

/-- What holds of the store in each phase of a run on the machine `name`. -/
structure Scales (ns name : String) (s : CtlStore) (q : CtlPhase) : Prop where
  hostname : s.hostname = name
  phase : match q with
    | .start => ScaledOnce s.scaleDowns ∧ (NoMachineRef ⟨ns, name⟩ s ∨ s.scaleDowns = [])
    | .named name' => ScaledOnce s.scaleDowns ∧
        (NoMachineRef ⟨ns, name⟩ s ∨ s.scaleDowns = []) ∧ name' = name
    | .attached => s.scaleDowns = []
    | .scaling k d => s.scaleDowns = [] ∧ s.deployments.Current k d
    | .settled => ScaledOnce s.scaleDowns

theorem scaledOnce_nil : ScaledOnce [] := ⟨Nat.zero_le _, by simp⟩

variable {ns name : String} {s : CtlStore} {q : CtlPhase} {k k' : NamespacedName} {o : CtlOutcome}

theorem Scales.settled (h : Scales ns name s q) : Scales ns name s .settled := by
  refine ⟨h.hostname, ?_⟩
  have hphase := h.phase
  cases q with
  | start => exact hphase.1
  | named name' => exact hphase.1
  | attached => exact hphase ▸ scaledOnce_nil
  | scaling k d => exact hphase.1 ▸ scaledOnce_nil
  | settled => exact hphase

/-- What every change keeps that is not an update of the command: the replicas that it wrote, what
a reader knows of the MachineDeployments, and that the host is not attached. -/
structure Undisturbed (k : NamespacedName) (s s' : CtlStore) : Prop where
  hostname : s'.hostname = s.hostname
  scaleDowns : s'.scaleDowns = s.scaleDowns
  current : ∀ k' d, s.deployments.Current k' d → s'.deployments.Current k' d
  noMachineRef : NoMachineRef k s → NoMachineRef k s'

theorem Undisturbed.refl (k : NamespacedName) (s : CtlStore) : Undisturbed k s s :=
  ⟨rfl, rfl, fun _ _ => id, id⟩

theorem Undisturbed.trans {s s' s'' : CtlStore} (h : Undisturbed k s s')
    (h' : Undisturbed k s' s'') : Undisturbed k s s'' where
  hostname := h'.hostname.trans h.hostname
  scaleDowns := h'.scaleDowns.trans h.scaleDowns
  current k' d hd := h'.current k' d (h.current k' d hd)
  noMachineRef hu := h'.noMachineRef (h.noMachineRef hu)

theorem Scales.of_undisturbed {s' : CtlStore} (h : Scales ns name s q)
    (hs : Undisturbed ⟨ns, name⟩ s s') : Scales ns name s' q := by
  refine ⟨hs.hostname.trans h.hostname, ?_⟩
  have hphase := h.phase
  cases q with
  | start => exact ⟨hs.scaleDowns ▸ hphase.1, hphase.2.imp hs.noMachineRef hs.scaleDowns.trans⟩
  | named name' =>
    exact ⟨hs.scaleDowns ▸ hphase.1, hphase.2.1.imp hs.noMachineRef hs.scaleDowns.trans, hphase.2.2⟩
  | attached => exact hs.scaleDowns.trans hphase
  | scaling k d => exact ⟨hs.scaleDowns.trans hphase.1, hs.current k d hphase.2⟩
  | settled => exact hs.scaleDowns ▸ hphase

/-- Writing a host without a MachineRef does not attach any. -/
theorem NoMachineRef.insert {h : ByoHost} (hu : NoMachineRef k s)
    (hh : k = k' → h.machineRef = none) :
    NoMachineRef k { s with hosts := s.hosts.insert k' h } := by
  intro h' hlookup
  rcases lookup_insert_some hlookup with ⟨hk, rfl⟩ | ⟨-, hlookup⟩
  · exact hh hk
  · exact hu h' hlookup

theorem NoMachineRef.erase (hu : NoMachineRef k s) (k' : NamespacedName) :
    NoMachineRef k { s with hosts := s.hosts.erase k' } :=
  fun h' hlookup => hu h' (lookup_erase_some hlookup).2

theorem NoMachineRef.setMachineRef {ref : Option ObjectReference} (hu : NoMachineRef k s)
    (href : k = k' → ref = none) : NoMachineRef k (s.setMachineRef k' ref) := by
  rw [CtlStore.setMachineRef]
  split
  · exact hu.insert href
  · exact hu

theorem setMachineRef_undisturbed {ref : Option ObjectReference} (href : k = k' → ref = none) :
    Undisturbed k s (s.setMachineRef k' ref) where
  hostname := by rw [CtlStore.setMachineRef]; split <;> rfl
  scaleDowns := by rw [CtlStore.setMachineRef]; split <;> rfl
  current k' d hd := by rw [CtlStore.setMachineRef]; split <;> exact hd
  noMachineRef hu := hu.setMachineRef href

theorem ctlEnv_undisturbed {e : CtlEnv} (he : KeepsAttachment k e) :
    Undisturbed k s (ctlEnv s e) := by
  cases e with
  | register h =>
    rw [ctlEnv]
    split
    · exact .refl k s
    · exact ⟨rfl, rfl, fun _ _ => id, fun hu => hu.insert fun _ => rfl⟩
  | attach k' ref => exact setMachineRef_undisturbed fun hk => absurd hk.symm he
  | release k' => exact setMachineRef_undisturbed fun _ => rfl
  | deleteHost k' => exact ⟨rfl, rfl, fun _ _ => id, fun hu => hu.erase k'⟩
  | putMachine k' m => exact ⟨rfl, rfl, fun _ _ => id, id⟩
  | deleteMachine k' => exact ⟨rfl, rfl, fun _ _ => id, id⟩
  | putDeployment k' d => exact ⟨rfl, rfl, fun _ _ hd => hd.put k' d, id⟩
  | deleteDeployment k' => exact ⟨rfl, rfl, fun _ _ hd => hd.erase k', id⟩

/-- What others do between two calls. -/
theorem after_undisturbed (ho : ∀ e ∈ o.meanwhile, KeepsAttachment k e) :
    Undisturbed k s (s.after o) := by
  have hall : ∀ (es : List CtlEnv) (s : CtlStore), (∀ e ∈ es, KeepsAttachment k e) →
      Undisturbed k s (es.foldl ctlEnv s) := by
    intro es
    induction es with
    | nil => exact fun s _ => .refl k s
    | cons e es ih =>
      intro s hes
      have he := ctlEnv_undisturbed (s := s) (hes e List.mem_cons_self)
      exact he.trans (ih _ fun e' he' => hes e' (List.mem_cons_of_mem e he'))
  obtain ⟨hname, hscale, hcurrent, hnoRef⟩ := hall o.meanwhile s ho
  exact ⟨hname, hscale, hcurrent, hnoRef⟩

/-- A write either takes effect or leaves the store alone. -/
theorem writeCtl_cases (o : CtlOutcome) (s : CtlStore) (x : Option CtlStore) :
    (∃ s', x = some s' ∧ (writeCtl o s x).2 = s') ∨ (writeCtl o s x).2 = s := by
  unfold writeCtl
  split
  · cases x with
    | none => exact .inr rfl
    | some s' => exact .inl ⟨s', rfl, rfl⟩
  · exact .inr rfl

/-- Calls that do not update a MachineDeployment. -/
theorem answer_undisturbed (o : CtlOutcome) {c : CtlCall} (hc : isScaleDown c = false) :
    Undisturbed k s (answer o c s).2 := by
  cases c with
  | deleteByoHost k' =>
    rcases writeCtl_cases o s ((s.hosts.lookup k').map fun _ =>
      { s with hosts := s.hosts.erase k' }) with ⟨s', hs', hw⟩ | hw <;> rw [answer, hw]
    · obtain ⟨h, -, rfl⟩ := Option.map_eq_some_iff.1 hs'
      exact ⟨rfl, rfl, fun _ _ => id, fun hu => hu.erase k'⟩
    · exact .refl k s
  | updateMachine k' m =>
    rcases writeCtl_cases o s ((s.machines.update k' m).map fun machines =>
      { s with machines := machines }) with ⟨s', hs', hw⟩ | hw <;> rw [answer, hw]
    · obtain ⟨machines, -, rfl⟩ := Option.map_eq_some_iff.1 hs'
      exact ⟨rfl, rfl, fun _ _ => id, id⟩
    · exact .refl k s
  | updateMachineDeployment k' d => cases hc
  | _ => exact ⟨rfl, rfl, fun _ _ => id, id⟩

theorem readCtl_ok {α : Type} {x : Option α} {a : α} (h : readCtl o x = .ok a) : x = some a := by
  unfold readCtl at h
  split at h
  · cases h
  · split at h <;> cases h
    rfl

/-- The update of a MachineDeployment that is current lowers its replicas by one. -/
theorem scaled_step {d : Versioned MachineDeployment} {n : Int} (hnone : s.scaleDowns = [])
    (hcurrent : s.deployments.Current k d) (hn : d.value.replicas = some n) :
    ScaledOnce (answer o (.updateMachineDeployment k { d with value := ⟨some (n - 1)⟩ }) s).2.scaleDowns := by
  rcases writeCtl_cases o s ((s.deployments.update k { d with value := ⟨some (n - 1)⟩ }).map
    fun deployments => { s with
      deployments := deployments
      scaleDowns := ⟨k, (s.deployments.get k).bind (·.value.replicas), some (n - 1)⟩ ::
        s.scaleDowns }) with ⟨s', hs', hw⟩ | hw <;> rw [answer, hw]
  · obtain ⟨deployments, hupdate, rfl⟩ := Option.map_eq_some_iff.1 hs'
    have hget : s.deployments.get k = some d := hcurrent.get_of_update hupdate
    dsimp only
    rw [hnone, hget]
    refine ⟨Nat.le_refl 1, ?_⟩
    intro e he
    obtain rfl := List.mem_singleton.1 he
    exact ⟨n, hn, rfl⟩
  · rw [hnone]
    exact scaledOnce_nil

/-- One call of a run. -/
theorem Scales.step {q' : CtlPhase} {c : CtlCall}
    (ho : ∀ e ∈ o.meanwhile, KeepsAttachment ⟨ns, name⟩ e) (hs : Scales ns name s q)
    (hnext : CtlNext ns q c (execCtl o c s).1 q') : Scales ns name (execCtl o c s).2 q' := by
  replace hs := hs.of_undisturbed (after_undisturbed ho)
  rw [execCtl] at hnext ⊢
  generalize s.after o = s at hs hnext
  have hrest : isScaleDown c = false → Scales ns name (answer o c s).2 q := fun hc =>
    hs.of_undisturbed (answer_undisturbed o hc)
  generalize hr : (answer o c s).1 = r at hnext
  cases hnext with
  | other hc => exact hrest hc
  | named =>
    obtain rfl := Option.some.inj (readCtl_ok hr)
    exact ⟨hs.hostname, hs.phase.1, hs.phase.2, hs.hostname⟩
  | attached href =>
    -- the host is attached, so no update has been made
    obtain ⟨-, hnoRef | hnone, rfl⟩ := hs.phase
    · exact absurd (hnoRef _ (readCtl_ok hr)) href
    · exact ⟨hs.hostname, hnone⟩
  | reading =>
    exact ⟨hs.hostname, hs.phase, VersionedStore.current_of_get (readCtl_ok hr)⟩
  | @scaled k d n r hn =>
    obtain ⟨hnone, hcurrent⟩ := hs.phase
    refine ⟨?_, scaled_step hnone hcurrent hn⟩
    rcases writeCtl_cases o s _ with ⟨s', hs', hw⟩ | hw <;> rw [answer, hw]
    · obtain ⟨deployments, -, rfl⟩ := Option.map_eq_some_iff.1 hs'
      exact hs.hostname
    · exact hs.hostname

/-! ## The wait ends -/

theorem ctlEnv_clock (s : CtlStore) (e : CtlEnv) : (ctlEnv s e).clock = s.clock := by
  cases e with
  | register h => rw [ctlEnv]; split <;> rfl
  | attach k ref => rw [ctlEnv, CtlStore.setMachineRef]; split <;> rfl
  | release k => rw [ctlEnv, CtlStore.setMachineRef]; split <;> rfl
  | _ => rfl

theorem after_clock (s : CtlStore) (o : CtlOutcome) : s.clock ≤ (s.after o).clock := by
  have hall : ∀ (es : List CtlEnv) (s : CtlStore), (es.foldl ctlEnv s).clock = s.clock := by
    intro es
    induction es with
    | nil => exact fun _ => rfl
    | cons e es ih => exact fun s => (ih _).trans (ctlEnv_clock s e)
  calc s.clock = (o.meanwhile.foldl ctlEnv s).clock := (hall o.meanwhile s).symm
    _ ≤ (s.after o).clock := Nat.le_add_right _ _

/-- Reading the host takes time and ends with the host or an error. -/
theorem getByoHostObject_ensures (ns : String) (s : CtlStore) :
    GoM.Ensures execCtl (fun _ => True) (getByoHostObject ns) () s fun e _ s' =>
      s.clock ≤ s'.clock ∧ ∀ m, e ≠ .panic m := by
  refine .bind (.attempt_bind (.call_bind trivial fun o _ => ?_))
  have hclock : s.clock ≤ (execCtl o .hostname s).2.clock := after_clock s o
  cases (execCtl o .hostname s).1 with
  | error e => exact .throw (.throw ⟨hclock, nofun⟩)
  | ok name =>
    refine .pure (.pure (.attempt_bind (.call_bind trivial fun o' _ => ?_)))
    have hclock' := hclock.trans (after_clock _ o')
    cases (execCtl o' (.getByoHost ⟨ns, name⟩) (execCtl o .hostname s).2).1 with
    | error e => exact .throw (.throw ⟨hclock', nofun⟩)
    | ok h => exact .pure (.pure ⟨hclock', nofun⟩)

/-- With `n + 1` rounds left, the timeout passes before the last of them. -/
theorem pollMachineRef_ends (ns : String) (startTime n : Nat) (s : CtlStore)
    (hleft : startTime + waitForMachineRefToBeUnsetTimeout < s.clock + n * pollInterval) :
    GoM.Ensures execCtl (fun _ => True) (pollMachineRef ns startTime (n + 1)) () s fun e _ _ =>
      ∀ m, e ≠ .panic m := by
  induction n generalizing s with
  | zero =>
    refine .call_bind trivial fun o _ => ?_
    have hlate : waitForMachineRefToBeUnsetTimeout < (s.after o).clock - startTime := by
      have hnow := after_clock s o
      omega
    split
    · exact .throw nofun
    next hnot => exact absurd hlate hnot
  | succ n ih =>
    refine .call_bind trivial fun o _ => ?_
    have hnow : s.clock ≤ (execCtl o .now s).2.clock := after_clock s o
    split
    · exact .throw nofun
    refine .bind (.attempt_bind ((getByoHostObject_ensures ns _).mono ?_))
    rintro e ⟨⟩ s₁ ⟨hs₁, hpanic⟩
    cases e with
    | panic m => exact absurd rfl (hpanic m)
    | err e => exact .throw nofun
    | ok h =>
      refine .pure ?_
      dsimp only
      split
      · exact .pure nofun
      · refine .call_bind trivial fun o₂ _ => ih _ ?_
        have hslept : s₁.clock + pollInterval ≤ (execCtl o₂ (.sleep pollInterval) s₁).2.clock :=
          Nat.add_le_add_right (after_clock s₁ o₂) pollInterval
        rw [Nat.succ_mul] at hleft
        omega

/-- The wait always ends, by the timeout at the latest. -/
theorem waitForMachineRefToBeUnset_ends (byoHost : ByoHost) (ns : String) (s : CtlStore) :
    GoM.Ensures execCtl (fun _ => True) (waitForMachineRefToBeUnset byoHost ns) () s fun e _ _ =>
      ∀ m, e ≠ .panic m := by
  refine .call_bind trivial fun o _ => pollMachineRef_ends ns _ _ _ ?_
  exact Nat.add_lt_add_left (by decide) _

/-! ## One attachment -/

/-- Others do not attach the host, neither between the runs nor during one. -/
def OneAttachment (k : NamespacedName) : CtlAction → Prop
  | .run _ os => ∀ o ∈ os, ∀ e ∈ o.meanwhile, KeepsAttachment k e
  | .env e => KeepsAttachment k e

/-- The command is not issued again once a run of it has scaled down, until the MachineRef is
unset. -/
def NotReissued (k : NamespacedName) (s : CtlStore) : CtlAction → Prop
  | .run _ _ => NoMachineRef k s ∨ s.scaleDowns = []
  | .env _ => True

/-- In every sequence of runs of the command for one host during one attachment, with whatever
others do and with every call failing or answered, the replicas are decreased at most once, and
then by one, when no run is issued again after one that scaled down before the MachineRef is
unset. -/
theorem scaled_down_once (ns : String) {s₀ s : CtlStore} {as : List CtlAction}
    (hinit : s₀.scaleDowns = [])
    (hrun : ActionRun (ctlAct ns) (fun s a => OneAttachment ⟨ns, s₀.hostname⟩ a ∧
      NotReissued ⟨ns, s₀.hostname⟩ s a) s₀ as s) :
    s.scaleDowns.length ≤ 1 ∧
      ∀ d ∈ s.scaleDowns, ∃ n, d.before = some n ∧ d.after = some (n - 1) := by
  have hsettled : Scales ns s₀.hostname s .settled := by
    refine hrun.invariant (I := fun s => Scales ns s₀.hostname s .settled) ?_ ⟨rfl, ?_⟩
    · intro s a hs ⟨hone, hnot⟩
      cases a with
      | env e => exact hs.of_undisturbed (ctlEnv_undisturbed hone)
      | run op os =>
        obtain ⟨q, -, hq⟩ := Prog.Follows.run_of execCtl
          (fun o => ∀ e ∈ o.meanwhile, KeepsAttachment ⟨ns, s₀.hostname⟩ e)
          (J := fun s q => Scales ns s₀.hostname s q) (fun e he => by cases he)
          (fun o s c q q' ho hs hnext => hs.step ho hnext)
          (fun s q q' hs hq => by rw [hq]; exact hs.settled) (performHostOperation_scales op)
          (s := s) ⟨hs.hostname, hs.phase, hnot⟩ os hone
        exact hq.settled
    · rw [hinit]
      exact scaledOnce_nil
  exact ⟨hsettled.phase.length_le, hsettled.phase.lowered⟩

/-- A host that is attached to the machine `m1` of a MachineDeployment with three replicas. -/
def threeReplicas : CtlStore where
  hostname := "h1"
  hosts := (∅ : AList fun _ : NamespacedName => ByoHost).insert ⟨"default", "h1"⟩
    { ns := "default", name := "h1", machineRef := some { ns := "default", name := "m1" } }
  machines := VersionedStore.empty.put ⟨"default", "m1"⟩
    { labels := GoMap.insert none "cluster.x-k8s.io/deployment-name" "md" }
  deployments := VersionedStore.empty.put ⟨"default", "md"⟩ ⟨some 3⟩

instance (k : NamespacedName) : (e : CtlEnv) → Decidable (KeepsAttachment k e)
  | .attach k' _ => inferInstanceAs (Decidable (k' ≠ k))
  | .register _ | .release _ | .deleteHost _ | .putMachine _ _ | .deleteMachine _
  | .putDeployment _ _ | .deleteDeployment _ => .isTrue trivial

instance (k : NamespacedName) : (a : CtlAction) → Decidable (OneAttachment k a)
  | .run _ os => inferInstanceAs (Decidable (∀ o ∈ os, ∀ e ∈ o.meanwhile, KeepsAttachment k e))
  | .env e => inferInstanceAs (Decidable (KeepsAttachment k e))

instance (k : NamespacedName) (s : CtlStore) : Decidable (NoMachineRef k s) :=
  decidable_of_iff ((s.hosts.lookup k).all (·.machineRef.isNone) = true) (by
    rw [NoMachineRef]
    cases s.hosts.lookup k <;> simp)

instance (k : NamespacedName) (s : CtlStore) : (a : CtlAction) → Decidable (NotReissued k s a)
  | .run _ _ => inferInstanceAs (Decidable (NoMachineRef k s ∨ s.scaleDowns = []))
  | .env _ => .isTrue trivial

/-- The first run does not get to the MachineDeployment, the second scales it down and sees the
host released while it waits, and the third finds the host without a MachineRef. -/
def retriedOnce : List CtlAction :=
  [.run .operationDeauthorise (List.replicate 5 default ++ [{ fate := .refused "unavailable" }]),
    .run .operationDeauthorise
      (List.replicate 14 default ++ [{ meanwhile := [.release ⟨"default", "h1"⟩] }]),
    .run .operationDeauthorise []]

theorem scaled_down_once_retried :
    let s := retriedOnce.foldl (ctlAct "default") threeReplicas
    s.scaleDowns = [⟨⟨"default", "md"⟩, some 3, some 2⟩] ∧ s.scaleDowns.length ≤ 1 ∧
      ∀ d ∈ s.scaleDowns, ∃ n, d.before = some n ∧ d.after = some (n - 1) :=
  ⟨by decide +kernel, scaled_down_once "default" rfl (.of_allowed (by decide +kernel))⟩

/-- Two runs in which every call is answered and which only time out: the agent has not released
the host, so the second run finds it attached and scales down once more. -/
theorem scaled_down_twice : ∃ s, ActionRun (ctlAct "default")
      (fun _ a => OneAttachment ⟨"default", threeReplicas.hostname⟩ a) threeReplicas
      [.run .operationDeauthorise [], .run .operationDeauthorise []] s ∧
    (s.hosts.lookup ⟨"default", "h1"⟩).bind (·.machineRef) =
      some { ns := "default", name := "m1" } ∧
    s.scaleDowns = [⟨⟨"default", "md"⟩, some 2, some 1⟩, ⟨⟨"default", "md"⟩, some 3, some 2⟩] :=
  ⟨_, .of_allowed (by decide +kernel), by decide +kernel⟩

end Byoh.Properties
