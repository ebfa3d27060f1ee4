import Byoh.Model.Fleet
import Byoh.Protocol.CommandCalls
import Byoh.Properties.ScaleDown

/-!
# The last node of a MachineDeployment

Runs of `PerformHostOperation` on several hosts of one MachineDeployment. A run reads the replica
count and asks its user when the count is one; several calls later `ScaleDownMachineDeployment` reads
the deployment again and writes one less, without looking at the count again. The resourceVersion
protects this second read and its update, and nothing protects the check. So two runs that both find
two replicas take the deployment to zero, and neither asks.

* `LastNext` are the phases of a run with respect to the check and the update.
* `rechecked` is the condition: nobody else writes the deployment, and when a run reads it for its
  update, the count is the one that its check has found, and there is at least one replica.
* `last_node_confirmed` holds in every interleaving under this condition, and `scaled_to_zero` is two
  runs without it.
-/

set_option autoImplicit false

namespace Byoh.Properties

open Byoh.Foundation Byoh.Model Byoh.Model.HostOperations

/-! ## The phases of a run -/

/-- Where a run is: before its first call, before its check, with the count that the check found,
with that count and the consent of the user if it needs one, with the deployment that it will update,
and after that. -/
inductive LastPhase where
  | start
  | unchecked
  | counted (n : Int)
  | cleared (n : Int)
  | scaling (k : NamespacedName) (d : Versioned MachineDeployment)
  | settled

/-- The calls of a run. -/
inductive LastNext : LastPhase → (c : CtlCall) → CtlResp c → LastPhase → Prop
  | begun {r : CtlResp .statKubeconfig} : LastNext .start .statKubeconfig r .unchecked
  | plain {q : LastPhase} {c : CtlCall} {r : CtlResp c} (hc : isPlain c = true) : LastNext q c r q
  | asked {q : LastPhase} {question : String} {r : CtlResp (.readLine question)} :
      LastNext q (.readLine question) r q
  | counted {k : NamespacedName} {d : Versioned MachineDeployment} {n : Int}
      (hn : d.value.replicas = some n) :
      LastNext .unchecked (.getMachineDeployment k) (.ok d) (.counted n)
  | confirmed {n : Int} {r : CtlResp (.readLine lastNodeQuestion)} (hyes : saysYes r = true) :
      LastNext (.counted n) (.readLine lastNodeQuestion) r (.cleared n)
  | reading {n : Int} {k : NamespacedName} {d : Versioned MachineDeployment} :
      LastNext (.cleared n) (.getMachineDeployment k) (.ok d) (.scaling k d)
  | gaveUp {q : LastPhase} {k : NamespacedName} {r : CtlResp (.getMachineDeployment k)} :
      LastNext q (.getMachineDeployment k) r .settled
  | scaled {k : NamespacedName} {d : Versioned MachineDeployment} {n : Int} {r : Option String}
      (hn : d.value.replicas = some n) :
      LastNext (.scaling k d) (.updateMachineDeployment k { d with value := ⟨some (n - 1)⟩ }) r
        .settled

/-- Nobody is asked when the count is not one. -/
inductive LastSilent : LastPhase → LastPhase → Prop
  | cleared {n : Int} (hn : n ≠ 1) : LastSilent (.counted n) (.cleared n)

section Phases

variable {ns : String} {q : LastPhase}

theorem lastNext_plain (c : CtlCall) (r : CtlResp c) (hc : isPlain c = true) : LastNext q c r q :=
  .plain hc

/-- The calls that no phase distinguishes. -/
def isPlainOrAsks (c : CtlCall) : Prop := isPlain c = true ∨ ∃ question, c = .readLine question

theorem lastNext_plainOrAsks (c : CtlCall) (r : CtlResp c) (hc : isPlainOrAsks c) :
    LastNext q c r q := by
  rcases hc with hc | ⟨question, rfl⟩
  · exact .plain hc
  · exact .asked

/-- The check: it returns the count that the phase holds. -/
theorem getMachineDeploymentReplicaCount_follows (m : Versioned MachineObject) :
    GoM.Follows LastNext LastSilent (fun e _ q => ∀ n, e = .ok n → q = .counted n)
      (getMachineDeploymentReplicaCount m ns) () .unchecked := by
  refine .bind (((machineDeploymentName_only (p := isPlainOrAsks) m).follows
    lastNext_plainOrAsks ()).mono ?_)
  rintro e ⟨⟩ q rfl
  cases e with
  | err e => exact fun n h => by cases h
  | panic m => exact fun n h => by cases h
  | ok name =>
  refine .bind (orWrap_follows (.lift_bind (.call
    (fun r : Except String (Versioned MachineDeployment) => match r with
      | .ok d => match d.value.replicas with
        | some n => .counted n
        | none => .settled
      | .error _ => .settled) (fun r => ?_) fun r => .ret ?_)))
  · cases r with
    | error e => exact .gaveUp
    | ok d =>
      dsimp only
      cases hn : d.value.replicas with
      | none => exact .gaveUp
      | some n => exact .counted hn
  cases r with
  | error e => exact .throw fun n h => by cases h
  | ok d =>
    refine .pure ?_
    dsimp only
    cases d.value.replicas with
    | none => exact .panic fun n h => by cases h
    | some n => exact .pure fun n' h => by cases h; rfl

/-- The question: yes leads to consent. -/
theorem askBool_follows (n : Int) :
    GoM.Follows LastNext LastSilent (fun e _ q => e = .ok true → q = .cleared n)
      (askBool lastNodeQuestion) () (.counted n) := by
  refine .lift_bind (.call (fun r => if saysYes r then .cleared n else .counted n)
    (fun r => ?_) fun r => .ret ?_)
  · split
    next hyes => exact .confirmed hyes
    · exact .asked
  match r with
  | .error e => exact .throw fun h => by cases h
  | .ok (resp, isPrefix) =>
    dsimp only
    split
    · exact .panic fun h => by cases h
    next hwhole =>
      split
      next hresp =>
        refine .pure fun _ => ?_
        rw [if_pos (by simp [saysYes, hwhole, hresp])]
      · split
        · exact .pure fun h => by cases h
        · exact .throw fun h => by cases h

/-- With the count one the user is asked, and the run only goes on with consent. -/
theorem confirmLastNode_follows (name : String) (m : Versioned MachineObject) (n : Int) :
    GoM.Follows LastNext LastSilent (fun e _ q => e = .ok () → q = .cleared n)
      (confirmLastNode name m ns) () (.counted n) := by
  refine .bind (orWrap_follows ((askBool_follows n).mono ?_))
  rintro e ⟨⟩ q hq
  cases e with
  | err e => exact fun h => by cases h
  | panic m => exact fun h => by cases h
  | ok continueDeauth =>
    cases continueDeauth with
    | false => exact .throw fun h => by cases h
    | true =>
      obtain rfl := hq rfl
      exact ((orWrap_only (annotateMachineObject_only (fun _ => id) name m _ _)).follows
        lastNext_plain ()).mono fun _ _ q' hq' _ => hq'

/-- The check, the question and the update. -/
theorem removeMachine_lastNode (name : String) :
    GoM.Follows LastNext LastSilent (fun _ _ _ => True) (removeMachine ns name) () .unchecked := by
  have hplain : ∀ c, isPlain c = true → isPlain c = true := fun _ => id
  refine then_of_only (orWrap_only (getUnstructuredMachineObject_only hplain name)) lastNext_plain
    fun m => ?_
  refine .bind (orWrap_follows ((getMachineDeploymentReplicaCount_follows m).mono ?_))
  rintro e ⟨⟩ q hq
  cases e with
  | err e => trivial
  | panic m => trivial
  | ok n =>
  obtain rfl := hq n rfl
  have hclear : GoM.Follows LastNext LastSilent (fun e _ q => e = .ok () → q = .cleared n)
      (GoM.when (n = 1) (confirmLastNode name m ns)) () (.counted n) := by
    by_cases hn : n = 1
    · rw [decide_eq_true hn]
      exact confirmLastNode_follows name m n
    · rw [decide_eq_false hn]
      exact .move (.cleared hn) (.pure fun _ => rfl)
  refine .bind (hclear.mono ?_)
  rintro e ⟨⟩ q hq
  cases e with
  | err e => trivial
  | panic m => trivial
  | ok _ =>
  obtain rfl := hq rfl
  refine then_of_only (orWrap_only (getUnstructuredMachineObject_only hplain name)) lastNext_plain
    fun m => ?_
  refine then_of_only (orWrap_only (annotateMachineObject_only hplain name m _ _)) lastNext_plain
    fun _ => ?_
  refine orWrap_follows ((scaleDownMachineDeployment_follows m (fun _ _ => .reading)
    (fun _ _ => .gaveUp) fun _ _ _ _ => .scaled).mono fun e _ _ _ => ?_)
  cases e <;> trivial

theorem performHostOperation_lastNode (op : HostOperationType) :
    GoM.Follows LastNext LastSilent (fun _ _ _ => True) (performHostOperation op ns) () .start := by
  refine performHostOperation_follows op (p := isPlainOrAsks) (R := fun _ q => q = .unchecked)
    (fun _ => .inl) (.inr ⟨_, rfl⟩) lastNext_plainOrAsks (fun r => .begun) ?_ ?_
  · exact (getByoHostObject_only fun _ => id).follows lastNext_plain ()
  · rintro h machineRef q rfl -
    exact removeMachine_lastNode machineRef.name

end Phases

/-! ## Replicas -/

/-- The replicas of a MachineDeployment. -/
def replicasOf (k : NamespacedName) (s : CtlStore) : Option Int :=
  (s.deployments.get k).bind (·.value.replicas)

/-- Others do not write the deployment; they may delete it. -/
def Unwritten (k : NamespacedName) : CtlEnv → Prop
  | .putDeployment k' _ => k' ≠ k
  | _ => True

theorem replicasOf_ctlEnv {k : NamespacedName} {e : CtlEnv} (he : Unwritten k e) {s : CtlStore}
    {n : Int} (h : replicasOf k (ctlEnv s e) = some n) : replicasOf k s = some n := by
  cases e with
  | putDeployment k' d => rwa [replicasOf, ctlEnv, VersionedStore.get_put_of_ne he.symm] at h
  | deleteDeployment k' =>
    by_cases hk : k = k'
    · subst hk
      rw [replicasOf, ctlEnv, VersionedStore.get_erase_self] at h
      cases h
    · rwa [replicasOf, ctlEnv, VersionedStore.get_erase_of_ne hk] at h
  | register host =>
    rw [ctlEnv] at h
    split at h <;> exact h
  | attach k' ref =>
    rw [ctlEnv, CtlStore.setMachineRef] at h
    split at h <;> exact h
  | release k' =>
    rw [ctlEnv, CtlStore.setMachineRef] at h
    split at h <;> exact h
  | _ => exact h

theorem replicasOf_after {k : NamespacedName} {o : CtlOutcome}
    (ho : ∀ e ∈ o.meanwhile, Unwritten k e) {s : CtlStore} {n : Int}
    (h : replicasOf k (s.after o) = some n) : replicasOf k s = some n := by
  have hall : ∀ (es : List CtlEnv) (s : CtlStore), (∀ e ∈ es, Unwritten k e) →
      replicasOf k (es.foldl ctlEnv s) = some n → replicasOf k s = some n := by
    intro es
    induction es with
    | nil => exact fun _ _ => id
    | cons e es ih =>
      intro s hes h
      obtain ⟨he, hes⟩ := List.forall_mem_cons.1 hes
      exact replicasOf_ctlEnv he (ih _ hes h)
  exact hall o.meanwhile s ho h

/-- The call updates a MachineDeployment to `m` replicas. -/
def ScalesTo (k : NamespacedName) (m : Int) (c : CtlCall) : Prop :=
  ∃ d, c = .updateMachineDeployment k d ∧ d.value.replicas = some m

/-- The replicas after a call are those before it, or those of an update. -/
theorem replicasOf_answer (k : NamespacedName) (o : CtlOutcome) (c : CtlCall) {s : CtlStore} {n : Int}
    (h : replicasOf k (answer o c s).2 = some n) : replicasOf k s = some n ∨ ScalesTo k n c := by
  cases c with
  | deleteByoHost k' =>
    rcases writeCtl_cases o s ((s.hosts.lookup k').map fun _ =>
      { s with hosts := s.hosts.erase k' }) with ⟨s', hs', hw⟩ | hw <;> rw [answer, hw] at h
    · obtain ⟨host, -, rfl⟩ := Option.map_eq_some_iff.1 hs'
      exact .inl h
    · exact .inl h
  | updateMachine k' m =>
    rcases writeCtl_cases o s ((s.machines.update k' m).map fun machines =>
      { s with machines := machines }) with ⟨s', hs', hw⟩ | hw <;> rw [answer, hw] at h
    · obtain ⟨machines, -, rfl⟩ := Option.map_eq_some_iff.1 hs'
      exact .inl h
    · exact .inl h
  | updateMachineDeployment k' d =>
    rcases writeCtl_cases o s _ with ⟨s', hs', hw⟩ | hw <;> rw [answer, hw] at h
    · obtain ⟨deployments, hupdate, rfl⟩ := Option.map_eq_some_iff.1 hs'
      obtain rfl := VersionedStore.eq_put_of_update hupdate
      by_cases hk : k = k'
      · subst hk
        rw [replicasOf, VersionedStore.get_put_self] at h
        exact .inr ⟨d, rfl, h⟩
      · rw [replicasOf, VersionedStore.get_put_of_ne hk] at h
        exact .inl h
    · exact .inl h
  | _ => exact .inl h

/-! ## The condition -/

/-- A run that reads a MachineDeployment finds at least one replica, and if it has made its check
before, the count of the check. -/
def CountHolds (s : CtlStore) (checked : Option Int) : CtlCall → Prop
  | .getMachineDeployment k => ∀ n ∈ replicasOf k s, 1 ≤ n ∧ ∀ m ∈ checked, n = m
  | _ => True

/-- Others do not write the deployment `k`. -/
def unwritten (k : NamespacedName) : Rules (HostRun × CtlCall) CtlOutcome Fleet HostRun CtlEnv where
  call _ _ o _ := ∀ e ∈ o.meanwhile, Unwritten k e
  env _ _ e := Unwritten k e

/-- Others do not write the deployment `k`, and the count does not change between the check of a run
and the read for its update. -/
def rechecked (k : NamespacedName) :
    Rules (HostRun × CtlCall) CtlOutcome Fleet HostRun CtlEnv where
  call f t o c := (∀ e ∈ o.meanwhile, Unwritten k e) ∧
    CountHolds ((f.on t).after o) (f.checked t) c.2
  env _ _ e := Unwritten k e

instance (k : NamespacedName) : (e : CtlEnv) → Decidable (Unwritten k e)
  | .putDeployment k' _ => inferInstanceAs (Decidable (k' ≠ k))
  | .register _ | .attach _ _ | .release _ | .deleteHost _ | .putMachine _ _ | .deleteMachine _
  | .deleteDeployment _ => .isTrue trivial

instance (s : CtlStore) (checked : Option Int) : (c : CtlCall) → Decidable (CountHolds s checked c)
  | .getMachineDeployment k =>
      inferInstanceAs (Decidable (∀ n ∈ replicasOf k s, 1 ≤ n ∧ ∀ m ∈ checked, n = m))
  | .statKubeconfig | .getK8sClient | .hostname | .now | .sleep _ | .readLine _
  | .purgeDebianPackage | .getByoHost _ | .deleteByoHost _ | .getMachine _ | .updateMachine _ _
  | .updateMachineDeployment _ _ => .isTrue trivial

instance (k : NamespacedName) : DecidableRules (unwritten k) where
  start _ _ _ := .isTrue trivial
  call _ _ o _ := inferInstanceAs (Decidable (∀ e ∈ o.meanwhile, Unwritten k e))
  env _ _ e := inferInstanceAs (Decidable (Unwritten k e))

instance (k : NamespacedName) : DecidableRules (rechecked k) where
  start _ _ _ := .isTrue trivial
  call _ _ o _ := inferInstanceAs (Decidable ((∀ e ∈ o.meanwhile, Unwritten k e) ∧ CountHolds _ _ _))
  env _ _ e := inferInstanceAs (Decidable (Unwritten k e))

/-! ## The assertion -/

/-- What the history says about a run in each phase. -/
def PhaseHolds (checked : Option Int) (confirmed : Prop) : LastPhase → Prop
  | .start | .settled => True
  | .unchecked => checked = none
  | .counted n => checked = some n ∧ 1 ≤ n
  | .cleared n => checked = some n ∧ 1 ≤ n ∧ (n = 1 → confirmed)
  | .scaling _ d => ∀ n, d.value.replicas = some n → 1 ≤ n ∧ (n = 1 → confirmed)

theorem PhaseHolds.mono {checked : Option Int} {confirmed confirmed' : Prop} {q : LastPhase}
    (h : PhaseHolds checked confirmed q) (hc : confirmed → confirmed') :
    PhaseHolds checked confirmed' q := by
  cases q with
  | cleared n => exact ⟨h.1, h.2.1, hc ∘ h.2.2⟩
  | scaling k d => exact fun n hn => ⟨(h n hn).1, hc ∘ (h n hn).2⟩
  | _ => exact h

/-- Some user has agreed to remove the last node. -/
def Confirmed (f : Fleet) : Prop := f.confirmed ≠ []

/-- The replicas of `k` are not negative, they are zero only with consent, and each run is where the
history says. -/
structure LastNodeKept (k : NamespacedName) (f : Fleet) (ph : HostRun → Option LastPhase) : Prop where
  replicas : ∀ n, replicasOf k f.ctl = some n → 0 ≤ n ∧ (n = 0 → Confirmed f)
  runs : ∀ t q, ph t = some q → PhaseHolds (f.checked t) (Confirmed f) q

/-- The history of a call: consent is kept, and other runs are not concerned. -/
theorem note_history (f : Fleet) (t : HostRun) (c : CtlCall) (r : CtlResp c) :
    (Confirmed f → Confirmed (f.note t c r)) ∧ (f.note t c r).ctl = f.ctl ∧
      ∀ t', t' ≠ t → (f.note t c r).checked t' = f.checked t' := by
  rw [Fleet.note.eq_def]
  split
  · exact ⟨id, rfl, fun t' ht => Function.update_of_ne ht ..⟩
  · split
    · exact ⟨id, rfl, fun t' ht => Function.update_of_ne ht ..⟩
    · exact ⟨id, rfl, fun _ _ => rfl⟩
  · split
    · exact ⟨fun _ => List.cons_ne_nil _ _, rfl, fun _ _ => rfl⟩
    · exact ⟨id, rfl, fun _ _ => rfl⟩
  · exact ⟨id, rfl, fun _ _ => rfl⟩

theorem note_plain (f : Fleet) (t : HostRun) {c : CtlCall} (hc : isPlain c = true)
    (r : CtlResp c) : f.note t c r = f := by
  cases c <;> first | rfl | cases hc

/-- One call of a run, seen by its own history: `s` is the cluster that answers it. -/
theorem LastNext.holds {f : Fleet} {t : HostRun} {o : CtlOutcome} {c : CtlCall} {s : CtlStore}
    {q q' : LastPhase} (h : PhaseHolds (f.checked t) (Confirmed f) q)
    (hcount : CountHolds s (f.checked t) c) (hnext : LastNext q c (answer o c s).1 q') :
    PhaseHolds ((f.note t c (answer o c s).1).checked t)
      (Confirmed (f.note t c (answer o c s).1)) q' := by
  generalize hr : (answer o c s).1 = r at hnext ⊢
  cases hnext with
  | begun => exact Function.update_self ..
  | plain hc =>
    rw [note_plain f t hc]
    exact h
  | @asked _ question r =>
    have hchecked : (f.note t (.readLine question) r).checked = f.checked := by
      rw [Fleet.note]
      split <;> rfl
    rw [hchecked]
    exact h.mono (note_history f t _ r).1
  | @counted k d n hn =>
    -- the first deployment that the run reads
    have hget : s.deployments.get k = some d := readCtl_ok hr
    have hreplicas : replicasOf k s = some n := by rw [replicasOf, hget]; exact hn
    refine ⟨?_, (hcount n hreplicas).1⟩
    have hnone : f.checked t = none := h
    rw [Fleet.note, hnone]
    exact (Function.update_self ..).trans hn
  | @confirmed n _ hyes =>
    rw [Fleet.note, if_pos (by simp [hyes])]
    exact ⟨h.1, h.2, fun _ => List.cons_ne_nil _ _⟩
  | @reading n k d =>
    -- the deployment has the count of the check
    have hget : s.deployments.get k = some d := readCtl_ok hr
    intro m hm
    have hreplicas : replicasOf k s = some m := by rw [replicasOf, hget]; exact hm
    obtain rfl := (hcount m hreplicas).2 n h.1
    exact ⟨h.2.1, fun hone => (note_history f t _ _).1 (h.2.2 hone)⟩
  | gaveUp => trivial
  | scaled hn => trivial

/-- An update writes one replica less than its run has read. -/
theorem LastNext.scalesTo {q q' : LastPhase} {c : CtlCall} {r : CtlResp c} {k : NamespacedName}
    {m : Int} (hnext : LastNext q c r q') (hscales : ScalesTo k m c) :
    ∃ d, q = .scaling k d ∧ d.value.replicas = some (m + 1) := by
  obtain ⟨d, rfl, hd⟩ := hscales
  cases hnext with
  | plain hc => cases hc
  | @scaled k d n r hn =>
    refine ⟨_, rfl, ?_⟩
    cases hd
    rw [hn]
    congr 1
    omega

/-- The phases of a run make only its own calls. -/
def fleetNext (t : HostRun) (q : LastPhase) (c : HostRun × CtlCall) (r : CtlResp c.2)
    (q' : LastPhase) : Prop :=
  c.1 = t ∧ LastNext q c.2 r q'

/-- One call of one run keeps the assertion. -/
theorem LastNodeKept.call {k : NamespacedName} {f : Fleet} {ph : HostRun → Option LastPhase}
    (h : LastNodeKept k f ph) {t : HostRun} {q q' : LastPhase} (hq : ph t = some q) {o : CtlOutcome}
    {c : HostRun × CtlCall} (hrule : (rechecked k).call f t o c)
    (hnext : fleetNext t q c (execFleet o c f).1 q') :
    LastNodeKept k (execFleet o c f).2 (Function.update ph t (some q')) := by
  obtain ⟨t', c⟩ := c
  obtain ⟨rfl, hnext⟩ := hnext
  obtain ⟨hunwritten, hcount⟩ := hrule
  have hphase := h.runs _ _ hq
  -- the history is that before the call, and the cluster is that after it
  generalize hs : (f.on t').after o = s at hcount
  have hexec : execFleet o (t', c) f = ((answer o c s).1,
      ({ f with
        ctl := (answer o c s).2
        clock := Function.update f.clock t'.hostname (answer o c s).2.clock } : Fleet).note t' c
        (answer o c s).1) := by
    rw [execFleet, execCtl, hs]
  rw [hexec] at hnext ⊢
  obtain ⟨hconfirmed, hctl, hothers⟩ := note_history { f with
    ctl := (answer o c s).2
    clock := Function.update f.clock t'.hostname (answer o c s).2.clock } t' c (answer o c s).1
  refine ⟨fun n hn => ?_, fun t q₁ hq₁ => ?_⟩
  · rw [hctl] at hn
    rcases replicasOf_answer k o c hn with hbefore | hscales
    · rw [← hs] at hbefore
      have hon : replicasOf k (f.on t') = some n := replicasOf_after hunwritten hbefore
      obtain ⟨hpos, hzero⟩ := h.replicas n hon
      exact ⟨hpos, fun h0 => hconfirmed (hzero h0)⟩
    · obtain ⟨d, rfl, hd⟩ := hnext.scalesTo hscales
      obtain ⟨hpos, hone⟩ := hphase _ hd
      exact ⟨by omega, fun h0 => hconfirmed (hone (by omega))⟩
  · by_cases ht : t = t'
    · subst ht
      rw [Function.update_self] at hq₁
      cases hq₁
      exact LastNext.holds (f := { f with
        ctl := (answer o c s).2
        clock := Function.update f.clock t.hostname (answer o c s).2.clock }) hphase hcount hnext
    · rw [Function.update_of_ne ht] at hq₁
      rw [hothers t ht]
      exact (h.runs t q₁ hq₁).mono hconfirmed

/-- A move of one run that keeps what the history says about it. -/
theorem LastNodeKept.move {k : NamespacedName} {f : Fleet} {ph : HostRun → Option LastPhase}
    (h : LastNodeKept k f ph) {t : HostRun} {q' : Option LastPhase}
    (hq' : ∀ q, q' = some q → PhaseHolds (f.checked t) (Confirmed f) q) :
    LastNodeKept k f (Function.update ph t q') := by
  refine ⟨h.replicas, fun t' q hq => ?_⟩
  by_cases ht : t' = t
  · subst ht
    rw [Function.update_self] at hq
    exact hq' q hq
  · rw [Function.update_of_ne ht] at hq
    exact h.runs t' q hq

theorem lastNode_simulation (ns : String) (k : NamespacedName) :
    Simulation (fleet ns) (rechecked k) fleetNext (fun _ => LastSilent) (fun _ => .start)
      (fun _ _ => True) (LastNodeKept k) where
  follows t := by
    have hfollows : Prog.Follows LastNext LastSilent (fun _ _ => True)
        (performHostOperation t.operationType ns ()) .start := performHostOperation_lastNode _
    have hrun : Prog.Follows (fleetNext t) LastSilent (fun _ _ => True)
        ((performHostOperation t.operationType ns ()).tag t) .start :=
      hfollows.tag t fun q c r q' hnext => ⟨rfl, hnext⟩
    exact .bind (hrun.mono fun _ _ _ => .ret trivial)
  start h _ _ := h.move fun q hq => by cases hq; trivial
  call h hq hrule hnext := h.call hq hrule hnext
  silent h hq hsilent := by
    refine h.move fun q hq' => ?_
    cases hq'
    cases hsilent with
    | cleared hn =>
      obtain ⟨hchecked, hpos⟩ := h.runs _ _ hq
      exact ⟨hchecked, hpos, fun hone => absurd hone hn⟩
  finish h _ _ := h.move fun q hq => by cases hq
  env h hrule henv := by
    cases henv
    exact ⟨fun n hn => h.replicas n (replicasOf_ctlEnv hrule hn), h.runs⟩

/-- Every interleaving of runs of the command on any number of hosts, from a MachineDeployment with
at least one replica, in which the count does not change between the check of a run and the read for
its update: the replicas are never negative, and they are zero only when some user was asked about
the last node and said yes. -/
theorem last_node_confirmed (ns : String) (k : NamespacedName) (s₀ : CtlStore) (n₀ : Int)
    (hinit : replicasOf k s₀ = some n₀) (hpos : 1 ≤ n₀)
    {labels : List (Label CtlOutcome HostRun CtlEnv)}
    {σ : Pool (HostRun × CtlCall) (fun c => CtlResp c.2) Fleet HostRun}
    (hrun : (fleet ns).Steps (rechecked k) (.init { ctl := s₀ }) labels σ) (n : Int)
    (hn : replicasOf k σ.store.ctl = some n) : 0 ≤ n ∧ (n = 0 → σ.store.confirmed ≠ []) := by
  have hstart : LastNodeKept k { ctl := s₀ } fun _ => none := by
    refine ⟨fun n hn => ?_, fun t q hq => by cases hq⟩
    rw [hinit] at hn
    cases hn
    exact ⟨by omega, fun h0 => by omega⟩
  obtain ⟨ph, hkept, -⟩ := (lastNode_simulation ns k).holds_init hstart hrun
  exact hkept.replicas n hn

/-- The hosts `h1` and `h2` are attached to the Machines `m1` and `m2` of the deployment `md`. -/
def twoNodes (replicas : Int) : CtlStore where
  hostname := ""
  hosts := ((∅ : AList fun _ : NamespacedName => ByoHost).insert ⟨"default", "h1"⟩
    { ns := "default", name := "h1", machineRef := some { ns := "default", name := "m1" } }).insert
      ⟨"default", "h2"⟩
    { ns := "default", name := "h2", machineRef := some { ns := "default", name := "m2" } }
  machines := (VersionedStore.empty.put ⟨"default", "m1"⟩
    { labels := GoMap.insert none "cluster.x-k8s.io/deployment-name" "md" }).put ⟨"default", "m2"⟩
    { labels := GoMap.insert none "cluster.x-k8s.io/deployment-name" "md" }
  deployments := VersionedStore.empty.put ⟨"default", "md"⟩ ⟨some replicas⟩

/-- The command on the host `name`. -/
def deauthorise (name : String) : HostRun := ⟨name, .operationDeauthorise, 0⟩

/-- `n` calls of the run on the host `name`, all answered. -/
def calls (name : String) (n : Nat) : List (Label CtlOutcome HostRun CtlEnv) :=
  List.replicate n (.call (deauthorise name) default)

/-- The first run finds two replicas and leaves one. The second starts after that; it finds one
replica, its user says yes, and it leaves none. -/
def oneAfterTheOther : List (Label CtlOutcome HostRun CtlEnv) :=
  .start (deauthorise "h1") :: calls "h1" 10 ++ .start (deauthorise "h2") :: calls "h2" 12

theorem last_node_confirmed_twice : ∃ σ,
    (fleet "default").Steps (rechecked ⟨"default", "md"⟩) (.init { ctl := twoNodes 2 })
      oneAfterTheOther σ ∧
    replicasOf ⟨"default", "md"⟩ σ.store.ctl = some 0 ∧ σ.store.confirmed ≠ [] := by
  obtain ⟨σ, hsteps, hend⟩ := (fleet "default").exists_steps (rechecked ⟨"default", "md"⟩)
    oneAfterTheOther (fun σ => replicasOf ⟨"default", "md"⟩ σ.store.ctl = some 0)
    (σ := .init { ctl := twoNodes 2 }) (by decide +kernel)
  have hzero := of_decide_eq_true hend
  exact ⟨σ, hsteps, hzero,
    (last_node_confirmed "default" _ (twoNodes 2) 2 rfl (by decide) hsteps 0 hzero).2 rfl⟩

/-- Both runs make their checks, and then both scale down; with one replica each asks its user and
annotates its Machine in between, which are `asks` calls more. -/
def overlapping (asks : Nat) : List (Label CtlOutcome HostRun CtlEnv) :=
  .start (deauthorise "h1") :: .start (deauthorise "h2") ::
    calls "h1" 6 ++ calls "h2" 6 ++ calls "h1" (asks + 4) ++ calls "h2" (asks + 4)

/-- Two overlapping runs in which every call is answered: from two replicas the deployment is scaled
to zero and nobody was asked, and from one replica it is scaled below zero. -/
theorem scaled_to_zero :
    let k : NamespacedName := ⟨"default", "md"⟩
    (∃ σ, (fleet "default").Steps (unwritten k) (.init { ctl := twoNodes 2 }) (overlapping 0) σ ∧
      replicasOf k σ.store.ctl = some 0 ∧ σ.store.confirmed = []) ∧
    ∃ σ, (fleet "default").Steps (unwritten k) (.init { ctl := twoNodes 1 }) (overlapping 2) σ ∧
      replicasOf k σ.store.ctl = some (-1) := by
  intro k
  constructor
  · obtain ⟨σ, hsteps, hend⟩ := (fleet "default").exists_steps (unwritten k) (overlapping 0)
      (fun σ => replicasOf k σ.store.ctl = some 0 ∧ σ.store.confirmed = [])
      (σ := .init { ctl := twoNodes 2 }) (by decide +kernel)
    exact ⟨σ, hsteps, of_decide_eq_true hend⟩
  · obtain ⟨σ, hsteps, hend⟩ := (fleet "default").exists_steps (unwritten k) (overlapping 2)
      (fun σ => replicasOf k σ.store.ctl = some (-1))
      (σ := .init { ctl := twoNodes 1 }) (by decide +kernel)
    exact ⟨σ, hsteps, of_decide_eq_true hend⟩

end Byoh.Properties
