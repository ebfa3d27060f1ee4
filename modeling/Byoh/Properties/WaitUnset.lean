import Byoh.Properties.ScaleDown

/-!
# Waiting for the MachineRef

When `WaitForMachineRefToBeUnset` returns, in terms of the host states that its polls see. The
wait is for one machine to let go of the host, but the loop only asks whether there is a
MachineRef at all, and it never looks at the host that it was passed. A host that is released and
attached to another machine between two polls keeps it waiting, until the timeout.
-/

set_option autoImplicit false

namespace Byoh.Properties

open Byoh.Foundation Byoh.Model Byoh.Model.HostOperations

/-- The MachineRef of the host names the machine `machine`. -/
def RefersTo (machine : NamespacedName) (h : ByoHost) : Prop :=
  h.machineRef.map (fun ref => ⟨ref.ns, ref.name⟩) = some machine

instance (machine : NamespacedName) (h : ByoHost) : Decidable (RefersTo machine h) :=
  inferInstanceAs (Decidable (_ = _))

theorem not_refersTo_of_none {machine : NamespacedName} {h : ByoHost}
    (hnone : h.machineRef = none) : ¬ RefersTo machine h := by
  rw [RefersTo, hnone]
  exact nofun

/-! ## What the polls see -/

/-- The host that a call returned. -/
def hostRead : Sigma CtlResp → Option ByoHost
  | ⟨.getByoHost _, .ok h⟩ => some h
  | _ => none

/-- The host states that were read, in the order in which they were seen; `log` is the log of the
calls, newest first. -/
def seen (log : List (Sigma CtlResp)) : List ByoHost := log.reverse.filterMap hostRead

theorem seen_cons (call : Sigma CtlResp) (log : List (Sigma CtlResp)) :
    seen (call :: log) = seen log ++ (hostRead call).toList := by
  rw [seen, List.reverse_cons, List.filterMap_append]
  cases h : hostRead call with
  | none => simp [seen, h]
  | some host => simp [seen, h]

/-- How a wait ends that sees these host states: at the first one without a MachineRef it returns
nil; it may stop before any poll; otherwise it goes on. -/
inductive Waited : List ByoHost → Exit String Unit → Prop
  | unset {h : ByoHost} (hnone : h.machineRef = none) : Waited [h] (.ok ())
  | stopped {e : Exit String Unit} (he : e ≠ .ok ()) : Waited [] e
  | again {h : ByoHost} {polls : List ByoHost} {e : Exit String Unit} (hset : h.machineRef ≠ none)
      (hrest : Waited polls e) : Waited (h :: polls) e

/-- The wait that goes on from `log` sees more host states and ends accordingly. -/
def WaitsFrom (log : List (Sigma CtlResp)) (e : Exit String Unit)
    (t : CtlStore × List (Sigma CtlResp)) : Prop :=
  ∃ polls, seen t.2 = seen log ++ polls ∧ Waited polls e

/-- The calls so far have seen no further host state. -/
theorem WaitsFrom.of_seen {log log' : List (Sigma CtlResp)} {e : Exit String Unit}
    {t : CtlStore × List (Sigma CtlResp)} (hlog : seen log' = seen log) (h : WaitsFrom log' e t) :
    WaitsFrom log e t := by
  obtain ⟨polls, hpolls, hwaited⟩ := h
  exact ⟨polls, by rw [hpolls, hlog], hwaited⟩

/-- Reading the host sees the host that it returns, and no host when it fails. -/
theorem getByoHostObject_sees (ns : String) (s : CtlStore) (log : List (Sigma CtlResp)) :
    GoM.Ensures (Prog.logged execCtl) (fun _ => True) (getByoHostObject ns) () (s, log)
      fun e _ t => match e with
        | .ok h => seen t.2 = seen log ++ [h]
        | .err _ => seen t.2 = seen log
        | .panic _ => False := by
  refine .bind (.attempt_bind (.call_bind trivial fun o _ => ?_))
  have hname : seen (Prog.logged execCtl o .hostname (s, log)).2.2 = seen log := by
    rw [Prog.logged, seen_cons]
    exact List.append_nil _
  generalize Prog.logged execCtl o .hostname (s, log) = answered at hname ⊢
  obtain ⟨name, s₁, log₁⟩ := answered
  cases name with
  | error e => exact .throw (.throw hname)
  | ok name =>
    refine .pure (.pure (.attempt_bind (.call_bind trivial fun o' _ => ?_)))
    have hread := seen_cons ⟨.getByoHost ⟨ns, name⟩, (execCtl o' (.getByoHost ⟨ns, name⟩) s₁).1⟩ log₁
    rw [hname] at hread
    rw [Prog.logged]
    cases hresp : (execCtl o' (.getByoHost ⟨ns, name⟩) s₁).1 with
    | error e =>
      rw [hresp] at hread
      exact .throw (.throw (hread.trans (List.append_nil _)))
    | ok h =>
      rw [hresp] at hread
      exact .pure (.pure hread)

/-- The loop, by induction on the rounds that are left. -/
theorem pollMachineRef_waits (ns : String) (startTime n : Nat) (s : CtlStore)
    (log : List (Sigma CtlResp)) :
    GoM.Ensures (Prog.logged execCtl) (fun _ => True) (pollMachineRef ns startTime n) () (s, log)
      fun e _ t => WaitsFrom log e t := by
  induction n generalizing s log with
  | zero => exact fun _ _ => ⟨[], (List.append_nil _).symm, .stopped nofun⟩
  | succ n ih =>
    refine .call_bind trivial fun o _ => ?_
    -- asking for the time sees no host
    have hnow : seen (Prog.logged execCtl o .now (s, log)).2.2 = seen log :=
      (seen_cons _ _).trans (List.append_nil _)
    generalize Prog.logged execCtl o .now (s, log) = answered at hnow ⊢
    obtain ⟨now, s₁, log₁⟩ := answered
    split
    · exact .throw (.of_seen hnow ⟨[], (List.append_nil _).symm, .stopped nofun⟩)
    refine .bind (.attempt_bind ((getByoHostObject_sees ns s₁ log₁).mono ?_))
    rintro e ⟨⟩ ⟨s₂, log₂⟩ hsees
    cases e with
    | panic m => exact absurd hsees id
    | err e => exact .throw ⟨[], by rw [List.append_nil, hsees, hnow], .stopped nofun⟩
    | ok h =>
      refine .pure ?_
      dsimp only
      split
      next hnone =>
        exact .pure ⟨[h], by rw [hsees, hnow], .unset (Option.isNone_iff_eq_none.1 hnone)⟩
      next hset =>
        refine .call_bind trivial fun o₂ _ => (ih _ _).mono ?_
        rintro e ⟨⟩ t ⟨polls, hpolls, hwaited⟩
        -- this round's host comes before those of the rounds that are left
        have hslept : seen (Prog.logged execCtl o₂ (.sleep pollInterval) (s₂, log₂)).2.2 =
            seen log ++ [h] := by
          rw [Prog.logged, seen_cons, ← hnow, ← hsees]
          exact List.append_nil _
        refine ⟨h :: polls, ?_, .again (fun hnone => hset (by rw [hnone]; rfl)) hwaited⟩
        rw [hpolls]
        exact (congrArg (· ++ polls) hslept).trans (by rw [List.append_assoc]; rfl)

/-- A wait with the outcomes of its calls: how it ends, and the host states that its polls saw. -/
def wait (byoHost : ByoHost) (ns : String) (s : CtlStore) (os : List CtlOutcome) :
    Exit String Unit × List ByoHost :=
  let r := Prog.run (Prog.logged execCtl) os (waitForMachineRefToBeUnset byoHost ns ()) (s, [])
  (r.1.1, seen r.2.2)

theorem wait_waited (byoHost : ByoHost) (ns : String) (s : CtlStore) (os : List CtlOutcome) :
    Waited (wait byoHost ns s os).2 (wait byoHost ns s os).1 := by
  have hwaits : GoM.Ensures (Prog.logged execCtl) (fun _ => True)
      (waitForMachineRefToBeUnset byoHost ns) () (s, []) fun e _ t => WaitsFrom [] e t :=
    .call_bind trivial fun o _ => (pollMachineRef_waits ns _ _ _ _).mono fun _ _ _ h =>
      h.of_seen (seen_cons _ _)
  obtain ⟨polls, hpolls, hwaited⟩ := hwaits os fun _ _ => trivial
  rw [wait, hpolls]
  exact hwaited

theorem wait_returns (byoHost : ByoHost) (ns : String) (s : CtlStore) (os : List CtlOutcome)
    (m : String) : (wait byoHost ns s os).1 ≠ .panic m := by
  rw [wait, (Prog.run_logged execCtl _ os s []).1]
  exact waitForMachineRefToBeUnset_ends byoHost ns s os (fun _ _ => trivial) m

/-! ## When the wait returns -/

/-- A wait that returned nil has seen attached hosts and last one that is not. -/
theorem Waited.of_ok {polls : List ByoHost} {e : Exit String Unit} (h : Waited polls e)
    (he : e = .ok ()) : ∃ earlier last, polls = earlier ++ [last] ∧ last.machineRef = none ∧
      ∀ h ∈ earlier, h.machineRef ≠ none := by
  induction h with
  | unset hnone => exact ⟨[], _, rfl, hnone, List.forall_mem_nil _⟩
  | stopped hne => exact absurd he hne
  | again hset _ ih =>
    obtain ⟨earlier, last, rfl, hlast, hearlier⟩ := ih he
    exact ⟨_ :: earlier, last, rfl, hlast, List.forall_mem_cons.2 ⟨hset, hearlier⟩⟩

/-- The first poll that sees no MachineRef is the last one, and the wait returns nil. -/
theorem Waited.at_unset {earlier later : List ByoHost} {h : ByoHost} {e : Exit String Unit}
    (hwaited : Waited (earlier ++ h :: later) e) (hnone : h.machineRef = none) :
    later = [] ∧ e = .ok () := by
  induction earlier with
  | nil =>
    cases hwaited with
    | unset _ => exact ⟨rfl, rfl⟩
    | again hset _ => exact absurd hnone hset
  | cons first earlier ih =>
    -- an unset host further down: the first of the list was not the last poll
    generalize hpolls : first :: earlier ++ h :: later = polls at hwaited
    cases hwaited with
    | unset _ => simp at hpolls
    | stopped _ => simp at hpolls
    | again _ hrest =>
      obtain ⟨-, rfl⟩ := List.cons.inj hpolls
      exact ih hrest

/-- The claim of a wait for `machine`: it returns, at the first poll whose host does not name the
machine it makes no further poll and returns nil, and it returns nil only then. -/
structure WaitsFor (machine : NamespacedName) (polls : List ByoHost) (e : Exit String Unit) :
    Prop where
  returns : ∀ m, e ≠ .panic m
  at_first : ∀ {earlier h later}, polls = earlier ++ h :: later → ¬ RefersTo machine h →
    later = [] ∧ e = .ok ()
  only_then : e = .ok () → ∃ h ∈ polls, ¬ RefersTo machine h

/-- The host of `threeReplicas`, attached to `m1`. -/
def attachedHost : ByoHost :=
  { ns := "default", name := "h1", machineRef := some { ns := "default", name := "m1" } }

/-- A wait in which no poll sees the host attached to another machine ends as it should. -/
theorem waitsFor_of_same {machine : NamespacedName} {polls : List ByoHost} {e : Exit String Unit}
    (hwaited : Waited polls e) (hreturns : ∀ m, e ≠ .panic m)
    (hsame : ∀ h ∈ polls, h.machineRef = none ∨ RefersTo machine h) : WaitsFor machine polls e := by
  refine ⟨hreturns, ?_, ?_⟩
  · intro earlier h later hpolls hnot
    rw [hpolls] at hwaited hsame
    have hnone : h.machineRef = none := (hsame h (by simp)).resolve_right hnot
    exact hwaited.at_unset hnone
  · intro hok
    obtain ⟨earlier, last, hpolls, hlast, -⟩ := hwaited.of_ok hok
    exact ⟨last, by rw [hpolls]; simp, not_refersTo_of_none hlast⟩

/-- A wait that ends as it should has not seen the host attached to another machine. -/
theorem WaitsFor.same {machine : NamespacedName} {polls : List ByoHost} {e : Exit String Unit}
    (hwaits : WaitsFor machine polls e) (hwaited : Waited polls e) :
    ∀ h ∈ polls, h.machineRef = none ∨ RefersTo machine h := by
  intro h hh
  by_cases hnames : RefersTo machine h
  · exact .inr hnames
  · -- the poll that sees `h` is the last one, and a last poll sees no machine
    obtain ⟨earlier, later, hpolls⟩ := List.append_of_mem hh
    obtain ⟨rfl, hok⟩ := hwaits.at_first hpolls hnames
    obtain ⟨earlier', last, hpolls', hlast, -⟩ := hwaited.of_ok hok
    obtain ⟨-, rfl⟩ := List.append_singleton_inj.1 (hpolls.symm.trans hpolls')
    exact .inl hlast

/-- For every host that is passed and every machine, whatever happens during the wait: the wait for
the machine ends as it should exactly if no poll sees the host attached to another machine. -/
theorem wait_waitsFor (byoHost : ByoHost) (machine : NamespacedName) (ns : String) (s : CtlStore)
    (os : List CtlOutcome) :
    WaitsFor machine (wait byoHost ns s os).2 (wait byoHost ns s os).1 ↔
      ∀ h ∈ (wait byoHost ns s os).2, h.machineRef = none ∨ RefersTo machine h := by
  have hwaited := wait_waited byoHost ns s os
  constructor
  · intro hwaits
    exact hwaits.same hwaited
  · exact waitsFor_of_same hwaited (wait_returns byoHost ns s os)

/-- The second poll sees the host released. -/
theorem wait_waitsFor_released :
    let os := List.replicate 7 default ++ [{ meanwhile := [.release ⟨"default", "h1"⟩] }]
    (wait attachedHost "default" threeReplicas os).1 = .ok () ∧
      WaitsFor ⟨"default", "m1"⟩ (wait attachedHost "default" threeReplicas os).2
        (wait attachedHost "default" threeReplicas os).1 :=
  ⟨by decide +kernel, (wait_waitsFor attachedHost ⟨"default", "m1"⟩ "default" threeReplicas _).2
    (by decide +kernel)⟩

/-- Between two polls `m1` lets go of the host and `m2` takes it; the wait then goes on until the
timeout. -/
def reattached : List CtlOutcome :=
  List.replicate 7 default ++ [{ meanwhile := [.release ⟨"default", "h1"⟩,
    .attach ⟨"default", "h1"⟩ { ns := "default", name := "m2" }] },
    { elapsed := waitForMachineRefToBeUnsetTimeout }]

/-- The second poll sees `m2`, and instead of returning nil the wait sleeps and reports a
timeout. -/
theorem reattached_times_out :
    let r := wait attachedHost "default" threeReplicas reattached
    RefersTo ⟨"default", "m1"⟩ attachedHost ∧
      r.1 = .err "timeout waiting for machineRef to be unset" ∧
      ¬ WaitsFor ⟨"default", "m1"⟩ r.2 r.1 := by
  have htimeout : (wait attachedHost "default" threeReplicas reattached).1 =
    .err "timeout waiting for machineRef to be unset" := by decide +kernel
  have hgone : ∃ h ∈ (wait attachedHost "default" threeReplicas reattached).2,
    ¬ RefersTo ⟨"default", "m1"⟩ h := by decide +kernel
  refine ⟨by decide +kernel, htimeout, ?_⟩
  intro hwaits
  obtain ⟨h, hh, hnot⟩ := hgone
  obtain ⟨earlier, later, hpolls⟩ := List.append_of_mem hh
  obtain ⟨-, hok⟩ := hwaits.at_first hpolls hnot
  rw [htimeout] at hok
  cases hok

end Byoh.Properties
