import Byoh.Foundation.Interface
import Byoh.Protocol.HostSteps
import Byoh.Protocol.MachineProgress

/-!
# Reconciles that release a host

What the three reconciles have to do that take a host from a machine under deletion back to the pool,
when nothing fails:

* the reconcile of the machine marks its host and removes the finalizer (`reconcile_releases`);
* the cleanup of the agent comes to its end, if there is a script wherever the host references an
  uninstall secret (`hostCleanUp_completes`);
* the reconcile of the host by the manager deletes the secret, then the reference (`reconcile_clears`).

`NothingFails` are the answers to calls when nothing fails. Whether there is a sentinel file, and
whether an address gives a network configuration, is left open.
-/

set_option autoImplicit false

namespace Byoh.Protocol

open Byoh.Foundation Byoh.Model

/-- The call makes the agent do something that can fail. -/
def isWork : Call → Bool
  | .hostCommand _ _ | .parseTemplate _ _ => true
  | _ => false

/-- The call may be answered by `r` when nothing fails. -/
def NothingFails (c : Call) (w : World) (r : Resp c) (w' : World) : Prop :=
  ∃ o : Outcome, Succeeds o ∧ (isWork c = true → o.commandOk = true) ∧ exec o c w = (r, w')

/-- What holds when reads and writes succeed. -/
theorem meets_nothingFails {α : Type} {p : ApiProg α} {w : World} {Q : α → World → Prop}
    (h : Prog.Ensures exec Succeeds p w Q) : Prog.Meets NothingFails Q p w :=
  h.meets fun _ _ _ _ ⟨o, ho, _, hexec⟩ => ⟨o, ho, hexec⟩

/-! ## The cleanup of the agent -/

section Agent

open Byoh.Model.HostReconciler

variable {cfg : Config} {h : ByoHost} {w : World}

/-- The secret that the host references has an uninstall script. -/
def HasScript (h : ByoHost) (w : World) : Prop :=
  ∀ ref, h.uninstallationSecret = some ref →
    ∃ secret, w.secrets.lookup ⟨ref.ns, ref.name⟩ = some secret ∧ secret.data.get "uninstall" ≠ none

/-- A function of the agent that returns `a` and leaves the host in memory and the server alone. -/
abbrev Answers {α : Type} (x : HostM α) (h : ByoHost) (w : World) (P : α → Prop) : Prop :=
  GoM.Meets NothingFails x h w fun e h' w' => ∃ a, e = .ok a ∧ P a ∧ h' = h ∧ w' = w

theorem runCmd_answers (c : HostCommand) : Answers (runCmd c) h w fun _ => True := by
  refine .get_bind (.call_bind fun ok w' => ?_)
  rintro ⟨o, -, hwork, hexec⟩
  obtain ⟨rfl, rfl⟩ := Prod.mk.inj hexec
  rw [hwork rfl]
  exact .pure ⟨(), rfl, trivial, rfl, rfl⟩

theorem getSecret_answers {ref : ObjectReference} {secret : Secret}
    (hsecret : w.secrets.lookup ⟨ref.ns, ref.name⟩ = some secret) :
    Answers (getSecret ref) h w fun s => s = secret := by
  refine .call_bind fun r w' => ?_
  rintro ⟨o, ho, -, hexec⟩
  rw [exec, hsecret, readObject_succeeds ho] at hexec
  obtain ⟨rfl, rfl⟩ := Prod.mk.inj hexec
  exact .pure ⟨secret, rfl, rfl, rfl, rfl⟩

theorem parseScript_answers (script : String) : Answers (parseScript cfg script) h w fun _ => True := by
  refine .call_bind fun r w' => ?_
  rintro ⟨o, -, hwork, hexec⟩
  rw [exec, Outcome.parseTemplate, if_pos (hwork rfl)] at hexec
  obtain ⟨rfl, rfl⟩ := Prod.mk.inj hexec
  exact .pure ⟨_, rfl, trivial, rfl, rfl⟩

/-- A function of the agent that returns; it keeps the reference of the host, and the server. -/
abbrev Completes {α : Type} (x : HostM α) (h : ByoHost) (w : World) : Prop :=
  GoM.Meets NothingFails x h w fun e h' w' =>
    ∃ a, e = .ok a ∧ h'.uninstallationSecret = h.uninstallationSecret ∧ w' = w

theorem runCmd_completes (c : HostCommand) : Completes (runCmd c) h w := by
  refine (runCmd_answers c).mono ?_
  rintro _ h' w' ⟨a, rfl, -, rfl, rfl⟩
  exact ⟨a, rfl, rfl, rfl⟩

theorem resetNode_completes (inCleanup : Bool) : Completes (resetNode inCleanup) h w := by
  refine .ok_attempt (runCmd_completes _) ?_
  rintro _ h' _ ⟨hsame, rfl⟩
  exact .pure ⟨(), rfl, hsame, rfl⟩

theorem resetInstalledNode_completes : Completes resetInstalledNode h w := by
  refine .get_bind ?_
  split
  · refine .ok_bind (resetNode_completes true) ?_
    rintro _ h' _ ⟨hsame, rfl⟩
    exact .ret ⟨(), rfl, hsame, rfl⟩
  · exact .pure ⟨(), rfl, rfl, rfl⟩

/-- The script is read, expanded and run. -/
theorem uninstall_completes {ref : ObjectReference} {secret : Secret}
    (hsecret : w.secrets.lookup ⟨ref.ns, ref.name⟩ = some secret)
    (hscript : secret.data.get "uninstall" ≠ none) : Completes (uninstall cfg ref) h w := by
  obtain ⟨script, hscript⟩ := Option.ne_none_iff_exists'.1 hscript
  refine .ok_bind (getSecret_answers hsecret) ?_
  rintro s h' w' ⟨hs, hh', hw'⟩
  subst s h' w'
  simp only [hscript]
  refine .ok_bind (parseScript_answers script) ?_
  rintro data h' w' ⟨-, hh', hw'⟩
  subst h' w'
  exact runCmd_completes _

/-- A host whose uninstall script is there is uninstalled. -/
theorem uninstallNode_completes (hscript : HasScript h w) : Completes (uninstallNode cfg) h w := by
  refine .get_bind ?_
  split
  · cases href : h.uninstallationSecret with
    | none => exact .pure ⟨(), rfl, href, rfl⟩
    | some ref =>
      obtain ⟨secret, hsecret, hdata⟩ := hscript ref href
      have huninstall : Completes (uninstall cfg ref) h w := uninstall_completes hsecret hdata
      rwa [Completes, href] at huninstall
  · exact .pure ⟨(), rfl, rfl, rfl⟩

theorem removeSentinelFile_completes : Completes removeSentinelFile h w := by
  refine .call_bind fun found w' => ?_
  rintro ⟨o, -, -, hexec⟩
  obtain ⟨-, rfl⟩ := Prod.mk.inj hexec
  cases found with
  | false => exact .pure ⟨(), rfl, rfl, rfl⟩
  | true =>
    refine .ok_attempt (runCmd_completes _) ?_
    rintro _ h' _ ⟨hsame, rfl⟩
    exact .pure ⟨(), rfl, hsame, rfl⟩

theorem deleteEndpointIP_completes : Completes deleteEndpointIP h w := by
  refine .get_bind ?_
  cases h.annotations.get .endPointIP with
  | none => exact .pure ⟨(), rfl, rfl, rfl⟩
  | some ip =>
    refine .call_bind fun valid w' => ?_
    rintro ⟨o, -, -, hexec⟩
    obtain ⟨-, rfl⟩ := Prod.mk.inj hexec
    cases valid with
    | false => exact .pure ⟨(), rfl, rfl, rfl⟩
    | true => exact runCmd_completes _

/-- A cleanup in which nothing fails comes to its end. -/
theorem hostCleanUp_completes (hscript : HasScript h w) : Completes (hostCleanUp cfg) h w := by
  refine .ok_bind resetInstalledNode_completes ?_
  rintro _ h₁ w₁ ⟨hsame₁, hw₁⟩
  subst w₁
  have hscript₁ : HasScript h₁ w := fun ref href => hscript ref (hsame₁ ▸ href)
  refine .ok_bind (uninstallNode_completes hscript₁) ?_
  rintro _ h₂ w₂ ⟨hsame₂, hw₂⟩
  subst w₂
  refine .modify_bind (.ok_bind removeSentinelFile_completes ?_)
  rintro _ h₃ w₃ ⟨hsame₃, hw₃⟩
  subst w₃
  refine .ok_bind deleteEndpointIP_completes ?_
  rintro _ h₄ w₄ ⟨hsame₄, hw₄⟩
  subst w₄
  have hsame : h₄.uninstallationSecret = h.uninstallationSecret :=
    hsame₄.trans (hsame₃.trans (hsame₂.trans hsame₁))
  exact .ret ⟨(), rfl, hsame, rfl⟩

/-- A reconcile of the agent: what its body leaves in memory arrives on the server. -/
theorem agent_runs {k : NamespacedName} {P : Exit Err Result → ByoHost → Prop}
    (hread : w.hosts.lookup k = some h)
    (hbody : GoM.Meets NothingFails (reconcileHost cfg) h w fun e h' w' =>
      w' = w ∧ h'.key = k ∧ P e h') :
    Prog.Meets NothingFails (fun _ w' => OnlyHost k w w' ∧ ∃ e h' cur, P e h' ∧
      w'.hosts.lookup k = some cur ∧ Patched h h' true true true cur) (reconcile cfg k) w := by
  refine .bind (.call fun r w' => ?_)
  rintro ⟨o, ho, -, hexec⟩
  rw [exec, hread, readObject_succeeds ho] at hexec
  obtain ⟨rfl, rfl⟩ := Prod.mk.inj hexec
  rw [Prog.ret_bind]
  have hdeferred : GoM.Meets NothingFails (GoM.deferred (reconcileHost cfg) fun h' => patchByoHost h h')
      h w fun _ _ w' => OnlyHost k w w' ∧ ∃ e h' cur, P e h' ∧ w'.hosts.lookup k = some cur ∧
        Patched h h' true true true cur := by
    refine .deferred (hbody.mono ?_)
    rintro e h' w' ⟨hw', hkey, hP⟩
    subst w'
    have hpatch : Prog.Ensures exec Succeeds (patchByoHost h h') w
        (Sent h h' h'.key w Succeeds true true true) :=
      patchByoHost_ensures succeeds_default (hkey ▸ hread)
    refine (meets_nothingFails hpatch).mono ?_
    rintro e' w' ⟨harrived, hnone⟩
    obtain rfl : e' = none := hnone fun o ho => ho.2
    obtain ⟨cur, hcur, hp, honly⟩ := harrived rfl
    rw [hkey] at hcur honly
    exact ⟨honly, e, h', cur, hP, hcur, hp⟩
  exact .bind (Prog.Meets.mono hdeferred fun _ _ hQ => .ret (.ret hQ))

end Agent

/-! ## The reconcile of the machine -/

section Machine

open Byoh.Model.ByoMachineReconciler

variable {w : World} {k : NamespacedName} {s : Scope}

/-- The machine `k` is being deleted, and nothing keeps its reconcile from going on. -/
structure Deletable (w : World) (k : NamespacedName) (s : Scope) : Prop extends Readable w k s where
  notPaused : isPaused s.cluster s.byoMachine.annotations = false
  deleting : s.byoMachine.deletionTimestamp = true

/-- The controller does not keep the machine `k` any longer. -/
def Finalized (k : NamespacedName) (w : World) : Prop :=
  ∀ m, w.machines.lookup k = some m → machineFinalizer ∉ m.finalizers

/-- The machine without the finalizer of the controller. -/
def withoutFinalizer (m : ByoMachine) : ByoMachine :=
  { m with finalizers := removeFinalizer m.finalizers machineFinalizer }

theorem not_mem_withoutFinalizer (m : ByoMachine) :
    machineFinalizer ∉ (withoutFinalizer m).finalizers := by
  simp [withoutFinalizer, removeFinalizer]

/-- The patch of a machine that only loses the finalizer. -/
theorem patchWithoutFinalizer_ensures {m : ByoMachine} (hm : w.machines.lookup m.key = some m) :
    Prog.Ensures exec Succeeds (patchByoMachine m (withoutFinalizer m)) w fun _ w' =>
      Finalized m.key w' ∧ w'.hosts = w.hosts ∧ w'.secrets = w.secrets := by
  -- conditions and status are the same
  have hstatus : m.statusChanged (withoutFinalizer m) = false := by
    simp [ByoMachine.statusChanged, withoutFinalizer]
  refine ensures_sendIf (fun hchanged => ?_) fun _ => ?_
  · simp [withoutFinalizer] at hchanged
  refine ensures_sendIf (fun _ => .call succeeds_default fun o ho => ?_) fun hsame => ?_
  · have hmerge : m.merge (withoutFinalizer m) m = withoutFinalizer m := by
      simp [ByoMachine.merge, withoutFinalizer]
    have hremoves : addsFinalizer m.deletionTimestamp m.finalizers
        (withoutFinalizer m).finalizers = false := by
      simp only [addsFinalizer, withoutFinalizer, removeFinalizer, Bool.and_eq_false_imp,
        List.any_eq_false, List.mem_filter, decide_not]
      intro _ f hf
      simpa using hf.1
    have hexec : exec o (.patchByoMachine m.key m (withoutFinalizer m)) w =
        (none, w.setMachine m.key (withoutFinalizer m)) := by
      simp only [exec, writeObject, ho.2, hm, hmerge, hremoves, if_true, Bool.false_eq_true, if_false]
    refine ensures_sendIf (fun hchanged => ?_) fun _ => .ret ?_
    · rw [hstatus] at hchanged
      cases hchanged
    rw [show exec o (.patchByoMachine (withoutFinalizer m).key m (withoutFinalizer m)) w = _ from hexec]
    refine ⟨fun m' hm' => ?_, rfl, rfl⟩
    rw [setMachine_lookup_self] at hm'
    split at hm'
    · cases hm'
    · cases hm'
      exact not_mem_withoutFinalizer m
  · -- the machine has not got the finalizer
    have hfinalizers : m.finalizers = (withoutFinalizer m).finalizers := by
      simp only [ByoMachine.changed, Bool.not_eq_false', Bool.and_eq_true,
        decide_eq_true_eq] at hsame
      exact hsame.1
    refine ensures_sendIf (fun hchanged => ?_) fun _ => .ret ⟨fun m' hm' => ?_, rfl, rfl⟩
    · rw [hstatus] at hchanged
      cases hchanged
    · cases hm.symm.trans hm'
      rw [hfinalizers]
      exact not_mem_withoutFinalizer m

/-- The edit that `markHostForCleanup` makes for the machine `m`. -/
def markFor (m : ByoMachine) : HostEdit :=
  .mark (m.annotations.get .upgradeInProgress = some "true")

/-- The mark arrives on the server. -/
theorem markHostForCleanup_ensures {sc : Scope} {h : ByoHost} (hhost : sc.byoHost = some h)
    (hh : OnServer h w) :
    GoM.Ensures exec Succeeds markHostForCleanup sc w fun r sc' w' => r = .ok () ∧
      sc' = { sc with byoHost := some ((markFor sc.byoMachine).apply h) } ∧
        OnServer ((markFor sc.byoMachine).apply h) w' ∧ OnlyHost h.key w w' := by
  refine .get_bind ?_
  simp only [hhost, GoM.deref_some, GoM.pure_bind]
  exact patchHost_ensures (markFor sc.byoMachine) hh

/-- One reconcile of a machine under deletion marks its host, which references the same secrets, and
removes the finalizer. -/
theorem reconcile_releases {h : ByoHost} (hs : Deletable w k s) (hkey : s.byoMachine.key = k)
    (hhosts : WellKeyed w) (hfresh : w.informer = none) (hunique : UniqueLabels w)
    (hh : w.hosts.lookup h.key = some h) (hlabelled : Labelled k h) :
    Prog.Ensures exec Succeeds (reconcile k) w fun _ w' => Finalized k w' ∧
      w'.secrets = w.secrets ∧ ∃ cur, w'.hosts.lookup h.key = some cur ∧ cur.key = h.key ∧
        cur.carries .hostCleanup = true ∧ cur.uninstallationSecret = h.uninstallationSecret := by
  refine hs.toReadable.reads (.deferred (.get_bind (.bind
    ((hs.toReadable.fetches hkey hhosts hfresh hh hlabelled
      (hunique.onlyLabelled hh hlabelled)).mono ?_))))
  rintro r s' w' ⟨rfl, hs', hw'⟩
  subst s' w'
  refine .modify_bind ?_
  rw [if_neg (by rw [hs.notPaused]; exact Bool.false_ne_true), if_pos hs.deleting]
  -- the host is marked, then the finalizer is removed in memory
  refine .get_bind (.bind ((markHostForCleanup_ensures rfl ⟨h, hh, .refl h⟩).mono ?_))
  rintro r s' w' ⟨rfl, hs', ⟨cur, hcur, hsame⟩, honly⟩
  subst s'
  refine .modify_bind (.pure ?_)
  have hmachine : w'.machines.lookup s.byoMachine.key = some s.byoMachine := by
    rw [honly.rest, hkey]
    exact hs.byoMachine
  refine (patchWithoutFinalizer_ensures hmachine).mono ?_
  rintro e w'' ⟨hfinal, hhosts', hsecrets⟩
  refine ⟨hkey ▸ hfinal, ?_, cur, ?_, hsame.key, ?_, ?_⟩
  · rw [hsecrets, honly.rest]
  · rw [hhosts']
    exact hcur
  · rw [hsame.carries]
    simp [markFor, HostEdit.apply, markedHost, ByoHost.carries]
  · rw [hsame.uninstallationSecret]
    rfl

end Machine

/-! ## The reconcile of the host by the manager -/

section Manager

open Byoh.Model.ByoHostReconciler

variable {w : World} {k : NamespacedName} {h : ByoHost}

/-- The host, whose reference is cleared. -/
theorem clearReference_succeeds (hread : w.hosts.lookup h.key = some h) :
    Prog.Ensures exec Succeeds (clearReference h) w fun e w' => e = .ok {} ∧
      Arrived h (clearedHost h) h.key w true true true w' := by
  have hpatch : Prog.Ensures exec Succeeds (patchByoHost h (clearedHost h)) w
      (Sent h (clearedHost h) h.key w Succeeds true true true) :=
    patchByoHost_ensures succeeds_default hread
  refine .bind (hpatch.mono ?_)
  rintro e w' ⟨harrived, hnone⟩
  obtain rfl : e = none := hnone fun o ho => ho.2
  exact .ret ⟨rfl, harrived rfl⟩

/-- One reconcile of a host that has been cleaned up: the secret is deleted and the reference to it
cleared. -/
theorem reconcile_clears (hsecrets : SecretsKeyed w) (hread : w.hosts.lookup k = some h)
    (hkey : h.key = k) (hnone : h.machineRef = none) (hun : h.carries .hostCleanup = false) :
    Prog.Ensures exec Succeeds (reconcile k) w fun e w' => e = .ok {} ∧ w'.machines = w.machines ∧
      (∀ ref, h.uninstallationSecret = some ref → w'.secrets.lookup ⟨ref.ns, ref.name⟩ = none) ∧
        ∃ cur, w'.hosts.lookup k = some cur ∧ Patched h (clearedHost h) true true true cur := by
  have hstale : staleReference h = h.uninstallationSecret := by simp [staleReference, hnone, hun]
  refine .call succeeds_default fun o ho => ?_
  rw [exec, hread, readObject_succeeds ho, Prog.ret_bind]
  simp only [hstale]
  cases href : h.uninstallationSecret with
  | none =>
    refine .ret ⟨rfl, rfl, fun _ hsome => (by cases hsome), h, hread, ?_⟩
    have hcleared : clearedHost h = h := by rw [clearedHost, ← href]
    rw [hcleared]
    exact SameHost.refl h
  | some ref =>
    -- with the secret gone, the reference is cleared
    have hclear : ∀ {w₁ : World}, w₁.hosts = w.hosts → w₁.machines = w.machines →
        w₁.secrets.lookup ⟨ref.ns, ref.name⟩ = none →
        Prog.Ensures exec Succeeds (clearReference h) w₁ fun e w' => e = .ok {} ∧
          w'.machines = w.machines ∧
          (∀ ref', some ref = some ref' → w'.secrets.lookup ⟨ref'.ns, ref'.name⟩ = none) ∧
            ∃ cur, w'.hosts.lookup k = some cur ∧ Patched h (clearedHost h) true true true cur := by
      intro w₁ hhosts hmachines hgone
      have hread₁ : w₁.hosts.lookup h.key = some h := by rw [hhosts, hkey, hread]
      refine (clearReference_succeeds hread₁).mono ?_
      rintro e w' ⟨rfl, cur, hcur, hpatched, honly⟩
      refine ⟨rfl, ?_, fun ref' heq => ?_, cur, hkey ▸ hcur, hpatched⟩
      · rw [honly.rest]
        exact hmachines
      · cases heq
        rw [honly.rest]
        exact hgone
    refine .perform succeeds_default fun o ho => ?_
    cases hsecret : w.secrets.lookup ⟨ref.ns, ref.name⟩ with
    | none =>
      rw [exec, hsecret, readObject_missing ho]
      exact hclear rfl rfl hsecret
    | some secret =>
      rw [exec, hsecret, readObject_succeeds ho]
      dsimp only
      rw [hsecrets _ secret hsecret]
      refine .perform succeeds_default fun o ho => ?_
      have hexec : exec o (.deleteSecret ⟨ref.ns, ref.name⟩) w =
          (none, { w with secrets := w.secrets.erase ⟨ref.ns, ref.name⟩ }) := by
        simp only [exec, writeObject, ho.2, hsecret, if_true]
      rw [hexec]
      exact hclear rfl rfl (AList.lookup_erase ..)

end Manager

end Byoh.Protocol
