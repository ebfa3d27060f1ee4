import Byoh.Model.InstallScripts

/-!
# The firewall of a host

The agent runs the install script until it succeeds, and the uninstall script when the host is cleaned
up. Either may fail or be cut off at any command and is run again (`Attempts`). After any number of
such attempts and an uninstall script that runs to its end, the firewall is as it was before the first
one, provided that its state was recorded (`firewall_restored`). A status check that fails counts as
an inactive firewall, and the firewall then stays disabled. The check does so by itself when
`ufw status` has more to say than fits into the pipe to `grep -q` (`firewall_lost`).

`writeSet` says which parts of a host a command writes. A script keeps what does not depend on the
parts that its commands write (`Frame.of_reads`, `Frame.triple`), so only the statements about the
firewall have to be looked at.
-/

set_option autoImplicit false

namespace Byoh.Properties.HostScripts

open Byoh.Foundation Byoh.Foundation.Shell Byoh.Foundation.Shell.Script
open Byoh.Model.InstallScripts

/-! ## Attempts -/

/-- What a command may do when its outcomes are allowed. -/
def Does (b : Bundle) (allowed : Command → CommandOutcome → Bool) (c : Command) (h : Host)
    (status : Status) (h' : Host) : Prop :=
  ∃ o, allowed c o = true ∧ execCommand b o c h = (status, h')

/-- Any number of install and uninstall scripts that were run on a host, each to its end or not. -/
inductive Attempts (b : Bundle) (allowed : Command → CommandOutcome → Bool) : Host → Host → Prop where
  | none (h : Host) : Attempts b allowed h h
  | install {h₀ h h' : Host} {e : Ending} (before : Attempts b allowed h₀ h)
      (hrun : Prog.Runs (Does b allowed) (prog false installScript) h e h') :
      Attempts b allowed h₀ h'
  | uninstall {h₀ h h' : Host} {e : Ending} (skip : Bool) (before : Attempts b allowed h₀ h)
      (hrun : Prog.Runs (Does b allowed) (prog false (uninstallScript skip)) h e h') :
      Attempts b allowed h₀ h'

/-- Scripts that are executed with allowed outcomes. -/
theorem runs_of_checked {b : Bundle} {allowed : Command → CommandOutcome → Bool} {s : Script Command}
    {h h' : Host} {e : Ending} {os : List CommandOutcome}
    (hrun : Prog.runChecked (execCommand b) (fun o c _ => allowed c o) os (prog false s) h =
      some (e, h')) : Prog.Runs (Does b allowed) (prog false s) h e h' :=
  Prog.runs_of_runChecked (fun o _ _ hcheck => ⟨o, hcheck, rfl⟩) hrun

section Commands

variable {b : Bundle} {allowed : Command → CommandOutcome → Bool} {c : Command} {h h' : Host}
  {status : Status}

/-- A command has its effect, or a part of it. -/
theorem Does.cases (hd : Does b allowed c h status h') :
    (status, h') = undisturbed b c h ∨
      ∃ o, allowed c o = true ∧ o.status = status ∧ status ≠ .success ∧
        (status = .failure → isBuiltin c = false) ∧ h' = partialEffect b h o.progress c := by
  obtain ⟨o, hallowed, ho⟩ := hd
  rw [execCommand] at ho
  split at ho
  · exact .inl ho.symm
  · next hfailure =>
    split at ho
    · exact .inl ho.symm
    · next hbuiltin =>
      cases ho
      exact .inr ⟨o, hallowed, hfailure, by decide, fun _ => by simpa using hbuiltin, rfl⟩
  · next hkilled =>
    cases ho
    exact .inr ⟨o, hallowed, hkilled, by decide, (fun h => by cases h), rfl⟩

/-- A command that succeeds has its effect. -/
theorem Does.of_success (hd : Does b allowed c h .success h') :
    (effect b h c).1 = true ∧ h' = (effect b h c).2 := by
  rcases hd.cases with heq | ⟨-, -, -, hne, -⟩
  · rw [undisturbed, Prod.mk.injEq] at heq
    refine ⟨?_, heq.2⟩
    by_contra hfalse
    rw [if_neg hfalse] at heq
    cases heq.1
  · exact absurd rfl hne

/-- A test that fails has found what it tests for missing. -/
theorem Does.of_failure (hd : Does b allowed c h .failure h')
    (hc : isBuiltin c = true ∨ ∀ o, allowed c o = true → o.status ≠ .failure) :
    (effect b h c).1 = false ∧ h' = (effect b h c).2 := by
  rcases hd.cases with heq | ⟨o, hallowed, hstatus, -, hbuiltin, -⟩
  · rw [undisturbed, Prod.mk.injEq] at heq
    refine ⟨?_, heq.2⟩
    by_contra htrue
    rw [if_pos (by simpa using htrue)] at heq
    cases heq.1
  · rcases hc with hc | hc
    · cases hc.symm.trans (hbuiltin rfl)
    · exact absurd hstatus (hc o hallowed)

/-- What the effect of a command and its parts keep is kept. -/
theorem Does.keeps {α : Type} (view : Host → α) (heffect : view (effect b h c).2 = view h)
    (hpart : ∀ n, view (partialEffect b h n c) = view h) (hd : Does b allowed c h status h') :
    view h' = view h := by
  rcases hd.cases with heq | ⟨o, -, -, -, -, rfl⟩
  · rw [undisturbed, Prod.mk.injEq] at heq
    rw [heq.2, heffect]
  · exact hpart o.progress

end Commands

/-- Assertions that both scripts keep, however they end, hold after any attempts. -/
theorem Attempts.invariant {b : Bundle} {allowed : Command → CommandOutcome → Bool} {I : Host → Prop}
    (hinstall : Triple (Does b allowed) false I installScript (fun _ => I) I)
    (huninstall : ∀ skip, Triple (Does b allowed) false I (uninstallScript skip) (fun _ => I) I)
    {h₀ h : Host} (hattempts : Attempts b allowed h₀ h) (h₀I : I h₀) : I h := by
  induction hattempts with
  | none => exact h₀I
  | @install h h' e before hrun ih =>
    have hend := hinstall.run ih hrun
    cases e <;> exact hend
  | @uninstall h h' e skip before hrun ih =>
    have hend := (huninstall skip).run ih hrun
    cases e <;> exact hend

/-! ## Frames -/

/-- The parts of a host that commands write. -/
inductive Part where
  | tool (name : String)
  | fstab
  | swaps
  | ufwActive
  | ufwState
  | modules
  | packages
  | held
  | files
  | bundle
  | containerdConfig
  | service
  deriving DecidableEq

/-- Take a part over from another host. -/
def Part.copy (src h : Host) : Part → Host
  | .tool name => { h with
      tools := if src.tools.contains name then h.tools.insert name
        else h.tools.filter (· ≠ name) }
  | .fstab => { h with fstab := src.fstab }
  | .swaps => { h with swaps := src.swaps }
  | .ufwActive => { h with ufwActive := src.ufwActive }
  | .ufwState => { h with ufwState := src.ufwState }
  | .modules => { h with modules := src.modules }
  | .packages => { h with packages := src.packages }
  | .held => { h with held := src.held }
  | .files => { h with files := src.files }
  | .bundle => { h with bundle := src.bundle }
  | .containerdConfig => { h with containerdConfig := src.containerdConfig }
  | .service => { h with
      containerdEnabled := src.containerdEnabled
      containerdRunning := src.containerdRunning }

/-- The parts that a command writes. -/
def writeSet : Command → List Part
  | .commandV _ | .echo _ | .true' | .setDlBin _ | .mkdir _ | .sysctlSystem | .daemonReload
  | .testNoUfwState | .testUfwState | .ufwStatusActive | .grepUfwState | .testTar _ | .dpkgList _ => []
  | .aptGetInstall pkg => [.tool pkg, .packages]
  | .downloadImgpkg | .mvImgpkg => [.files]
  | .chmodImgpkg => [.tool "imgpkg"]
  | .imgpkgPull | .rmBundle => [.bundle]
  | .swapoff | .swapon => [.swaps]
  | .commentSwap | .uncommentSwap => [.fstab]
  | .writeUfwState _ | .rmUfwState => [.ufwState]
  | .ufwDisable | .ufwEnable => [.ufwActive]
  | .modprobe _ | .modprobeRemove _ _ => [.modules]
  | .extract _ | .removeEntries _ | .rmDirectory _ | .containerdConfigDefault =>
      [.files, .containerdConfig]
  | .dpkgInstall _ => [.packages]
  | .aptMarkHold _ => [.held]
  | .dpkgPurge _ => [.packages, .held]
  | .containerdConfig | .enableCri => [.containerdConfig]
  | .enableContainerd | .restartContainerd | .stopContainerd | .disableContainerd => [.service]

theorem Part.copy_self (h : Host) (p : Part) : p.copy h h = h := by
  cases p with
  | tool name =>
    by_cases hname : name ∈ h.tools
    · simp [Part.copy, hname]
    · have hkept : h.tools.filter (· ≠ name) = h.tools := by
        refine List.filter_eq_self.2 fun tool htool => decide_eq_true fun heq => ?_
        exact hname (heq ▸ htool)
      simp only [Part.copy, List.contains_eq_mem, hname, decide_false, Bool.false_eq_true, if_false]
      rw [hkept]
  | _ => rfl

/-- Commands change the parts in their write set only. -/
def WithinWriteSet (c : Command) (h h' : Host) : Prop := h' = (writeSet c).foldl (Part.copy h') h

theorem withinWriteSet_same (c : Command) (h : Host) : WithinWriteSet c h h := by
  have hfold : ∀ parts : List Part, parts.foldl (Part.copy h) h = h := by
    intro parts
    induction parts with
    | nil => rfl
    | cons p parts ih => rw [List.foldl_cons, p.copy_self, ih]
  exact (hfold _).symm

theorem withinWriteSet_effect (b : Bundle) (h : Host) (c : Command) :
    WithinWriteSet c h (effect b h c).2 := by
  cases c with
  | aptGetInstall pkg => simp [WithinWriteSet, effect, writeSet, Part.copy]
  | chmodImgpkg =>
    simp only [effect]
    split
    · simp [WithinWriteSet, writeSet, Part.copy]
    · exact withinWriteSet_same _ h
  | mvImgpkg | imgpkgPull | extract | dpkgInstall =>
    simp only [effect]
    split
    · rfl
    · exact withinWriteSet_same _ h
  | enableCri =>
    simp only [effect, Host.sedConfig]
    split <;> rfl
  | containerdConfig =>
    simp only [effect, Host.sedConfig]
    split
    · split <;> rfl
    · rfl
  | _ => rfl

theorem withinWriteSet_part (b : Bundle) (h : Host) (n : Nat) (c : Command) :
    WithinWriteSet c h (partialEffect b h n c) := by
  cases c with
  | removeEntries | rmDirectory | rmBundle => rfl
  | extract | imgpkgPull | writeUfwState | containerdConfigDefault =>
    simp only [partialEffect]
    split <;> rfl
  | _ =>
    simp only [partialEffect]
    split
    · exact withinWriteSet_same _ h
    · exact withinWriteSet_effect b h _

/-- The view of a host changes with the commands in `writes` only. -/
structure Frame {α : Type} (b : Bundle) (writes : Command → Bool) (view : Host → α) : Prop where
  done : ∀ h c, writes c = false → view (effect b h c).2 = view h
  part : ∀ h c n, writes c = false → view (partialEffect b h n c) = view h

/-- The commands that write one of the parts. -/
def writesPart (reads : Part → Bool) (c : Command) : Bool := (writeSet c).any reads

/-- A view that depends on some parts changes with the commands that write one of them. -/
theorem Frame.of_reads {α : Type} (b : Bundle) {view : Host → α} (reads : Part → Bool)
    (hview : ∀ p, reads p = false → ∀ src h, view (p.copy src h) = view h) :
    Frame b (writesPart reads) view := by
  have hkept : ∀ h c h', WithinWriteSet c h h' → writesPart reads c = false → view h' = view h := by
    intro h c h' hwithin hquiet
    have hfold : ∀ parts : List Part, parts.any reads = false →
        ∀ t, view (parts.foldl (Part.copy h') t) = view t := by
      intro parts hparts
      induction parts with
      | nil => exact fun _ => rfl
      | cons p parts ih =>
        obtain ⟨hp, hparts⟩ := Bool.or_eq_false_iff.1 hparts
        intro t
        rw [List.foldl_cons, ih hparts, hview p hp]
    rw [hwithin]
    exact hfold _ hquiet h
  exact ⟨fun h c => hkept h c _ (withinWriteSet_effect b h c),
    fun h c n => hkept h c _ (withinWriteSet_part b h n c)⟩

/-- The statements do not write. -/
def IsQuiet (writes : Command → Bool) (l : List Statement) : Prop :=
  l.all (fun s => (commands s.script).all fun c => !writes c) = true

instance (writes : Command → Bool) (l : List Statement) : Decidable (IsQuiet writes l) :=
  inferInstanceAs (Decidable (_ = true))

namespace Frame

variable {α : Type} {b : Bundle} {writes : Command → Bool} {view : Host → α} {P : Host → Prop}
  {allowed : Command → CommandOutcome → Bool} {tested : Bool}

/-- Scripts without such commands keep the assertions about the view. -/
theorem triple (hframe : Frame b writes view) (hP : ∀ h h', view h' = view h → P h → P h')
    {s : Script Command} (hs : (commands s).all (fun c => !writes c) = true) :
    Triple (Does b allowed) tested P s (fun _ => P) P := by
  refine .keeps fun c hc h status h' hh hd => hP h h' ?_ hh
  have hquiet : writes c = false := by simpa using List.all_eq_true.1 hs c hc
  exact hd.keeps view (hframe.done h c hquiet) fun n => hframe.part h c n hquiet

theorem statements (hframe : Frame b writes view) (hP : ∀ h h', view h' = view h → P h → P h')
    {l : List Statement} (hl : IsQuiet writes l) : ∀ x ∈ l.map Statement.script,
      Triple (Does b allowed) false P x (fun _ => P) P := by
  intro x hx
  obtain ⟨s, hs, rfl⟩ := List.mem_map.1 hx
  exact hframe.triple hP (List.all_eq_true.1 hl s hs)

end Frame

/-! ## The firewall -/

/-- The state of the firewall is found out and recorded without failure. -/
def recorded : Command → CommandOutcome → Bool
  | .ufwStatusActive, o | .grepUfwState, o => o.status ≠ .failure
  | .writeUfwState value, o => value = "active" → o.status = .success
  | _, _ => true

/-- What the firewall depends on. -/
def firewallPart : Part → Bool
  | .tool name => name = "ufw"
  | .ufwActive | .ufwState => true
  | _ => false

/-- The firewall, its saved state, and whether it is installed and has a long status. -/
def firewallView (h : Host) : Bool × Option String × Bool × Bool :=
  (h.ufwActive, h.ufwState, h.tools.contains "ufw", h.ufwLongStatus)

theorem firewall_frame (b : Bundle) : Frame b (writesPart firewallPart) firewallView := by
  refine .of_reads b firewallPart fun p hp src h => ?_
  cases p with
  | tool name =>
    have hne : "ufw" ≠ name := by
      rintro rfl
      cases hp
    simp only [Part.copy, firewallView]
    split <;> simp [hne]
  | ufwActive | ufwState => cases hp
  | _ => rfl

/-- The firewall was `active` before the first attempt. -/
structure Firewall (active : Bool) (h : Host) : Prop where
  on : active = true → h.ufwState = some "active" ∨ h.ufwState = none ∧ h.ufwActive = true
  off : active = false → h.ufwState ≠ some "active" ∧ h.ufwActive = false
  absent : h.tools.contains "ufw" = false → h.ufwState = none ∧ h.ufwActive = active
  short : h.ufwLongStatus = false

/-- It is back in that state, and no state is saved. -/
structure Restored (active : Bool) (h : Host) : Prop where
  unsaved : h.ufwState = none
  as_before : h.ufwActive = active
  short : h.ufwLongStatus = false

section FirewallTriples

variable {b : Bundle} {allowed : Command → CommandOutcome → Bool} {active tested : Bool}

theorem Firewall.of_view (h h' : Host) (hview : firewallView h' = firewallView h)
    (hf : Firewall active h) : Firewall active h' := by
  simp only [firewallView, Prod.mk.injEq] at hview
  obtain ⟨hactive, hstate, htools, hlong⟩ := hview
  exact ⟨by rw [hactive, hstate]; exact hf.on, by rw [hactive, hstate]; exact hf.off,
    by rw [hactive, hstate, htools]; exact hf.absent, hlong.trans hf.short⟩

theorem Restored.of_view (h h' : Host) (hview : firewallView h' = firewallView h)
    (hr : Restored active h) : Restored active h' := by
  simp only [firewallView, Prod.mk.injEq] at hview
  exact ⟨hview.2.1.trans hr.unsaved, hview.1.trans hr.as_before, hview.2.2.2.trans hr.short⟩

/-- What is known in the statements that are guarded by `command -v ufw`. -/
structure Guarded (active : Bool) (h : Host) : Prop where
  firewall : Firewall active h
  present : h.tools.contains "ufw" = true

/-- The state has been saved, if there is something to restore. -/
def Saved (active : Bool) (h : Host) : Prop := active = true → h.ufwState = some "active"

/-- As long as nothing is saved, the firewall is as it was. -/
theorem Firewall.of_unsaved {h : Host} (hf : Firewall active h) (hnone : h.ufwState = none) :
    h.ufwActive = active := by
  cases active with
  | false => exact (hf.off rfl).2
  | true =>
    rcases hf.on rfl with hstate | ⟨-, hactive⟩
    · cases hnone.symm.trans hstate
    · exact hactive

/-- The tested command finds `test h` and changes nothing. -/
theorem triple_test (b : Bundle) (allowed : Command → CommandOutcome → Bool) {P : Host → Prop}
    {c : Command} (test : Host → Bool) (heffect : ∀ h, effect b h c = (test h, h))
    (hpart : ∀ h n, partialEffect b h n c = h)
    (hc : isBuiltin c = true ∨ ∀ o, allowed c o = true → o.status ≠ .failure) :
    Triple (Does b allowed) true P (run c) (fun ok h => P h ∧ test h = ok) P := by
  refine .command fun h status h' hh hd => ?_
  cases status with
  | success =>
    obtain ⟨htest, rfl⟩ := hd.of_success
    rw [heffect] at htest ⊢
    exact ⟨hh, htest⟩
  | failure =>
    obtain ⟨htest, rfl⟩ := hd.of_failure hc
    rw [heffect] at htest ⊢
    exact ⟨hh, htest⟩
  | killed =>
    have hsame : h' = h := hd.keeps id (by rw [heffect]) (hpart h)
    exact hsame ▸ hh

/-- The text that says that the firewall was active is written in full. -/
theorem writeActive_triple :
    Triple (Does b recorded) tested (fun h => Guarded active h ∧ h.ufwActive = true)
      (run (.writeUfwState "active")) (fun ok h => ok = true ∧ Guarded active h ∧ Saved active h)
      (Firewall active) := by
  refine .command ?_
  rintro h status h' ⟨hg, hactive⟩ hd
  have hsuccess : status = .success := by
    rcases hd.cases with heq | ⟨o, hallowed, hstatus, hne, -⟩
    · exact (Prod.mk.inj heq).1
    · exact absurd (hstatus.symm.trans (of_decide_eq_true hallowed rfl)) hne
  subst hsuccess
  obtain ⟨-, rfl⟩ := hd.of_success
  refine ⟨rfl, ⟨⟨fun _ => .inl rfl, fun hoff => ?_, fun habsent => ?_, hg.firewall.short⟩,
    hg.present⟩, fun _ => rfl⟩
  · cases (hg.firewall.off hoff).2.symm.trans hactive
  · cases hg.present.symm.trans habsent

/-- Whatever is left in the file by the other write, it does not say that the firewall was active. -/
theorem writeInactive_triple :
    Triple (Does b recorded) tested (fun h => Guarded active h ∧ h.ufwActive = false ∧ h.ufwState = none)
      (run (.writeUfwState "inactive")) (fun _ h => Guarded active h ∧ Saved active h)
      (Firewall active) := by
  refine .command ?_
  rintro h status h' ⟨hg, hinactive, hnone⟩ hd
  have hoff : active = false := (hg.firewall.of_unsaved hnone).symm.trans hinactive
  subst hoff
  have hleft : h'.ufwState ≠ some "active" ∧ h'.ufwActive = h.ufwActive ∧ h'.tools = h.tools ∧
      h'.ufwLongStatus = h.ufwLongStatus := by
    rcases hd.cases with heq | ⟨o, -, -, -, -, rfl⟩
    · cases heq
      exact ⟨by simp [effect], rfl, rfl, rfl⟩
    · simp only [partialEffect]
      split
      · exact ⟨hnone ▸ (Option.some_ne_none _).symm, rfl, rfl, rfl⟩
      · split <;> exact ⟨by simp, rfl, rfl, rfl⟩
  obtain ⟨hstate, hactive, htools, hlong⟩ := hleft
  have hpresent : h'.tools.contains "ufw" = true := htools ▸ hg.present
  have hg' : Guarded false h' := by
    refine ⟨⟨fun hon => ?_, fun _ => ⟨hstate, hactive.trans hinactive⟩, fun habsent => ?_,
      hlong.trans hg.firewall.short⟩, hpresent⟩
    · cases hon
    · cases hpresent.symm.trans habsent
  have hsaved : Saved false h' := fun hon => by cases hon
  cases status with
  | success => exact ⟨hg', hsaved⟩
  | failure =>
    cases tested with
    | true => exact ⟨hg', hsaved⟩
    | false => exact hg'.firewall
  | killed => exact hg'.firewall

/-- After the statement that saves the state, what has to be restored is saved. -/
theorem saveFirewall_triple :
    Triple (Does b recorded) tested (Guarded active) saveFirewall
      (fun _ h => Guarded active h ∧ Saved active h) (Firewall active) := by
  have htest := triple_test b recorded (P := Guarded active)
    (c := .testNoUfwState) (·.ufwState.isNone) (fun _ => rfl)
    (fun h n => by simp [partialEffect, effect]) (.inl rfl)
  have hstatus := triple_test b recorded
    (P := fun h => Guarded active h ∧ h.ufwState.isNone = true) (c := .ufwStatusActive)
    (fun h => h.ufwActive && !h.ufwLongStatus) (fun _ => rfl)
    (fun h n => by simp [partialEffect, effect]) (.inr fun _ h => of_decide_eq_true h)
  have hrecord : Triple (Does b recorded) true (fun h => Guarded active h ∧ h.ufwState.isNone = true)
      (.and (run .ufwStatusActive) (run (.writeUfwState "active")))
      (fun ok h => Guarded active h ∧
        if ok then Saved active h else h.ufwActive = false ∧ h.ufwState = none) (Firewall active) := by
    refine (hstatus.stopping fun _ h => h.1.firewall).and
      (writeActive_triple.conseq (fun _ h => ⟨h.1.1, (Bool.and_eq_true_iff.1 h.2).1⟩) ?_
        fun _ h => h) ?_
    · rintro ok h ⟨rfl, hg, hsaved⟩
      exact ⟨hg, hsaved⟩
    · rintro h ⟨⟨hg, hnone⟩, hinactive⟩
      rw [hg.firewall.short, Bool.not_false, Bool.and_true] at hinactive
      exact ⟨hg, hinactive, Option.isNone_iff_eq_none.1 hnone⟩
  refine (htest.stopping fun _ h => h.firewall).ifThen
    (hrecord.or writeInactive_triple fun _ h => h) (.nothing ?_)
  rintro h ⟨hg, hsome⟩
  refine ⟨hg, fun hon => ?_⟩
  rcases hg.firewall.on hon with hstate | ⟨hnone, -⟩
  · exact hstate
  · rw [hnone] at hsome
    cases hsome

/-- Firewall commands, for assertions that depend on the firewall only. -/
theorem triple_firewall {P Q : Host → Prop} {c : Command}
    (hdone : ∀ h, P h → Q (effect b h c).2) (hpart : ∀ h n, P h → Firewall active (partialEffect b h n c))
    (hsucceeds : ∀ h, (effect b h c).1 = true) :
    Triple (Does b allowed) false P (run c) (fun _ => Q) (Firewall active) := by
  refine .command fun h status h' hh hd => ?_
  cases status with
  | success =>
    obtain ⟨-, rfl⟩ := hd.of_success
    exact hdone h hh
  | failure =>
    rcases hd.cases with heq | ⟨o, -, -, -, -, rfl⟩
    · rw [undisturbed, hsucceeds] at heq
      cases (Prod.mk.inj heq).1
    · exact hpart h _ hh
  | killed =>
    rcases hd.cases with heq | ⟨o, -, -, -, -, rfl⟩
    · rw [undisturbed, hsucceeds] at heq
      cases (Prod.mk.inj heq).1
    · exact hpart h _ hh

theorem disableFirewall_triple :
    Triple (Does b recorded) false (Firewall active) disableFirewall.script
      (fun _ => Firewall active) (Firewall active) := by
  have htest := triple_test b recorded (P := Firewall active)
    (c := .commandV "ufw") (·.tools.contains "ufw") (fun _ => rfl)
    (fun h n => by simp [partialEffect, effect]) (.inl rfl)
  have hmkdir : Triple (Does b recorded) false (Guarded active) (run (.mkdir "/var/lib/byoh"))
      (fun _ => Guarded active) (Firewall active) := by
    refine ((firewall_frame b).triple (P := Guarded active) ?_ rfl).stopping fun _ h => h.firewall
    rintro h h' hview ⟨hf, hp⟩
    refine ⟨hf.of_view h h' hview, ?_⟩
    rw [← hp]
    exact congrArg (fun v => v.2.2.1) hview
  -- a firewall that is disabled has its state saved before
  have hoff : ∀ h : Host, Guarded active h ∧ Saved active h →
      Firewall active { h with ufwActive := false } := by
    rintro h ⟨hg, hsaved⟩
    refine ⟨fun hon => .inl (hsaved hon), fun hoff => ⟨(hg.firewall.off hoff).1, rfl⟩, ?_,
      hg.firewall.short⟩
    intro habsent
    cases hg.present.symm.trans habsent
  have hdisable : Triple (Does b recorded) false (fun h => Guarded active h ∧ Saved active h)
      (run .ufwDisable) (fun _ => Firewall active) (Firewall active) := by
    refine triple_firewall (fun h hh => hoff h hh) (fun h n hh => ?_) fun _ => rfl
    simp only [partialEffect]
    split
    · exact hh.1.firewall
    · exact hoff h hh
  refine htest.ifThen ((hmkdir.seq (saveFirewall_triple.seq hdisable)).conseq ?_ (fun _ _ h => h)
    fun _ h => h) (.nothing fun _ h => h.1)
  exact fun h hh => ⟨hh.1, hh.2⟩

theorem restoreFirewall_triple :
    Triple (Does b recorded) false (Firewall active) restoreFirewall.script
      (fun _ => Restored active) (Firewall active) := by
  have htest := triple_test b recorded (P := Firewall active)
    (c := .commandV "ufw") (·.tools.contains "ufw") (fun _ => rfl)
    (fun h n => by simp [partialEffect, effect]) (.inl rfl)
  have hfile := triple_test b recorded (P := Guarded active)
    (c := .testUfwState) (·.ufwState.isSome) (fun _ => rfl)
    (fun h n => by simp [partialEffect, effect]) (.inl rfl)
  have hgrep := triple_test b recorded
    (P := fun h => Guarded active h ∧ h.ufwState.isSome = true) (c := .grepUfwState)
    (fun h => h.ufwState = some "active") (fun _ => rfl)
    (fun h n => by simp [partialEffect, effect]) (.inr fun _ h => of_decide_eq_true h)
  have hcondition : Triple (Does b recorded) true (Guarded active)
      (.and (run .testUfwState) (run .grepUfwState))
      (fun ok h => Guarded active h ∧ (ok = true ↔ h.ufwState = some "active"))
      (Firewall active) := by
    refine (hfile.stopping fun _ h => h.firewall).and
      (hgrep.conseq (fun _ h => h) ?_ fun _ h => h.1.firewall) ?_
    · rintro ok h ⟨⟨hg, -⟩, rfl⟩
      exact ⟨hg, by simp⟩
    · rintro h ⟨hg, hnone⟩
      refine ⟨hg, ?_⟩
      rw [Option.isSome_eq_false_iff, Option.isNone_iff_eq_none] at hnone
      simp [hnone]
  -- the firewall is enabled exactly if it was active
  have henable : Triple (Does b recorded) false (Guarded active)
      (.ifThen (.and (run .testUfwState) (run .grepUfwState)) (run .ufwEnable) .nothing)
      (fun _ h => Guarded active h ∧ h.ufwActive = active) (Firewall active) := by
    have hon : ∀ h : Host, Guarded active h ∧ (true = true ↔ h.ufwState = some "active") →
        Guarded active { h with ufwActive := true } ∧ true = active := by
      rintro h ⟨hg, hstate⟩
      have hactive : active = true := by
        by_contra hne
        exact (hg.firewall.off (by simpa using hne)).1 (hstate.1 rfl)
      subst hactive
      refine ⟨⟨⟨fun _ => .inl (hstate.1 rfl), fun h => ?_, fun habsent => ?_, hg.firewall.short⟩,
        hg.present⟩, rfl⟩
      · cases h
      · cases hg.present.symm.trans habsent
    refine hcondition.ifThen (triple_firewall (fun h hh => hon h hh) (fun h n hh => ?_) fun _ => rfl)
      (.nothing ?_)
    · simp only [partialEffect]
      split
      · exact hh.1.firewall
      · exact (hon h hh).1.firewall
    · rintro h ⟨hg, hstate⟩
      refine ⟨hg, ?_⟩
      cases active with
      | false => exact (hg.firewall.off rfl).2
      | true =>
        rcases hg.firewall.on rfl with hsome | ⟨-, hactive⟩
        · cases hstate.2 hsome
        · exact hactive
  have hremove : Triple (Does b recorded) false (fun h => Guarded active h ∧ h.ufwActive = active)
      (run .rmUfwState) (fun _ => Restored active) (Firewall active) := by
    refine triple_firewall (fun h hh => ⟨rfl, hh.2, hh.1.firewall.short⟩) (fun h n hh => ?_)
      fun _ => rfl
    simp only [partialEffect]
    split
    · exact hh.1.firewall
    · refine ⟨fun hon => .inr ⟨rfl, hh.2.trans hon⟩, fun hoff => ⟨?_, hh.2.trans hoff⟩,
        fun habsent => ?_, hh.1.firewall.short⟩
      · exact (Option.some_ne_none _).symm
      · cases hh.1.present.symm.trans habsent
  refine htest.ifThen ((henable.seq hremove).conseq (fun h hh => ⟨hh.1, hh.2⟩) (fun _ _ h => h)
    fun _ h => h) (.nothing ?_)
  rintro h ⟨hf, habsent⟩
  obtain ⟨hnone, hactive⟩ := hf.absent habsent
  exact ⟨hnone, hactive, hf.short⟩

theorem install_firewall :
    Triple (Does b recorded) false (Firewall active) installScript (fun _ => Firewall active)
      (Firewall active) :=
  .block_around ((fetchBundle ++ [disableSwap]).map Statement.script)
    (installComponents.map Statement.script)
    ((firewall_frame b).statements Firewall.of_view (by decide)) disableFirewall_triple
    ((firewall_frame b).statements Firewall.of_view (by decide))

theorem Restored.firewall {h : Host} (hr : Restored active h) : Firewall active h := by
  refine ⟨fun hon => .inr ⟨hr.unsaved, hr.as_before.trans hon⟩,
    fun hoff => ⟨?_, hr.as_before.trans hoff⟩, fun _ => ⟨hr.unsaved, hr.as_before⟩, hr.short⟩
  exact hr.unsaved ▸ (Option.some_ne_none _).symm

theorem uninstall_firewall (skip : Bool) :
    Triple (Does b recorded) false (Firewall active) (uninstallScript skip)
      (fun _ => Restored active) (Firewall active) := by
  have hbefore : IsQuiet (writesPart firewallPart)
      (removeContainerd ++ [purgePackages, removeConf, removeModules skip]) := by
    cases skip <;> decide
  refine .block_around
    ((removeContainerd ++ [purgePackages, removeConf, removeModules skip]).map Statement.script)
    ([enableSwap, removeBundle].map Statement.script)
    ((firewall_frame b).statements Firewall.of_view hbefore) restoreFirewall_triple fun x hx => ?_
  exact ((firewall_frame b).statements Restored.of_view (by decide) x hx).stopping fun _ h => h.firewall

end FirewallTriples

/-- However often the scripts were run, and wherever they stopped: when an uninstall script has run to
its end, the firewall is as it was before. Its status fits into a pipe, and its state is found out and
recorded without failure. -/
theorem firewall_restored {b : Bundle} {h₀ h₁ h₂ : Host} {skip ok : Bool} (hfresh : h₀.ufwState = none)
    (hshort : h₀.ufwLongStatus = false) (hattempts : Attempts b recorded h₀ h₁)
    (hlast : Prog.Runs (Does b recorded) (prog false (uninstallScript skip)) h₁ (.ran ok) h₂) :
    h₂.ufwActive = h₀.ufwActive ∧ h₂.ufwState = none := by
  have hstart : Firewall h₀.ufwActive h₀ := Restored.firewall ⟨hfresh, rfl, hshort⟩
  have hbefore : Firewall h₀.ufwActive h₁ := hattempts.invariant install_firewall
    (fun skip => (uninstall_firewall skip).conseq (fun _ h => h) (fun _ _ h => h.firewall)
      fun _ h => h) hstart
  have hrestored : Restored h₀.ufwActive h₂ := (uninstall_firewall skip).run hbefore hlast
  exact ⟨hrestored.as_before, hrestored.unsaved⟩

/-! ## A host -/

/-- A bundle with one file in each of its archives. -/
def sampleBundle : Bundle where
  image := ["conf.tar", "containerd.tar"] ++ packageNames.map (· ++ ".deb")
  entries
    | .conf => ["etc/", "etc/crictl.yaml"]
    | .containerd => ["usr/local/bin/runc"]
  plain := fun tar => List.all_eq_true.1 (by cases tar <;> decide)
  defaultConfig := ["disabled_plugins = [\"cri\"]".toList]
  systemdCgroup := false
  dependencies := fun pkg => if pkg = "curl" then ["libcurl4"] else []

/-- A host with an active firewall and swap. -/
def sampleHost : Host where
  tools := ["imgpkg", "ufw"]
  fstab := ["/dev/sda1 / ext4 defaults 0 1".toList, "/swapfile none swap sw 0 0".toList]
  swaps := ["/swapfile".toList]
  ufwActive := true
  ufwLongStatus := false
  ufwState := none
  modules := []
  packages := ["openssh-server"]
  held := []
  files := ["/etc/hosts"]
  bundle := []
  containerdConfig := none
  containerdEnabled := false
  containerdRunning := false

/-- All commands succeed but one, which has this outcome and comes after `n` others. -/
def disturbedAt (n : Nat) (o : CommandOutcome) : List CommandOutcome :=
  List.replicate n default ++ [o]

/-- Execute a script on a host, as long as the outcomes are allowed. -/
def attempt (allowed : Command → CommandOutcome → Bool) (s : Script Command)
    (os : List CommandOutcome) (h : Host) : Option (Ending × Host) :=
  Prog.runChecked (execCommand sampleBundle) (fun o c _ => allowed c o) os (prog false s) h

/-- An install script that is killed after the firewall was disabled, another one that runs to its
end, and an uninstall script. -/
theorem firewall_restored_sample : ∃ h₁ h₂,
    Attempts sampleBundle recorded sampleHost h₁ ∧ h₁.ufwActive = false ∧
      Prog.Runs (Does sampleBundle recorded) (prog false (uninstallScript false)) h₁ (.ran true) h₂ ∧
      h₂.ufwActive = sampleHost.ufwActive ∧ h₂.ufwState = none := by
  have hkilled : (attempt recorded installScript (disturbedAt 12 ⟨.killed, 0⟩) sampleHost).any
      (fun r => (attempt recorded installScript [] r.2).any fun r₁ => !r₁.2.ufwActive &&
        (attempt recorded (uninstallScript false) [] r₁.2).any (·.1 = .ran true)) = true := by
    decide +kernel
  obtain ⟨⟨e, h⟩, hfirst, hrest⟩ := (Option.any_eq_true _ _).1 hkilled
  obtain ⟨⟨e₁, h₁⟩, hsecond, hrest⟩ := (Option.any_eq_true _ _).1 hrest
  obtain ⟨hactive, hrest⟩ := Bool.and_eq_true_iff.1 hrest
  obtain ⟨⟨e₂, h₂⟩, hthird, hend⟩ := (Option.any_eq_true _ _).1 hrest
  obtain rfl : e₂ = .ran true := of_decide_eq_true hend
  have hattempts : Attempts sampleBundle recorded sampleHost h₁ :=
    .install (.install (.none _) (runs_of_checked hfirst)) (runs_of_checked hsecond)
  have hlast := runs_of_checked hthird
  exact ⟨h₁, h₂, hattempts, by simpa using hactive, hlast, firewall_restored rfl rfl hattempts hlast⟩

/-- A host whose firewall has many rules. -/
def longStatusHost : Host := { sampleHost with ufwLongStatus := true }

/-- When the status of the firewall does not fit into a pipe, nothing has to fail for the firewall to
stay disabled. -/
theorem firewall_lost : ∃ h₁ h₂,
    Attempts sampleBundle recorded longStatusHost h₁ ∧
      Prog.Runs (Does sampleBundle recorded) (prog false (uninstallScript false)) h₁ (.ran true) h₂ ∧
      h₂.ufwActive ≠ longStatusHost.ufwActive := by
  have hexec : (attempt recorded installScript [] longStatusHost).any
      (fun r => (attempt recorded (uninstallScript false) [] r.2).any fun r₂ =>
        r₂.1 = .ran true && !r₂.2.ufwActive) = true := by
    decide +kernel
  obtain ⟨⟨e, h₁⟩, hfirst, hrest⟩ := (Option.any_eq_true _ _).1 hexec
  obtain ⟨⟨e₂, h₂⟩, hsecond, hend⟩ := (Option.any_eq_true _ _).1 hrest
  simp only [Bool.and_eq_true, decide_eq_true_eq, Bool.not_eq_true'] at hend
  obtain ⟨rfl, hlost⟩ := hend
  refine ⟨h₁, h₂, .install (.none _) (runs_of_checked hfirst), runs_of_checked hsecond, ?_⟩
  rw [hlost]
  exact Bool.false_ne_true

end Byoh.Properties.HostScripts
