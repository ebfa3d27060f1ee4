import Byoh.Properties.HostScripts
import Mathlib.Data.List.TakeWhile

/-!
# Swap on a host

The install script disables swap and comments the swap lines of `/etc/fstab` out; the uninstall script
is to undo both.

* `fstab_restored_iff`: after any number of attempts, and an uninstall script that runs to its end,
  `/etc/fstab` is as it was before the first attempt exactly if none of its swap lines was commented
  out then. Lines that were are activated.
* `swap_stays_off`: the devices themselves are not used again. The uninstall script runs `swapon -a`
  while the lines are still commented out.
-/

set_option autoImplicit false

namespace Byoh.Properties.HostScripts

open Byoh.Foundation Byoh.Foundation.Shell Byoh.Foundation.Shell.Script
open Byoh.Model.InstallScripts

/-! ## Lines -/

/-- The number of comment signs in front of a line. -/
def hashes (line : List Char) : Nat := (line.takeWhile (· = '#')).length

/-- The line without them. -/
def body (line : List Char) : List Char := line.dropWhile (· = '#')

@[simp] theorem hashes_cons (line : List Char) : hashes ('#' :: line) = hashes line + 1 := by
  simp [hashes]

@[simp] theorem body_cons (line : List Char) : body ('#' :: line) = body line := by
  simp [body]

/-- A line is its comment signs and its body. -/
theorem eq_of_hashes_body {l l' : List Char} (hn : hashes l = hashes l') (hb : body l = body l') :
    l = l' := by
  have hsplit : ∀ line : List Char, line = List.replicate (hashes line) '#' ++ body line := by
    intro line
    have hall : line.takeWhile (· = '#') = List.replicate (hashes line) '#' :=
      List.eq_replicate_iff.2 ⟨rfl, fun c hc => by simpa using List.mem_takeWhile_imp hc⟩
    rw [← hall, body, List.takeWhile_append_dropWhile]
  rw [hsplit l, hsplit l', hn, hb]

theorem hashes_dropHash (line : List Char) : hashes (dropHash line) = hashes line - 1 := by
  unfold dropHash
  split
  · simp
  · next h =>
    cases line with
    | nil => rfl
    | cons c line =>
      have hc : c ≠ '#' := fun hc => h line (by rw [hc])
      simp [hashes, hc]

theorem body_dropHash (line : List Char) : body (dropHash line) = body line := by
  unfold dropHash
  split
  · simp
  · rfl

/-- A match of `\sswap\s` does not begin with a comment sign. -/
theorem isSwapLine_cons (line : List Char) : isSwapLine ('#' :: line) = isSwapLine line := by
  have hhead : startsWithSwap ('#' :: line) = false := by
    unfold startsWithSwap
    split
    · next heq =>
      cases heq
      rfl
    · rfl
  rw [isSwapLine, List.tails_cons, List.any_cons, hhead, Bool.false_or]
  rfl

theorem isSwapLine_body (line : List Char) : isSwapLine (body line) = isSwapLine line := by
  induction line with
  | nil => rfl
  | cons c line ih =>
    by_cases hc : c = '#'
    · subst hc
      rw [body_cons, ih, isSwapLine_cons]
    · rw [body, List.dropWhile_cons_of_neg (by simpa using hc)]

/-- The line `l` was `l₀` before the first attempt. -/
structure Derived (l₀ l : List Char) : Prop where
  same_body : body l = body l₀
  few_hashes : hashes l ≤ max 1 (hashes l₀)
  other : isSwapLine l₀ = false → l = l₀

namespace Derived

variable {l₀ l : List Char}

theorem isSwapLine_eq (h : Derived l₀ l) : isSwapLine l = isSwapLine l₀ := by
  rw [← isSwapLine_body, h.same_body, isSwapLine_body]

theorem comment (h : Derived l₀ l) : Derived l₀ (commentSwapLine l) := by
  rw [commentSwapLine, h.isSwapLine_eq]
  split
  · next hswap =>
    refine ⟨?_, ?_, fun hno => ?_⟩
    · rw [body_cons, body_dropHash, h.same_body]
    · rw [hashes_cons, hashes_dropHash]
      have := h.few_hashes
      omega
    · cases hswap.symm.trans hno
  · exact h

theorem uncomment (h : Derived l₀ l) : Derived l₀ (uncommentSwapLine l) := by
  rw [uncommentSwapLine, h.isSwapLine_eq]
  split
  · next hswap =>
    refine ⟨?_, ?_, fun hno => ?_⟩
    · rw [body_dropHash, h.same_body]
    · rw [hashes_dropHash]
      have := h.few_hashes
      omega
    · cases hswap.symm.trans hno
  · exact h

/-- Without its comment sign the line is as it was, unless it is a swap line that was commented
out. -/
theorem uncomment_eq_iff (h : Derived l₀ l) :
    uncommentSwapLine l = l₀ ↔ (isSwapLine l₀ = true → hashes l₀ = 0) := by
  rw [uncommentSwapLine, h.isSwapLine_eq]
  split
  · next hswap =>
    have hcount := h.few_hashes
    constructor
    · rintro heq -
      have hn : hashes l - 1 = hashes l₀ := by rw [← hashes_dropHash, heq]
      omega
    · intro hzero
      refine eq_of_hashes_body ?_ (by rw [body_dropHash, h.same_body])
      rw [hashes_dropHash]
      have := hzero hswap
      omega
  · next hno =>
    exact ⟨fun _ hswap => absurd hswap hno, fun _ => h.other (by simpa using hno)⟩

end Derived

/-- The same for a whole file. -/
theorem uncomment_file_iff {f₀ f : List (List Char)} (h : List.Forall₂ Derived f₀ f) :
    f.map uncommentSwapLine = f₀ ↔ ∀ l ∈ f₀, isSwapLine l = true → hashes l = 0 := by
  induction h with
  | nil => simp
  | cons hl _ ih => rw [List.map_cons, List.cons.injEq, hl.uncomment_eq_iff, ih, List.forall_mem_cons]

/-- A line that is commented out is no entry. -/
theorem swapEntry_cons (line : List Char) : swapEntry ('#' :: line) = none := by
  have hfields : ∃ first rest, fields ('#' :: line) = ('#' :: first) :: rest := by
    rw [fields, List.splitOnP_cons_eq_if_modifyHead, if_neg (by decide)]
    cases hsplit : line.splitOnP fun c => c = ' ' || c = '\t' with
    | nil => exact absurd hsplit (List.splitOnP_ne_nil _ _)
    | cons first rest => exact ⟨first, _, List.filter_cons_of_pos (by simp)⟩
  obtain ⟨first, rest, hfields⟩ := hfields
  unfold swapEntry
  rw [hfields]
  split
  · next heq =>
    cases heq
    exact if_neg fun h => h.1 rfl
  · rfl

/-! ## Scripts -/

/-- `/etc/fstab` and the devices in use. -/
def swapPart : Part → Bool
  | .fstab | .swaps => true
  | _ => false

/-- The commands that write `/etc/fstab`, and those that change the devices in use. -/
def isSwapCommand : Command → Bool := writesPart swapPart

/-- The lines of `/etc/fstab` and the devices in use. -/
def swapView (h : Host) : List (List Char) × List (List Char) := (h.fstab, h.swaps)

theorem swap_frame (b : Bundle) : Frame b isSwapCommand swapView := by
  refine .of_reads b swapPart fun p hp src h => ?_
  cases p with
  | fstab | swaps => cases hp
  | _ => rfl

section Scripts

variable {b : Bundle} {allowed : Command → CommandOutcome → Bool} {tested : Bool}
  {f₀ : List (List Char)} {c : Command} {h : Host}

/-- `sed -i` and the commands for swap have their effect or none. -/
theorem Does.swap_cases {h' : Host} {status : Status} (hc : isSwapCommand c = true)
    (hd : Does b allowed c h status h') : h' = h ∨ h' = (effect b h c).2 := by
  rcases hd.cases with heq | ⟨o, -, -, -, -, rfl⟩
  · exact .inr (Prod.mk.inj heq).2
  · cases c with
    | commentSwap | uncommentSwap | swapoff | swapon =>
      simp only [partialEffect]
      split
      · exact .inl rfl
      · exact .inr rfl
    | _ => cases hc

/-- The lines are derived from those before the first attempt. -/
def Traced (f₀ : List (List Char)) (h : Host) : Prop := List.Forall₂ Derived f₀ h.fstab

theorem Traced.of_view (h h' : Host) (hview : swapView h' = swapView h) (ht : Traced f₀ h) :
    Traced f₀ h' := by
  rw [Traced, (Prod.mk.inj hview).1]
  exact ht

theorem Traced.command {h' : Host} {status : Status} (ht : Traced f₀ h)
    (hd : Does b allowed c h status h') : Traced f₀ h' := by
  by_cases hc : isSwapCommand c = true
  · rcases hd.swap_cases hc with rfl | rfl
    · exact ht
    · cases c with
      | commentSwap => exact List.forall₂_map_right_iff.2 (ht.imp fun _ _ hl => hl.comment)
      | uncommentSwap => exact List.forall₂_map_right_iff.2 (ht.imp fun _ _ hl => hl.uncomment)
      | swapoff | swapon => exact ht
      | _ => cases hc
  · have hquiet : isSwapCommand c = false := by simpa using hc
    exact ht.of_view h h' (hd.keeps swapView ((swap_frame b).done h c hquiet)
      fun n => (swap_frame b).part h c n hquiet)

/-- Both scripts keep this, and any script over the same commands does. -/
theorem traced_triple (s : Script Command) :
    Triple (Does b allowed) tested (Traced f₀) s (fun _ => Traced f₀) (Traced f₀) :=
  .keeps fun _ _ _ _ _ ht hd => ht.command hd

theorem Attempts.traced {h₀ : Host} (hattempts : Attempts b allowed h₀ h) : Traced h₀.fstab h := by
  refine hattempts.invariant (traced_triple _) (fun _ => traced_triple _) ?_
  exact List.forall₂_same.2 fun l _ => ⟨rfl, le_max_right _ _, fun _ => rfl⟩

/-- Commands for swap, where a failure stops the shell or does not occur. -/
theorem triple_swap {P Q X : Host → Prop} (hc : isSwapCommand c = true)
    (hfails : tested = false ∨ ∀ o, allowed c o = true → o.status ≠ .failure)
    (hdone : ∀ h, P h → Q (effect b h c).2) (hstop : ∀ h, P h → X h ∧ X (effect b h c).2) :
    Triple (Does b allowed) tested P (run c) (fun ok h => ok = true ∧ Q h) X := by
  refine .command fun h status h' hh hd => ?_
  have hX : X h' := by
    rcases hd.swap_cases hc with rfl | rfl
    · exact (hstop _ hh).1
    · exact (hstop _ hh).2
  cases status with
  | success =>
    obtain ⟨-, rfl⟩ := hd.of_success
    exact ⟨rfl, hdone h hh⟩
  | failure =>
    rcases hfails with rfl | hfails
    · exact hX
    · have hsucceeds : (effect b h c).1 = true := by
        cases c with
        | commentSwap | uncommentSwap | swapoff | swapon => rfl
        | _ => cases hc
      cases hsucceeds.symm.trans (hd.of_failure (.inr hfails)).1
  | killed => exact hX

/-- The commands before `&&` do not fail. -/
def swapped : Command → CommandOutcome → Bool
  | .swapoff, o | .swapon, o => o.status ≠ .failure
  | _, _ => true

/-- The swap lines are without their comment sign. -/
def Uncommented (f₀ : List (List Char)) (h : Host) : Prop :=
  ∃ f, List.Forall₂ Derived f₀ f ∧ h.fstab = f.map uncommentSwapLine

theorem enableSwap_triple :
    Triple (Does b swapped) false (Traced f₀) enableSwap.script (fun _ => Uncommented f₀)
      fun _ => True := by
  have hon : Triple (Does b swapped) true (Traced f₀) (run .swapon)
      (fun ok h => ok = true ∧ Traced f₀ h) fun _ => True :=
    triple_swap rfl (.inr fun _ h => of_decide_eq_true h) (fun _ h => h) fun _ _ => ⟨trivial, trivial⟩
  have hsed : Triple (Does b swapped) false (Traced f₀) (run .uncommentSwap)
      (fun ok h => ok = true ∧ Uncommented f₀ h) fun _ => True :=
    triple_swap rfl (.inl rfl) (fun h ht => ⟨h.fstab, ht, rfl⟩) fun _ _ => ⟨trivial, trivial⟩
  exact hon.and_ok hsed

theorem uninstall_fstab (skip : Bool) :
    Triple (Does b swapped) false (Traced f₀) (uninstallScript skip) (fun _ => Uncommented f₀)
      fun _ => True := by
  refine .block_around
    ((removeContainerd ++ [purgePackages, removeConf, removeModules skip, restoreFirewall]).map
      Statement.script) ([removeBundle].map Statement.script) (fun x _ => ?_) enableSwap_triple ?_
  · exact (traced_triple x).stopping fun _ _ => trivial
  · intro x hx
    refine ((swap_frame b).statements (fun h h' hview hh => ?_) (by decide) x hx).stopping fun _ _ => trivial
    obtain ⟨f, hf, heq⟩ := hh
    exact ⟨f, hf, (Prod.mk.inj hview).1.trans heq⟩

end Scripts

/-- After any attempts and a full uninstall, `/etc/fstab` is what it was, exactly if none of its swap
lines was commented out at first. -/
theorem fstab_restored_iff {b : Bundle} {h₀ h₁ h₂ : Host} {skip ok : Bool}
    (hattempts : Attempts b swapped h₀ h₁)
    (hlast : Prog.Runs (Does b swapped) (prog false (uninstallScript skip)) h₁ (.ran ok) h₂) :
    h₂.fstab = h₀.fstab ↔ ∀ l ∈ h₀.fstab, isSwapLine l = true → l.head? ≠ some '#' := by
  obtain ⟨f, hderived, heq⟩ := (uninstall_fstab skip).run hattempts.traced hlast
  rw [heq, uncomment_file_iff hderived]
  refine forall₂_congr fun l _ => imp_congr_right fun _ => ?_
  cases l with
  | nil => simp [hashes]
  | cons c l => simp [hashes, List.takeWhile_cons]

/-! ## The devices -/

section Devices

variable {b : Bundle} {f₀ : List (List Char)}

/-- No device is in use, and `swapon -a` would take none. -/
structure Off (h : Host) : Prop where
  unused : h.swaps = []
  no_entry : ∀ l ∈ h.fstab, swapEntry l = none

theorem Off.of_view (h h' : Host) (hview : swapView h' = swapView h) (hoff : Off h) : Off h' := by
  obtain ⟨hfstab, hswaps⟩ := Prod.mk.inj hview
  exact ⟨hswaps.trans hoff.unused, hfstab ▸ hoff.no_entry⟩

theorem disableSwap_triple (hentries : ∀ l ∈ f₀, swapEntry l ≠ none → isSwapLine l = true) :
    Triple (Does b swapped) false (Traced f₀) disableSwap.script (fun _ => Off) fun _ => True := by
  have hswapoff : Triple (Does b swapped) true (Traced f₀) (run .swapoff)
      (fun ok h => ok = true ∧ Traced f₀ h ∧ h.swaps = []) fun _ => True :=
    triple_swap rfl (.inr fun _ h => of_decide_eq_true h) (fun _ h => ⟨h, rfl⟩)
      fun _ _ => ⟨trivial, trivial⟩
  have hsed : Triple (Does b swapped) false (fun h => Traced f₀ h ∧ h.swaps = [])
      (run .commentSwap) (fun ok h => ok = true ∧ Off h) fun _ => True := by
    refine triple_swap rfl (.inl rfl) (fun h hh => ⟨hh.2, fun l hl => ?_⟩) fun _ _ => ⟨trivial, trivial⟩
    obtain ⟨before, hbefore, rfl⟩ := List.mem_map.1 hl
    rw [commentSwapLine]
    split
    · exact swapEntry_cons _
    · next hno =>
      -- the line has never been written, so it is one of the first lines
      obtain ⟨i, hi, hget⟩ := List.mem_iff_getElem.1 hbefore
      have hi₀ : i < f₀.length := hh.1.length_eq ▸ hi
      have hderived := List.forall₂_iff_get.1 hh.1 |>.2 i hi₀ hi
      rw [List.get_eq_getElem, List.get_eq_getElem, hget] at hderived
      have hno₀ : isSwapLine f₀[i] = false := hderived.isSwapLine_eq ▸ by simpa using hno
      rw [hderived.other hno₀]
      by_contra hsome
      cases hno₀.symm.trans (hentries _ (List.getElem_mem hi₀) hsome)
  exact hswapoff.and_ok hsed

theorem install_off (hentries : ∀ l ∈ f₀, swapEntry l ≠ none → isSwapLine l = true) :
    Triple (Does b swapped) false (Traced f₀) installScript (fun _ => Off) fun _ => True := by
  refine .block_around (fetchBundle.map Statement.script)
    ((disableFirewall :: installComponents).map Statement.script) (fun x _ => ?_)
    (disableSwap_triple hentries) fun x hx => ?_
  · exact (traced_triple x).stopping fun _ _ => trivial
  · exact ((swap_frame b).statements Off.of_view (by decide) x hx).stopping fun _ _ => trivial

theorem enableSwap_off :
    Triple (Does b swapped) false Off enableSwap.script (fun _ h => h.swaps = []) fun _ => True := by
  have hon : Triple (Does b swapped) true Off (run .swapon) (fun ok h => ok = true ∧ Off h)
      fun _ => True := by
    refine triple_swap rfl (.inr fun _ h => of_decide_eq_true h) (fun h hoff => ⟨?_, hoff.no_entry⟩)
      fun _ _ => ⟨trivial, trivial⟩
    have hnone : h.fstab.filterMap swapEntry = [] := List.filterMap_eq_nil_iff.2 hoff.no_entry
    change h.swaps ∪ h.fstab.filterMap swapEntry = []
    rw [hnone, hoff.unused]
    rfl
  have hsed : Triple (Does b swapped) false Off (run .uncommentSwap)
      (fun ok h => ok = true ∧ h.swaps = []) fun _ => True :=
    triple_swap rfl (.inl rfl) (fun _ hoff => hoff.unused) fun _ _ => ⟨trivial, trivial⟩
  exact hon.and_ok hsed

theorem uninstall_off (skip : Bool) :
    Triple (Does b swapped) false Off (uninstallScript skip) (fun _ h => h.swaps = [])
      fun _ => True := by
  have hbefore : IsQuiet isSwapCommand
      (removeContainerd ++ [purgePackages, removeConf, removeModules skip, restoreFirewall]) := by
    cases skip <;> decide
  refine .block_around
    ((removeContainerd ++ [purgePackages, removeConf, removeModules skip, restoreFirewall]).map
      Statement.script) ([removeBundle].map Statement.script) (fun x hx => ?_) enableSwap_off ?_
  · exact ((swap_frame b).statements Off.of_view hbefore x hx).stopping fun _ _ => trivial
  · intro x hx
    exact ((swap_frame b).statements (P := fun h => h.swaps = [])
      (fun h h' hview hh => (Prod.mk.inj hview).2.trans hh) (by decide) x hx).stopping fun _ _ => trivial

end Devices

/-- A host on which the install script ran to its end does not get its swap back: the uninstall script
runs `swapon -a` before it brings the lines of `/etc/fstab` back. -/
theorem swap_stays_off {b : Bundle} {h₀ h₁ h₂ h₃ : Host} {skip ok ok' : Bool}
    (hentries : ∀ l ∈ h₀.fstab, swapEntry l ≠ none → isSwapLine l = true)
    (hattempts : Attempts b swapped h₀ h₁)
    (hinstall : Prog.Runs (Does b swapped) (prog false installScript) h₁ (.ran ok) h₂)
    (huninstall : Prog.Runs (Does b swapped) (prog false (uninstallScript skip)) h₂ (.ran ok') h₃) :
    h₃.swaps = [] := by
  have hoff : Off h₂ := (install_off hentries).run hattempts.traced hinstall
  exact (uninstall_off skip).run hoff huninstall

/-- The first install script is killed in the middle of the packages; another one and the uninstall
script run to their ends. `/etc/fstab` is restored, but the swap file is not in use. -/
theorem swap_lost_sample : ∃ h₁ h₂ h₃,
    Attempts sampleBundle swapped sampleHost h₁ ∧
      Prog.Runs (Does sampleBundle swapped) (prog false installScript) h₁ (.ran true) h₂ ∧
      Prog.Runs (Does sampleBundle swapped) (prog false (uninstallScript true)) h₂ (.ran true) h₃ ∧
      sampleHost.swaps ≠ [] ∧ h₃.swaps = [] := by
  have hexec : (attempt swapped installScript (disturbedAt 18 ⟨.killed, 0⟩) sampleHost).any
      (fun r => (attempt swapped installScript [] r.2).any fun r₁ => r₁.1 = .ran true &&
        (attempt swapped (uninstallScript true) [] r₁.2).any (·.1 = .ran true)) = true := by
    decide +kernel
  obtain ⟨⟨e, h₁⟩, hfirst, hrest⟩ := (Option.any_eq_true _ _).1 hexec
  obtain ⟨⟨e₁, h₂⟩, hsecond, hrest⟩ := (Option.any_eq_true _ _).1 hrest
  obtain ⟨hend, hrest⟩ := Bool.and_eq_true_iff.1 hrest
  obtain ⟨⟨e₂, h₃⟩, hthird, hend'⟩ := (Option.any_eq_true _ _).1 hrest
  obtain rfl : e₁ = .ran true := of_decide_eq_true hend
  obtain rfl : e₂ = .ran true := of_decide_eq_true hend'
  have hattempts : Attempts sampleBundle swapped sampleHost h₁ :=
    .install (.none _) (runs_of_checked hfirst)
  have hinstall := runs_of_checked hsecond
  have huninstall := runs_of_checked hthird
  exact ⟨h₁, h₂, h₃, hattempts, hinstall, huninstall, by decide,
    swap_stays_off (by decide) hattempts hinstall huninstall⟩

/-- A host whose swap line is commented out. -/
def commentedHost : Host :=
  { sampleHost with fstab := ["#/swapfile none swap sw 0 0".toList], swaps := [] }

/-- A swap line that the administrator had commented out is active after the uninstall script. -/
theorem fstab_activated : ∃ h₁ h₂,
    Attempts sampleBundle swapped commentedHost h₁ ∧
      Prog.Runs (Does sampleBundle swapped) (prog false (uninstallScript true)) h₁ (.ran true) h₂ ∧
      h₂.fstab ≠ commentedHost.fstab := by
  have hexec : (attempt swapped installScript [] commentedHost).any
      (fun r => (attempt swapped (uninstallScript true) [] r.2).any (·.1 = .ran true)) = true := by
    decide +kernel
  obtain ⟨⟨e, h₁⟩, hfirst, hrest⟩ := (Option.any_eq_true _ _).1 hexec
  obtain ⟨⟨e₁, h₂⟩, hsecond, hend⟩ := (Option.any_eq_true _ _).1 hrest
  obtain rfl : e₁ = .ran true := of_decide_eq_true hend
  have hattempts : Attempts sampleBundle swapped commentedHost h₁ :=
    .install (.none _) (runs_of_checked hfirst)
  have hlast := runs_of_checked hsecond
  refine ⟨h₁, h₂, hattempts, hlast, fun heq => ?_⟩
  exact (fstab_restored_iff hattempts hlast).1 heq _ List.mem_cons_self (by decide) rfl

end Byoh.Properties.HostScripts
