import Byoh.Properties.HostScripts

/-!
# What is installed of a bundle, and what is left of it

* `packages_purged`: after any number of attempts, and an uninstall script that runs to its end, of the
  packages exactly those of the bundle are gone, and only curl may have come with what it depends on.
* `installed_of_unchecked`: an install script that runs to its end has done its work, if no command whose
  failure does not stop the shell failed.
-/

set_option autoImplicit false

namespace Byoh.Properties.HostScripts

open Byoh.Foundation Byoh.Foundation.Shell Byoh.Foundation.Shell.Script
open Byoh.Model.InstallScripts

theorem mem_insertAll {p : String} {names l : List String} :
    p ∈ insertAll names l ↔ p ∈ names ∨ p ∈ l := by
  rw [insertAll]
  induction names generalizing l with
  | nil => simp
  | cons q names ih =>
    rw [List.foldl_cons, ih, List.mem_insert_iff, List.mem_cons]
    tauto

/-- Nothing is required of the outcomes. -/
def anyOutcome (_ : Command) (_ : CommandOutcome) : Bool := true

/-- The commands that look for packages and purge them do not fail. -/
def purged : Command → CommandOutcome → Bool
  | .dpkgList _, o | .dpkgPurge _, o => o.status ≠ .failure
  | _, _ => true

/-! ## Packages -/

/-- The packages of the host. -/
def packagePart : Part → Bool
  | .packages => true
  | _ => false

theorem package_frame (b : Bundle) : Frame b (writesPart packagePart) Host.packages := by
  refine .of_reads b packagePart fun p hp src h => ?_
  cases p with
  | packages => cases hp
  | _ => rfl

/-- The packages that `apt-get install -y curl` installs. -/
def curlPackages (b : Bundle) : List String := "curl" :: b.dependencies "curl"

/-- No other packages are installed or purged. -/
def handlesPackages : Command → Bool
  | .dpkgInstall pkg | .dpkgPurge pkg => packageNames.contains pkg
  | .aptGetInstall pkg => pkg = "curl"
  | _ => true

/-- The host has the packages that it had, except for those of the bundle, and of others only those
that come with curl. -/
structure Derives (b : Bundle) (p₀ : List String) (h : Host) : Prop where
  kept : ∀ pkg ∈ p₀, pkg ∉ packageNames → pkg ∈ h.packages
  known : ∀ pkg ∈ h.packages, pkg ∈ p₀ ∨ pkg ∈ packageNames ∨ pkg ∈ curlPackages b

theorem Derives.of_packages {b : Bundle} {p₀ : List String} {h h' : Host} (hh : Derives b p₀ h)
    (heq : h'.packages = h.packages) : Derives b p₀ h' :=
  ⟨heq ▸ hh.kept, heq ▸ hh.known⟩

theorem Derives.of_effect {b : Bundle} {p₀ : List String} {c : Command} {h : Host}
    (hc : handlesPackages c = true) (hh : Derives b p₀ h) : Derives b p₀ (effect b h c).2 := by
  cases hquiet : writesPart packagePart c with
  | false => exact hh.of_packages ((package_frame b).done h c hquiet)
  | true =>
    cases c with
    | aptGetInstall pkg =>
      obtain rfl : pkg = "curl" := of_decide_eq_true hc
      refine ⟨fun q hq hout => mem_insertAll.2 (.inr (hh.kept q hq hout)), fun q hq => ?_⟩
      rcases mem_insertAll.1 hq with hq | hq
      · exact .inr (.inr hq)
      · exact hh.known q hq
    | dpkgInstall pkg =>
      simp only [effect]
      split
      · refine ⟨fun q hq hout => List.mem_insert_iff.2 (.inr (hh.kept q hq hout)), fun q hq => ?_⟩
        rcases List.mem_insert_iff.1 hq with rfl | hq
        · exact .inr (.inl (List.contains_iff_mem.1 hc))
        · exact hh.known q hq
      · exact hh
    | dpkgPurge pkg =>
      refine ⟨fun q hq hout => List.mem_filter.2 ⟨hh.kept q hq hout, ?_⟩,
        fun q hq => hh.known q (List.mem_of_mem_filter hq)⟩
      refine decide_eq_true fun heq => hout ?_
      rw [heq]
      exact List.contains_iff_mem.1 hc
    | _ => cases hquiet

theorem Derives.step {b : Bundle} {p₀ : List String} {allowed : Command → CommandOutcome → Bool}
    {c : Command} {h h' : Host} {status : Status} (hc : handlesPackages c = true)
    (hh : Derives b p₀ h) (hd : Does b allowed c h status h') : Derives b p₀ h' := by
  rcases hd.cases with heq | ⟨o, -, -, -, -, rfl⟩
  · exact (Prod.mk.inj heq).2 ▸ hh.of_effect hc
  · cases hquiet : writesPart packagePart c with
    | false => exact hh.of_packages ((package_frame b).part h c _ hquiet)
    | true =>
      cases c with
      | aptGetInstall | dpkgInstall | dpkgPurge =>
        simp only [partialEffect]
        split
        · exact hh
        · exact hh.of_effect hc
      | _ => cases hquiet

/-- The packages of the bundle are gone, except for those that are still to be purged. -/
def Purged (ws : List String) (h : Host) : Prop := ∀ pkg ∈ packageNames, pkg ∉ ws → pkg ∉ h.packages

theorem purgePackages_triple (b : Bundle) :
    Triple (Does b purged) false (fun _ => True) purgePackages.script (fun _ => Purged [])
      fun _ => True := by
  refine .forEach Purged (fun h _ pkg hpkg hout => absurd (List.mem_reverse.2 hpkg) hout)
    (fun w ws _ => ?_) fun _ _ h => h
  have hlist := triple_test b purged (P := Purged (w :: ws)) (c := .dpkgList w)
    (·.packages.contains w) (fun _ => rfl) (fun h n => by simp [partialEffect, effect])
    (.inr fun _ h => of_decide_eq_true h)
  -- `dpkg --purge` is tested as well, but does not fail
  have hpurge : Triple (Does b purged) true (fun h => Purged (w :: ws) h ∧ h.packages.contains w = true)
      (run (.dpkgPurge w)) (fun ok h => ok = true ∧ Purged ws h) fun _ => True := by
    refine .command ?_
    rintro h status h' ⟨hgone, -⟩ hd
    cases status with
    | success =>
      obtain ⟨-, rfl⟩ := hd.of_success
      refine ⟨rfl, fun pkg hpkg hout hmem => ?_⟩
      obtain ⟨hmem, hne⟩ := List.mem_filter.1 hmem
      exact hgone pkg hpkg (List.not_mem_cons_of_ne_of_not_mem (by simpa using hne) hout) hmem
    | failure => cases (hd.of_failure (.inr fun _ h => of_decide_eq_true h)).1
    | killed => trivial
  have hfirst : Triple (Does b purged) true (Purged (w :: ws))
      (.and (run (.dpkgList w)) (run (.dpkgPurge w))) (fun _ => Purged ws) fun _ => True := by
    refine (hlist.stopping fun _ _ => trivial).and
      (hpurge.conseq (fun _ h => h) (fun _ _ h => h.2) fun _ h => h) ?_
    rintro h ⟨hgone, habsent⟩ pkg hpkg hout
    by_cases hw : pkg = w
    · subst hw
      intro hmem
      cases (List.contains_iff_mem.2 hmem).symm.trans habsent
    · exact hgone pkg hpkg (List.not_mem_cons_of_ne_of_not_mem hw hout)
  refine hfirst.or (((package_frame b).triple (P := Purged ws) (fun h h' hview hgone => ?_)
    rfl).stopping fun _ _ => trivial) fun _ h => h
  intro pkg hpkg hout
  rw [hview]
  exact hgone pkg hpkg hout

theorem uninstall_purged (b : Bundle) (skip : Bool) :
    Triple (Does b purged) false (fun _ => True) (uninstallScript skip) (fun _ => Purged [])
      fun _ => True := by
  have hafter : IsQuiet (writesPart packagePart)
      [removeConf, removeModules skip, restoreFirewall, enableSwap, removeBundle] := by
    cases skip <;> decide
  refine .block_around (removeContainerd.map Statement.script)
    ([removeConf, removeModules skip, restoreFirewall, enableSwap, removeBundle].map Statement.script)
    (fun x _ => .keeps fun _ _ _ _ _ _ _ => trivial) (purgePackages_triple b) fun x hx => ?_
  refine ((package_frame b).statements (P := Purged []) (fun h h' hview hgone => ?_) hafter x
    hx).stopping fun _ _ => trivial
  intro pkg hpkg hout
  rw [hview]
  exact hgone pkg hpkg hout

/-! ## Removal -/

/-- After any attempts and a full uninstall, the host has the packages that it had except for those of
the bundle, and no new ones but curl with what it depends on. -/
theorem packages_purged {b : Bundle} {h₀ h₁ h₂ : Host} {skip ok : Bool}
    (hattempts : Attempts b purged h₀ h₁)
    (hlast : Prog.Runs (Does b purged) (prog false (uninstallScript skip)) h₁ (.ran ok) h₂) :
    (∀ pkg ∈ h₀.packages, pkg ∉ packageNames → pkg ∈ h₂.packages) ∧
      ∀ pkg ∈ h₂.packages, pkg ∉ packageNames ∧ (pkg ∈ h₀.packages ∨ pkg ∈ curlPackages b) := by
  have hpurged : Purged [] h₂ := (uninstall_purged b skip).run trivial hlast
  -- every command of both scripts keeps `Derives`
  have hinstall : (commands installScript).all handlesPackages = true := by decide
  have huninstall : ∀ skip, (commands (uninstallScript skip)).all handlesPackages = true := by
    intro skip
    cases skip <;> decide
  have hall : Attempts b purged h₀ h₂ := .uninstall skip hattempts hlast
  have hderives : Derives b h₀.packages h₂ :=
    hall.invariant (.keeps fun c hc _ _ _ hh => hh.step (List.all_eq_true.1 hinstall c hc))
      (fun skip => .keeps fun c hc _ _ _ hh =>
        hh.step (List.all_eq_true.1 (huninstall skip) c hc))
      ⟨fun _ hpkg _ => hpkg, fun _ hpkg => .inl hpkg⟩
  refine ⟨hderives.kept, fun pkg hpkg => ?_⟩
  have hout : pkg ∉ packageNames := fun hin => hpurged pkg hin List.not_mem_nil hpkg
  rcases hderives.known pkg hpkg with hknown | hin | hknown
  · exact ⟨hout, .inl hknown⟩
  · exact absurd hin hout
  · exact ⟨hout, .inr hknown⟩

/-- A host that gets curl and imgpkg first. -/
def bareHost : Host := { sampleHost with tools := ["ufw"] }

/-- An install script that is killed while it unpacks containerd, another one that runs to its end, and
an uninstall script: curl stays behind. -/
theorem packages_purged_sample : ∃ h₁ h₂,
    Attempts sampleBundle purged bareHost h₁ ∧ "kubelet" ∈ h₁.packages ∧
      Prog.Runs (Does sampleBundle purged) (prog false (uninstallScript true)) h₁ (.ran true) h₂ ∧
      "curl" ∈ h₂.packages ∧ "kubelet" ∉ h₂.packages ∧
      ∀ pkg ∈ h₂.packages, pkg ∈ bareHost.packages ∨ pkg ∈ ["curl", "libcurl4"] := by
  have hexec : (attempt purged installScript (disturbedAt 35 ⟨.killed, 1⟩) bareHost).any
      (fun r => (attempt purged installScript [] r.2).any fun r₁ =>
        r₁.2.packages.contains "kubelet" &&
        (attempt purged (uninstallScript true) [] r₁.2).any fun r₂ => r₂.1 = .ran true &&
          r₂.2.packages.contains "curl") = true := by
    decide +kernel
  obtain ⟨⟨e, h⟩, hfirst, hrest⟩ := (Option.any_eq_true _ _).1 hexec
  obtain ⟨⟨e₁, h₁⟩, hsecond, hrest⟩ := (Option.any_eq_true _ _).1 hrest
  obtain ⟨hinstalled, hrest⟩ := Bool.and_eq_true_iff.1 hrest
  obtain ⟨⟨e₂, h₂⟩, hthird, hend⟩ := (Option.any_eq_true _ _).1 hrest
  obtain ⟨hend, hcurl⟩ := Bool.and_eq_true_iff.1 hend
  obtain rfl : e₂ = .ran true := of_decide_eq_true hend
  have hattempts : Attempts sampleBundle purged bareHost h₁ :=
    .install (.install (.none _) (runs_of_checked hfirst)) (runs_of_checked hsecond)
  have hlast := runs_of_checked hthird
  obtain ⟨-, hpackages⟩ := packages_purged hattempts hlast
  refine ⟨h₁, h₂, hattempts, List.contains_iff_mem.1 hinstalled, hlast,
    List.contains_iff_mem.1 hcurl, fun hin => ?_, fun pkg hpkg => (hpackages pkg hpkg).2⟩
  exact (hpackages _ hin).1 (by decide)

/-! ## A host on which everything is installed -/

/-- Commands before `&&`, whose failure does not stop the shell. -/
def unchecked : List Command :=
  [.swapoff, .modprobe "overlay", .extract .conf, .daemonReload, .enableContainerd] ++
    packageNames.map .dpkgInstall

/-- A command that is not among these, or does not fail. -/
def DoesChecked (b : Bundle) (c : Command) (h : Host) (status : Status) (h' : Host) : Prop :=
  Does b anyOutcome c h status h' ∧ (c ∈ unchecked → status ≠ .failure)

/-- What the commands of the install script are for. -/
def Purpose (b : Bundle) : Command → Host → Prop
  | .dpkgInstall pkg, h => pkg ∈ h.packages
  | .aptMarkHold pkg, h => pkg ∈ h.held
  | .extract tar, h => ∀ p ∈ b.paths tar, p ∈ h.files
  | .modprobe name, h => name ∈ h.modules
  | .swapoff, h => h.swaps = []
  | .commentSwap, h => ∀ l ∈ h.fstab, isSwapLine l = true → l.head? = some '#'
  | .enableContainerd, h => h.containerdEnabled = true
  | .restartContainerd, h => h.containerdRunning = true
  | _, _ => True

/-- The commands that take something away again. -/
def undoes : Command → Bool
  | .mvImgpkg | .dpkgPurge _ | .removeEntries _ | .rmDirectory _ | .modprobeRemove _ _ | .swapon
  | .uncommentSwap | .stopContainerd | .disableContainerd => true
  | _ => false

/-- What all other commands do. -/
structure Grows (h h' : Host) : Prop where
  packages : h.packages ⊆ h'.packages
  held : h.held ⊆ h'.held
  files : h.files ⊆ h'.files
  modules : h.modules ⊆ h'.modules
  swaps : h'.swaps ⊆ h.swaps
  fstab : h'.fstab = h.fstab ∨ h'.fstab = h.fstab.map commentSwapLine
  enabled : h.containerdEnabled = true → h'.containerdEnabled = true
  running : h.containerdRunning = true → h'.containerdRunning = true

theorem Grows.refl (h : Host) : Grows h h :=
  ⟨fun _ h => h, fun _ h => h, fun _ h => h, fun _ h => h, fun _ h => h, .inl rfl, id, id⟩

theorem head_commentSwapLine {l : List Char} (hswap : isSwapLine (commentSwapLine l) = true) :
    (commentSwapLine l).head? = some '#' := by
  rw [commentSwapLine] at hswap ⊢
  split
  · rfl
  · next hno =>
    rw [if_neg hno] at hswap
    exact absurd hswap hno

theorem Purpose.done (b : Bundle) (c : Command) (h : Host) (hok : (effect b h c).1 = true) :
    Purpose b c (effect b h c).2 := by
  cases c with
  | dpkgInstall pkg =>
    simp only [effect] at hok ⊢
    split
    · exact List.mem_insert_self
    · next hmissing =>
      rw [if_neg hmissing] at hok
      cases hok
  | aptMarkHold pkg => exact List.mem_insert_self
  | extract tar =>
    simp only [effect] at hok ⊢
    split
    · exact fun p hp => mem_insertAll.2 (.inl hp)
    · next hmissing =>
      rw [if_neg hmissing] at hok
      cases hok
  | modprobe name => exact List.mem_insert_self
  | swapoff | enableContainerd | restartContainerd => rfl
  | commentSwap =>
    intro l hl hswap
    obtain ⟨l, -, rfl⟩ := List.mem_map.1 hl
    exact head_commentSwapLine hswap
  | _ => trivial

theorem grows_effect (b : Bundle) (h : Host) (c : Command) (hc : undoes c = false) :
    Grows h (effect b h c).2 := by
  cases c with
  | mvImgpkg | dpkgPurge | removeEntries | rmDirectory | modprobeRemove | swapon | uncommentSwap
  | stopContainerd | disableContainerd => cases hc
  | chmodImgpkg | imgpkgPull =>
    simp only [effect]
    split <;> exact { Grows.refl h with }
  | extract tar =>
    simp only [effect]
    split
    · exact { Grows.refl h with files := fun p hp => mem_insertAll.2 (.inr hp) }
    · exact .refl h
  | aptGetInstall pkg =>
    exact { Grows.refl h with packages := fun p hp => mem_insertAll.2 (.inr hp) }
  | dpkgInstall pkg =>
    simp only [effect]
    split
    · exact { Grows.refl h with packages := fun p hp => List.mem_insert_iff.2 (.inr hp) }
    · exact .refl h
  | downloadImgpkg | containerdConfigDefault =>
    exact { Grows.refl h with files := fun p hp => List.mem_insert_iff.2 (.inr hp) }
  | enableCri =>
    simp only [effect, Host.sedConfig]
    split <;> exact { Grows.refl h with }
  | containerdConfig =>
    simp only [effect, Host.sedConfig]
    split
    · split <;> exact { Grows.refl h with }
    · exact .refl h
  | aptMarkHold pkg => exact { Grows.refl h with held := fun p hp => List.mem_insert_iff.2 (.inr hp) }
  | modprobe name => exact { Grows.refl h with modules := fun p hp => List.mem_insert_iff.2 (.inr hp) }
  | swapoff => exact { Grows.refl h with swaps := List.nil_subset _ }
  | commentSwap => exact { Grows.refl h with fstab := .inr rfl }
  | enableContainerd => exact { Grows.refl h with enabled := fun _ => rfl }
  | restartContainerd => exact { Grows.refl h with running := fun _ => rfl }
  | _ => exact { Grows.refl h with }

theorem Does.grows {b : Bundle} {allowed : Command → CommandOutcome → Bool} {c : Command} {h h' : Host}
    {status : Status} (hc : undoes c = false) (hd : Does b allowed c h status h') : Grows h h' := by
  rcases hd.cases with heq | ⟨o, -, -, -, -, rfl⟩
  · exact (Prod.mk.inj heq).2 ▸ grows_effect b h c hc
  · cases c with
    | removeEntries | rmDirectory => cases hc
    | extract tar =>
      simp only [partialEffect]
      split
      · exact { Grows.refl h with files := fun p hp => mem_insertAll.2 (.inr hp) }
      · exact .refl h
    | containerdConfigDefault =>
      simp only [partialEffect]
      split
      · exact .refl h
      · exact { Grows.refl h with files := fun p hp => List.mem_insert_iff.2 (.inr hp) }
    | rmBundle => exact { Grows.refl h with }
    | imgpkgPull | writeUfwState =>
      simp only [partialEffect]
      split <;> exact { Grows.refl h with }
    | _ =>
      simp only [partialEffect]
      split
      · exact .refl h
      · exact grows_effect b h _ hc

theorem Purpose.mono {b : Bundle} {c : Command} {h h' : Host} (hp : Purpose b c h) (hg : Grows h h') :
    Purpose b c h' := by
  cases c with
  | dpkgInstall pkg => exact hg.packages hp
  | aptMarkHold pkg => exact hg.held hp
  | extract tar => exact fun p hin => hg.files (hp p hin)
  | modprobe name => exact hg.modules hp
  | swapoff => exact List.subset_nil.1 (hp ▸ hg.swaps)
  | commentSwap =>
    intro l hl hswap
    rcases hg.fstab with heq | heq
    · exact hp l (heq ▸ hl) hswap
    · obtain ⟨l, -, rfl⟩ := List.mem_map.1 (heq ▸ hl)
      exact head_commentSwapLine hswap
  | enableContainerd => exact hg.enabled hp
  | restartContainerd => exact hg.running hp
  | _ => trivial

/-- The configuration of containerd: the systemd cgroup driver, and the plugin `cri` is enabled. -/
def containerdToml (b : Bundle) : List (List Char) :=
  (if b.systemdCgroup then b.defaultConfig.map systemdCgroupLine else b.defaultConfig).map enableCriLine

/-- What the install script has written to the configuration of containerd. -/
def configPart : Part → Bool
  | .containerdConfig => true
  | _ => false

theorem config_frame (b : Bundle) : Frame b (writesPart configPart) Host.containerdConfig := by
  refine .of_reads b configPart fun p hp src h => ?_
  cases p with
  | containerdConfig => cases hp
  | _ => rfl

/-- Commands whose failure stops the shell have their effect when it goes on. -/
theorem triple_run {b : Bundle} {allowed : Command → CommandOutcome → Bool} {P Q : Host → Prop}
    {c : Command} (hdone : ∀ h, P h → Q (effect b h c).2) :
    Triple (Does b allowed) false P (run c) (fun _ => Q) fun _ => True := by
  refine .command fun h status h' hh hd => ?_
  cases status with
  | success =>
    obtain ⟨-, rfl⟩ := hd.of_success
    exact hdone h hh
  | failure | killed => trivial

theorem install_config (b : Bundle) (allowed : Command → CommandOutcome → Bool) :
    Triple (Does b allowed) false (fun _ => True) installScript
      (fun _ h => h.containerdConfig = some (containerdToml b)) fun _ => True := by
  refine .block_then ((fetchBundle ++ disableSwap :: disableFirewall :: installComponents.take 5).map
      Statement.script) (by simp) (fun _ _ => .keeps fun _ _ _ _ _ _ _ => trivial)
    (triple_run (Q := fun h => h.files.contains configFile = true ∧
      h.containerdConfig = some b.defaultConfig) fun h _ => ⟨?_, rfl⟩) ?_
  · exact List.contains_iff_mem.2 List.mem_insert_self
  refine .block_then [] (by simp) (fun _ hx => absurd hx List.not_mem_nil)
    (triple_run (Q := fun h => h.files.contains configFile = true ∧ h.containerdConfig =
      some (if b.systemdCgroup then b.defaultConfig.map systemdCgroupLine else b.defaultConfig))
      fun h hh => ?_) ?_
  · simp only [effect, Host.sedConfig, if_pos hh.1]
    split
    · exact ⟨hh.1, by rw [hh.2]; rfl⟩
    · exact hh
  · refine .block_around [] ((installComponents.drop 8).map Statement.script)
      (fun _ hx => absurd hx List.not_mem_nil) (triple_run fun h hh => ?_) fun x hx => ?_
    · simp only [effect, Host.sedConfig, if_pos hh.1]
      rw [hh.2]
      rfl
    · exact ((config_frame b).statements (fun h h' hview hh => hview.trans hh) (by decide) x
        hx).stopping fun _ _ => trivial

/-- The commands that have succeeded when the install script has run to its end. -/
def sureCommands : List Command :=
  (sure (fun c => !unchecked.contains c) false
    (block ((disableSwap :: disableFirewall :: installComponents).map Statement.script))).1

theorem install_sure (b : Bundle) :
    Triple (DoesChecked b) false (fun _ => True) installScript
      (fun _ h => ∀ c ∈ sureCommands, Purpose b c h) fun _ => True := by
  refine .block_append (fetchBundle.map Statement.script) (by simp)
    (fun _ _ => .keeps fun _ _ _ _ _ _ _ => trivial) ?_
  refine (Triple.sure (φ := Purpose b) (fun c => !unchecked.contains c) []
    (fun d hd c t status t' hp hspec => ?_) (fun c t t' hspec => ?_) fun c t t' hc hspec => ?_).conseq
    (fun _ _ _ hc => absurd hc List.not_mem_nil) (fun _ _ h => h.1) fun _ h => h
  · have hall : (commands (block ((disableSwap :: disableFirewall :: installComponents).map
      Statement.script))).all (fun c => !undoes c) = true := by decide
    exact hp.mono (hspec.1.grows (by simpa using List.all_eq_true.1 hall d hd))
  · obtain ⟨hok, rfl⟩ := hspec.1.of_success
    exact Purpose.done b c t hok
  · exact hspec.2 (List.contains_iff_mem.1 (by simpa using hc)) rfl

/-- A host on which the install script has done its work. -/
structure Installed (b : Bundle) (h : Host) : Prop where
  packages : ∀ pkg ∈ packageNames, pkg ∈ h.packages ∧ pkg ∈ h.held
  files : ∀ tar, ∀ p ∈ b.paths tar, p ∈ h.files
  modules : "overlay" ∈ h.modules ∧ "br_netfilter" ∈ h.modules
  swap : h.swaps = []
  fstab : ∀ l ∈ h.fstab, isSwapLine l = true → l.head? = some '#'
  config : h.containerdConfig = some (containerdToml b)
  containerd : h.containerdEnabled = true ∧ h.containerdRunning = true

/-- An install script that has run to its end has done its work, if the commands whose failure it does
not notice did not fail. -/
theorem installed_of_unchecked {b : Bundle} {h h' : Host} {ok : Bool}
    (hrun : Prog.Runs (DoesChecked b) (prog false installScript) h (.ran ok) h') : Installed b h' := by
  have hconfig : h'.containerdConfig = some (containerdToml b) :=
    (install_config b anyOutcome).run trivial (hrun.mono fun _ _ _ _ hd => hd.1)
  have hp : ∀ c ∈ sureCommands, Purpose b c h' := (install_sure b).run trivial hrun
  have hpackages : ∀ pkg ∈ packageNames,
      .dpkgInstall pkg ∈ sureCommands ∧ .aptMarkHold pkg ∈ sureCommands := by decide
  have hfiles : ∀ tar, .extract tar ∈ sureCommands := by
    intro tar
    cases tar <;> decide
  exact ⟨fun pkg hpkg => ⟨hp _ (hpackages pkg hpkg).1, hp _ (hpackages pkg hpkg).2⟩,
    fun tar => hp _ (hfiles tar),
    ⟨hp (.modprobe "overlay") (by decide), hp (.modprobe "br_netfilter") (by decide)⟩,
    hp .swapoff (by decide), hp .commentSwap (by decide), hconfig,
    ⟨hp .enableContainerd (by decide), hp .restartContainerd (by decide)⟩⟩

/-- An undisturbed install script on a host that fetches imgpkg first. -/
theorem installed_of_unchecked_sample : ∃ h',
    Prog.Runs (DoesChecked sampleBundle) (prog false installScript)
        { sampleHost with tools := ["wget", "ufw"] } (.ran true) h' ∧
      Installed sampleBundle h' := by
  have hexec : (Prog.runChecked (execCommand sampleBundle)
      (fun o c h => !unchecked.contains c || (execCommand sampleBundle o c h).1 ≠ .failure) []
      (prog false installScript) { sampleHost with tools := ["wget", "ufw"] }).any (·.1 = .ran true) =
        true := by
    decide +kernel
  obtain ⟨⟨e, h'⟩, hfirst, hend⟩ := (Option.any_eq_true _ _).1 hexec
  obtain rfl : e = .ran true := of_decide_eq_true hend
  have hrun : Prog.Runs (DoesChecked sampleBundle) (prog false installScript)
      { sampleHost with tools := ["wget", "ufw"] } (.ran true) h' := by
    refine Prog.runs_of_runChecked (fun o c h hcheck => ⟨⟨o, rfl, rfl⟩, fun hc => ?_⟩) hfirst
    simpa [hc] using hcheck
  exact ⟨h', hrun, installed_of_unchecked hrun⟩

end Byoh.Properties.HostScripts
