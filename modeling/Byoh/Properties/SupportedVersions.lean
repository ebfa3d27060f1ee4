import Byoh.Model.Installer

/-!
# The support check and the choice of the bundle

`NewInstaller` first asks `ListK8s` whether there is a version for the OS of a host, and then takes
the bundle from `ResolveOsToOsBundle`. `ListK8s` looks for a bundle of that very name before it goes
through the filters; `ResolveOsToOsBundle` goes through the filters only. They agree when each bundle
name is resolved to itself by the filters (`SelfResolving`), whatever the match of regular
expressions is.

- `Built.lookup` and `Built.registered`: what a registry holds, in terms of the calls that built it.
- `support_check_agrees`: the agreement, that the registry of `GetSupportedRegistry` has the
  property, and what it means for `NewInstaller`.
-/

set_option autoImplicit false

namespace Byoh.Properties

open Byoh.Foundation Byoh.Model Byoh.Model.Installer

/-! ## Registries by their calls -/

/-- The versions that the calls add for a bundle, in the order of the calls. -/
def versionsOf (calls : List RegistryCall) (bundle : String) : List String :=
  calls.filterMap fun
    | .addBundleInstaller os k8sVer => if os = bundle then some k8sVer else none
    | _ => none

/-- The calls register the bundle. -/
def Registers (calls : List RegistryCall) (bundle : String) : Prop :=
  ∃ k8sVer, .addBundleInstaller bundle k8sVer ∈ calls

theorem versionsOf_concat (calls : List RegistryCall) (c : RegistryCall) (bundle : String) :
    versionsOf (calls ++ [c]) bundle = versionsOf calls bundle ++ versionsOf [c] bundle :=
  List.filterMap_append

theorem versionsOf_ne_nil {calls : List RegistryCall} {bundle : String} :
    versionsOf calls bundle ≠ [] ↔ Registers calls bundle := by
  constructor
  · intro hne
    obtain ⟨k8sVer, hmem⟩ := List.exists_mem_of_ne_nil _ hne
    obtain ⟨c, hc, hversion⟩ := List.mem_filterMap.1 hmem
    cases c with
    | addBundleInstaller os ver =>
      simp only [Option.ite_none_right_eq_some] at hversion
      obtain ⟨rfl, -⟩ := hversion
      exact ⟨ver, hc⟩
    | addOsFilter osFilter osBundle => cases hversion
    | addK8sFilter k8sFilter => cases hversion
  · rintro ⟨k8sVer, hc⟩
    exact List.ne_nil_of_mem (List.mem_filterMap.2 ⟨_, hc, if_pos rfl⟩)

/-- What a registry holds after calls: for each bundle the versions that were added, none of them
twice, and no entry for a bundle without versions. -/
structure Built (calls : List RegistryCall) (r : Registry) : Prop where
  lookup : ∀ bundle, r.osk8sInstallerMap.lookup bundle =
    if versionsOf calls bundle = [] then none else some (versionsOf calls bundle)
  nodup : ∀ bundle, (versionsOf calls bundle).Nodup

section Calls

variable {calls : List RegistryCall} {r r' : Registry}

theorem Built.lookup_getD (h : Built calls r) (bundle : String) :
    (r.osk8sInstallerMap.lookup bundle).getD [] = versionsOf calls bundle := by
  rw [h.lookup]
  split
  next hnil => rw [hnil]; rfl
  · rfl

/-- A call that does not touch the bundles. -/
theorem Built.of_same (h : Built calls r) {c : RegistryCall}
    (hnone : ∀ bundle, versionsOf [c] bundle = [])
    (hmap : r'.osk8sInstallerMap = r.osk8sInstallerMap) : Built (calls ++ [c]) r' where
  lookup bundle := by
    rw [hmap, versionsOf_concat, hnone, List.append_nil]
    exact h.lookup bundle
  nodup bundle := by
    rw [versionsOf_concat, hnone, List.append_nil]
    exact h.nodup bundle

theorem versionsOf_addBundleInstaller (os k8sVer bundle : String) :
    versionsOf [.addBundleInstaller os k8sVer] bundle = if os = bundle then [k8sVer] else [] := by
  by_cases h : os = bundle
  · simp [versionsOf, h]
  · simp [versionsOf, h]

/-- A call that does not panic. -/
theorem Built.call (h : Built calls r) {c : RegistryCall} (hcall : r.call c = some r') :
    Built (calls ++ [c]) r' := by
  cases c with
  | addOsFilter osFilter osBundle =>
    cases hcall
    exact h.of_same (fun _ => rfl) rfl
  | addK8sFilter k8sFilter =>
    cases hcall
    exact h.of_same (fun _ => rfl) rfl
  | addBundleInstaller os k8sVer =>
    simp only [Registry.call, Registry.addBundleInstaller, h.lookup_getD] at hcall
    split at hcall
    · cases hcall
    next hnew =>
      cases hcall
      constructor
      · intro bundle
        rw [versionsOf_concat, versionsOf_addBundleInstaller]
        by_cases hbundle : os = bundle
        · subst hbundle
          rw [AList.lookup_insert, if_pos rfl, if_neg (by simp)]
        · rw [AList.lookup_insert_ne (Ne.symm hbundle), if_neg hbundle, List.append_nil]
          exact h.lookup bundle
      · intro bundle
        rw [versionsOf_concat, versionsOf_addBundleInstaller]
        by_cases hbundle : os = bundle
        · subst hbundle
          rw [if_pos rfl]
          rw [← List.concat_eq_append]
          exact (h.nodup os).concat hnew
        · rw [if_neg hbundle, List.append_nil]
          exact h.nodup bundle

/-- Calls that do not panic, one after the other. -/
theorem built_of_build (h : Registry.build calls = some r) : Built calls r := by
  -- the last call is made on the registry of the calls before it
  induction calls using List.reverseRecOn generalizing r with
  | nil =>
    cases h
    exact ⟨fun _ => rfl, fun _ => List.nodup_nil⟩
  | append_singleton calls c ih =>
    rw [Registry.build, List.foldlM_append, Option.bind_eq_bind, Option.bind_eq_some_iff] at h
    obtain ⟨r₁, hr₁, hcall⟩ := h
    rw [List.foldlM_cons, Option.bind_eq_bind, Option.bind_eq_some_iff] at hcall
    obtain ⟨r₂, hcall, hr⟩ := hcall
    cases hr
    exact (ih hr₁).call hcall

end Calls

/-! ## The two lookups -/

/-- The first OS filter that matches the name of a bundle is a filter for that bundle. -/
def SelfResolving (matched : String → String → Bool) (calls : List RegistryCall) (r : Registry) :
    Prop :=
  ∀ bundle, Registers calls bundle → ∃ osFilter, r.firstFilter matched bundle = some (osFilter, bundle)

section Lookups

variable {matched : String → String → Bool} {calls : List RegistryCall} {r : Registry} {os : String}

/-- `ListK8s` lists the versions of the bundle to which `ResolveOsToOsBundle` resolves the OS. -/
theorem listK8sBy_eq (hbuilt : Built calls r) (hself : SelfResolving matched calls r)
    (hne : r.listK8sBy matched os ≠ []) :
    r.listK8sBy matched os = versionsOf calls (r.resolveBy matched os) := by
  rw [Registry.listK8sBy] at hne ⊢
  cases hlookup : r.osk8sInstallerMap.lookup os with
  | none =>
    -- not the name of a bundle, so the filters decide in both functions
    exact hbuilt.lookup_getD _
  | some k8sMap =>
    -- the name of a bundle, which its filter resolves to itself
    have hversions : versionsOf calls os = k8sMap := by
      rw [← hbuilt.lookup_getD os, hlookup]
      rfl
    rw [hlookup] at hne
    have hregisters : Registers calls os := by
      rw [← versionsOf_ne_nil, hversions]
      exact hne
    obtain ⟨osFilter, hfirst⟩ := hself os hregisters
    have hresolve : r.resolveBy matched os = os := by
      rw [Registry.resolveBy, hfirst]
    rw [hresolve, hversions]

theorem registers_resolveBy (hbuilt : Built calls r) (hself : SelfResolving matched calls r)
    (hne : r.listK8sBy matched os ≠ []) : Registers calls (r.resolveBy matched os) := by
  rw [← versionsOf_ne_nil, ← listK8sBy_eq hbuilt hself hne]
  exact hne

end Lookups

/-! ## The supported registry -/

/-- The calls of `GetSupportedRegistry`. -/
def supportedCalls : List RegistryCall :=
  [ .addBundleInstaller "Ubuntu_20.04.1_x86-64" "v1.31.*",
    .addBundleInstaller "Ubuntu_22.04_x86-64" "v1.31.*",
    .addK8sFilter "v1.31.*",
    .addOsFilter "Ubuntu_20.04.*_x86-64" "Ubuntu_20.04.1_x86-64",
    .addOsFilter "Ubuntu_22.04.*_x86-64" "Ubuntu_22.04_x86-64" ]

theorem registers_supportedCalls {bundle : String} :
    Registers supportedCalls bundle ↔
      bundle = "Ubuntu_20.04.1_x86-64" ∨ bundle = "Ubuntu_22.04_x86-64" := by
  simp [Registers, supportedCalls, exists_or]

theorem selfResolving_supported {r : Registry} (hr : getSupportedRegistry = some r) :
    SelfResolving Text.matchString supportedCalls r := by
  cases hr
  intro bundle hregisters
  rcases registers_supportedCalls.1 hregisters with rfl | rfl
  · exact ⟨"Ubuntu_20.04.*_x86-64", by decide⟩
  · exact ⟨"Ubuntu_22.04.*_x86-64", by decide⟩

/-- The filter for Ubuntu 22.04. -/
def filter22_04 : String × String := ("Ubuntu_22.04.*_x86-64", "Ubuntu_22.04_x86-64")

/-- A bundle of the supported registry is for Ubuntu 22.04 when the filter is. -/
theorem contains22_04_iff {r : Registry} {os : String} (hr : getSupportedRegistry = some r)
    (hregisters : Registers supportedCalls (r.resolveOsToOsBundle os)) :
    Text.contains (r.resolveOsToOsBundle os) "Ubuntu_22.04" = true ↔
      r.firstFilter Text.matchString os = some filter22_04 := by
  cases hr
  rw [Registry.resolveOsToOsBundle, Registry.resolveBy] at hregisters ⊢
  cases hfirst : Registry.firstFilter Text.matchString _ os with
  | none =>
    rw [hfirst] at hregisters
    exact absurd (registers_supportedCalls.1 hregisters) (by decide)
  | some fbp =>
    -- the filter is one of the two that the registry has
    have hmem := List.mem_of_find?_eq_some hfirst
    simp only [Registry.addOsFilter, Registry.addK8sFilter, List.nil_append, List.cons_append,
      List.mem_cons, List.not_mem_nil, or_false] at hmem
    rcases hmem with rfl | rfl
    · decide
    · decide

/-! ## The installers differ -/

/-- The segments before the containerd configuration, and those after it. -/
theorem installTemplate_split : commonUbuntuInstallTemplate = commonUbuntuInstallTemplate.take 65 ++
    ([.field .containerdConfig] ++ commonUbuntuInstallTemplate.drop 66) := rfl

theorem installTemplate_before :
    .field .containerdConfig ∉ commonUbuntuInstallTemplate.take 65 := by
  decide

theorem installTemplate_after :
    .field .containerdConfig ∉ commonUbuntuInstallTemplate.drop 66 := by
  decide

/-- A script is longer by the containerd configuration. -/
theorem install_length (arch bundleAddrs containerdConfig : String) (skip : Bool) :
    (newBaseUbuntuInstaller arch bundleAddrs containerdConfig skip).install.length =
      (newBaseUbuntuInstaller arch bundleAddrs "" skip).install.length +
        (escape containerdConfig).length := by
  have hother : ∀ template : List Segment, .field .containerdConfig ∉ template →
      execute (scriptData arch bundleAddrs containerdConfig) skip template =
        execute (scriptData arch bundleAddrs "") skip template := by
    intro template hnot
    refine execute_congr skip fun f hf => ?_
    cases f with
    | containerdConfig => exact absurd hf hnot
    | _ => rfl
  have hfield : ∀ config, execute (scriptData arch bundleAddrs config) skip
      [.field .containerdConfig] = escape config := fun config => by
    simp [execute, scriptData, String.join]
  rw [newBaseUbuntuInstaller, newBaseUbuntuInstaller, installTemplate_split]
  simp only [execute_append, String.length_append, hfield, hother _ installTemplate_before,
    hother _ installTemplate_after]
  rw [show escape "" = "" from rfl, String.length_empty]
  omega

theorem newUbuntu22_04Installer_ne (arch bundleAddrs : String) (skip : Bool) :
    newUbuntu22_04Installer arch bundleAddrs skip ≠ newUbuntu20_04Installer arch bundleAddrs skip := by
  intro heq
  have hlength := congrArg (fun i => i.install.length) heq
  simp only [newUbuntu22_04Installer, newUbuntu20_04Installer] at hlength
  rw [install_length] at hlength
  exact absurd (Nat.add_eq_left.1 hlength) (by decide)

/-! ## The theorem -/

section NewInstaller

variable {osDist arch k8sVersion repoAddr : String} {skip : Bool} {i : K8sInstaller}

/-- What `NewInstaller` has looked up when it succeeds. -/
theorem newInstaller_eq_ok (h : newInstaller osDist arch k8sVersion repoAddr skip = .ok i) :
    ∃ r, getSupportedRegistry = some r ∧ r.listK8s (osArch osDist arch) ≠ [] ∧
      i = if Text.contains (r.resolveOsToOsBundle (osArch osDist arch)) "Ubuntu_22.04" then
          newUbuntu22_04Installer arch
            (getBundleAddr repoAddr (r.resolveOsToOsBundle (osArch osDist arch)) k8sVersion) skip
        else newUbuntu20_04Installer arch
          (getBundleAddr repoAddr (r.resolveOsToOsBundle (osArch osDist arch)) k8sVersion) skip := by
  unfold newInstaller at h
  split at h
  · cases h
  next r hr =>
    split at h
    · cases h
    next hlist =>
      rw [List.isEmpty_iff] at hlist
      exact ⟨r, hr, hlist, (Exit.ok.inj h).symm⟩

/-- The bundle of a successful `NewInstaller` is registered. -/
theorem registers_of_listK8s {r : Registry} {os : String} (hr : getSupportedRegistry = some r)
    (hlist : r.listK8s os ≠ []) : Registers supportedCalls (r.resolveOsToOsBundle os) :=
  registers_resolveBy (built_of_build hr) (selfResolving_supported hr) hlist

end NewInstaller

/-- The support check and the choice of the bundle agree.

In every registry that was built without a panic and resolves its bundles to themselves, an OS for
which `ListK8s` returns versions, in any order, is resolved to a registered bundle with exactly
these versions. The supported registry is one of these. So a successful `NewInstaller` uses a
registered bundle, and makes an installer for Ubuntu 22.04 exactly when the first filter that
matches is the one for 22.04. -/
theorem support_check_agrees :
    (∀ (matched : String → String → Bool) (calls : List RegistryCall) (r : Registry),
      Registry.build calls = some r → SelfResolving matched calls r →
      ∀ (os : String) (versions : List String),
        versions.Perm (r.listK8sBy matched os) → versions ≠ [] →
          Registers calls (r.resolveBy matched os) ∧
            versions.Perm (versionsOf calls (r.resolveBy matched os))) ∧
    (∃ r, getSupportedRegistry = some r ∧ Registry.build supportedCalls = some r ∧
      SelfResolving Text.matchString supportedCalls r) ∧
    ∀ (osDist arch k8sVersion repoAddr : String) (skip : Bool) (i : K8sInstaller),
      newInstaller osDist arch k8sVersion repoAddr skip = .ok i →
        ∃ r bundle, getSupportedRegistry = some r ∧
          r.resolveOsToOsBundle (osArch osDist arch) = bundle ∧
          Registers supportedCalls bundle ∧ bundle ≠ "" ∧
          (i = newUbuntu22_04Installer arch (getBundleAddr repoAddr bundle k8sVersion) skip ∨
            i = newUbuntu20_04Installer arch (getBundleAddr repoAddr bundle k8sVersion) skip) ∧
          (i = newUbuntu22_04Installer arch (getBundleAddr repoAddr bundle k8sVersion) skip ↔
            r.firstFilter Text.matchString (osArch osDist arch) = some filter22_04) := by
  refine ⟨?_, ?_, ?_⟩
  · intro matched calls r hbuild hself os versions hperm hne
    have hbuilt := built_of_build hbuild
    have hlist : r.listK8sBy matched os ≠ [] := by
      intro hnil
      rw [hnil] at hperm
      exact hne hperm.eq_nil
    refine ⟨registers_resolveBy hbuilt hself hlist, ?_⟩
    rw [← listK8sBy_eq hbuilt hself hlist]
    exact hperm
  · exact ⟨_, rfl, rfl, selfResolving_supported rfl⟩
  · intro osDist arch k8sVersion repoAddr skip i hi
    obtain ⟨r, hr, hlist, rfl⟩ := newInstaller_eq_ok hi
    have hregisters := registers_of_listK8s hr hlist
    refine ⟨r, _, hr, rfl, hregisters, ?_, ?_⟩
    · intro hempty
      rw [hempty] at hregisters
      exact absurd (registers_supportedCalls.1 hregisters) (by decide)
    · rw [← contains22_04_iff hr hregisters]
      split
      next hcontains => exact ⟨.inl rfl, fun _ => hcontains, fun _ => rfl⟩
      next hnot =>
        refine ⟨.inr rfl, fun heq => ?_, fun hcontains => absurd hcontains hnot⟩
        exact absurd heq.symm (newUbuntu22_04Installer_ne _ _ _)

/-- A host with Ubuntu 22.04 gets the installer for it, with the bundle of the filter. -/
theorem support_check_agrees_jammy :
    newInstaller "Ubuntu 22.04.3 LTS" "amd64" "v1.31.2" "registry" false =
      .ok (newUbuntu22_04Installer "amd64"
        (getBundleAddr "registry" "Ubuntu_22.04_x86-64" "v1.31.2") false) := by
  have hsupported : Supported "Ubuntu 22.04.3 LTS" "amd64" := ⟨_, rfl, by decide +kernel⟩
  obtain ⟨i, hi⟩ := newInstaller_ok_of_supported hsupported "v1.31.2" "registry" false
  obtain ⟨r, bundle, hr, hbundle, -, -, -, hiff⟩ := support_check_agrees.2.2 _ _ _ _ _ i hi
  cases hr
  have hresolve : bundle = "Ubuntu_22.04_x86-64" := by
    rw [← hbundle]
    decide +kernel
  rw [hi, hiff.2 (by decide +kernel), hresolve]

end Byoh.Properties
