import Byoh.Protocol.SystemPhases

/-!
# Wake-ups of installer configurations

A configuration is reconciled again when its machine changes. Which configurations belong to a machine
is decided twice: `GetOwnerByoMachine` takes the first owner reference with the kind and the group of a
ByoMachine and reads the machine of that name, and `hasOwnerReferenceFrom` looks for any reference
with the kind and the name. The second is weaker (`findOwner_some`), so a configuration whose owner is
the machine is always among the requests (`mapFunc_misses_none`).
-/

set_option autoImplicit false

namespace Byoh.Properties

open Byoh.Foundation Byoh.Model Byoh.Protocol Byoh.Model.K8sInstallerConfigReconciler

/-- `GetOwnerByoMachine` resolves the owner of the configuration to the machine `m`, in the world `w`
and with the outcomes `os`. -/
def resolvesTo (w : World) (os : List Outcome) (m : ByoMachine) (config : InstallerConfig) : Bool :=
  match (Prog.run exec os (getOwnerByoMachine config) w).1 with
  | .ok (some owner) => owner.key = m.key
  | _ => false

/-- The owner that is found is in the list, with its kind. -/
theorem findOwner_some {kind ownerGroup name : String} {refs : List OwnerReference}
    (h : findOwner kind ownerGroup refs = .ok (some name)) :
    hasOwnerReferenceFrom refs kind name = true := by
  induction refs with
  | nil => cases h
  | cons ref refs ih =>
    rw [hasOwnerReferenceFrom, List.any_cons, Bool.or_eq_true]
    rw [findOwner] at h
    cases hgroup : parseGroup ref.apiVersion with
    | error e =>
      rw [hgroup] at h
      cases h
    | ok g =>
      rw [hgroup] at h
      dsimp only at h
      split at h
      · rename_i hmatch
        cases h
        simp only [Bool.and_eq_true, decide_eq_true_eq] at hmatch
        left
        simp only [hmatch.1, decide_true, Bool.and_self]
      · right
        exact ih h

/-- What `GetOwnerByoMachine` returns is the machine of the namespace of the configuration that has the
name of the owner found. -/
theorem getOwnerByoMachine_reads (w : World) (config : InstallerConfig) :
    Prog.Ensures exec (fun _ => True) (getOwnerByoMachine config) w fun r _ =>
      ∀ owner, r = .ok (some owner) →
        ∃ name, findOwner "ByoMachine" group config.ownerReferences = .ok (some name) ∧
          w.machines.lookup ⟨config.ns, name⟩ = some owner := by
  rw [getOwnerByoMachine]
  cases hfind : findOwner "ByoMachine" group config.ownerReferences with
  | error e =>
    refine .ret ?_
    intro owner howner
    cases howner
  | ok found =>
    cases found with
    | none =>
      refine .ret ?_
      intro owner howner
      cases howner
    | some name =>
      refine .call trivial fun o _ => ?_
      rw [exec]
      cases hread : readObject o (w.machines.lookup ⟨config.ns, name⟩) with
      | error e =>
        refine .ret ?_
        intro owner howner
        cases howner
      | ok owner =>
        refine .ret ?_
        intro owner' howner
        cases howner
        exact ⟨name, rfl, readObject_ok hread⟩

theorem resolvesTo_owned {w : World} (hkeyed : MachinesKeyed w) {os : List Outcome} {m : ByoMachine}
    {config : InstallerConfig} (h : resolvesTo w os m config = true) :
    hasOwnerReferenceFrom config.ownerReferences "ByoMachine" m.name = true := by
  rw [resolvesTo] at h
  split at h
  · rename_i owner hrun
    obtain ⟨name, hfind, hlookup⟩ :=
      getOwnerByoMachine_reads w config os (fun _ _ => trivial) owner hrun
    have hname : name = m.name := by
      calc name = owner.key.name := by rw [hkeyed _ _ hlookup]
        _ = m.key.name := by rw [of_decide_eq_true h]
    rw [← hname]
    exact findOwner_some hfind
  · cases h

/-- Every configuration of the list whose owner is the machine gets its request, in the order of the
list; every request is for a configuration of the list, and none is made twice. -/
theorem mapFunc_misses_none (m : ByoMachine) (ref : ObjectReference)
    (href : m.installerRef = some ref) (hversion : ref.apiVersion = groupVersion)
    (hkind : ref.kind = "K8sInstallerConfigTemplate") (configs : List InstallerConfig)
    (w : World) (hkeyed : MachinesKeyed w) (os : List Outcome) :
    let requests := byoMachineToK8sInstallerConfigMapFunc m (.ok configs)
    List.Sublist ((configs.filter (resolvesTo w os m)).map requestFor) requests ∧
      List.Sublist requests (configs.map requestFor) ∧
      ((configs.map requestFor).Nodup → requests.Nodup) := by
  intro requests
  have hrequests : requests = (configs.filter fun config =>
      hasOwnerReferenceFrom config.ownerReferences "ByoMachine" m.name).map requestFor := by
    rw [show requests = byoMachineToK8sInstallerConfigMapFunc m (.ok configs) from rfl,
      byoMachineToK8sInstallerConfigMapFunc, href]
    exact if_pos ⟨hversion, hkind⟩
  have hlisted : List.Sublist requests (configs.map requestFor) := by
    rw [hrequests]
    exact List.filter_sublist.map _
  refine ⟨?_, hlisted, hlisted.nodup⟩
  rw [hrequests]
  refine List.Sublist.map _ (List.monotone_filter_right configs ?_)
  intro config hresolves
  exact resolvesTo_owned hkeyed hresolves

/-- The configuration of a machine, and one without an owner. -/
theorem mapFunc_misses_none_small :
    let owner (name : String) : OwnerReference :=
      { apiVersion := groupVersion, kind := "ByoMachine", name := name }
    let config (name : String) (refs : List OwnerReference) : InstallerConfig :=
      { apiVersion := groupVersion, kind := "K8sInstallerConfig", ns := "default", name := name
        ownerReferences := refs }
    let configs := [config "c1" [owner "m1"], config "c2" []]
    let m := Small.machine "m1"
    let w := Small.world [] ["m1"]
    MachinesKeyed w ∧ configs.map (resolvesTo w [] m) = [true, false] ∧
      List.Sublist ((configs.filter (resolvesTo w [] m)).map requestFor)
        (byoMachineToK8sInstallerConfigMapFunc m (.ok configs)) := by
  intro owner config configs m w
  have hkeyed : MachinesKeyed w := by
    intro k m' hm'
    obtain ⟨name, rfl, rfl⟩ := Small.machines_lookup hm'
    rfl
  exact ⟨hkeyed, by decide +kernel,
    (mapFunc_misses_none m _ rfl rfl rfl configs w hkeyed []).1⟩

end Byoh.Properties
