import Byoh.Model.ByoClusterController
import Byoh.Model.System
import Byoh.Protocol.ConfigSteps

/-!
# A ByoCluster outlives its machines

The ByoCluster controller removes its finalizer once no machine carries the cluster label with the
name of the ByoCluster. Machines carry the name of the Cluster, though, which owns the ByoCluster and
may be named differently. A ByoCluster outlives its machines exactly if this question does not overlook
any of them (`cluster_outlives_machines`), as when the names agree.
-/

set_option autoImplicit false

namespace Byoh.Properties

open Byoh.Foundation Byoh.Model Byoh.Protocol Byoh.Model.ByoClusterReconciler

/-- The ByoCluster `k` is there and holds its finalizer; the machines are those of `w`. -/
structure ClusterHeld (k : NamespacedName) (w w' : World) : Prop where
  machines : w'.machines = w.machines
  held : ∃ c, w'.byoClusters.lookup k = some c ∧ clusterFinalizer ∈ c.finalizers

section Held

variable {k : NamespacedName} {w w' : World} {b a : ByoCluster}

theorem ClusterHeld.set (h : ClusterHeld k w w') {c : ByoCluster}
    (hc : clusterFinalizer ∈ c.finalizers) : ClusterHeld k w (w'.setByoCluster k c) where
  machines := h.machines
  held := by
    have hne : c.finalizers.isEmpty = false := by
      cases hf : c.finalizers with
      | nil => simp [hf] at hc
      | cons _ _ => rfl
    refine ⟨c, ?_, hc⟩
    simp [World.setByoCluster, hne]

/-- A patch that does not change finalizers. -/
theorem ClusterHeld.patch (h : ClusterHeld k w w') (hkey : a.key = k)
    (hsame : a.finalizers = b.finalizers) :
    Prog.Ensures exec (fun _ => True) (patchByoCluster b a) w' fun _ w'' => ClusterHeld k w w'' := by
  subst hkey
  have hstatus : ∀ {w₁} (e₂ : Option ApiError), ClusterHeld a.key w w₁ →
      Prog.Ensures exec (fun _ => True) ((sendIf (b.ready ≠ a.ready)
        (call (.patchByoClusterStatus a.key b a))).bind fun e₃ => .ret ((e₂.or e₃).map Err.api)) w₁
        fun _ w'' => ClusterHeld a.key w w'' := by
    intro w₁ e₂ h₁
    refine ensures_sendIf (fun _ => .call trivial fun o _ => .ret ?_) fun _ => .ret h₁
    obtain ⟨c, hc, hf⟩ := h₁.held
    rcases writeObject_total o w₁ (w₁.byoClusters.lookup a.key)
      (fun cur => w₁.setByoCluster a.key (b.mergeStatus a cur)) with ⟨cur, hcur, hw⟩ | ⟨e, hw, -⟩
    · rw [show exec o (.patchByoClusterStatus a.key b a) w₁ = _ from hw]
      cases hc.symm.trans hcur
      exact h₁.set hf
    · rw [show exec o (.patchByoClusterStatus a.key b a) w₁ = _ from hw]
      exact h₁
  refine ensures_sendIf (fun _ => .call trivial fun o _ => hstatus _ ?_) fun _ => hstatus _ h
  obtain ⟨c, hc, hf⟩ := h.held
  rcases writeObject_cases o w' (w'.byoClusters.lookup a.key) (fun cur =>
    if addsFinalizer cur.deletionTimestamp cur.finalizers (b.merge a cur).finalizers
    then .error .other else .ok (w'.setByoCluster a.key (b.merge a cur))) with
    ⟨cur, w₁, -, hcur, hset, hw⟩ | ⟨e, hw, -⟩
  · rw [show exec o (.patchByoCluster a.key b a) w' = _ from hw]
    cases hc.symm.trans hcur
    split at hset
    · cases hset
    · cases hset
      refine h.set ?_
      rw [ByoCluster.merge, hsame, mergeField_self]
      exact hf
  · rw [show exec o (.patchByoCluster a.key b a) w' = _ from hw]
    exact h

/-- The part of a reconcile before the patch: it changes nothing on the server, and gives up the
finalizer only under deletion, when no machine carries the label with the name of the ByoCluster. -/
theorem reconcileCluster_held (b : ByoCluster) (hf : clusterFinalizer ∈ b.finalizers) (w : World) :
    GoM.Ensures exec (fun _ => True) reconcileCluster b w fun _ b' w' => w' = w ∧ b'.key = b.key ∧
      (b'.finalizers = b.finalizers ∨
        b.deletionTimestamp = true ∧ machinesInCluster w b.ns b.name = []) := by
  refine .get_bind ?_
  split
  case isTrue hdeleted =>
    refine .get_bind (.call_bind trivial fun o _ => ?_)
    cases hr : (exec o (.listByoMachines b.ns b.name) w).1 with
    | error e => exact .throw ⟨rfl, rfl, .inl rfl⟩
    | ok ms =>
      have hms : ms = machinesInCluster w b.ns b.name := by
        simp only [exec] at hr
        split at hr
        · exact (Except.ok.inj hr).symm
        · cases hr
      dsimp only
      split
      case isTrue => exact .pure ⟨rfl, rfl, .inl rfl⟩
      case isFalse hnone =>
        have hempty : ms = [] := by simpa using hnone
        exact .modify_bind (.pure ⟨rfl, rfl, .inr ⟨hdeleted, hms.symm.trans hempty⟩⟩)
  case isFalse =>
    refine .modify_bind (.modify_bind (.modify_bind (.pure ⟨rfl, ?_, .inl ?_⟩)))
    · split <;> rfl
    · split <;> exact if_pos hf

/-- No patch of a ByoCluster touches machines. -/
theorem patchByoCluster_machines (b a : ByoCluster) (hw : w'.machines = w.machines) :
    Prog.Ensures exec (fun _ => True) (patchByoCluster b a) w' fun _ w'' =>
      w''.machines = w.machines := by
  refine ensures_sendIf (fun _ => .call trivial fun o _ => ?_) fun _ => ?_
  · have hw₁ := (exec_machines o w' (c := .patchByoCluster a.key b a) (by simp [Call.writes])).trans hw
    refine ensures_sendIf (fun _ => .call trivial fun o' _ => .ret ?_) fun _ => .ret hw₁
    exact (exec_machines o' _ (by simp [Call.writes])).trans hw₁
  · refine ensures_sendIf (fun _ => .call trivial fun o' _ => .ret ?_) fun _ => .ret hw
    exact (exec_machines o' _ (by simp [Call.writes])).trans hw

/-- Reconciles of the ByoCluster `b` ask for the machines that are left: it is under deletion, and its
owner is there and not paused. -/
structure AsksForMachines (w : World) (b : ByoCluster) (owner : String) : Prop where
  owned : findOwnerCluster b.ownerReferences = .ok (some owner)
  unpaused : ∃ cluster, w.clusters.lookup ⟨b.ns, owner⟩ = some cluster ∧
    isPaused cluster b.annotations = false
  deleted : b.deletionTimestamp = true

/-- What a reconcile of the ByoCluster `b` may do: it keeps the finalizer, or it asked for machines and
there are none with its name. -/
def MayRemove (k : NamespacedName) (b : ByoCluster) (w w' : World) : Prop :=
  ClusterHeld k w w' ∨ w'.machines = w.machines ∧ machinesInCluster w b.ns b.name = [] ∧
    ∃ owner, AsksForMachines w b owner

/-- The part of a reconcile behind the deferred patch. -/
theorem deferred_mayRemove {owner : String} (hheld : ClusterHeld k w w) (hkey : b.key = k)
    (hf : clusterFinalizer ∈ b.finalizers)
    (howner : b.deletionTimestamp = true → AsksForMachines w b owner) :
    GoM.Ensures exec (fun _ => True)
      (GoM.deferred reconcileCluster (fun c => patchByoCluster b c)) b w fun _ _ w' =>
        MayRemove k b w w' := by
  refine .deferred ((reconcileCluster_held b hf w).mono ?_)
  rintro exit b' w' ⟨rfl, hkey', hsame | ⟨hdeleted, hnone⟩⟩
  · exact (hheld.patch (hkey'.trans hkey) hsame).mono fun _ _ h => .inl h
  · exact (patchByoCluster_machines b b' rfl).mono fun _ _ h =>
      .inr ⟨h, hnone, owner, howner hdeleted⟩

/-- One reconcile of a ByoCluster that holds its finalizer. -/
theorem reconcile_mayRemove (hb : w.byoClusters.lookup k = some b) (hkey : b.key = k)
    (hf : clusterFinalizer ∈ b.finalizers) :
    Prog.Ensures exec (fun _ => True) (reconcile k) w fun _ w' => MayRemove k b w w' := by
  have hheld : ClusterHeld k w w := ⟨rfl, b, hb, hf⟩
  refine .call trivial fun o _ => ?_
  cases hr : (exec o (.getByoCluster k) w).1 with
  | error e => cases e <;> exact .ret (.inl hheld)
  | ok b₀ =>
    obtain rfl : b₀ = b := Option.some.inj ((readObject_ok hr).symm.trans hb)
    rw [Prog.ret_bind]
    refine .bind ?_
    unfold getOwnerCluster
    cases howned : findOwnerCluster b₀.ownerReferences with
    | error e => exact .ret (.ret (.inl hheld))
    | ok name =>
      cases name with
      | none => exact .ret (.ret (.inl hheld))
      | some name =>
        refine .call trivial fun o' _ => ?_
        cases hcluster : (exec o' (.getCluster ⟨b₀.ns, name⟩) _).1 with
        | error e => exact .ret (.ret (.inl hheld))
        | ok cluster =>
          refine .ret ?_
          dsimp only
          split
          · exact .ret (.inl hheld)
          · rename_i hpaused
            have hasks : b₀.deletionTimestamp = true → AsksForMachines w b₀ name := fun hdeleted =>
              ⟨howned, ⟨cluster, readObject_ok hcluster, Bool.eq_false_iff.2 hpaused⟩, hdeleted⟩
            exact .bind (Prog.Ensures.mono (deferred_mayRemove hheld hkey hf hasks)
              fun _ _ h => .ret h)

/-- A patch that leaves out the finalizer, when its call succeeds. -/
theorem patchByoCluster_removes (hb : w.byoClusters.lookup b.key = some b)
    (hf : clusterFinalizer ∈ b.finalizers) :
    Prog.Ensures exec Succeeds (patchByoCluster b { b with
        finalizers := removeFinalizer b.finalizers clusterFinalizer }) w fun _ w' =>
      ∀ b', w'.byoClusters.lookup b.key = some b' → clusterFinalizer ∉ b'.finalizers := by
  set fs := removeFinalizer b.finalizers clusterFinalizer with hfs
  have hgone : clusterFinalizer ∉ fs := by simp [hfs, removeFinalizer]
  have hne : b.finalizers ≠ fs := fun heq => hgone (heq ▸ hf)
  have hadds : addsFinalizer b.deletionTimestamp b.finalizers fs = false := by
    simp only [addsFinalizer, hfs, removeFinalizer, Bool.and_eq_false_iff, List.any_eq_false]
    exact .inr fun f hmem => by simpa using List.mem_of_mem_filter hmem
  have hmerge : b.merge { b with finalizers := fs } b = { b with finalizers := fs } := by
    simp [ByoCluster.merge, mergeField_self, mergeField_before]
  refine ensures_sendIf (fun _ => .call succeeds_default fun o ho => ?_) fun hsame => ?_
  · refine ensures_sendIf (fun hready => ?_) fun _ => .ret ?_
    · simp at hready
    · intro b' hb'
      simp only [exec, ByoCluster.key] at hb hb'
      simp only [writeObject, ho.2, if_true, hb, hmerge, hadds, Bool.false_eq_true, if_false,
        World.setByoCluster] at hb'
      split at hb'
      · rw [AList.lookup_erase] at hb'
        cases hb'
      · rw [AList.lookup_insert] at hb'
        cases hb'
        exact hgone
  · simp [hne] at hsame

/-- A reconcile that asks for machines, finds none with the name of the ByoCluster, and whose calls
succeed, removes the finalizer. -/
theorem reconcile_removes {owner : String} (hb : w.byoClusters.lookup k = some b) (hkey : b.key = k)
    (hf : clusterFinalizer ∈ b.finalizers) (hasks : AsksForMachines w b owner)
    (hnone : machinesInCluster w b.ns b.name = []) :
    Prog.Ensures exec Succeeds (reconcile k) w fun _ w' =>
      ∀ b', w'.byoClusters.lookup k = some b' → clusterFinalizer ∉ b'.finalizers := by
  subst hkey
  obtain ⟨cluster, hcluster, hpaused⟩ := hasks.unpaused
  have hdeferred : GoM.Ensures exec Succeeds
      (GoM.deferred reconcileCluster (fun c => patchByoCluster b c)) b w fun _ _ w' =>
        ∀ b', w'.byoClusters.lookup b.key = some b' → clusterFinalizer ∉ b'.finalizers := by
    refine .deferred (.get_bind ?_)
    rw [if_pos hasks.deleted]
    refine .get_bind (.call_bind succeeds_default fun o ho => ?_)
    rw [exec, if_pos ho.1, hnone]
    exact .modify_bind (.pure (patchByoCluster_removes hb hf))
  refine .call succeeds_default fun o ho => ?_
  rw [exec, hb, readObject_succeeds ho, Prog.ret_bind]
  refine .bind ?_
  simp only [getOwnerCluster, hasks.owned]
  refine .call succeeds_default fun o' ho' => ?_
  rw [exec, hcluster, readObject_succeeds ho', Prog.ret_bind]
  refine .ret ?_
  simp only [hpaused, Bool.false_eq_true, if_false]
  exact .bind (Prog.Ensures.mono hdeferred fun _ _ h => .ret h)

end Held

theorem machinesInCluster_eq_nil {w : World} {ns name : String} : machinesInCluster w ns name = [] ↔
    ∀ k m, w.machines.lookup k = some m → m.ns = ns → m.labels.get .clusterName ≠ some name := by
  simp only [machinesInCluster, List.filter_eq_nil_iff, List.mem_map, Bool.and_eq_true,
    decide_eq_true_eq, not_and]
  constructor
  · intro hnone k m hm
    exact hnone m ⟨⟨k, m⟩, AList.mem_lookup_iff.1 hm, rfl⟩
  · rintro hnone m ⟨⟨k, m⟩, hmem, rfl⟩
    exact hnone k m (AList.mem_lookup_iff.2 hmem)

/-- Whatever the outcomes of its calls: a reconcile removes the finalizer of the ByoCluster only when
no machine of the namespace carries the cluster label with the name of the owner. -/
def OutlivesMachines (k : NamespacedName) (w : World) (b : ByoCluster) : Prop :=
  ∀ os, (∀ b', (Prog.run exec os (reconcile k) w).2.byoClusters.lookup k = some b' →
      clusterFinalizer ∉ b'.finalizers) →
    ∀ owner, findOwnerCluster b.ownerReferences = .ok (some owner) →
      ∀ k' m, (Prog.run exec os (reconcile k) w).2.machines.lookup k' = some m → m.ns = b.ns →
        m.labels.get .clusterName ≠ some owner

/-- When reconciles of the ByoCluster ask for machines and there are none with its own name, then
there are none with the name of its owner. -/
def NoneOverlooked (w : World) (b : ByoCluster) : Prop :=
  ∀ owner, AsksForMachines w b owner → machinesInCluster w b.ns b.name = [] →
    machinesInCluster w b.ns owner = []

/-- No machine is overlooked if the ByoCluster has the name of its owner. -/
theorem noneOverlooked_of_name {w : World} {b : ByoCluster}
    (hname : ∀ owner, findOwnerCluster b.ownerReferences = .ok (some owner) → b.name = owner) :
    NoneOverlooked w b := by
  intro owner hasks hnone
  rw [← hname owner hasks.owned]
  exact hnone

/-- A ByoCluster outlives its machines exactly if its reconciles overlook none of them. -/
theorem cluster_outlives_machines (w : World) (k : NamespacedName) (b : ByoCluster)
    (hb : w.byoClusters.lookup k = some b) (hkey : b.key = k)
    (hfinalizer : clusterFinalizer ∈ b.finalizers) :
    OutlivesMachines k w b ↔ NoneOverlooked w b := by
  constructor
  · intro houtlives owner hasks hnone
    -- the run in which every call succeeds
    have hremoved := reconcile_removes hb hkey hfinalizer hasks hnone [] (fun _ h => by cases h)
    have hrest := houtlives [] hremoved owner hasks.owned
    rcases reconcile_mayRemove hb hkey hfinalizer [] (fun _ _ => trivial) with hheld | ⟨hsame, -⟩
    · obtain ⟨c, hc, hf⟩ := hheld.held
      exact absurd hf (hremoved c hc)
    · rw [hsame] at hrest
      exact machinesInCluster_eq_nil.2 hrest
  · intro hnone os hremoved owner howner
    rcases reconcile_mayRemove hb hkey hfinalizer os (fun _ _ => trivial) with
      hheld | ⟨hsame, hlisted, owner', hasks⟩
    · obtain ⟨c, hc, hf⟩ := hheld.held
      exact absurd hf (hremoved c hc)
    · cases hasks.owned.symm.trans howner
      rw [hsame]
      exact machinesInCluster_eq_nil.1 (hnone owner hasks hlisted)

/-! ## A ByoCluster with a name of its own -/

/-- A ByoCluster under deletion, owned by the cluster of the small world. -/
def deletedCluster (name : String) : ByoCluster :=
  { ns := "default", name := name, finalizers := [clusterFinalizer], deletionTimestamp := true
    ownerReferences :=
      [{ apiVersion := "cluster.x-k8s.io/v1beta1", kind := "Cluster", name := "prod" }] }

/-- The small world with this ByoCluster, and with the machine `m1` of the cluster `cluster`. -/
def deletedWorld (name cluster : String) : World :=
  { Small.world [] ["m1"] with
    machines := AList.insert (Small.key "m1")
      { Small.machine "m1" with labels := GoMap.insert none .clusterName cluster } ∅
    byoClusters := AList.insert (Small.key name) (deletedCluster name) ∅ }

/-- The owner of these ByoClusters. -/
theorem findOwnerCluster_deletedCluster (name : String) :
    findOwnerCluster (deletedCluster name).ownerReferences = .ok (some "prod") := by
  show findOwnerCluster [⟨"cluster.x-k8s.io/v1beta1", "Cluster", "prod", "", false⟩] = _
  decide +kernel

/-- The ByoCluster `prod` waits for the machine of its owner, and not for one of another cluster. -/
theorem cluster_outlives_machines_prod :
    let after := fun cluster =>
      (Prog.run exec [] (reconcile (Small.key "prod")) (deletedWorld "prod" cluster)).2
    (∀ cluster, OutlivesMachines (Small.key "prod") (deletedWorld "prod" cluster)
        (deletedCluster "prod")) ∧
      (after "prod").byoClusters.lookup (Small.key "prod") = some (deletedCluster "prod") ∧
      (after "lab").byoClusters.lookup (Small.key "prod") = none ∧
      ((after "lab").machines.lookup (Small.key "m1")).isSome := by
  refine ⟨fun cluster => ?_, by rfl, by rfl, by rfl⟩
  refine (cluster_outlives_machines (deletedWorld "prod" cluster) (Small.key "prod")
    (deletedCluster "prod") rfl rfl (by decide)).2 (noneOverlooked_of_name fun owner howner => ?_)
  rw [findOwnerCluster_deletedCluster] at howner
  cases howner
  rfl

/-- The machine `m1` of the cluster `prod` is left behind when the ByoCluster is named `prod-infra`:
all calls succeed, and the ByoCluster is gone. -/
theorem machine_left_behind :
    let w := (Prog.run exec [] (reconcile (Small.key "prod-infra")) (deletedWorld "prod-infra" "prod")).2
    (deletedWorld "prod-infra" "prod").byoClusters.lookup (Small.key "prod-infra") =
        some (deletedCluster "prod-infra") ∧
      findOwnerCluster (deletedCluster "prod-infra").ownerReferences = .ok (some "prod") ∧
      w.byoClusters.lookup (Small.key "prod-infra") = none ∧
      ∃ m, w.machines.lookup (Small.key "m1") = some m ∧ m.ns = "default" ∧
        m.labels.get .clusterName = some "prod" :=
  ⟨rfl, findOwnerCluster_deletedCluster _, rfl, Small.machine "m1", rfl, rfl, rfl⟩

end Byoh.Properties
