import Byoh.Protocol.Moves
import Byoh.Properties.CommandHistory
import Byoh.Model.HostRegistrar

/-!
# A host goes back to the pool

A cleanup either leaves the attachment of its host alone, so that it is tried again, or takes all
of it away (`cleanup_all_or_nothing`).

While a host is in use, the manager and the agent write reserved labels and annotations only, and a
restart of the agent writes none. So a completed cleanup gives back the host as it was in the pool
(`host_restored`), and the machines that could select it before can select it again.
-/

set_option autoImplicit false

namespace Byoh.Properties

open Byoh.Foundation Byoh.Model Byoh.Protocol Byoh.Model.HostReconciler

/-! ## Cleanup is all or nothing -/

/-- The host on the server after a cleanup that returned an error: it is attached as before, no
machine can select it, and the next reconcile cleans it up again. -/
structure StillAttached (cfg : Config) (h cur : ByoHost) : Prop where
  labels : ∀ k, cur.labels.get k = h.labels.get k
  annotations : ∀ k, cur.annotations.get k = h.annotations.get k
  bootstrapSecret : cur.bootstrapSecret = h.bootstrapSecret
  installationSecret : cur.installationSecret = h.installationSecret
  uninstallationSecret : cur.uninstallationSecret = h.uninstallationSecret
  machineRef : cur.machineRef = h.machineRef
  conditions : ∀ t, cur.conditions t = h.conditions t ∨ cur.conditions.isTrue t = false
  notSelected : ∀ selector : Selector,
    Selector.matches (selector ++ [ByoMachineReconciler.notInCluster]) cur.labels = false
  cleanedUpNext : reconcileHost cfg cur = (hostCleanUp cfg >>= fun _ => pure {}) cur

/-- The host on the server after a cleanup that returned nil. -/
structure Detached (cur : ByoHost) : Prop where
  machineRef : cur.machineRef = none
  bootstrapSecret : cur.bootstrapSecret = none
  installationSecret : cur.installationSecret = none
  labels : ∀ k ∈ [LabelKey.clusterName, .attachedByoMachine], cur.labels.get k = none
  annotations : ∀ k ∈ [AnnotationKey.endPointIP, .hostCleanup, .k8sVersion,
    .bundleLookupBaseRegistry], cur.annotations.get k = none
  notInstalled : isInstalled cur = false
  notBootstrapped : isBootstrapped cur = false

/-- Every condition is as it was, or is not true. -/
def Fades (h h' : ByoHost) : Prop :=
  ∀ t, h'.conditions t = h.conditions t ∨ h'.conditions.isTrue t = false

section Cleanup

variable {cfg : Config} {h h₁ h' cur : ByoHost} {log : List HostEvent}

theorem Fades.trans (h₀ : Fades h h₁) (h₂ : Fades h₁ h') : Fades h h' := by
  intro t
  rcases h₂ t with ht | ht
  · rcases h₀ t with hs | hs
    · exact .inl (ht.trans hs)
    · refine .inr ?_
      rw [Conditions.isTrue, ht]
      exact hs
  · exact .inr ht

theorem fades_withFalse (t : ConditionType) (reason : Reason) (severity : ConditionSeverity)
    (h : ByoHost) : Fades h (withFalse t reason severity h) := by
  intro t'
  by_cases ht : t' = t
  · subst ht
    exact .inr (by simp [withFalse])
  · exact .inl (by simp [withFalse, Conditions.markFalse, ht])

theorem reset_fades (hr : Reset h log h₁) : Fades h h₁ := by
  cases hr with
  | notInstalled => exact fun _ => .inl rfl
  | now => exact fades_withFalse _ _ _ h

/-- A cleanup makes no condition true. -/
theorem cleanup_fades (hc : CleanupCourse cfg h log h' false) : Fades h h' := by
  cases hc with
  | resetFailed => exact fun _ => .inl rfl
  | uninstallUnreadable hr => exact reset_fades hr
  | uninstallFailed _ hr => exact reset_fades hr
  | localFailed hr => exact (reset_fades hr).trans (fades_withFalse _ _ _ _)

/-- What is on the server when only conditions were patched, and none to true. -/
theorem stillAttached_of_fades (hattached : h.labels.get .clusterName ≠ none)
    (hmarked : h.carries .hostCleanup = true) (hshape : ConditionsOnly h h') (hfades : Fades h h')
    (hp : Patched h h' true true true cur) : StillAttached cfg h cur := by
  rw [ConditionsOnly] at hshape
  have hlabels : ∀ k, cur.labels.get k = h.labels.get k := fun k => by
    rw [hp.labels, hshape]
    simp
  have hannotations : ∀ k, cur.annotations.get k = h.annotations.get k := fun k => by
    rw [hp.annotations, hshape]
    simp
  refine ⟨hlabels, hannotations, ?_, ?_, ?_, ?_, fun t => ?_, fun selector => ?_, ?_⟩
  · rw [hp.bootstrapSecret, hshape]
    simp
  · rw [hp.installationSecret, hshape]
    simp
  · rw [hp.uninstallationSecret, hshape]
    simp
  · rw [hp.machineRef, hshape]
    simp
  · rw [show cur.conditions = h'.conditions from hp.conditions]
    exact hfades t
  · rw [Selector.matches_append]
    have : (h.labels.get .clusterName).isNone = false := Option.isNone_eq_false_iff.2
      (Option.isSome_iff_ne_none.2 hattached)
    simp [Selector.matches, ByoMachineReconciler.notInCluster, Requirement.matches, hlabels, this]
  · have : cur.carries .hostCleanup = true := by rw [ByoHost.carries, hannotations]; exact hmarked
    show (if cur.carries .hostCleanup then _ else _ : HostM Result) cur = _
    rw [if_pos this]

/-- What a completed cleanup leaves on the server. -/
theorem detached_of_completed (hc : CleanupCourse cfg h log h' true)
    (hp : Patched h h' true true true cur) : Detached cur := by
  cases hc with
  | @completed log log' rest h₁ hr hu hl =>
  have hinstalled := Reset.not_installed hr
  refine ⟨hp.machineRef, hp.bootstrapSecret, hp.installationSecret, fun k hk => ?_, fun k hk => ?_,
    ?_, ?_⟩
  · rw [hp.labels]
    simp only [List.mem_cons, List.not_mem_nil, or_false] at hk
    rcases hk with rfl | rfl <;> simp [cleanedHost, absentHost, withFalse, removeAnnotations]
  · rw [hp.annotations]
    simp only [List.mem_cons, List.not_mem_nil, or_false] at hk
    rcases hk with rfl | rfl | rfl | rfl <;>
      simp [cleanedHost, absentHost, withFalse, removeAnnotations]
  · rw [Protocol.isInstalled, hp.conditions]
    simpa [cleanedHost, absentHost, withFalse, removeAnnotations, Protocol.isInstalled]
      using hinstalled
  · rw [isBootstrapped, hp.conditions]
    simp [cleanedHost, absentHost, withFalse, removeAnnotations]

variable {ok : Outcome → Prop} {k : NamespacedName} {w : World}

/-- The part of a reconcile before the patch makes no write. -/
theorem reconcileHost_ensures (hmarked : h.carries .hostCleanup = true) :
    Prog.Ensures exec ok (reconcileHost cfg h) w fun r w' =>
      w' = w ∧ ∃ log, CleanupEnds cfg h r.1 r.2 log := by
  intro os hos
  obtain ⟨log, hends, hw⟩ := (reconcileHost_cleanup hmarked).run exec (J := fun w' _ => w' = w)
    (fun o w' c q q' hJ hnext => (hnext.world_eq o w').trans hJ) (fun _ _ _ hJ _ => hJ) rfl os
  exact ⟨hw, log, hends⟩

/-- How a reconcile of a marked host ends: the host could not be read, or a cleanup ran and its
patch was sent with the result `e`. -/
inductive CleanupReturns (cfg : Config) (k : NamespacedName) (w : World) (h : ByoHost)
    (ok : Outcome → Prop) (w' : World) : Exit Err Result → Prop
  | unread (e : Err) (hw : w' = w) : CleanupReturns cfg k w h ok w' (.err e)
  | failed {h' : ByoHost} {log : List HostEvent} {e : Option Err} (e' : Err)
      (hc : CleanupCourse cfg h log h' false) (hsent : Sent h h' k w ok true true true e w') :
      CleanupReturns cfg k w h ok w' (.err e')
  | notPatched {h' : ByoHost} {log : List HostEvent} (e : Err)
      (hc : CleanupCourse cfg h log h' true) (hsent : Sent h h' k w ok true true true (some e) w') :
      CleanupReturns cfg k w h ok w' (.err e)
  | completed {h' : ByoHost} {log : List HostEvent} (a : Result)
      (hc : CleanupCourse cfg h log h' true)
      (hsent : Sent h h' k w ok true true true (none : Option Err) w') :
      CleanupReturns cfg k w h ok w' (.ok a)

variable (cfg ok) in
/-- One reconcile of a marked host. -/
theorem cleanup_ensures (hdefault : ok default) (hread : w.hosts.lookup k = some h)
    (hkey : h.key = k) (hmarked : h.carries .hostCleanup = true) :
    Prog.Ensures exec ok (reconcile cfg k) w fun exit w' =>
      CleanupReturns cfg k w h ok w' exit := by
  refine .bind (.call hdefault fun o ho => ?_)
  cases hr : (exec o (.getByoHost k) w).1 with
  | error e => exact .ret (.ret (.unread _ rfl))
  | ok h₀ =>
    obtain rfl : h₀ = h := Option.some.inj ((readObject_ok hr).symm.trans hread)
    rw [Prog.ret_bind]
    have hdeferred : GoM.Ensures exec ok
        (GoM.deferred (reconcileHost cfg) fun h' => patchByoHost h₀ h') h₀ w fun exit _ w' =>
          CleanupReturns cfg k w h₀ ok w' exit := by
      refine .deferred (Prog.Ensures.mono (reconcileHost_ensures hmarked) ?_)
      rintro ⟨exit, h'⟩ w' ⟨rfl, log, hends⟩
      have hkey' : h'.key = k := (hends.course hmarked).key.trans hkey
      refine (patchByoHost_ensures hdefault (hkey' ▸ hread)).mono fun e w'' hsent => ?_
      rw [hkey'] at hsent
      rcases hends with ⟨⟨e', rfl⟩, hc⟩ | ⟨⟨a, rfl⟩, hc⟩
      · exact .failed e' hc hsent
      · cases e with
        | none => exact .completed a hc hsent
        | some e => exact .notPatched e hc hsent
    exact .bind (Prog.Ensures.mono hdeferred fun _ _ h => .ret (.ret h))

/-- A cleanup whose patch succeeds returns an error and leaves the attachment alone, or returns
nil and takes all of it away. -/
theorem cleanup_all_or_nothing (cfg : Config) (k : NamespacedName) (w : World) (h : ByoHost)
    (hread : w.hosts.lookup k = some h) (hkey : h.key = k)
    (hattached : h.labels.get .clusterName ≠ none) (hmarked : h.carries .hostCleanup = true)
    (os : List Outcome) (hpatch : ∀ o ∈ os, o.writeOk = true) :
    ∃ cur, (Prog.run exec os (reconcile cfg k) w).2.hosts.lookup k = some cur ∧
      ((∃ e, (Prog.run exec os (reconcile cfg k) w).1 = .err e) ∧ StillAttached cfg h cur ∨
        (∃ a, (Prog.run exec os (reconcile cfg k) w).1 = .ok a) ∧ Detached cur) := by
  have hreturns := cleanup_ensures cfg WriteOk rfl hread hkey hmarked os hpatch
  generalize (Prog.run exec os (reconcile cfg k) w).1 = exit at hreturns
  generalize (Prog.run exec os (reconcile cfg k) w).2 = w' at hreturns
  have hwrites : ∀ o, WriteOk o → o.writeOk = true := fun _ => id
  cases hreturns with
  | unread e hw =>
    subst hw
    have hsame : Patched h h true true true h := by constructor <;> simp
    exact ⟨h, hread, .inl ⟨⟨e, rfl⟩,
      stillAttached_of_fades hattached hmarked (.refl h) (fun _ => .inl rfl) hsame⟩⟩
  | @failed h' log e₀ e hc hsent =>
    obtain ⟨cur, hcur, hp, -⟩ := hsent.1 (hsent.2 hwrites)
    have hshape : ConditionsOnly h h' := by simpa using hc.shape
    exact ⟨cur, hcur, .inl ⟨⟨e, rfl⟩,
      stillAttached_of_fades hattached hmarked hshape (cleanup_fades hc) hp⟩⟩
  | notPatched e hc hsent => cases hsent.2 hwrites
  | completed a hc hsent =>
    obtain ⟨cur, hcur, hp, -⟩ := hsent.1 rfl
    exact ⟨cur, hcur, .inr ⟨⟨a, rfl⟩, detached_of_completed hc hp⟩⟩

end Cleanup

/-- A host that waits for its cleanup. -/
def markedHost : ByoHost :=
  { Small.host "h1" with
    labels := GoMap.insert none .clusterName "prod"
    annotations := GoMap.insert none .hostCleanup "" }

/-- The cluster of this host. -/
def markedWorld : World :=
  { Small.world [] [] with hosts := AList.insert (Small.key "h1") markedHost ∅ }

/-- The sentinel file cannot be removed. -/
theorem cleanup_all_or_nothing_marked :
    let r := Prog.run exec [{}, {}, { commandOk := false }] (reconcile {} (Small.key "h1")) markedWorld
    ∃ cur, r.2.hosts.lookup (Small.key "h1") = some cur ∧
      ((∃ e, r.1 = .err e) ∧ StillAttached {} markedHost cur ∨ (∃ a, r.1 = .ok a) ∧ Detached cur) :=
  cleanup_all_or_nothing {} (Small.key "h1") markedWorld markedHost rfl rfl (by decide) (by decide)
    [{}, {}, { commandOk := false }] (by decide)

/-! ## Everything else survives -/

/-- The label keys that this repository sets or removes on hosts. -/
def reservedLabels : List LabelKey := [.clusterName, .attachedByoMachine, .cluster, .clusterCP]

/-- The annotation keys that this repository sets or removes on hosts. -/
def reservedAnnotations : List AnnotationKey :=
  [.hostCleanup, .endPointIP, .k8sVersion, .bundleLookupBaseRegistry, .paused]

/-- A host in the pool that uses none of the reserved keys. -/
structure InPool (h : ByoHost) : Prop where
  labels : ∀ k ∈ reservedLabels, h.labels.get k = none
  annotations : ∀ k ∈ reservedAnnotations, h.annotations.get k = none

/-- What is kept of the host `h₀` while it is used: its own labels and annotations; and the pf9
labels stay away. -/
structure KeepsOwn (h₀ h : ByoHost) : Prop where
  labels : ∀ k ∉ reservedLabels, h.labels.get k = h₀.labels.get k
  annotations : ∀ k ∉ reservedAnnotations, h.annotations.get k = h₀.annotations.get k
  cluster : h.labels.get .cluster = none
  clusterCP : h.labels.get .clusterCP = none

/-- The host as it was before it was used: the labels and, the paused annotation apart, the
annotations; nothing is left of the attachment, and the same machines select it. -/
structure Restored (h₀ h : ByoHost) : Prop where
  labels : ∀ k, h.labels.get k = h₀.labels.get k
  annotations : ∀ k, k ≠ .paused → h.annotations.get k = h₀.annotations.get k
  machineRef : h.machineRef = none
  bootstrapSecret : h.bootstrapSecret = none
  installationSecret : h.installationSecret = none
  selected : ∀ (m : ByoMachine) (selector : Selector),
    ByoMachineReconciler.machineSelector m = .ok selector →
    Selector.matches (selector ++ [ByoMachineReconciler.notInCluster]) h₀.labels = true →
    Selector.matches (selector ++ [ByoMachineReconciler.notInCluster]) h.labels = true

section Keeps

variable {cfg : Config} {h₀ h h' cur : ByoHost} {log : List HostEvent}

theorem keeps_of_inPool (hpool : InPool h) : KeepsOwn h h where
  labels _ _ := rfl
  annotations _ _ := rfl
  cluster := hpool.labels _ (by decide)
  clusterCP := hpool.labels _ (by decide)

theorem KeepsOwn.of_same (hk : KeepsOwn h₀ h) (hlabels : ∀ k, h'.labels.get k = h.labels.get k)
    (hannotations : ∀ k, h'.annotations.get k = h.annotations.get k) : KeepsOwn h₀ h' where
  labels k hk' := (hlabels k).trans (hk.labels k hk')
  annotations k hk' := (hannotations k).trans (hk.annotations k hk')
  cluster := (hlabels _).trans hk.cluster
  clusterCP := (hlabels _).trans hk.clusterCP

/-! ### The manager -/

/-- No edit touches a label that is not reserved. -/
theorem edit_labels (e : HostEdit) (h : ByoHost) {k : LabelKey} (hk : k ∉ reservedLabels) :
    (e.apply h).labels.get k = h.labels.get k := by
  simp only [reservedLabels, List.mem_cons, List.not_mem_nil, or_false, not_or] at hk
  cases e with
  | pause b => cases b <;> rfl
  | mark u => cases u <;> simp [HostEdit.apply, ByoMachineReconciler.markedHost, hk]
  | attach a => simp [HostEdit.apply, ByoMachineReconciler.Attachment.apply, hk]
  | install ref => rfl
  | uninstall ref => rfl

theorem edit_annotations (e : HostEdit) (h : ByoHost) {k : AnnotationKey}
    (hk : k ∉ reservedAnnotations) : (e.apply h).annotations.get k = h.annotations.get k := by
  simp only [reservedAnnotations, List.mem_cons, List.not_mem_nil, or_false, not_or] at hk
  cases e with
  | pause b => cases b <;> simp [HostEdit.apply, ByoMachineReconciler.pausedHost, hk]
  | mark u => cases u <;> simp [HostEdit.apply, ByoMachineReconciler.markedHost, hk]
  | attach a => simp [HostEdit.apply, ByoMachineReconciler.Attachment.apply, hk]
  | install ref => rfl
  | uninstall ref => rfl

/-- The pf9 labels are only ever removed. -/
theorem edit_pf9Labels (e : HostEdit) (h : ByoHost) {k : LabelKey} (hk : k = .cluster ∨ k = .clusterCP) :
    (e.apply h).labels.get k = h.labels.get k ∨ (e.apply h).labels.get k = none := by
  cases e with
  | pause b => cases b <;> exact .inl rfl
  | mark u => rcases hk with rfl | rfl <;> cases u <;>
      simp [HostEdit.apply, ByoMachineReconciler.markedHost]
  | attach a => rcases hk with rfl | rfl <;>
      simp [HostEdit.apply, ByoMachineReconciler.Attachment.apply]
  | install ref => exact .inl rfl
  | uninstall ref => exact .inl rfl

/-- A patch that removes a key, or leaves it alone, does not bring it back. -/
theorem mergeField_absent {before after : Option String} (h : after = before ∨ after = none) :
    mergeField before after none = none := by
  rcases h with rfl | rfl
  · exact mergeField_self ..
  · rw [mergeField]
    split <;> rfl

theorem keeps_managerWrite (hk : KeepsOwn h₀ h) (hw : ManagerWrite h h') : KeepsOwn h₀ h' := by
  cases hw with
  | status e b => exact hk.of_same (fun _ => rfl) fun _ => rfl
  | clear b =>
    refine hk.of_same (fun k => ?_) fun k => ?_
    · simp [ByoHost.merge, ByoHostReconciler.clearedHost]
    · simp [ByoHost.merge, ByoHostReconciler.clearedHost]
  | spec e b =>
    have hpf9 : ∀ {k}, k = .cluster ∨ k = .clusterCP → h.labels.get k = none →
        (b.merge (e.apply b) h).labels.get k = none := fun hk hnone => by
      rw [ByoHost.merge, GoMap.get_merge, hnone]
      exact mergeField_absent (edit_pf9Labels e b hk)
    refine ⟨fun k hk' => ?_, fun k hk' => ?_, hpf9 (.inl rfl) hk.cluster, hpf9 (.inr rfl) hk.clusterCP⟩
    · rw [ByoHost.merge, GoMap.get_merge, edit_labels e b hk', mergeField_self]
      exact hk.labels k hk'
    · rw [ByoHost.merge, GoMap.get_merge, edit_annotations e b hk', mergeField_self]
      exact hk.annotations k hk'

theorem keeps_managerWrites (hk : KeepsOwn h₀ h) (hw : ManagerWrites h h') : KeepsOwn h₀ h' := by
  induction hw with
  | refl => exact hk
  | tail _ hlast ih => exact keeps_managerWrite ih hlast

/-! ### The agent -/

theorem released_labels (h : ByoHost) (k : LabelKey) :
    (releasedHost h).labels.get k =
      if k = .clusterName ∨ k = .attachedByoMachine then none else h.labels.get k := by
  by_cases h₁ : k = .clusterName <;> by_cases h₂ : k = .attachedByoMachine <;>
    simp [releasedHost, removeAnnotations, h₁, h₂]

theorem released_annotations (h : ByoHost) (k : AnnotationKey) :
    (releasedHost h).annotations.get k =
      if k ∈ [AnnotationKey.endPointIP, .hostCleanup, .k8sVersion, .bundleLookupBaseRegistry] then none
      else h.annotations.get k := by
  by_cases hk : k ∈ [AnnotationKey.endPointIP, .hostCleanup, .k8sVersion, .bundleLookupBaseRegistry]
  · rw [if_pos hk]
    simp only [List.mem_cons, List.not_mem_nil, or_false] at hk
    rcases hk with rfl | rfl | rfl | rfl <;> simp [releasedHost, removeAnnotations]
  · rw [if_neg hk]
    simp only [List.mem_cons, List.not_mem_nil, or_false, not_or] at hk
    simp [releasedHost, removeAnnotations, hk]

/-- What a course keeps in memory. -/
theorem keeps_course (hk : KeepsOwn h₀ h) (hc : Course cfg h log h') : KeepsOwn h₀ h' := by
  rcases hc.shape with hs | ⟨-, hs⟩
  · rw [ConditionsOnly] at hs
    rw [hs]
    exact hk.of_same (fun _ => rfl) fun _ => rfl
  · rw [hs]
    refine ⟨fun k hk' => ?_, fun k hk' => ?_, ?_, ?_⟩
    · show (releasedHost h).labels.get k = _
      rw [released_labels, if_neg]
      · exact hk.labels k hk'
      · rintro (rfl | rfl) <;> exact hk' (by decide)
    · show (releasedHost h).annotations.get k = _
      rw [released_annotations, if_neg]
      · exact hk.annotations k hk'
      · intro hmem
        simp only [List.mem_cons, List.not_mem_nil, or_false] at hmem
        rcases hmem with rfl | rfl | rfl | rfl <;> exact hk' (by decide)
    · show (releasedHost h).labels.get .cluster = none
      rw [released_labels, if_neg (by decide)]
      exact hk.cluster
    · show (releasedHost h).labels.get .clusterCP = none
      rw [released_labels, if_neg (by decide)]
      exact hk.clusterCP

/-- Whatever arrives of a patch, every key has its value before or after. -/
theorem keeps_patched {c s t : Bool} (hk : KeepsOwn h₀ h) (hk' : KeepsOwn h₀ h')
    (hp : Patched h h' c s t cur) : KeepsOwn h₀ cur := by
  cases s with
  | true => exact hk'.of_same hp.labels hp.annotations
  | false => exact hk.of_same hp.labels hp.annotations

end Keeps

/-! ### Registration -/

/-- Hosts keep their keys, labels and annotations; new hosts may be there. -/
structure KeepsHosts (w w' : World) : Prop where
  kept : ∀ k h, w.hosts.lookup k = some h → ∃ h', w'.hosts.lookup k = some h' ∧ h'.key = h.key ∧
    h'.labels = h.labels ∧ h'.annotations = h.annotations
  keys : WellKeyed w → WellKeyed w'

theorem KeepsHosts.refl (w : World) : KeepsHosts w w := ⟨fun _ h hh => ⟨h, hh, rfl, rfl, rfl⟩, id⟩

theorem KeepsHosts.trans {w w' w'' : World} (h : KeepsHosts w w') (h' : KeepsHosts w' w'') :
    KeepsHosts w w'' where
  kept k b hb := by
    obtain ⟨b', hb', hkey, hl, ha⟩ := h.kept k b hb
    obtain ⟨b'', hb'', hkey', hl', ha'⟩ := h'.kept k b' hb'
    exact ⟨b'', hb'', hkey'.trans hkey, hl'.trans hl, ha'.trans ha⟩
  keys := h'.keys ∘ h.keys

/-- A status patch. -/
theorem KeepsHosts.mergeStatus {w : World} {k : NamespacedName} {cur : ByoHost}
    (hcur : w.hosts.lookup k = some cur) (before after : ByoHost) :
    KeepsHosts w (w.setHost k (before.mergeStatus after cur)) where
  kept k' h hh := by
    by_cases hk : k' = k
    · subst hk
      cases hcur.symm.trans hh
      exact ⟨_, AList.lookup_insert _, rfl, rfl, rfl⟩
    · exact ⟨h, (AList.lookup_insert_ne hk).trans hh, rfl, rfl, rfl⟩
  keys hkeys := forall_lookup_insert hkeys (hkeys k cur hcur)

/-- A new host. -/
theorem KeepsHosts.create {w : World} {h : ByoHost} (hnone : w.hosts.lookup h.key = none) :
    KeepsHosts w (w.setHost h.key h) where
  kept k' h' hh := by
    have hk : k' ≠ h.key := by
      rintro rfl
      cases hnone.symm.trans hh
    exact ⟨h', (AList.lookup_insert_ne hk).trans hh, rfl, rfl, rfl⟩
  keys hkeys := forall_lookup_insert hkeys rfl

/-- `UpdateHost` writes network status and platform details only, so only a status patch is
sent. -/
theorem updateHost_keepsHosts (l : HostRegistrar.LocalHost) (d : String) (byoHost : ByoHost)
    (w : World) : Prog.Ensures exec (fun _ => True) (HostRegistrar.updateHost l d byoHost) w
      fun _ w' => KeepsHosts w w' := by
  rw [HostRegistrar.updateHost]
  cases HostRegistrar.getHostInfo l with
  | error e => exact .ret (.refl w)
  | ok hostDetails =>
    dsimp only [patchByoHost]
    refine ensures_sendIf (fun h => by simp at h) fun _ => ?_
    refine ensures_sendIf (fun h => by simp [ByoHost.changed] at h) fun _ => ?_
    refine ensures_sendIf (fun _ => .call trivial fun o _ => .ret ?_) fun _ => .ret (.refl w)
    rcases exec_patchByoHostStatus o w _ byoHost _ with ⟨cur, hcur, hw⟩ | ⟨e, hw, -⟩ <;> rw [hw]
    · exact .mergeStatus hcur _ _
    · exact .refl w

theorem register_keepsHosts (l : HostRegistrar.LocalHost) (k : NamespacedName) (hostLabels : Labels)
    (w : World) : Prog.Ensures exec (fun _ => True) (HostRegistrar.register l k hostLabels) w
      fun _ w' => KeepsHosts w w' := by
  refine .call trivial fun o _ => ?_
  cases hr : (exec o (.getByoHost k) w).1 with
  | ok byoHost =>
    rw [Prog.ret_bind]
    exact updateHost_keepsHosts l "" byoHost w
  | error e =>
    rw [Prog.ret_bind]
    dsimp only
    split
    · exact .ret (.refl w)
    · refine .call trivial fun o' _ => ?_
      rcases exec_createByoHost o' w { ns := k.ns, name := k.name, labels := hostLabels } with
        ⟨hnone, hw⟩ | ⟨e, hw⟩
      · have hw' : exec o' (.createByoHost _) (exec o (.getByoHost k) w).2 = _ := hw
        rw [hw']
        exact (updateHost_keepsHosts l "" _ _).mono fun _ _ h => (KeepsHosts.create hnone).trans h
      · have hw' : exec o' (.createByoHost _) (exec o (.getByoHost k) w).2 = _ := hw
        rw [hw']
        exact .ret (.refl w)

/-! ### Runs -/

section Runs

variable {setup : Setup} {k : NamespacedName} {h₀ : ByoHost}

/-- The host `k` is there and keeps what `h₀` had. -/
def InUse (k : NamespacedName) (h₀ : ByoHost) (w : World) : Prop :=
  WellKeyed w ∧ ∃ h, w.hosts.lookup k = some h ∧ KeepsOwn h₀ h

theorem inUse_hostsVia {w w' : World} (hw : InUse k h₀ w) (hvia : HostsVia ManagerWrites w w') :
    InUse k h₀ w' := by
  obtain ⟨hkeys, h, hh, hk⟩ := hw
  refine ⟨fun k' h' hh' => ?_, ?_⟩
  · obtain ⟨b, hb, hwrites⟩ := hvia.of_some hh'
    exact hwrites.keeps.1.trans (hkeys k' b hb)
  · obtain ⟨h', hh', hwrites⟩ := hvia.some hh
    exact ⟨h', hh', keeps_managerWrites hk hwrites⟩

theorem inUse_agentStep {s : Site} (hs : InUse k h₀ s.world) (cfg : Config) (k' : NamespacedName)
    (os : List Outcome) : InUse k h₀ (s.agentStep cfg k' os).world := by
  obtain ⟨hkeys, h, hh, hk⟩ := hs
  rcases agentStep_cases cfg k' os s hkeys with hsame | ⟨b, a, cur, log, c, sp, st, hran, -⟩
  · rw [hsame]
    exact ⟨hkeys, h, hh, hk⟩
  · refine ⟨hran.onlyHost.wellKeyed hkeys fun b' hb' => ?_, ?_⟩
    · cases hran.written.symm.trans hb'
      exact hran.patched.key.trans (hkeys _ _ hran.read)
    · by_cases hkk : k = k'
      · subst hkk
        cases hran.read.symm.trans hh
        exact ⟨cur, hran.written, keeps_patched hk (keeps_course hk hran.course) hran.patched⟩
      · exact ⟨h, (hran.onlyHost.others k hkk).trans hh, hk⟩

/-- Every step keeps what the host had before. -/
theorem inUse_step {s : Site} {a : AgentAction} (hs : InUse k h₀ s.world) :
    InUse k h₀ (setup.actOrRegister s a).world := by
  rcases a with a | ⟨k', hostLabels, l, os⟩
  · rcases a with ⟨t, os⟩ | a
    · cases t with
      | agent k' => exact inUse_agentStep hs setup.agent k' os
      | _ => exact inUse_hostsVia hs (manager_hostsVia setup rfl os s.world)
    · simp only [Setup.actOrRegister, Setup.act]
      cases he : envStep a s.world with
      | none => exact hs
      | some w' => exact inUse_hostsVia hs (.of_hosts_eq (fun _ => .refl) (envStep_hosts he))
  · obtain ⟨hkeys, h, hh, hk⟩ := hs
    have hreg := register_keepsHosts l k' hostLabels s.world os fun _ _ => trivial
    obtain ⟨h', hh', -, hl, ha⟩ := hreg.kept k h hh
    exact ⟨hreg.keys hkeys, h', hh', hk.of_same (fun _ => by rw [hl]) fun _ => by rw [ha]⟩

/-- A selector looks at values of labels only. -/
theorem matches_congr {ls ls' : Labels} (h : ∀ k, ls.get k = ls'.get k) (selector : Selector) :
    selector.matches ls = selector.matches ls' := by
  simp only [Selector.matches, Requirement.matches, h]

/-- A completed cleanup gives back a host that kept its own labels and annotations. -/
theorem restored_of_completed {cfg : Config} {h h' cur : ByoHost} {log : List HostEvent}
    (hpool : InPool h₀) (hk : KeepsOwn h₀ h) (hmarked : h.carries .hostCleanup = true)
    (hc : CleanupCourse cfg h log h' true) (hp : Patched h h' true true true cur) :
    Restored h₀ cur := by
  have hcourse : Course cfg h log h' := by
    rw [Protocol.Course, if_pos hmarked]
    exact ⟨true, hc⟩
  have hcur : KeepsOwn h₀ cur := keeps_patched hk (keeps_course hk hcourse) hp
  have hdetached := detached_of_completed hc hp
  -- the reserved keys were absent at the start, and the cleanup removed them
  have hlabels : ∀ k, cur.labels.get k = h₀.labels.get k := by
    intro k
    by_cases hres : k ∈ reservedLabels
    · rw [hpool.labels k hres]
      simp only [reservedLabels, List.mem_cons, List.not_mem_nil, or_false] at hres
      rcases hres with rfl | rfl | rfl | rfl
      · exact hdetached.labels _ (by decide)
      · exact hdetached.labels _ (by decide)
      · exact hcur.cluster
      · exact hcur.clusterCP
    · exact hcur.labels k hres
  have hannotations : ∀ k, k ≠ .paused → cur.annotations.get k = h₀.annotations.get k := by
    intro k hpaused
    by_cases hres : k ∈ reservedAnnotations
    · rw [hpool.annotations k hres]
      simp only [reservedAnnotations, List.mem_cons, List.not_mem_nil, or_false, hpaused] at hres
      exact hdetached.annotations k (by simpa [or_left_comm] using hres)
    · exact hcur.annotations k hres
  exact {
    labels := hlabels
    annotations := hannotations
    machineRef := hdetached.machineRef
    bootstrapSecret := hdetached.bootstrapSecret
    installationSecret := hdetached.installationSecret
    selected := fun m selector _ hmatch => by rwa [matches_congr hlabels] }

/-- The world after a reconcile of an agent. -/
theorem agentStep_world (cfg : Config) (k : NamespacedName) (os : List Outcome) (s : Site) :
    (s.agentStep cfg k os).world = (Prog.run exec os (reconcile cfg k) s.world).2 := by
  obtain ⟨n, hn⟩ := Prog.run_bind exec (reconcileReport cfg k) (fun r => .ret r.exit) os s.world
  rw [show reconcile cfg k = (reconcileReport cfg k).bind fun r => .ret r.exit from rfl, hn]
  exact (Prog.run_logged exec (reconcileReport cfg k) os s.world []).2

/-- A run that starts with a host in the pool and ends with its completed cleanup restores the
host. -/
theorem host_restored (setup : Setup) (k : NamespacedName) (h₀ : ByoHost) (s₀ s : Site)
    (as : List AgentAction) (hkeys : WellKeyed s₀.world) (hh₀ : s₀.world.hosts.lookup k = some h₀)
    (hpool : InPool h₀) (hrun : ActionRun setup.actOrRegister (fun _ _ => True) s₀ as s)
    (h : ByoHost) (hh : s.world.hosts.lookup k = some h) (hmarked : h.carries .hostCleanup = true)
    (os : List Outcome) (result : Result)
    (hdone : (Prog.run exec os (reconcile setup.agent k) s.world).1 = .ok result) :
    ∃ cur, (setup.actOrRegister s (.site (.reconcile (.agent k) os))).world.hosts.lookup k = some cur ∧
      Restored h₀ cur := by
  have hinit : InUse k h₀ s₀.world := ⟨hkeys, h₀, hh₀, keeps_of_inPool hpool⟩
  obtain ⟨hkeys', b, hb, hk⟩ :=
    hrun.invariant (I := fun s => InUse k h₀ s.world) (fun hs _ => inUse_step hs) hinit
  obtain rfl : h = b := Option.some.inj (hh.symm.trans hb)
  have hreturns := cleanup_ensures setup.agent (fun _ => True) trivial hh
    (hkeys' k h hh) hmarked os fun _ _ => trivial
  rw [hdone] at hreturns
  rw [show (setup.actOrRegister s (.site (.reconcile (.agent k) os))).world = _ from
    agentStep_world setup.agent k os s]
  cases hreturns with
  | completed a hc hsent =>
    obtain ⟨cur, hcur, hp, -⟩ := hsent.1 rfl
    exact ⟨cur, hcur, restored_of_completed hpool hk hmarked hc hp⟩

end Runs

/-- The life of a machine up to the mark, and a restart of the agent with a new label. -/
def usedHost : List AgentAction :=
  ((Small.life "m1" "h1").take 6).map .site ++
    [.register (Small.key "h1") (GoMap.insert none (.other "site") "paris")
      ⟨none, none, fun _ => .ok "", "amd64", "linux"⟩ []]

theorem host_restored_life :
    let s := usedHost.foldl (Setup.actOrRegister {}) { world := Small.world ["h1"] ["m1"] }
    ∃ cur, (Setup.actOrRegister {} s (.site (Small.reconcile (.agent (Small.key "h1"))))).world.hosts.lookup
      (Small.key "h1") = some cur ∧ Restored (Small.host "h1") cur := by
  intro s
  have hmarked : (s.world.hosts.lookup (Small.key "h1")).any (·.carries .hostCleanup) = true := by
    decide +kernel
  obtain ⟨h, hh, hmarked⟩ := (Option.any_eq_true _ _).1 hmarked
  exact host_restored {} (Small.key "h1") (Small.host "h1") { world := Small.world ["h1"] ["m1"] } s
    usedHost (freshSite_small _ _).keys rfl ⟨by decide, by decide⟩ (.of_allowed (by decide +kernel))
    h hh hmarked [] {} (by decide +kernel)

end Byoh.Properties
