import Byoh.Foundation.Interleave
import Byoh.Model.HostRegistrar
import Byoh.Protocol.ManagerWrites

/-!
# The agent and the manager do not overwrite each other

Outside cleanup the agent changes conditions, or network status and platform details; the manager
changes metadata, spec and machine reference. Each side patches from its own snapshot of the host,
which may be outdated. A merge patch writes only what differs from the snapshot, so the requests of
one side commute with those of the other, and each side finds its own changes in the end
(`no_lost_update`).
-/

set_option autoImplicit false

namespace Byoh.Properties

open Byoh.Foundation Byoh.Model Byoh.Protocol Byoh.Model.HostReconciler

/-! ## Requests of the patch helper -/

/-- A request of `Helper.Patch`: the snapshot and the host in memory. -/
inductive HostWrite where
  | conditions (before after : ByoHost)
  | spec (before after : ByoHost)
  | status (before after : ByoHost)

/-- The host on the server after a request; the patch of conditions is retried until it is taken. -/
def HostWrite.apply (cur : ByoHost) : HostWrite → ByoHost
  | .conditions before after =>
      { cur with conditions := mergedConditions before.conditions after.conditions cur.conditions }
  | .spec before after => before.merge after cur
  | .status before after => before.mergeStatus after cur

/-- The requests of `Helper.Patch`, in order; a part in which nothing changed is not sent. -/
def hostWrites (before after : ByoHost) : List HostWrite :=
  (if before.conditions ≠ after.conditions then [.conditions before after] else []) ++
    (if before.changed after then [.spec before after] else []) ++
    if before.statusChanged after then [.status before after] else []

/-- The host on the server after all requests of a patch. -/
def patched (before after cur : ByoHost) : ByoHost := (hostWrites before after).foldl HostWrite.apply cur

section Helper

variable {b a cur : ByoHost} {w : World}

@[simp] theorem mergeHostInfo_self (b cur : HostInfo) : mergeHostInfo b b cur = cur := by
  simp [mergeHostInfo]

theorem mergeConditions_some {before after cur : Conditions}
    (h : mergeConditions before after cur ≠ none) :
    mergeConditions before after cur = some (mergedConditions before after cur) := by
  rw [mergeConditions] at h ⊢
  split at h
  · rw [if_pos ‹_›]
  · exact absurd rfl h

/-- One request of `Helper.Patch` that succeeds, or is not sent. -/
theorem ensures_write {α : Type} {changed : Bool} {x : ApiProg (Option ApiError)}
    (write : HostWrite) {f : Option ApiError → ApiProg α} {k : NamespacedName} {Q : α → World → Prop}
    (hcur : w.hosts.lookup k = some cur)
    (hsent : Prog.Ensures exec WriteOk x w fun e w' =>
      e = none ∧ w'.hosts.lookup k = some (write.apply cur))
    (hrest : ∀ w', w'.hosts.lookup k =
      some ((if changed then [write] else []).foldl HostWrite.apply cur) →
        Prog.Ensures exec WriteOk (f none) w' Q) :
    Prog.Ensures exec WriteOk ((sendIf changed x).bind f) w Q := by
  cases changed with
  | false => exact hrest w hcur
  | true =>
    refine .bind (hsent.mono ?_)
    rintro _ w' ⟨rfl, hw'⟩
    exact hrest w' hw'

/-- `Helper.Patch` sends these requests: if no write fails and the conditions are taken, the host
on the server is the patched one. -/
theorem patchByoHost_patched (hcur : w.hosts.lookup a.key = some cur)
    (hconditions : mergeConditions b.conditions a.conditions cur.conditions ≠ none) :
    Prog.Ensures exec WriteOk (patchByoHost b a) w fun e w' =>
      e = none ∧ w'.hosts.lookup a.key = some (patched b a cur) := by
  refine ensures_write (.conditions b a) hcur (.call rfl fun o ho => ?_) fun w₁ h₁ => ?_
  · rcases exec_patchByoHostConditions o w a.key b a with ⟨cur', cs, hcur', hcs, hw⟩ | ⟨e, hw, hrefused⟩
    · rw [hw]
      cases hcur.symm.trans hcur'
      cases (mergeConditions_some hconditions).symm.trans hcs
      exact .ret ⟨rfl, AList.lookup_insert _⟩
    · exact absurd (hrefused ho cur hcur) hconditions
  refine ensures_write (.spec b a) h₁ (.call rfl fun o ho => ?_) fun w₂ h₂ => ?_
  · rcases exec_patchByoHost o w₁ a.key b a with ⟨cur', hcur', hw⟩ | ⟨e, hw, hmissing⟩
    · rw [hw]
      cases h₁.symm.trans hcur'
      exact .ret ⟨rfl, AList.lookup_insert _⟩
    · cases h₁.symm.trans (hmissing ho)
  refine ensures_write (.status b a) h₂ (.call rfl fun o ho => ?_) fun w₃ h₃ => ?_
  · rcases exec_patchByoHostStatus o w₂ a.key b a with ⟨cur', hcur', hw⟩ | ⟨e, hw, hmissing⟩
    · rw [hw]
      cases h₂.symm.trans hcur'
      exact .ret ⟨rfl, AList.lookup_insert _⟩
    · cases h₂.symm.trans (hmissing ho)
  refine .ret ⟨rfl, h₃.trans ?_⟩
  simp only [patched, hostWrites, List.foldl_append, ne_eq, decide_not, Bool.not_eq_true',
    decide_eq_false_iff_not]

end Helper

/-! ## The two sides -/

/-- The host in the agent's memory when it patches the snapshot `b` outside cleanup. -/
inductive AgentSide (b : ByoHost) : ByoHost → Prop
  /-- `HostRegistrar.UpdateHost`. -/
  | updateHost (l : HostRegistrar.LocalHost) (defaultInterface : String) (details : HostInfo)
      (hdetails : HostRegistrar.getHostInfo l = .ok details) :
      AgentSide b { b with
        network := (HostRegistrar.getNetworkStatus l defaultInterface).1, hostDetails := details }
  /-- `HostReconciler.reconcileNormal`, with any answers to its calls. -/
  | reconcileNormal (cfg : Config) (os : List Outcome) (w : World)
      (hmarked : b.carries .hostCleanup = false) (hdeleted : b.deletionTimestamp = false) :
      AgentSide b (Prog.run exec os (reconcileNormal cfg b) w).1.2

/-- The host in the manager's memory when it patches the snapshot `b`. -/
inductive ManagerSide (b : ByoHost) : ByoHost → Prop
  /-- `attachByoHost`, `setPausedConditionForByoHost`, `markHostForCleanup` and the setting of the
  two installer secrets. -/
  | edit (e : HostEdit) : ManagerSide b (e.apply b)
  /-- `ByoHostReconciler` clears the reference to the uninstall secret. -/
  | clear : ManagerSide b (ByoHostReconciler.clearedHost b)

/-! ## The value that a side gave -/

/-- The fields of a reference. -/
def refFields : List (ObjectReference → String) := [(·.apiVersion), (·.kind), (·.ns), (·.name), (·.uid)]

/-- What the patch from `b` to `a` changed of a reference is in `r`. -/
structure HasRefChanges (b a r : Option ObjectReference) : Prop where
  presence : b.isSome ≠ a.isSome → r.isSome = a.isSome
  fields : ∀ f ∈ refFields, f (b.getD {}) ≠ f (a.getD {}) → f (r.getD {}) = f (a.getD {})

/-- What the patch from `b` to `a` changed has in `r` the value of `a`, field by field. -/
structure HasChanges (b a r : ByoHost) : Prop where
  labels : ∀ k, b.labels.get k ≠ a.labels.get k → r.labels.get k = a.labels.get k
  annotations : ∀ k, b.annotations.get k ≠ a.annotations.get k →
    r.annotations.get k = a.annotations.get k
  bootstrapSecret : HasRefChanges b.bootstrapSecret a.bootstrapSecret r.bootstrapSecret
  installationSecret : HasRefChanges b.installationSecret a.installationSecret r.installationSecret
  uninstallationSecret : HasRefChanges b.uninstallationSecret a.uninstallationSecret r.uninstallationSecret
  machineRef : HasRefChanges b.machineRef a.machineRef r.machineRef
  conditions : ∀ t, b.conditions t ≠ a.conditions t → r.conditions t = a.conditions t
  osName : b.hostDetails.osName ≠ a.hostDetails.osName → r.hostDetails.osName = a.hostDetails.osName
  osImage : b.hostDetails.osImage ≠ a.hostDetails.osImage →
    r.hostDetails.osImage = a.hostDetails.osImage
  architecture : b.hostDetails.architecture ≠ a.hostDetails.architecture →
    r.hostDetails.architecture = a.hostDetails.architecture
  network : b.network ≠ a.network → r.network = a.network

section Changes

variable {b a cur : ByoHost}

theorem mergeField_of_ne {α : Type} [DecidableEq α] {before after : α} (h : before ≠ after) (cur : α) :
    mergeField before after cur = after := if_neg h

theorem hasRefChanges_mergeRef (b a cur : Option ObjectReference) : HasRefChanges b a (mergeRef b a cur) := by
  by_cases h : b = a
  · subst h
    exact ⟨fun hne => absurd rfl hne, fun f _ hne => absurd rfl hne⟩
  · rw [mergeRef, if_neg h]
    cases a with
    | none => exact ⟨fun _ => rfl, fun _ _ _ => rfl⟩
    | some a =>
      refine ⟨fun _ => rfl, fun f hf hne => ?_⟩
      simp only [refFields, List.mem_cons, List.not_mem_nil, or_false] at hf
      rcases hf with rfl | rfl | rfl | rfl | rfl <;> exact mergeField_of_ne hne _

/-- A reference that does not change has no change. -/
theorem hasRefChanges_of_eq {b a : Option ObjectReference} (h : b = a) (r : Option ObjectReference) :
    HasRefChanges b a r := by
  subst h
  exact ⟨fun hne => absurd rfl hne, fun f _ hne => absurd rfl hne⟩

/-- The metadata and spec of a patched host. -/
theorem patched_spec (cur : ByoHost) (hs : b.changed a = true) :
    (patched b a cur).labels = GoMap.merge b.labels a.labels cur.labels ∧
      (patched b a cur).annotations = GoMap.merge b.annotations a.annotations cur.annotations ∧
      (patched b a cur).bootstrapSecret =
        mergeRef b.bootstrapSecret a.bootstrapSecret cur.bootstrapSecret ∧
      (patched b a cur).installationSecret =
        mergeRef b.installationSecret a.installationSecret cur.installationSecret ∧
      (patched b a cur).uninstallationSecret =
        mergeRef b.uninstallationSecret a.uninstallationSecret cur.uninstallationSecret := by
  rw [patched, hostWrites, if_pos hs]
  split_ifs <;> exact ⟨rfl, rfl, rfl, rfl, rfl⟩

/-- The status of a patched host. -/
theorem patched_status (cur : ByoHost) (hs : b.statusChanged a = true) :
    (patched b a cur).machineRef = mergeRef b.machineRef a.machineRef cur.machineRef ∧
      (patched b a cur).hostDetails = mergeHostInfo b.hostDetails a.hostDetails cur.hostDetails ∧
      (patched b a cur).network = mergeField b.network a.network cur.network := by
  rw [patched, hostWrites, if_pos hs]
  split_ifs <;> exact ⟨rfl, rfl, rfl⟩

/-- The conditions of a patched host. -/
theorem patched_conditions (hs : b.conditions ≠ a.conditions) (t : ConditionType) :
    (patched b a cur).conditions t =
      mergeField (b.conditions t) (a.conditions t) (cur.conditions t) := by
  rw [patched, hostWrites, if_pos hs]
  split_ifs <;> rfl

/-- A side finds its changes in the host that it patched: a part that was sent arrived, and a part
that was not sent has no changes. -/
theorem hasChanges_patched (b a cur : ByoHost) : HasChanges b a (patched b a cur) := by
  have hspec : (∀ k, b.labels.get k ≠ a.labels.get k → (patched b a cur).labels.get k = a.labels.get k) ∧
      (∀ k, b.annotations.get k ≠ a.annotations.get k →
        (patched b a cur).annotations.get k = a.annotations.get k) ∧
      HasRefChanges b.bootstrapSecret a.bootstrapSecret (patched b a cur).bootstrapSecret ∧
      HasRefChanges b.installationSecret a.installationSecret (patched b a cur).installationSecret ∧
      HasRefChanges b.uninstallationSecret a.uninstallationSecret (patched b a cur).uninstallationSecret := by
    cases hs : b.changed a with
    | false =>
      obtain ⟨hl, ha, hb, hi, hu⟩ := ByoHost.spec_of_not_changed hs
      exact ⟨fun k hne => absurd (hl k) hne, fun k hne => absurd (ha k) hne, hasRefChanges_of_eq hb _,
        hasRefChanges_of_eq hi _, hasRefChanges_of_eq hu _⟩
    | true =>
      obtain ⟨hl, ha, hb, hi, hu⟩ := patched_spec cur hs
      rw [hl, ha, hb, hi, hu]
      refine ⟨fun k hne => ?_, fun k hne => ?_, hasRefChanges_mergeRef .., hasRefChanges_mergeRef ..,
        hasRefChanges_mergeRef ..⟩
      · rw [GoMap.get_merge, mergeField_of_ne hne]
      · rw [GoMap.get_merge, mergeField_of_ne hne]
  have hstatus : HasRefChanges b.machineRef a.machineRef (patched b a cur).machineRef ∧
      (b.hostDetails.osName ≠ a.hostDetails.osName →
        (patched b a cur).hostDetails.osName = a.hostDetails.osName) ∧
      (b.hostDetails.osImage ≠ a.hostDetails.osImage →
        (patched b a cur).hostDetails.osImage = a.hostDetails.osImage) ∧
      (b.hostDetails.architecture ≠ a.hostDetails.architecture →
        (patched b a cur).hostDetails.architecture = a.hostDetails.architecture) ∧
      (b.network ≠ a.network → (patched b a cur).network = a.network) := by
    cases hs : b.statusChanged a with
    | false =>
      obtain ⟨hm, hd, hn⟩ := ByoHost.status_of_not_changed hs
      exact ⟨hasRefChanges_of_eq hm _, fun hne => absurd (by rw [hd]) hne, fun hne => absurd (by rw [hd]) hne,
        fun hne => absurd (by rw [hd]) hne, fun hne => absurd hn hne⟩
    | true =>
      obtain ⟨hm, hd, hn⟩ := patched_status cur hs
      rw [hm, hd, hn]
      exact ⟨hasRefChanges_mergeRef .., fun hne => mergeField_of_ne hne _, fun hne => mergeField_of_ne hne _,
        fun hne => mergeField_of_ne hne _, fun hne => mergeField_of_ne hne _⟩
  obtain ⟨hl, ha, hb, hi, hu⟩ := hspec
  obtain ⟨hm, hos, him, har, hn⟩ := hstatus
  refine ⟨hl, ha, hb, hi, hu, hm, fun t hne => ?_, hos, him, har, hn⟩
  have hconditions : b.conditions ≠ a.conditions := fun h => hne (by rw [h])
  rw [patched_conditions hconditions, mergeField_of_ne hne]

end Changes

/-! ## The two sides commute -/

section Sides

variable {b a b' a' : ByoHost}

/-- The agent writes conditions, or network status and platform details. -/
theorem AgentSide.shape (h : AgentSide b a) :
    ConditionsOnly b a ∨ ∃ network details, a = { b with network := network, hostDetails := details } := by
  cases h with
  | updateHost l d details _ => exact .inr ⟨_, _, rfl⟩
  | reconcileNormal cfg os w hm hd =>
    have hruns := @reconcileNormal_runs cfg b hm hd
    obtain ⟨log, hc, -⟩ := hruns.run exec
      (J := fun _ _ => True) (fun _ _ _ _ _ _ _ => trivial) (fun _ _ _ _ _ => trivial) (s := w) trivial os
    exact .inl hc.conditionsOnly

/-- The manager leaves alone what the agent writes. -/
theorem ManagerSide.leaves (h : ManagerSide b a) :
    a.conditions = b.conditions ∧ a.hostDetails = b.hostDetails ∧ a.network = b.network := by
  cases h with
  | clear => exact ⟨rfl, rfl, rfl⟩
  | edit e =>
    refine ⟨e.apply_conditions b, e.apply_hostDetails b, ?_⟩
    cases e with
    | pause isPaused => cases isPaused <;> rfl
    | mark u => cases u <;> rfl
    | _ => rfl

theorem mem_hostWrites {x : HostWrite} (hx : x ∈ hostWrites b a) :
    (x = .conditions b a ∧ b.conditions ≠ a.conditions) ∨ (x = .spec b a ∧ b.changed a = true) ∨
      (x = .status b a ∧ b.statusChanged a = true) := by
  simp only [hostWrites, List.mem_append] at hx
  rcases hx with (hx | hx) | hx
  · split_ifs at hx with hc
    · exact .inl ⟨List.mem_singleton.1 hx, hc⟩
    · cases hx
  · split_ifs at hx with hc
    · exact .inr (.inl ⟨List.mem_singleton.1 hx, hc⟩)
    · cases hx
  · split_ifs at hx with hc
    · exact .inr (.inr ⟨List.mem_singleton.1 hx, hc⟩)
    · cases hx

/-- The requests of the agent: conditions, or a status without a machine reference. -/
theorem agent_writes (h : AgentSide b a) {x : HostWrite} (hx : x ∈ hostWrites b a) :
    x = .conditions b a ∨ x = .status b a ∧ a.machineRef = b.machineRef := by
  rcases h.shape with hshape | ⟨network, details, rfl⟩
  · rw [ConditionsOnly] at hshape
    rcases mem_hostWrites hx with ⟨rfl, -⟩ | ⟨-, hc⟩ | ⟨-, hc⟩
    · exact .inl rfl
    · rw [hshape] at hc
      simp [ByoHost.changed] at hc
    · rw [hshape] at hc
      simp [ByoHost.statusChanged] at hc
  · rcases mem_hostWrites hx with ⟨-, hc⟩ | ⟨-, hc⟩ | ⟨rfl, -⟩
    · exact absurd rfl hc
    · simp [ByoHost.changed] at hc
    · exact .inr ⟨rfl, rfl⟩

/-- Every request of the agent commutes with every request of the manager. -/
theorem writes_commute (hagent : AgentSide b a) (hmanager : ManagerSide b' a') :
    ∀ x ∈ hostWrites b a, ∀ y ∈ hostWrites b' a', ∀ cur,
      HostWrite.apply (HostWrite.apply cur x) y = HostWrite.apply (HostWrite.apply cur y) x := by
  intro x hx y hy cur
  obtain ⟨hconditions, hdetails, hnetwork⟩ := hmanager.leaves
  rcases agent_writes hagent hx with rfl | ⟨rfl, href⟩
  · rcases mem_hostWrites hy with ⟨-, hc⟩ | ⟨rfl, -⟩ | ⟨rfl, -⟩
    · exact absurd hconditions.symm hc
    · rfl
    · rfl
  · rcases mem_hostWrites hy with ⟨-, hc⟩ | ⟨rfl, -⟩ | ⟨rfl, -⟩
    · exact absurd hconditions.symm hc
    · rfl
    · -- two patches of the status: the manager's has the machine reference, the agent's the rest
      simp only [HostWrite.apply, ByoHost.mergeStatus, href, hdetails, hnetwork, mergeRef_self,
        mergeHostInfo_self, mergeField_self]

end Sides

/-- Whatever the host on the server and the snapshots are, and in whatever order the requests of
the two sides arrive: the host is the same in the end, and each side finds its changes in it. -/
theorem no_lost_update (cur agentBefore agentAfter managerBefore managerAfter : ByoHost)
    (hagent : AgentSide agentBefore agentAfter) (hmanager : ManagerSide managerBefore managerAfter)
    (l : List HostWrite)
    (hl : Interleave (hostWrites agentBefore agentAfter) (hostWrites managerBefore managerAfter) l) :
    l.foldl HostWrite.apply cur =
        patched managerBefore managerAfter (patched agentBefore agentAfter cur) ∧
      l.foldl HostWrite.apply cur =
        patched agentBefore agentAfter (patched managerBefore managerAfter cur) ∧
      HasChanges agentBefore agentAfter (l.foldl HostWrite.apply cur) ∧
      HasChanges managerBefore managerAfter (l.foldl HostWrite.apply cur) := by
  have hcomm := writes_commute hagent hmanager
  have hagentFirst := foldl_interleave hl hcomm cur
  have hmanagerFirst := foldl_interleave hl.symm
    (fun y hy x hx cur => (hcomm x hx y hy cur).symm) cur
  refine ⟨hagentFirst, hmanagerFirst, ?_, ?_⟩
  · rw [hmanagerFirst]
    exact hasChanges_patched ..
  · rw [hagentFirst]
    exact hasChanges_patched ..

/-- The agent of a machine without a known release restarts while the manager marks its host. -/
theorem no_lost_update_restart :
    let h := Small.host "h1"
    let restarted := { h with
      network := [], hostDetails := { osName := "linux", osImage := "Unknown", architecture := "amd64" } }
    let marked := (HostEdit.mark false).apply h
    let r := (hostWrites h restarted ++ hostWrites h marked).foldl HostWrite.apply h
    r = patched h marked (patched h restarted h) ∧ r = patched h restarted (patched h marked h) ∧
      HasChanges h restarted r ∧ HasChanges h marked r :=
  no_lost_update (Small.host "h1") (Small.host "h1") _ (Small.host "h1") _
    (.updateHost ⟨none, none, fun _ => .ok "", "amd64", "linux"⟩ "" _ (by decide)) (.edit (.mark false))
    _ (.append _ _)

end Byoh.Properties
