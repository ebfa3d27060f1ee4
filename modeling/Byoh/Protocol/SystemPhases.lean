import Byoh.Protocol.Moves

/-!
# The phases of the whole system

The phase structures of the four reconcilers, put together for interleaved runs; then the facts
about labels and listings that proofs about attachment share.
-/

set_option autoImplicit false

namespace Byoh.Protocol

open Byoh.Foundation Byoh.Model Byoh.Model.ByoMachineReconciler

/-! ## Phases of threads -/

/-- The phase of a thread. -/
inductive Phase where
  | machine (q : MachinePhase)
  | config (q : ConfigPhase)
  | host (q : HostPhase)
  | agent (q : AgentPhase)

/-- One call of a thread. -/
inductive Next : Tid → Phase → (c : Call) → Resp c → Phase → Prop
  | machine {k : NamespacedName} {q q' : MachinePhase} {c : Call} {r : Resp c}
      (h : MachineNext k q c r q') : Next (.byoMachine k) (.machine q) c r (.machine q')
  | config {k : NamespacedName} {q q' : ConfigPhase} {c : Call} {r : Resp c}
      (h : ConfigNext k q c r q') : Next (.k8sInstallerConfig k) (.config q) c r (.config q')
  | host {k : NamespacedName} {q q' : HostPhase} {c : Call} {r : Resp c}
      (h : HostNext k q c r q') : Next (.byoHost k) (.host q) c r (.host q')
  | agent {k : NamespacedName} {q q' : AgentPhase} {c : Call} {r : Resp c}
      (h : AgentCall k q c r q') : Next (.agent k) (.agent q) c r (.agent q')

/-- What a thread does between calls. -/
inductive Silent (setup : Setup) : Tid → Phase → Phase → Prop
  | machine {k : NamespacedName} {q q' : MachinePhase} (h : MachineSilent q q') :
      Silent setup (.byoMachine k) (.machine q) (.machine q')
  | config {k : NamespacedName} {q q' : ConfigPhase} (h : ConfigSilent q q') :
      Silent setup (.k8sInstallerConfig k) (.config q) (.config q')
  | agent {k : NamespacedName} {q q' : AgentPhase} (h : AgentSilent setup.agent q q') :
      Silent setup (.agent k) (.agent q) (.agent q')

/-- The first phase of a thread. -/
def firstPhase : Tid → Phase
  | .byoMachine _ => .machine .start
  | .k8sInstallerConfig _ => .config .start
  | .byoHost _ => .host .start
  | .agent _ => .agent .start

/-- The phase of a thread whose program has returned. -/
def Done : Tid → Phase → Prop
  | .byoMachine _, q => q = .machine .done
  | .k8sInstallerConfig _, q => q = .config .done
  | .byoHost _, q => q = .host .done
  | .agent _, q => ∃ ran, q = .agent (.done ran)

theorem Reports.done {report : HostReconciler.Report} {q : AgentPhase} (h : Reports report q) :
    ∃ ran, Phase.agent q = .agent (.done ran) := by
  rcases h with ⟨_, _, rfl⟩ | ⟨h, log, h', _, _, rfl⟩
  · exact ⟨none, rfl⟩
  · exact ⟨some (h, log, h'), rfl⟩

/-- Every thread of the system follows its phases. -/
theorem system_follows (setup : Setup) (t : Tid) :
    Prog.Follows (Next t) (Silent setup t) (fun _ => Done t) ((system setup).prog t)
      (firstPhase t) := by
  cases t with
  | byoMachine k =>
    exact .bind (Prog.Follows.map Phase.machine (fun _ _ _ _ => .machine) (fun _ _ => .machine)
      (fun _ _ h => .ret (congrArg Phase.machine h)) (reconcile_follows k))
  | k8sInstallerConfig k =>
    exact .bind (Prog.Follows.map Phase.config (fun _ _ _ _ => .config) (fun _ _ => .config)
      (fun _ _ h => .ret (congrArg Phase.config h)) (configReconcile_follows _ k))
  | byoHost k =>
    exact .bind (Prog.Follows.map Phase.host (fun _ _ _ _ => .host) (fun _ _ => False.elim)
      (fun _ _ h => .ret (congrArg Phase.host h)) (hostReconcile_follows k))
  | agent k =>
    exact .bind (Prog.Follows.map Phase.agent (fun _ _ _ _ => .agent) (fun _ _ => .agent)
      (fun _ _ h => .ret h.done) (agentReconcile_follows setup.agent k))

/-- What threads other than reconciles of machines do to hosts and machines. -/
theorem Next.sheds {t : Tid} {q q' : Phase} {c : Call} {o : Outcome} {w : World}
    (h : Next t q c (exec o c w).1 q') (ht : ∀ k, t ≠ .byoMachine k) :
    HostsVia Sheds w (exec o c w).2 ∧ (exec o c w).2.machines = w.machines := by
  cases h with
  | machine _ => exact absurd rfl (ht _)
  | config h => exact ⟨.of_hosts_eq .refl (h.frame o w).1, (h.frame o w).2.1⟩
  | host h => exact ⟨h.move.sheds, h.move.machines_eq⟩
  | agent h => exact ⟨h.move.sheds, h.move.machines_eq⟩

/-- A thread may start: any reconcile of the agents and of the other two controllers, and a
reconcile of a machine of `names` when no other machine of `names` is being reconciled. -/
def OneAtATime (names : List NamespacedName) (busy : Tid → Bool) : Tid → Prop
  | .byoMachine k => k ∈ names ∧ ∀ k' ∈ names, busy (.byoMachine k') = false
  | _ => True

instance (names : List NamespacedName) (busy : Tid → Bool) (t : Tid) :
    Decidable (OneAtATime names busy t) :=
  match t with
  | .byoMachine _ => inferInstanceAs (Decidable (_ ∧ _))
  | .k8sInstallerConfig _ | .byoHost _ | .agent _ => inferInstanceAs (Decidable True)

/-- Threads that are not both reconciles of machines of `names`. -/
def NotBothMachines (names : List NamespacedName) (t t' : Tid) : Prop :=
  ∀ k ∈ names, ∀ k' ∈ names, t = .byoMachine k → t' ≠ .byoMachine k'

theorem NotBothMachines.symm {names : List NamespacedName} {t t' : Tid}
    (h : NotBothMachines names t t') : NotBothMachines names t' t :=
  fun k hk k' hk' ht ht' => h k' hk' k hk ht' ht

theorem OneAtATime.notBothMachines {names : List NamespacedName} {busy : Tid → Bool} {t : Tid}
    (h : OneAtATime names busy t) (t' : Tid) (ht' : busy t' = true) :
    NotBothMachines names t t' := by
  rintro k hk k' hk' rfl rfl
  rw [h.2 k' hk'] at ht'
  cases ht'

/-! ## Machines -/

/-- The action neither creates a machine nor delivers to an informer. -/
def noCreation : EnvAction → Bool
  | .createByoMachine _ | .deliver _ => false
  | _ => true

/-- Machines are stored under their keys. -/
def MachinesKeyed (w : World) : Prop := ∀ k m, w.machines.lookup k = some m → m.key = k

theorem MachinesKeyed.of_eq {w w' : World} (hw : MachinesKeyed w)
    (h : w'.machines = w.machines) : MachinesKeyed w' := by
  rw [MachinesKeyed, h]
  exact hw

theorem MachinesKeyed.setMachine {w : World} (hw : MachinesKeyed w) {key : NamespacedName}
    {m : ByoMachine} (hkey : m.key = key) : MachinesKeyed (w.setMachine key m) := by
  intro k' m' hm'
  by_cases hk : k' = key
  · subst hk
    rw [setMachine_lookup_self] at hm'
    split at hm'
    · cases hm'
    · cases hm'
      exact hkey
  · rw [setMachine_lookup_ne w hk] at hm'
    exact hw k' m' hm'

/-- The environment stores machines under their keys. -/
theorem MachinesKeyed.env {a : EnvAction} {w w' : World} (hw : MachinesKeyed w)
    (henv : envStep a w = some w') : MachinesKeyed w' := by
  cases a <;> simp only [envStep, Option.map_eq_some_iff, Option.some.injEq] at henv
  case createByoMachine m =>
    split at henv
    · cases henv
    · cases henv
      exact forall_lookup_insert hw rfl
  case deleteByoMachine key =>
    obtain ⟨m, hm, rfl⟩ := henv
    exact hw.setMachine (hw key m hm)
  case pauseByoMachine key paused =>
    obtain ⟨m, hm, rfl⟩ := henv
    exact hw.setMachine (hw key m hm)
  case deliver key =>
    obtain ⟨_, _, rfl⟩ := henv
    exact hw
  all_goals
    subst henv
    exact hw

/-- The machine is gone or under deletion. -/
def Deleting (k : NamespacedName) (w : World) : Prop :=
  ∀ m, w.machines.lookup k = some m → m.deletionTimestamp = true

/-- A write to a machine that does not touch its deletion timestamp. -/
theorem Deleting.setMachine {k key : NamespacedName} {w : World} {cur m : ByoMachine}
    (h : Deleting k w) (hcur : w.machines.lookup key = some cur)
    (hm : cur.deletionTimestamp = true → m.deletionTimestamp = true) :
    Deleting k (w.setMachine key m) := by
  intro m' hm'
  by_cases hk : k = key
  · subst hk
    rw [setMachine_lookup_self] at hm'
    split at hm'
    · cases hm'
    · cases hm'
      exact hm (h cur hcur)
  · rw [setMachine_lookup_ne w hk] at hm'
    exact h m' hm'

/-- Deletion is final as long as machines are not created again. -/
theorem Deleting.env {k : NamespacedName} {a : EnvAction} {w w' : World} (h : Deleting k w)
    (ha : noCreation a = true) (henv : envStep a w = some w') : Deleting k w' := by
  cases a <;> simp only [envStep, Option.map_eq_some_iff, Option.some.injEq] at henv
  case createByoMachine m => cases ha
  case deliver key => cases ha
  case deleteByoMachine key =>
    obtain ⟨m, hm, rfl⟩ := henv
    exact h.setMachine hm fun _ => rfl
  case pauseByoMachine key paused =>
    obtain ⟨m, hm, rfl⟩ := henv
    exact h.setMachine hm id
  all_goals
    subst henv
    exact h

/-! ## Labels -/

/-- The host carries the label value of the machine `k`. -/
def Labelled (k : NamespacedName) (h : ByoHost) : Prop := h.attachedLabel = some k.labelValue

instance (k : NamespacedName) (h : ByoHost) : Decidable (Labelled k h) :=
  inferInstanceAs (Decidable (_ = _))

/-- The reference names the machine `k`. -/
def NamesMachine (k : NamespacedName) (ref : ObjectReference) : Prop :=
  ref.kind = "ByoMachine" ∧ ref.ns = k.ns ∧ ref.name = k.name

/-- No host on the server carries the label value of `k`. -/
def NoneLabelled (k : NamespacedName) (w : World) : Prop :=
  ∀ k' h, w.hosts.lookup k' = some h → ¬Labelled k h

/-- No two hosts carry the same value of `AttachedByoMachineLabel`. -/
def UniqueLabels (w : World) : Prop :=
  ∀ k₁ h₁ k₂ h₂, w.hosts.lookup k₁ = some h₁ → w.hosts.lookup k₂ = some h₂ →
    h₁.attachedLabel ≠ none → h₁.attachedLabel = h₂.attachedLabel → k₁ = k₂

/-- Labels stay unique when hosts keep or lose them. -/
theorem UniqueLabels.of_hostsVia {w w' : World} {R : ByoHost → ByoHost → Prop} (hw : HostsVia R w w')
    (hR : ∀ b b', R b b' → b'.attachedLabel = b.attachedLabel ∨ b'.attachedLabel = none)
    (h : UniqueLabels w) : UniqueLabels w' := by
  intro k₁ b₁' k₂ b₂' hb₁' hb₂' hsome heq
  obtain ⟨b₁, hb₁, hs₁⟩ := hw.of_some hb₁'
  obtain ⟨b₂, hb₂, hs₂⟩ := hw.of_some hb₂'
  have h₁ : b₁'.attachedLabel = b₁.attachedLabel := (hR _ _ hs₁).resolve_right hsome
  have h₂ : b₂'.attachedLabel = b₂.attachedLabel := (hR _ _ hs₂).resolve_right (heq ▸ hsome)
  exact h k₁ b₁ k₂ b₂ hb₁ hb₂ (h₁ ▸ hsome) (h₁.symm.trans (heq.trans h₂))

/-- A host gets a label that no host had, or keeps its label. -/
theorem UniqueLabels.setHost {w : World} {k key : NamespacedName} {cur h : ByoHost}
    (hw : UniqueLabels w)
    (hcur : w.hosts.lookup key = some cur) (hnone : NoneLabelled k w)
    (hlabel : h.attachedLabel = cur.attachedLabel ∨ Labelled k h) :
    UniqueLabels (w.setHost key h) := by
  -- the labels of other hosts are as before, and none of them is that of `k`
  have hother : ∀ k' b, k' ≠ key → w.hosts.lookup k' = some b → h.attachedLabel ≠ none →
      h.attachedLabel ≠ b.attachedLabel := by
    intro k' b hne hb hsome heq
    rcases hlabel with hsame | hl
    · exact hne (hw key cur k' b hcur hb (hsame ▸ hsome) (hsame.symm.trans heq)).symm
    · exact hnone k' b hb (heq.symm.trans hl)
  intro k₁ b₁ k₂ b₂ hb₁ hb₂ hsome heq
  rcases lookup_insert_some hb₁ with ⟨rfl, rfl⟩ | ⟨h₁, hold₁⟩ <;>
    rcases lookup_insert_some hb₂ with ⟨rfl, rfl⟩ | ⟨h₂, hold₂⟩
  · rfl
  · exact absurd heq (hother k₂ b₂ h₂ hold₂ hsome)
  · exact absurd heq.symm (hother k₁ b₁ h₁ hold₁ (heq ▸ hsome))
  · exact hw k₁ b₁ k₂ b₂ hold₁ hold₂ hsome heq

/-- All hosts with the label of `k` are stored under `key`. -/
def OnlyLabelled (k key : NamespacedName) (w : World) : Prop :=
  ∀ k' h, w.hosts.lookup k' = some h → Labelled k h → k' = key

/-- Different machines have different label values. -/
def DistinctLabels (names : List NamespacedName) : Prop :=
  ∀ k ∈ names, ∀ k' ∈ names, k.labelValue = k'.labelValue → k = k'

instance (names : List NamespacedName) : Decidable (DistinctLabels names) :=
  inferInstanceAs (Decidable (∀ k ∈ names, ∀ k' ∈ names, _ → _))

/-- The label written to a host is that of the machine. -/
theorem attachmentFor_label {s : Scope} {k : NamespacedName} (hk : s.byoMachine.key = k)
    (dataSecretName version : String) :
    (attachmentFor s dataSecretName version).byoMachineLabel = k.labelValue := by
  subst hk
  rfl

/-- An edit that does not attach leaves the two labels of an attachment alone. -/
theorem HostEdit.apply_labels {e : HostEdit} (he : e.isAttach = false) (h : ByoHost) :
    (e.apply h).attachedLabel = h.attachedLabel ∧ (e.apply h).clusterLabel = h.clusterLabel := by
  cases e with
  | pause b => cases b <;> exact ⟨rfl, rfl⟩
  | mark u =>
    cases u <;> simp [apply, markedHost, ByoHost.attachedLabel, ByoHost.clusterLabel]
  | attach a => cases he
  | install ref => exact ⟨rfl, rfl⟩
  | uninstall ref => exact ⟨rfl, rfl⟩

/-- Edits other than the attachment leave the labels. -/
theorem HostEdit.merge_labels {e : HostEdit} (he : e.isAttach = false) (h cur : ByoHost) :
    (h.merge (e.apply h) cur).attachedLabel = cur.attachedLabel ∧
      (h.merge (e.apply h) cur).clusterLabel = cur.clusterLabel := by
  obtain ⟨ha, hc⟩ := e.apply_labels he h
  rw [ByoHost.merge_attachedLabel, ByoHost.merge_clusterLabel, ha, hc, mergeField_self,
    mergeField_self]
  exact ⟨rfl, rfl⟩

/-- Attaching a host that was read from the capacity pool sets both labels. -/
theorem merge_attach_labels (a : Attachment) {h : ByoHost} (hc : h.clusterLabel = none)
    (hp : h.LabelsPaired) (cur : ByoHost) :
    (h.merge ((HostEdit.attach a).apply h) cur).attachedLabel = some a.byoMachineLabel ∧
      (h.merge ((HostEdit.attach a).apply h) cur).clusterLabel = some a.clusterName := by
  have ha : h.attachedLabel = none := hp.1 hc
  have h₁ : ((HostEdit.attach a).apply h).attachedLabel = some a.byoMachineLabel := by
    simp [HostEdit.apply, Attachment.apply, ByoHost.attachedLabel]
  have h₂ : ((HostEdit.attach a).apply h).clusterLabel = some a.clusterName := by
    simp [HostEdit.apply, Attachment.apply, ByoHost.clusterLabel]
  rw [ByoHost.merge_attachedLabel, ByoHost.merge_clusterLabel, h₁, h₂, ha, hc]
  exact ⟨rfl, rfl⟩

/-- Manager writes to a server host keep the labels paired if the host in memory is paired. -/
theorem HostEdit.merge_paired (e : HostEdit) {h cur : ByoHost} (hcur : cur.LabelsPaired)
    (hattach : e.isAttach = true → h.clusterLabel = none ∧ h.LabelsPaired) :
    (h.merge (e.apply h) cur).LabelsPaired := by
  cases he : e.isAttach with
  | false =>
    obtain ⟨ha, hc⟩ := HostEdit.merge_labels he h cur
    rw [ByoHost.LabelsPaired, ha, hc]
    exact hcur
  | true =>
    cases e with
    | attach a =>
      obtain ⟨hc, hp⟩ := hattach he
      obtain ⟨ha, hc'⟩ := merge_attach_labels a hc hp cur
      simp [ByoHost.LabelsPaired, ha, hc']
    | _ => cases he

/-! ## Listings -/

/-- The selector of a machine picks the hosts that carry its label. -/
theorem attachedSelector_matches (m : ByoMachine) (h : ByoHost) :
    (attachedSelector m).matches h.labels = true ↔ Labelled m.key h := by
  simp only [attachedSelector, Selector.matches, List.all_cons, List.all_nil, Bool.and_true,
    Requirement.matches, Labelled, ByoHost.attachedLabel]
  cases h.labels.get .attachedByoMachine with
  | none => simp
  | some v => simp [NamespacedName.labelValue, ByoMachine.key]

/-- The host that was fetched carries the label. -/
theorem labelled_of_fetched {w : World} {m : ByoMachine} {pick : Nat} {h : ByoHost}
    (hh : (listHosts w (attachedSelector m) none pick).head? = some h) :
    (∃ k, w.hostView.lookup k = some h) ∧ Labelled m.key h := by
  have hmem := mem_listHosts.1 (List.mem_of_head? hh)
  exact ⟨hmem.1, (attachedSelector_matches m h).1 hmem.2.1⟩

/-- If no host was fetched, none in the view carries the label. -/
theorem not_labelled_of_fetched {w : World} {m : ByoMachine} {pick : Nat}
    (hh : (listHosts w (attachedSelector m) none pick).head? = none) {k : NamespacedName}
    {h : ByoHost} (hk : w.hostView.lookup k = some h) : ¬Labelled m.key h := by
  intro hl
  have hmem : h ∈ listHosts w (attachedSelector m) none pick :=
    mem_listHosts.2 ⟨⟨k, hk⟩, (attachedSelector_matches m h).2 hl, rfl⟩
  rw [List.head?_eq_none_iff.1 hh] at hmem
  cases hmem

/-- A host that was picked is, in the view, in no cluster. -/
theorem clusterLabel_of_listed {w : World} {selector : Selector} {ns : Option String} {pick : Nat}
    {h : ByoHost} (hh : h ∈ listHosts w (selector ++ [notInCluster]) ns pick) :
    (∃ k, w.hostView.lookup k = some h) ∧ h.clusterLabel = none := by
  obtain ⟨hk, hsel, -⟩ := mem_listHosts.1 hh
  refine ⟨hk, ?_⟩
  rw [Selector.matches_append, Bool.and_eq_true] at hsel
  simpa [Selector.matches, Requirement.matches, notInCluster, ByoHost.clusterLabel] using hsel.2

end Byoh.Protocol
