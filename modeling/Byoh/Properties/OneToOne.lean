import Byoh.Foundation.RelyGuarantee
import Byoh.Protocol.ManagerWrites
import Byoh.Protocol.SystemPhases

/-!
# Attachment is one-to-one when listings are fresh enough

The ByoMachine controller lists hosts from an informer cache twice: to find the host that is
attached to its machine, and to pick a host from the capacity pool. Between a listing and the patch
there is no precondition on the version of the host.

A cache that lags behind breaks both halves of a one-to-one attachment (`stale_cache_steals`): a
machine takes a second host, and a machine takes the host of another one. If the first listing does
not miss an attached host and the second one does not show a taken host as free, then the labels
are unique in every state, and no write of an attachment ever hits a host of another machine
(`attachment_one_to_one`). Machines are reconciled one after another; agents, the other controllers,
deliveries to the cache and users interleave with them in any way, and any call may fail.
-/

set_option autoImplicit false

namespace Byoh.Properties

open Byoh.Foundation Byoh.Model Byoh.Protocol Byoh.Model.ByoMachineReconciler

/-! ## Statement -/

/-- The host is attached to a machine other than `k`, by its label or by its machine reference. -/
def AttachedElsewhere (k : NamespacedName) (h : ByoHost) : Prop :=
  (∃ v, h.attachedLabel = some v ∧ v ≠ k.labelValue) ∨
    ∃ ref, h.machineRef = some ref ∧ ¬NamesMachine k ref

/-- The host to which a call writes labels of an attachment, bootstrap secret or machine
reference. -/
def attachmentTarget : Call → Option NamespacedName
  | .patchByoHost key before after =>
      if before.attachedLabel = after.attachedLabel ∧ before.clusterLabel = after.clusterLabel ∧
        before.bootstrapSecret = after.bootstrapSecret then none
      else some key
  | .patchByoHostStatus key before after =>
      if before.machineRef = after.machineRef then none else some key
  | _ => none

/-- No reconcile of a machine is about to write its attachment to a host of another machine. -/
def NeverSteals (names : List NamespacedName) (σ : Pool Call Resp World Tid) : Prop :=
  ∀ k ∈ names, ∀ c rest, σ.thread (.byoMachine k) = some (.call c rest) →
    ∀ key, attachmentTarget c = some key →
      ∀ h, σ.store.hosts.lookup key = some h → ¬AttachedElsewhere k h

/-- Machines are reconciled one after another, everything else at any time. -/
def workerRules (names : List NamespacedName) : Rules Call Outcome World Tid EnvAction where
  start := fun _ busy t => OneAtATime names busy t

/-- A listing is fresh enough: the one for the hosts of a machine finds a host if there is one on
the server, and the one of the capacity pool shows no host that is taken on the server. -/
def freshEnough (w : World) : Call → Bool
  | .listByoHosts selector none =>
      w.hostView.entries.any (fun e => selector.matches e.2.labels) ||
        w.hosts.entries.all fun e => !selector.matches e.2.labels
  | .listByoHosts _ (some _) =>
      w.hostView.entries.all fun e => e.2.clusterLabel.isSome || (w.hosts.lookup e.2.key).all
        fun cur => cur.attachedLabel.isNone && cur.machineRef.isNone
  | _ => true

/-- The same, with listings that are fresh enough. -/
def freshRules (names : List NamespacedName) : Rules Call Outcome World Tid EnvAction :=
  { workerRules names with call := fun w _ _ c => freshEnough w c = true }

instance (names : List NamespacedName) : DecidableRules (workerRules names) where
  start _ busy t := inferInstanceAs (Decidable (OneAtATime names busy t))
  call _ _ _ _ := inferInstanceAs (Decidable True)
  env _ _ _ := inferInstanceAs (Decidable True)

instance (names : List NamespacedName) : DecidableRules (freshRules names) where
  start _ busy t := inferInstanceAs (Decidable (OneAtATime names busy t))
  call w _ _ c := inferInstanceAs (Decidable (freshEnough w c = true))
  env _ _ _ := inferInstanceAs (Decidable True)

/-! ## Facts about the server -/

/-- The host under `key` is attached to no machine, or by its label to `k`. -/
def FreeFor (k key : NamespacedName) (w : World) : Prop :=
  ∀ cur, w.hosts.lookup key = some cur →
    (cur.attachedLabel = none ∨ Labelled k cur) ∧ cur.machineRef = none

/-- What holds in every state. -/
structure Attachments (w : World) : Prop where
  machines : MachinesKeyed w
  unique : UniqueLabels w

section Shed

variable {k : NamespacedName} {w w' : World}

theorem noneLabelled_of_sheds (hw : HostsVia Sheds w w') (h : NoneLabelled k w) :
    NoneLabelled k w' := by
  intro k' b' hb' hl
  obtain ⟨b, hb, hsheds⟩ := hw.of_some hb'
  rcases hsheds.label with hsame | hnone
  · exact h k' b hb (hsame.symm.trans hl)
  · rw [Labelled, hnone] at hl
    cases hl

theorem freeFor_of_sheds {key : NamespacedName} (hw : HostsVia Sheds w w') (h : FreeFor k key w) :
    FreeFor k key w' := by
  intro b' hb'
  obtain ⟨b, hb, hsheds⟩ := hw.of_some hb'
  obtain ⟨hlabel, href⟩ := h b hb
  constructor
  · rcases hsheds.label with hsame | hnone
    · rw [Labelled, hsame]
      exact hlabel
    · exact .inl hnone
  · rcases hsheds.machineRef with hsame | hnone
    · exact hsame.trans href
    · exact hnone

theorem Attachments.of_sheds (hw : HostsVia Sheds w w') (hkeys : MachinesKeyed w')
    (h : Attachments w) : Attachments w' :=
  ⟨hkeys, h.unique.of_hostsVia hw fun _ _ hsheds => hsheds.label⟩

end Shed

/-! ## The reconcile of a machine -/

/-- What holds while the reconcile of `k` is in a phase. -/
def Attaching (k : NamespacedName) (w : World) : MachinePhase → Prop
  | .start => True
  | .owner m => m.key = k
  | .cluster m _ => m.key = k
  | .infra m _ _ => m.key = k
  | .fetch s => s.byoMachine.key = k
  | .body s none => s.byoMachine.key = k ∧ NoneLabelled k w
  | .create s none _ => s.byoMachine.key = k ∧ NoneLabelled k w
  | .write _ (.attach a) h .spec _ =>
      a.byoMachineLabel = k.labelValue ∧ NoneLabelled k w ∧ FreeFor k h.key w
  | .write _ (.attach _) h .status _ => FreeFor k h.key w
  | _ => True

section Moves

variable {k : NamespacedName} {w w' : World} {o : Outcome} {q : MachinePhase} {s : Scope}
  {h : ByoHost}

theorem Attaching.mono (hH : Attaching k w q) (hw : HostsVia Sheds w w') : Attaching k w' q := by
  cases q with
  | body s host =>
    cases host with
    | none => exact ⟨hH.1, noneLabelled_of_sheds hw hH.2⟩
    | some h => trivial
  | create s host config =>
    cases host with
    | none => exact ⟨hH.1, noneLabelled_of_sheds hw hH.2⟩
    | some h => trivial
  | write s e h part failed =>
    cases e with
    | attach a =>
      cases part with
      | spec => exact ⟨hH.1, noneLabelled_of_sheds hw hH.2.1, freeFor_of_sheds hw hH.2.2⟩
      | status => exact freeFor_of_sheds hw hH
      | done => trivial
    | _ => trivial
  | _ => exact hH

/-- A write that does not attach. -/
theorem attaching_write {e : HostEdit} {part : HostPart} {failed : Bool} (he : e.isAttach = false) :
    Attaching k w (.write s e h part failed) := by
  cases e with
  | attach a => cases he
  | _ => trivial

/-- The listing of the hosts of the machine misses none. -/
theorem attaching_fetched {pick : Nat} (hkey : s.byoMachine.key = k)
    (hfresh : freshEnough w (.listByoHosts (attachedSelector s.byoMachine) none) = true) :
    Attaching k w (.body s (listHosts w (attachedSelector s.byoMachine) none pick).head?) := by
  subst hkey
  cases hhead : (listHosts w (attachedSelector s.byoMachine) none pick).head? with
  | some h => trivial
  | none =>
    refine ⟨rfl, fun k' h hh hl => ?_⟩
    simp only [freshEnough, Bool.or_eq_true, List.any_eq_true, List.all_eq_true,
      Bool.not_eq_true'] at hfresh
    rcases hfresh with ⟨e, he, hmatch⟩ | hnone
    · -- the cache has a host of the machine, but none was listed
      exact not_labelled_of_fetched hhead (AList.mem_lookup_iff.2 he)
        ((attachedSelector_matches _ _).1 hmatch)
    · have hmatch := hnone ⟨k', h⟩ (AList.mem_lookup_iff.1 hh)
      rw [(attachedSelector_matches _ _).2 hl] at hmatch
      cases hmatch

/-- The listing of the capacity pool shows only free hosts. -/
theorem freeFor_listed {selector : Selector} {ns : String} {pick : Nat}
    (hh : h ∈ listHosts w (selector ++ [notInCluster]) (some ns) pick)
    (hfresh : freshEnough w (.listByoHosts (selector ++ [notInCluster]) (some ns)) = true) :
    FreeFor k h.key w := by
  obtain ⟨⟨k', hview⟩, hcluster⟩ := clusterLabel_of_listed hh
  intro cur hcur
  simp only [freshEnough, List.all_eq_true] at hfresh
  have hfree := hfresh ⟨k', h⟩ (AList.mem_lookup_iff.1 hview)
  simp only [hcluster, hcur, Option.isSome_none, Bool.false_or, Option.all_some, Bool.and_eq_true,
    Option.isNone_iff_eq_none] at hfree
  exact ⟨.inl hfree.1, hfree.2⟩

/-- The request that writes metadata and spec of a host. -/
theorem attaching_specWritten (hG : Attachments w) {e : HostEdit} {cur : ByoHost} {failed : Bool}
    (hH : Attaching k w (.write s e h .spec failed)) (hcur : w.hosts.lookup h.key = some cur) :
    Attachments (w.setHost h.key (h.merge (e.apply h) cur)) ∧
      Attaching k (w.setHost h.key (h.merge (e.apply h) cur)) (.write s e h .status failed) := by
  cases he : e.isAttach with
  | false =>
    have hsheds : HostsVia Sheds w (w.setHost h.key (h.merge (e.apply h) cur)) :=
      .setHost .refl hcur ⟨.inl (HostEdit.merge_labels he h cur).1, .inl rfl⟩
    exact ⟨hG.of_sheds hsheds hG.machines, attaching_write he⟩
  | true =>
    cases e with
    | attach a =>
      obtain ⟨hlabel, hnone, hfree⟩ := hH
      have hafter : ((HostEdit.attach a).apply h).attachedLabel = some k.labelValue := by
        simp [HostEdit.apply, Attachment.apply, ByoHost.attachedLabel, hlabel]
      have hmerge : (h.merge ((HostEdit.attach a).apply h) cur).attachedLabel = cur.attachedLabel ∨
          Labelled k (h.merge ((HostEdit.attach a).apply h) cur) := by
        rw [Labelled, ByoHost.merge_attachedLabel, hafter, mergeField]
        split
        · exact .inl rfl
        · exact .inr rfl
      refine ⟨⟨hG.machines, hG.unique.setHost hcur hnone hmerge⟩, fun b hb => ?_⟩
      rw [World.setHost, AList.lookup_insert] at hb
      cases hb
      refine ⟨?_, (hfree cur hcur).2⟩
      rcases hmerge with hsame | hl
      · rw [Labelled, hsame]
        exact (hfree cur hcur).1
      · exact .inr hl
    | _ => cases he

/-- The request that writes the status of a host. -/
theorem attachments_statusWritten (hG : Attachments w) (e : HostEdit) {cur : ByoHost}
    (hcur : w.hosts.lookup h.key = some cur) :
    Attachments (w.setHost h.key (h.mergeStatus (e.apply h) cur)) := by
  have hlabels : HostsVia (fun b b' => b'.attachedLabel = b.attachedLabel) w
      (w.setHost h.key (h.mergeStatus (e.apply h) cur)) :=
    HostsVia.setHost (R := fun b b' => b'.attachedLabel = b.attachedLabel) (fun _ => rfl) hcur rfl
  exact ⟨hG.machines, hG.unique.of_hostsVia hlabels fun _ _ => .inl⟩

/-- One call of the reconcile of `k`. -/
theorem Attaching.move (hG : Attachments w) {q' : MachinePhase} {c : Call} (hH : Attaching k w q)
    (hfresh : freshEnough w c = true) (hmove : MachineMove k o w q c q' w') :
    Attachments w' ∧ Attaching k w' q' := by
  cases hmove with
  | read hm => exact ⟨hG, hG.machines k _ hm⟩
  | owner _ _ => exact ⟨hG, hH⟩
  | cluster _ _ => exact ⟨hG, hH⟩
  | infra => exact ⟨hG, hH⟩
  | quit => exact ⟨hG, trivial⟩
  | fetched => exact ⟨hG, attaching_fetched hH hfresh⟩
  | fetchFailed => exact ⟨hG, trivial⟩
  | look hw =>
    obtain ⟨nodes, rfl⟩ := hw
    exact ⟨⟨hG.machines, hG.unique⟩, hH.mono (.of_hosts_eq .refl rfl)⟩
  | @template s host _ _ _ _ _ _ _ _ _ _ =>
    refine ⟨hG, ?_⟩
    cases host with
    | none => exact hH
    | some h => trivial
  | @created s host config _ =>
    refine ⟨⟨hG.machines, hG.unique⟩, ?_⟩
    cases host with
    | none => exact hH
    | some h => trivial
  | @notCreated s host =>
    refine ⟨hG, ?_⟩
    cases host with
    | none => exact hH
    | some h => trivial
  | listed _ _ _ hh =>
    -- here the freshness of the list is needed: a stale one may name a host in use
    exact ⟨hG, attachmentFor_label hH.1 _ _, hH.2, freeFor_listed (List.mem_of_head? hh) hfresh⟩
  | installReady _ _ _ _ _ _ => exact ⟨hG, trivial⟩
  | uninstallReady _ _ _ _ _ _ => exact ⟨hG, trivial⟩
  | specWritten hcur => exact attaching_specWritten hG hH hcur
  | @specFailed s e h failed _ =>
    refine ⟨hG, ?_⟩
    cases e with
    | attach a => exact hH.2.2
    | _ => trivial
  | @statusWritten s e h cur failed _ hcur =>
    refine ⟨attachments_statusWritten hG e hcur, ?_⟩
    cases e <;> trivial
  | @statusFailed s e h failed _ _ =>
    refine ⟨hG, ?_⟩
    cases e <;> trivial
  | @machineWritten s how m cur m' part _ _ hcur hm' =>
    have hkey : m'.key = m.key := by
      rw [hm'.rest]
      exact hG.machines m.key cur hcur
    refine ⟨⟨hG.machines.setMachine hkey, hG.unique⟩, ?_⟩
    cases part <;> trivial
  | @machineFailed s how m part =>
    refine ⟨hG, ?_⟩
    cases part <;> trivial

/-- What happens between calls. -/
theorem Attaching.step {q' : MachinePhase} (hH : Attaching k w q) (hstep : MachineSilent q q') :
    Attaching k w q' := by
  cases hstep with
  | @skipSpec s e h failed _ =>
    cases e with
    | attach a => exact hH.2.2
    | _ => trivial
  | @skipStatus s e h failed _ => cases e <;> trivial
  | @wrote s e h _ => trivial
  | _ => trivial

end Moves

/-! ## Runs -/

/-- What holds while a thread is in a phase. -/
def AttachingThread (names : List NamespacedName) : Tid → World → Option Phase → Prop
  | .byoMachine k, w, some (.machine q) => k ∈ names ∧ Attaching k w q
  | _, _, _ => True

theorem attachingThread_none {names : List NamespacedName} {t : Tid} {w : World} :
    AttachingThread names t w none := by
  cases t <;> trivial

theorem attachingThread_of_ne {names : List NamespacedName} {t : Tid} {w : World}
    {q : Option Phase} (ht : ∀ k, t ≠ .byoMachine k) : AttachingThread names t w q := by
  cases t with
  | byoMachine k => exact absurd rfl (ht k)
  | _ => trivial

theorem AttachingThread.mono {names : List NamespacedName} {t : Tid} {w w' : World}
    {q : Option Phase} (hH : AttachingThread names t w q) (hw : HostsVia Sheds w w') :
    AttachingThread names t w' q := by
  by_cases ht : ∃ k, t = .byoMachine k
  · obtain ⟨k, rfl⟩ := ht
    match q with
    | some (.machine q) => exact ⟨hH.1, hH.2.mono hw⟩
    | some (.config _) | some (.host _) | some (.agent _) | none => trivial
  · exact attachingThread_of_ne fun k hk => ht ⟨k, hk⟩

/-- While a machine is reconciled, the other busy threads are not reconciles of machines. -/
theorem attachingThread_of_compat {names : List NamespacedName} {k : NamespacedName} {t' : Tid}
    {w : World} {q : Option Phase} (hk : k ∈ names)
    (hcompat : q.isSome = true → NotBothMachines names (.byoMachine k) t')
    (hH : AttachingThread names t' w q) (w' : World) : AttachingThread names t' w' q := by
  by_cases ht : ∃ k', t' = .byoMachine k'
  · obtain ⟨k', rfl⟩ := ht
    match q with
    | some (.machine q) => exact absurd rfl (hcompat rfl k hk k' hH.1 rfl)
    | some (.config _) | some (.host _) | some (.agent _) | none => trivial
  · exact attachingThread_of_ne fun k' hk' => ht ⟨k', hk'⟩

/-- The facts about the server and those of the reconcile of a machine, kept by all steps. -/
theorem attachments_relyGuarantee (setup : Setup) (names : List NamespacedName) :
    RelyGuarantee (system setup) (freshRules names) Next (Silent setup) firstPhase
      Done (NotBothMachines names) Attachments (AttachingThread names) where
  follows := system_follows setup
  symm := NotBothMachines.symm
  exclude := fun hstart t' ht' _ => OneAtATime.notBothMachines hstart t' ht'
  start := by
    intro w busy t _ _ hstart
    cases t with
    | byoMachine k => exact ⟨hstart.1, trivial⟩
    | _ => trivial
  call := by
    intro w t q o c q' hG hH hfresh hnext
    by_cases ht : ∃ k, t = .byoMachine k
    · obtain ⟨k, rfl⟩ := ht
      cases hnext with
      | machine hnext =>
        obtain ⟨hG', hH'⟩ := hH.2.move hG hfresh hnext.move
        exact ⟨hG', hH.1, hH'⟩
    · obtain ⟨hsheds, hmachines⟩ := hnext.sheds fun k hk => ht ⟨k, hk⟩
      exact ⟨hG.of_sheds hsheds (hG.machines.of_eq hmachines),
        attachingThread_of_ne fun k hk => ht ⟨k, hk⟩⟩
  others := by
    intro w t q o c q' t' q₁ hG hH hfresh hnext hne hcompat hH₁
    by_cases ht : ∃ k, t = .byoMachine k
    · obtain ⟨k, rfl⟩ := ht
      cases hnext with
      | machine hnext => exact attachingThread_of_compat hH.1 hcompat hH₁ _
    · exact hH₁.mono (hnext.sheds fun k hk => ht ⟨k, hk⟩).1
  silent := by
    intro w t q q' hG hH hstep
    cases hstep with
    | machine hstep => exact ⟨hH.1, hH.2.step hstep⟩
    | _ => trivial
  finish := fun _ _ _ => attachingThread_none
  env := by
    intro w busy a w' hG _ henv
    have hsheds : HostsVia Sheds w w' := .of_hosts_eq .refl (envStep_hosts henv)
    exact ⟨hG.of_sheds hsheds (hG.machines.env henv), fun _ _ hH => hH.mono hsheds⟩

/-- Only an attachment writes labels, bootstrap secret or machine reference. -/
theorem HostEdit.attachmentTarget_eq_none {e : HostEdit} (he : e.isAttach = false)
    (key : NamespacedName) (h : ByoHost) :
    attachmentTarget (.patchByoHost key h (e.apply h)) = none ∧
      attachmentTarget (.patchByoHostStatus key h (e.apply h)) = none := by
  obtain ⟨hlabel, hcluster⟩ := e.apply_labels he h
  simp [attachmentTarget, hlabel, hcluster, e.apply_machineRef he h, e.apply_bootstrapSecret he h]

theorem not_attachedElsewhere {k key : NamespacedName} {w : World} {h : ByoHost}
    (hfree : FreeFor k key w) (hh : w.hosts.lookup key = some h) : ¬AttachedElsewhere k h := by
  obtain ⟨hlabel, href⟩ := hfree h hh
  rintro (⟨v, hv, hne⟩ | ⟨ref, hr, -⟩)
  · rcases hlabel with hnone | hl
    · cases hnone.symm.trans hv
    · exact hne (Option.some.inj (hv.symm.trans hl))
  · cases href.symm.trans hr

/-- The next call of a reconcile of `k` does not write its attachment to a host of another
machine. -/
theorem Attaching.not_attachedElsewhere {k key : NamespacedName} {w : World} {q q' : MachinePhase}
    {c : Call} {r : Resp c} {h : ByoHost} (hH : Attaching k w q) (hnext : MachineNext k q c r q')
    (htarget : attachmentTarget c = some key) (hh : w.hosts.lookup key = some h) :
    ¬AttachedElsewhere k h := by
  cases hnext with
  | @specWritten s e b failed _ key' hkey =>
    cases he : e.isAttach with
    | false => cases (HostEdit.attachmentTarget_eq_none he key' b).1.symm.trans htarget
    | true =>
      cases e with
      | attach a =>
        have hkeys : key' = key := by
          simp only [attachmentTarget] at htarget
          split at htarget
          · cases htarget
          · exact Option.some.inj htarget
        rw [← hkeys, hkey] at hh
        exact Properties.not_attachedElsewhere hH.2.2 hh
      | _ => cases he
  | @statusWritten s e b failed _ key' hkey _ =>
    cases he : e.isAttach with
    | false => cases (HostEdit.attachmentTarget_eq_none he key' b).2.symm.trans htarget
    | true =>
      cases e with
      | attach a =>
        have hkeys : key' = key := by
          simp only [attachmentTarget] at htarget
          split at htarget
          · cases htarget
          · exact Option.some.inj htarget
        rw [← hkeys, hkey] at hh
        exact Properties.not_attachedElsewhere hH hh
      | _ => cases he
  | quiet hc => cases c <;> first | cases htarget | cases hc
  | _ => cases htarget

/-- With listings that are fresh enough, in every state of every run no two hosts carry the label
of one machine, and no machine is about to take the host of another one. -/
theorem attachment_one_to_one (setup : Setup) (names : List NamespacedName) {w : World}
    (hkeys : MachinesKeyed w) (hunique : UniqueLabels w)
    {ls : List (Label Outcome Tid EnvAction)} {σ : Pool Call Resp World Tid}
    (hrun : (system setup).Steps (freshRules names) (.init w) ls σ) :
    UniqueLabels σ.store ∧ NeverSteals names σ := by
  have hM := attachments_relyGuarantee setup names
  have hidle : ∀ t, AttachingThread names t w none := fun _ => attachingThread_none
  refine ⟨(hM.holds ⟨hkeys, hunique⟩ hidle hrun).unique, ?_⟩
  intro k hk c rest hthread key htarget h hh
  obtain ⟨q, hH, hnext⟩ := hM.holds_next ⟨hkeys, hunique⟩ hidle hrun hthread
  obtain ⟨q', hnext⟩ := hnext (exec {} c σ.store).1
  generalize (exec {} c σ.store).1 = r at hnext
  cases hnext with
  | machine hnext => exact hH.2.not_attachedElsewhere hnext htarget hh

/-! ## Runs of a small cluster -/

/-- Two hosts, two machines and an informer. -/
def twoMachines : World := Small.cached (Small.world ["h1", "h2"] ["m1", "m2"])

theorem twoMachines_machinesKeyed : MachinesKeyed twoMachines := by
  intro k m hm
  obtain ⟨name, -, rfl, rfl⟩ := lookup_foldr Small.key Small.machine hm
  rfl

theorem twoMachines_uniqueLabels : UniqueLabels twoMachines := by
  intro k₁ h₁ k₂ h₂ hh₁ _ hsome
  obtain ⟨name, -, rfl, rfl⟩ := lookup_foldr Small.key Small.host hh₁
  exact absurd rfl hsome

/-- Both hosts carry the label. -/
def bothLabelled (w : World) (k : NamespacedName) (key₁ key₂ : NamespacedName) : Bool :=
  (w.hosts.lookup key₁).any (Labelled k ·) && (w.hosts.lookup key₂).any (Labelled k ·)

/-- The reconcile of `k` is about to write its attachment to the host, which carries the label of
`k'`. -/
def aboutToSteal (σ : Pool Call Resp World Tid) (k k' key : NamespacedName) : Bool :=
  match σ.thread (.byoMachine k) with
  | some (.call c _) => attachmentTarget c = some key && (σ.store.hosts.lookup key).any (Labelled k' ·)
  | _ => false

/-- The writes of the first machine are delivered before the second one is reconciled. -/
theorem attachment_one_to_one_small : ∃ ls σ,
    (system {}).Steps (freshRules [Small.key "m1", Small.key "m2"]) (.init twoMachines) ls σ ∧
      (σ.store.hosts.lookup (Small.key "h1")).any (Labelled (Small.key "m1") ·) = true ∧
      (σ.store.hosts.lookup (Small.key "h2")).any (Labelled (Small.key "m2") ·) = true ∧
      UniqueLabels σ.store ∧ NeverSteals [Small.key "m1", Small.key "m2"] σ := by
  obtain ⟨σ, hsteps, hend⟩ := (system {}).exists_steps
    (freshRules [Small.key "m1", Small.key "m2"])
    (Small.calls (.byoMachine (Small.key "m1")) 15 ++
      [.env (.deliver (Small.key "h1")), .env (.deliver (Small.key "h1"))] ++
      Small.calls (.byoMachine (Small.key "m2")) 10)
    (fun σ => (σ.store.hosts.lookup (Small.key "h1")).any (Labelled (Small.key "m1") ·) &&
      (σ.store.hosts.lookup (Small.key "h2")).any (Labelled (Small.key "m2") ·))
    (σ := .init twoMachines) (by decide +kernel)
  rw [Bool.and_eq_true] at hend
  exact ⟨_, σ, hsteps, hend.1, hend.2, attachment_one_to_one {} _ twoMachines_machinesKeyed
    twoMachines_uniqueLabels hsteps⟩

/-- Nothing is delivered: a second reconcile of `m1` takes a second host, and a reconcile of `m2`
takes the host of `m1`. -/
theorem stale_cache_steals :
    (∃ ls σ, (system {}).Steps (workerRules [Small.key "m1", Small.key "m2"]) (.init twoMachines)
      ls σ ∧ ¬UniqueLabels σ.store) ∧
    ∃ ls σ, (system {}).Steps (workerRules [Small.key "m1", Small.key "m2"]) (.init twoMachines)
      ls σ ∧ ¬NeverSteals [Small.key "m1", Small.key "m2"] σ := by
  constructor
  · obtain ⟨σ, hsteps, hend⟩ := (system {}).exists_steps
      (workerRules [Small.key "m1", Small.key "m2"])
      (Small.calls (.byoMachine (Small.key "m1")) 15 ++ .start (.byoMachine (Small.key "m1")) ::
        List.replicate 10 (.call (.byoMachine (Small.key "m1")) { pick := 1 }))
      (fun σ => bothLabelled σ.store (Small.key "m1") (Small.key "h1") (Small.key "h2"))
      (σ := .init twoMachines) (by decide +kernel)
    refine ⟨_, σ, hsteps, fun hunique => ?_⟩
    simp only [bothLabelled, Bool.and_eq_true, Option.any_eq_true, decide_eq_true_eq] at hend
    obtain ⟨⟨h₁, hh₁, hl₁⟩, h₂, hh₂, hl₂⟩ := hend
    have hsome : h₁.attachedLabel ≠ none := fun hnone => by cases hnone.symm.trans hl₁
    exact absurd (hunique _ h₁ _ h₂ hh₁ hh₂ hsome (hl₁.trans hl₂.symm)) (by decide)
  · obtain ⟨σ, hsteps, hend⟩ := (system {}).exists_steps
      (workerRules [Small.key "m1", Small.key "m2"])
      (Small.calls (.byoMachine (Small.key "m1")) 15 ++ Small.calls (.byoMachine (Small.key "m2")) 9)
      (fun σ => aboutToSteal σ (Small.key "m2") (Small.key "m1") (Small.key "h1"))
      (σ := .init twoMachines) (by decide +kernel)
    refine ⟨_, σ, hsteps, fun hnever => ?_⟩
    rw [aboutToSteal] at hend
    split at hend
    · rename_i c rest hthread
      simp only [Bool.and_eq_true, decide_eq_true_eq, Option.any_eq_true] at hend
      obtain ⟨htarget, h, hh, hl⟩ := hend
      exact hnever _ (by decide) c rest hthread _ htarget h hh (.inl ⟨_, hl, by decide⟩)
    · cases hend

end Byoh.Properties
