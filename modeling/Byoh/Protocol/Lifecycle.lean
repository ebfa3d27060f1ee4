import Byoh.Foundation.RelyGuarantee
import Byoh.Protocol.ManagerWrites
import Byoh.Protocol.SystemPhases

/-!
# The life of a host

A host is free, attached to a machine, marked for cleanup, and released by its agent. Here is what
holds of this cycle in every interleaving of reconciles, when reads are up to date, machines are
reconciled one after another and machines are not created again: labels are unique, only attached
hosts are marked, and only hosts of machines under deletion.

The assertion of a thread says what it may rely on until its next write. The reconcile of a machine
relies on the host it fetched or picked; the agent relies on a marked host staying as it is until
it is released. Properties of attachments extend these assertions (`RelyGuarantee.extend`).
-/

set_option autoImplicit false

namespace Byoh.Protocol

open Byoh.Foundation Byoh.Model Byoh.Model.ByoMachineReconciler

/-! ## Hosts -/

/-- The value of the cleanup annotation. -/
def cleanupMark (h : ByoHost) : Option String := h.annotations.get .hostCleanup

theorem carries_eq_isSome (h : ByoHost) : h.carries .hostCleanup = (cleanupMark h).isSome := rfl

/-- What holds of every host: only attached hosts are marked, with an empty value. -/
structure HostInvariant (h : ByoHost) : Prop where
  paired : h.LabelsPaired
  mark : cleanupMark h = none ∨ cleanupMark h = some ""
  marked : h.carries .hostCleanup = true → h.attachedLabel ≠ none

/-- Labels and mark are the same. -/
structure SameAttachment (h h' : ByoHost) : Prop where
  label : h'.attachedLabel = h.attachedLabel
  cluster : h'.clusterLabel = h.clusterLabel
  mark : cleanupMark h' = cleanupMark h

theorem SameAttachment.refl (h : ByoHost) : SameAttachment h h := ⟨rfl, rfl, rfl⟩

theorem SameAttachment.carries {h h' : ByoHost} (hs : SameAttachment h h') :
    h'.carries .hostCleanup = h.carries .hostCleanup := by
  rw [carries_eq_isSome, carries_eq_isSome, hs.mark]

/-- The invariant depends on labels and mark only. -/
theorem HostInvariant.of_same {h h' : ByoHost} (hi : HostInvariant h) (hs : SameAttachment h h') :
    HostInvariant h' := by
  refine ⟨?_, ?_, ?_⟩
  · rw [ByoHost.LabelsPaired, hs.label, hs.cluster]
    exact hi.paired
  · rw [hs.mark]
    exact hi.mark
  · rw [hs.carries, hs.label]
    exact hi.marked

/-- The host is free and not marked. -/
structure IsFree (h : ByoHost) : Prop where
  label : h.attachedLabel = none
  cluster : h.clusterLabel = none
  mark : cleanupMark h = none

theorem IsFree.invariant {h : ByoHost} (hf : IsFree h) : HostInvariant h :=
  ⟨iff_of_true hf.cluster hf.label, .inl hf.mark, fun hc => by
    rw [carries_eq_isSome, hf.mark] at hc
    cases hc⟩

/-- A host in no cluster is free. -/
theorem HostInvariant.isFree {h : ByoHost} (hi : HostInvariant h) (hc : h.clusterLabel = none) :
    IsFree h := by
  have hl : h.attachedLabel = none := hi.paired.1 hc
  refine ⟨hl, hc, ?_⟩
  cases hm : cleanupMark h with
  | none => rfl
  | some v => exact absurd hl (hi.marked (by rw [carries_eq_isSome, hm]; rfl))

/-! ## Edits of the ByoMachine controller -/

/-- The edit marks the host. -/
def HostEdit.isMark : HostEdit → Bool
  | .mark _ => true
  | _ => false

theorem merge_cleanupMark (before after cur : ByoHost) :
    cleanupMark (before.merge after cur) =
      mergeField (cleanupMark before) (cleanupMark after) (cleanupMark cur) :=
  GoMap.get_merge ..

/-- Only a mark changes the cleanup annotation. -/
theorem HostEdit.apply_cleanupMark {e : HostEdit} (he : e.isMark = false) (h : ByoHost) :
    cleanupMark (e.apply h) = cleanupMark h := by
  cases e with
  | pause b => cases b <;> simp [HostEdit.apply, pausedHost, cleanupMark]
  | mark u => cases he
  | attach a => simp [HostEdit.apply, Attachment.apply, cleanupMark]
  | install ref => rfl
  | uninstall ref => rfl

theorem HostEdit.mark_cleanupMark (u : Bool) (h : ByoHost) :
    cleanupMark ((HostEdit.mark u).apply h) = some "" := by
  simp [HostEdit.apply, markedHost, cleanupMark]

/-- Edits that neither attach nor mark. -/
theorem HostEdit.merge_same {e : HostEdit} (ha : e.isAttach = false) (hm : e.isMark = false)
    (h cur : ByoHost) : SameAttachment cur (h.merge (e.apply h) cur) := by
  obtain ⟨hl, hc⟩ := HostEdit.merge_labels ha h cur
  refine ⟨hl, hc, ?_⟩
  rw [merge_cleanupMark, e.apply_cleanupMark hm, mergeField_self]

/-- Only an attachment changes the status. -/
theorem HostEdit.statusChanged_eq_false {e : HostEdit} (ha : e.isAttach = false) (h : ByoHost) :
    h.statusChanged (e.apply h) = false := by
  cases e with
  | attach a => cases ha
  | pause b => cases b <;> simp [HostEdit.apply, pausedHost, ByoHost.statusChanged]
  | mark u => cases u <;> simp [HostEdit.apply, markedHost, ByoHost.statusChanged]
  | install ref => simp [HostEdit.apply, withInstallationSecret, ByoHost.statusChanged]
  | uninstall ref => simp [HostEdit.apply, withUninstallationSecret, ByoHost.statusChanged]

/-! ## Facts about the server -/

/-- No host of the machine is marked. -/
def NoneMarked (k : NamespacedName) (w : World) : Prop :=
  ∀ key h, w.hosts.lookup key = some h → Labelled k h → h.carries .hostCleanup = false

/-- The host under `key` carries the label of `k` and is not marked. -/
def AttachedAt (k key : NamespacedName) (w : World) : Prop :=
  ∀ cur, w.hosts.lookup key = some cur → Labelled k cur ∧ cur.carries .hostCleanup = false

/-- The host under `key` is free. -/
def FreeAt (key : NamespacedName) (w : World) : Prop :=
  ∀ cur, w.hosts.lookup key = some cur → IsFree cur

/-- What holds in every state. -/
structure Lifecycle (names : List NamespacedName) (w : World) : Prop where
  fresh : w.informer = none
  hosts : WellKeyed w
  machines : MachinesKeyed w
  each : ∀ key h, w.hosts.lookup key = some h → HostInvariant h
  unique : UniqueLabels w
  deleting : ∀ k ∈ names, ∀ key h, w.hosts.lookup key = some h → Labelled k h →
    h.carries .hostCleanup = true → Deleting k w

/-! ## Assertions of the reconcile of a machine -/

/-- The machine `m` was read under the key `k`. -/
structure ReadMachine (k : NamespacedName) (m : ByoMachine) (w : World) : Prop where
  key : m.key = k
  deleting : m.deletionTimestamp = true → Deleting k w
  live : m.deletionTimestamp = false → NoneMarked k w

/-- The host in memory was fetched by its label; if it was not marked then, it still is attached. -/
structure Fetched (k : NamespacedName) (s : Scope) (h : ByoHost) (w : World) : Prop where
  mark : cleanupMark h = none ∨ cleanupMark h = some ""
  attached : h.carries .hostCleanup = false → AttachedAt k h.key w
  normal : isNormalScope s = true → h.carries .hostCleanup = false

/-- The host was picked from the capacity pool and is still there. -/
structure Picked (k : NamespacedName) (s : Scope) (a : Attachment) (h : ByoHost) (w : World) :
    Prop where
  normal : isNormalScope s = true
  label : a.byoMachineLabel = k.labelValue
  free : IsFree h
  unlabelled : NoneLabelled k w
  target : FreeAt h.key w

/-- After the first request of the attachment. -/
structure HalfAttached (k : NamespacedName) (s : Scope) (h : ByoHost) (failed : Bool) (w : World) :
    Prop where
  normal : isNormalScope s = true
  mark : cleanupMark h = none
  attached : failed = false → AttachedAt k h.key w
  unlabelled : failed = true → NoneLabelled k w ∧ FreeAt h.key w

/-- What holds while the reconcile of `k` is in a phase. -/
def Holding (k : NamespacedName) (w : World) : MachinePhase → Prop
  | .start => True
  | .owner m => ReadMachine k m w
  | .cluster m _ => ReadMachine k m w
  | .infra m _ _ => ReadMachine k m w
  | .fetch s => ReadMachine k s.byoMachine w
  | .body s none => ReadMachine k s.byoMachine w ∧ NoneLabelled k w
  | .body s (some h) => ReadMachine k s.byoMachine w ∧ Fetched k s h w
  | .create s none _ => ReadMachine k s.byoMachine w ∧ NoneLabelled k w
  | .create s (some h) _ => ReadMachine k s.byoMachine w ∧ Fetched k s h w
  | .write s (.attach a) h .spec failed =>
      ReadMachine k s.byoMachine w ∧ Picked k s a h w ∧ failed = false
  | .write s (.attach _) h .status failed =>
      ReadMachine k s.byoMachine w ∧ HalfAttached k s h failed w
  | .write s (.attach _) h .done failed =>
      ReadMachine k s.byoMachine w ∧ (failed = false → Fetched k s h w)
  | .write s (.mark _) h .spec _ =>
      ReadMachine k s.byoMachine w ∧ Fetched k s h w ∧ isDeleteScope s = true
  | .write s (.mark _) _ _ _ => ReadMachine k s.byoMachine w ∧ isDeleteScope s = true
  | .write s (.pause _) h _ _ => ReadMachine k s.byoMachine w ∧ Fetched k s h w
  | .write s (.install _) h _ _ =>
      ReadMachine k s.byoMachine w ∧ Fetched k s h w ∧ isNormalScope s = true
  | .write s (.uninstall _) h _ _ =>
      ReadMachine k s.byoMachine w ∧ Fetched k s h w ∧ isNormalScope s = true
  | .finish s how m _ => ReadMachine k s.byoMachine w ∧ Leaves s how m
  | .done => True

/-! ## Assertions of an agent -/

/-- The host on the server is marked and has kept what a release removes. -/
structure Kept (h cur : ByoHost) : Prop where
  marked : cur.carries .hostCleanup = true
  label : cur.attachedLabel = h.attachedLabel
  cluster : cur.clusterLabel = h.clusterLabel
  bootstrapSecret : cur.bootstrapSecret = h.bootstrapSecret
  installationSecret : cur.installationSecret = h.installationSecret
  machineRef : cur.machineRef = h.machineRef

/-- A host that the agent read with its mark stays marked and attached. -/
structure StillMarked (k : NamespacedName) (h : ByoHost) (w : World) : Prop where
  key : h.key = k
  invariant : HostInvariant h
  kept : h.carries .hostCleanup = true → ∀ cur, w.hosts.lookup k = some cur → Kept h cur

/-- What holds while the agent of `k` is in a phase. -/
def Releasing (k : NamespacedName) (w : World) : AgentPhase → Prop
  | .body h _ => StillMarked k h w
  | .finish h _ _ .conditions => StillMarked k h w
  | .finish h _ _ .spec => StillMarked k h w
  | .finish h _ _ .status => h.key = k
  | _ => True

/-! ## Interference with the reconcile of a machine -/

/-- What threads other than reconciles of machines do to a host: labels and mark stay, or a marked
host is released. -/
def PeerEffect (h h' : ByoHost) : Prop :=
  SameAttachment h h' ∨ h.carries .hostCleanup = true ∧ IsFree h'

theorem PeerEffect.refl (h : ByoHost) : PeerEffect h h := .inl (.refl h)

section Peers

variable {k : NamespacedName} {w w' : World} {h h' : ByoHost}

/-- The label of a host after a peer acted. -/
theorem PeerEffect.label (hp : PeerEffect h h') :
    h'.attachedLabel = h.attachedLabel ∨ h'.attachedLabel = none :=
  hp.imp (·.label) (·.2.label)

/-- A host that is not marked keeps its labels and stays so. -/
theorem PeerEffect.same (hp : PeerEffect h h') (hun : h.carries .hostCleanup = false) :
    SameAttachment h h' := by
  rcases hp with hs | ⟨hm, -⟩
  · exact hs
  · cases hm.symm.trans hun

/-- Peers keep the invariant of a host. -/
theorem PeerEffect.invariant (hp : PeerEffect h h') (hi : HostInvariant h) : HostInvariant h' := by
  rcases hp with hs | ⟨-, hf⟩
  · exact hi.of_same hs
  · exact hf.invariant

/-- Peers attach no host. -/
theorem noneLabelled_of_peer (hw : HostsVia PeerEffect w w') (h : NoneLabelled k w) :
    NoneLabelled k w' := by
  intro key b' hb' hl
  obtain ⟨b, hb, hp⟩ := hw.of_some hb'
  rcases hp.label with hsame | hnone
  · exact h key b hb (hsame.symm.trans hl)
  · cases hnone.symm.trans hl

/-- Peers mark no host. -/
theorem noneMarked_of_peer (hw : HostsVia PeerEffect w w') (h : NoneMarked k w) :
    NoneMarked k w' := by
  intro key b' hb' hl
  obtain ⟨b, hb, hp⟩ := hw.of_some hb'
  rcases hp with hs | ⟨-, hf⟩
  · rw [hs.carries]
    exact h key b hb (hs.label.symm.trans hl)
  · cases hf.label.symm.trans hl

/-- Peers release no host that is not marked. -/
theorem attachedAt_of_peer {key : NamespacedName} (hw : HostsVia PeerEffect w w')
    (h : AttachedAt k key w) : AttachedAt k key w' := by
  intro b' hb'
  obtain ⟨b, hb, hp⟩ := hw.of_some hb'
  obtain ⟨hl, hun⟩ := h b hb
  have hs := hp.same hun
  exact ⟨hs.label.trans hl, hs.carries.trans hun⟩

theorem freeAt_of_peer {key : NamespacedName} (hw : HostsVia PeerEffect w w') (h : FreeAt key w) :
    FreeAt key w' := by
  intro b' hb'
  obtain ⟨b, hb, hp⟩ := hw.of_some hb'
  have hf := h b hb
  rcases hp with hs | ⟨-, hf'⟩
  · exact ⟨hs.label.trans hf.label, hs.cluster.trans hf.cluster, hs.mark.trans hf.mark⟩
  · exact hf'

variable (hw : HostsVia PeerEffect w w') (hdel : Deleting k w → Deleting k w')

include hw hdel

theorem ReadMachine.mono {m : ByoMachine} (h : ReadMachine k m w) : ReadMachine k m w' :=
  ⟨h.key, fun hd => hdel (h.deleting hd), fun hd => noneMarked_of_peer hw (h.live hd)⟩

omit hdel in
theorem Fetched.mono {s : Scope} (hf : Fetched k s h w) : Fetched k s h w' :=
  ⟨hf.mark, fun hun => attachedAt_of_peer hw (hf.attached hun), hf.normal⟩

/-- What the reconcile of a machine relies on is stable under its peers. -/
theorem Holding.mono {q : MachinePhase} (hH : Holding k w q) : Holding k w' q := by
  cases q with
  | start => trivial
  | owner m => exact ReadMachine.mono hw hdel hH
  | cluster m machine => exact ReadMachine.mono hw hdel hH
  | infra m machine c => exact ReadMachine.mono hw hdel hH
  | fetch s => exact ReadMachine.mono hw hdel hH
  | body s host =>
    cases host with
    | none => exact ⟨hH.1.mono hw hdel, noneLabelled_of_peer hw hH.2⟩
    | some h => exact ⟨hH.1.mono hw hdel, hH.2.mono hw⟩
  | create s host config =>
    cases host with
    | none => exact ⟨hH.1.mono hw hdel, noneLabelled_of_peer hw hH.2⟩
    | some h => exact ⟨hH.1.mono hw hdel, hH.2.mono hw⟩
  | write s e h part failed =>
    cases e with
    | attach a =>
      cases part with
      | spec =>
        obtain ⟨hm, hp, hfailed⟩ := hH
        exact ⟨hm.mono hw hdel, ⟨hp.normal, hp.label, hp.free, noneLabelled_of_peer hw hp.unlabelled,
          freeAt_of_peer hw hp.target⟩, hfailed⟩
      | status =>
        obtain ⟨hm, hp⟩ := hH
        exact ⟨hm.mono hw hdel, hp.normal, hp.mark, fun hf => attachedAt_of_peer hw (hp.attached hf),
          fun hf => ⟨noneLabelled_of_peer hw (hp.unlabelled hf).1, freeAt_of_peer hw (hp.unlabelled hf).2⟩⟩
      | done => exact ⟨hH.1.mono hw hdel, fun hf => (hH.2 hf).mono hw⟩
    | mark u =>
      cases part with
      | spec => exact ⟨hH.1.mono hw hdel, hH.2.1.mono hw, hH.2.2⟩
      | status => exact ⟨hH.1.mono hw hdel, hH.2⟩
      | done => exact ⟨hH.1.mono hw hdel, hH.2⟩
    | pause b => exact ⟨hH.1.mono hw hdel, hH.2.mono hw⟩
    | install ref => exact ⟨hH.1.mono hw hdel, hH.2.1.mono hw, hH.2.2⟩
    | uninstall ref => exact ⟨hH.1.mono hw hdel, hH.2.1.mono hw, hH.2.2⟩
  | finish s how m part => exact ⟨hH.1.mono hw hdel, hH.2⟩
  | done => trivial

end Peers

/-! ## Agents -/

section Agents

variable {k : NamespacedName} {w w' : World} {o : Outcome} {q q' : AgentPhase} {c : Call}

/-- The release of a host that is still marked. -/
theorem StillMarked.release {h h' cur : ByoHost} (hs : StillMarked k h w)
    (hreleased : Released h h') (hcur : w.hosts.lookup h.key = some cur) :
    cur.carries .hostCleanup = true ∧ IsFree (h.merge h' cur) := by
  have hkept : Kept h cur := hs.kept hreleased.1 cur (hs.key ▸ hcur)
  have hlabel : h.attachedLabel ≠ none := hs.invariant.marked hreleased.1
  have hcluster : h.clusterLabel ≠ none := fun hc => hlabel (hs.invariant.paired.1 hc)
  have hafter : h'.attachedLabel = none ∧ h'.clusterLabel = none ∧ cleanupMark h' = none := by
    rw [hreleased.2]
    simp [releasedHost, HostReconciler.removeAnnotations, ByoHost.attachedLabel,
      ByoHost.clusterLabel, cleanupMark]
  have hmark : cleanupMark h ≠ none := by
    have hm := hreleased.1
    rw [carries_eq_isSome] at hm
    exact Option.isSome_iff_ne_none.1 hm
  refine ⟨hkept.marked, ?_, ?_, ?_⟩
  · rw [ByoHost.merge_attachedLabel, hafter.1, mergeField, if_neg hlabel]
  · rw [ByoHost.merge_clusterLabel, hafter.2.1, mergeField, if_neg hcluster]
  · rw [merge_cleanupMark, hafter.2.2, mergeField, if_neg hmark]

/-- The release removes the secrets of the attachment. -/
theorem StillMarked.release_secrets {h h' cur : ByoHost} (hs : StillMarked k h w)
    (hreleased : Released h h') (hcur : w.hosts.lookup h.key = some cur) :
    (h.merge h' cur).bootstrapSecret = none ∧ (h.merge h' cur).installationSecret = none := by
  have hkept : Kept h cur := hs.kept hreleased.1 cur (hs.key ▸ hcur)
  have hafter : h'.bootstrapSecret = none ∧ h'.installationSecret = none := by
    rw [hreleased.2]
    exact ⟨rfl, rfl⟩
  rw [ByoHost.merge, hafter.1, hafter.2]
  dsimp only
  rw [hkept.bootstrapSecret, hkept.installationSecret]
  exact ⟨mergeRef_before .., mergeRef_before ..⟩

/-- What a call of an agent does to hosts. -/
theorem Releasing.effect (hH : Releasing k w q) (hmove : AgentMove k o w q c q' w') :
    HostsVia PeerEffect w w' := by
  cases hmove with
  | conditionsWritten hcur => exact .setHost .refl hcur (.inl ⟨rfl, rfl, rfl⟩)
  | specWritten hreleased hcur => exact .setHost .refl hcur (.inr (hH.release hreleased hcur))
  | statusWritten _ _ hcur => exact .setHost .refl hcur (.inl ⟨rfl, rfl, rfl⟩)
  | _ => exact .refl .refl w

/-- An agent writes its own host only. -/
theorem Releasing.only (hH : Releasing k w q) (hmove : AgentMove k o w q c q' w')
    {key : NamespacedName} (hne : key ≠ k) : w'.hosts.lookup key = w.hosts.lookup key := by
  cases hmove with
  | conditionsWritten _ => exact AList.lookup_insert_ne (hH.key ▸ hne)
  | specWritten _ _ => exact AList.lookup_insert_ne (hH.key ▸ hne)
  | @statusWritten h _ _ _ _ _ _ =>
    have hkey : h.key = k := hH
    exact AList.lookup_insert_ne (hkey ▸ hne)
  | _ => rfl

/-- The assertion of an agent after its own call. -/
theorem Releasing.move (hkeys : WellKeyed w)
    (hinv : ∀ key h, w.hosts.lookup key = some h → HostInvariant h) (hH : Releasing k w q)
    (hmove : AgentMove k o w q c q' w') : Releasing k w' q' := by
  cases hmove with
  | @read h hh =>
    refine ⟨hkeys k h hh, hinv k h hh, fun hm cur hcur => ?_⟩
    cases hh.symm.trans hcur
    exact ⟨hm, rfl, rfl, rfl, rfl, rfl⟩
  | readFailed => trivial
  | work => exact hH
  | @conditionsWritten h h' cur log cs hcur =>
    refine ⟨hH.key, hH.invariant, fun hm b hb => ?_⟩
    have hk : h.key = k := hH.key
    rw [World.setHost, hk, AList.lookup_insert] at hb
    cases hb
    have hkept := hH.kept hm cur (hk ▸ hcur)
    exact ⟨hkept.marked, hkept.label, hkept.cluster, hkept.bootstrapSecret,
      hkept.installationSecret, hkept.machineRef⟩
  | conditionsFailed => exact hH
  | specWritten _ _ => exact StillMarked.key hH
  | specFailed _ _ => exact StillMarked.key hH
  | statusWritten _ _ _ => trivial
  | statusFailed _ _ _ => trivial

/-- The assertion of an agent along its own silent moves. -/
theorem Releasing.step {cfg : HostReconciler.Config} (hH : Releasing k w q)
    (hstep : AgentSilent cfg q q') : Releasing k w q' := by
  cases hstep with
  | leave _ => exact hH
  | skipConditions _ => exact hH
  | skipSpec _ => exact StillMarked.key hH
  | skipStatus _ => trivial

/-- A marked host keeps what a release removes. -/
def MarkKept (h h' : ByoHost) : Prop := h.carries .hostCleanup = true → Kept h h'

theorem MarkKept.refl (h : ByoHost) : MarkKept h h := fun hm => ⟨hm, rfl, rfl, rfl, rfl, rfl⟩

/-- The assertion of an agent when others act. -/
theorem Releasing.mono (hH : Releasing k w q) (hkept : ∀ cur', w'.hosts.lookup k = some cur' →
      ∃ cur, w.hosts.lookup k = some cur ∧ MarkKept cur cur') : Releasing k w' q := by
  have hstill : ∀ h, StillMarked k h w → StillMarked k h w' := by
    refine fun h hs => ⟨hs.key, hs.invariant, fun hm cur' hcur' => ?_⟩
    obtain ⟨cur, hcur, hk⟩ := hkept cur' hcur'
    have h₁ := hs.kept hm cur hcur
    have h₂ := hk h₁.marked
    exact ⟨h₂.marked, h₂.label.trans h₁.label, h₂.cluster.trans h₁.cluster,
      h₂.bootstrapSecret.trans h₁.bootstrapSecret, h₂.installationSecret.trans h₁.installationSecret,
      h₂.machineRef.trans h₁.machineRef⟩
  cases q with
  | start => trivial
  | body h log => exact hstill h hH
  | finish h log h' part =>
    cases part with
    | conditions => exact hstill h hH
    | spec => exact hstill h hH
    | status => exact hH
  | done ran => trivial

end Agents

/-! ## The ByoHost controller -/

section Hosts

variable {k : NamespacedName} {w w' : World} {o : Outcome}

/-- The write of the ByoHost controller. -/
theorem merge_cleared_same (h cur : ByoHost) :
    SameAttachment cur (h.merge (ByoHostReconciler.clearedHost h) cur) := by
  refine ⟨?_, ?_, ?_⟩
  · rw [ByoHost.merge_attachedLabel]
    exact mergeField_self ..
  · rw [ByoHost.merge_clusterLabel]
    exact mergeField_self ..
  · rw [merge_cleanupMark]
    exact mergeField_self ..

/-- The controller of hosts keeps labels and mark. -/
theorem HostMove.effect {q q' : HostPhase} {c : Call} (hmove : HostMove k o w q c q' w') :
    HostsVia (fun h h' => SameAttachment h h' ∧ MarkKept h h') w w' := by
  have hrefl : ∀ h, SameAttachment h h ∧ MarkKept h h := fun h => ⟨.refl h, .refl h⟩
  cases hmove with
  | @cleared h cur ref hcur =>
    have hs := merge_cleared_same h cur
    refine HostsVia.setHost (R := fun h h' => SameAttachment h h' ∧ MarkKept h h') hrefl hcur
      ⟨hs, fun hm => ⟨hs.carries.trans hm, hs.label, hs.cluster, ?_, ?_, rfl⟩⟩
    · exact mergeRef_self ..
    · exact mergeRef_self ..
  | _ => exact HostsVia.of_hosts_eq (R := fun h h' => SameAttachment h h' ∧ MarkKept h h') hrefl rfl

end Hosts

/-! ## The server -/

section Server

variable {names : List NamespacedName} {w w' : World}

theorem Lifecycle.of_eq (hG : Lifecycle names w) (hh : w'.hosts = w.hosts)
    (hi : w'.informer = w.informer) (hm : w'.machines = w.machines) : Lifecycle names w' where
  fresh := hi.trans hG.fresh
  hosts := by
    rw [WellKeyed, hh]
    exact hG.hosts
  machines := hG.machines.of_eq hm
  each := by
    rw [hh]
    exact hG.each
  unique := by
    rw [UniqueLabels, hh]
    exact hG.unique
  deleting := by
    simp only [Deleting, hh, hm]
    exact hG.deleting

/-- A write to a host. -/
theorem Lifecycle.setHost (hG : Lifecycle names w) {key : NamespacedName} {cur h : ByoHost}
    (hcur : w.hosts.lookup key = some cur) (hkey : h.key = cur.key) (hinv : HostInvariant h)
    (hunique : UniqueLabels (w.setHost key h))
    (hmarked : ∀ k ∈ names, Labelled k h → h.carries .hostCleanup = true → Deleting k w) :
    Lifecycle names (w.setHost key h) := by
  refine ⟨by rw [World.setHost, hG.fresh]; rfl, ?_, hG.machines, ?_, hunique, fun k hk => ?_⟩
  · exact forall_lookup_insert hG.hosts (hkey.trans (hG.hosts key cur hcur))
  · exact forall_lookup_insert hG.each hinv
  · exact forall_lookup_insert (hG.deleting k hk) (hmarked k hk)

/-- A write of a peer. -/
theorem Lifecycle.setHost_peer (hG : Lifecycle names w) {key : NamespacedName} {cur h : ByoHost}
    (hcur : w.hosts.lookup key = some cur) (hkey : h.key = cur.key) (hp : PeerEffect cur h) :
    Lifecycle names (w.setHost key h) := by
  refine hG.setHost hcur hkey (hp.invariant (hG.each key cur hcur)) ?_ ?_
  · exact hG.unique.of_hostsVia (.setHost .refl hcur hp) fun _ _ => PeerEffect.label
  · intro k hk hl hm
    rcases hp with hs | ⟨-, hf⟩
    · exact hG.deleting k hk key cur hcur (hs.label.symm.trans hl) (hs.carries.symm.trans hm)
    · cases hf.label.symm.trans hl

/-- A request of the deferred patch of a machine. -/
theorem Lifecycle.setMachine (hG : Lifecycle names w) {before m cur m' : ByoMachine}
    (hcur : w.machines.lookup m.key = some cur) (hm' : MachinePatched before m cur m') :
    Lifecycle names (w.setMachine m.key m') ∧ ∀ k, Deleting k w → Deleting k (w.setMachine m.key m') := by
  have hkey : m'.key = m.key := by
    rw [hm'.rest]
    exact hG.machines m.key cur hcur
  have hdel : ∀ k, Deleting k w → Deleting k (w.setMachine m.key m') := by
    refine fun k h => h.setMachine hcur fun hd => ?_
    rw [hm'.rest]
    exact hd
  exact ⟨⟨hG.fresh, hG.hosts, hG.machines.setMachine hkey, hG.each, hG.unique,
    fun k hk key h hh hl hm => hdel k (hG.deleting k hk key h hh hl hm)⟩, hdel⟩

/-- The environment keeps the invariant as long as it creates no object. -/
theorem Lifecycle.env {a : EnvAction} (hG : Lifecycle names w) (ha : noCreation a = true)
    (henv : envStep a w = some w') : Lifecycle names w' := by
  have hh := envStep_hosts henv
  refine ⟨?_, ?_, hG.machines.env henv, ?_, ?_, ?_⟩
  · cases a <;> simp only [envStep, Option.map_eq_some_iff, Option.some.injEq] at henv
    case createByoMachine m => cases ha
    case deliver key => cases ha
    case deleteByoMachine | pauseByoMachine =>
      obtain ⟨_, _, rfl⟩ := henv
      exact hG.fresh
    all_goals
      subst henv
      exact hG.fresh
  · rw [WellKeyed, hh]
    exact hG.hosts
  · rw [hh]
    exact hG.each
  · rw [UniqueLabels, hh]
    exact hG.unique
  · rw [hh]
    intro k hk key h hlookup hl hm
    exact (hG.deleting k hk key h hlookup hl hm).env ha henv

end Server

/-! ## The reconcile of a machine -/

theorem not_normal_of_delete {s : Scope} (h : isDeleteScope s = true) : isNormalScope s = false := by
  simp_all [isDeleteScope, isNormalScope]

theorem deletionTimestamp_of_delete {s : Scope} (h : isDeleteScope s = true) :
    s.byoMachine.deletionTimestamp = true := by
  simp_all [isDeleteScope]

theorem deletionTimestamp_of_normal {s : Scope} (h : isNormalScope s = true) :
    s.byoMachine.deletionTimestamp = false := by
  simp_all [isNormalScope]

section Moves

variable {names : List NamespacedName} {k : NamespacedName} {w w' : World} {o : Outcome} {s : Scope}
  {h cur : ByoHost} {a : Attachment} {failed : Bool} {e : HostEdit}

/-- The phase after a listing of the hosts of the machine. -/
theorem holding_fetched (hG : Lifecycle names w) (hread : ReadMachine k s.byoMachine w)
    (pick : Nat) :
    Holding k w (.body s (listHosts w (attachedSelector s.byoMachine) none pick).head?) := by
  have hview : w.hostView = w.hosts := by rw [World.hostView, hG.fresh]
  have hkey : s.byoMachine.key = k := hread.key
  cases hhead : (listHosts w (attachedSelector s.byoMachine) none pick).head? with
  | none =>
    refine ⟨hread, fun k' h hh => ?_⟩
    rw [← hview] at hh
    exact hkey ▸ not_labelled_of_fetched hhead hh
  | some h =>
    obtain ⟨⟨k', hh⟩, hl⟩ := labelled_of_fetched hhead
    rw [hview] at hh
    rw [hkey] at hl
    have hk' : h.key = k' := hG.hosts k' h hh
    subst hk'
    refine ⟨hread, (hG.each h.key h hh).mark, fun hun cur hcur => ?_, fun hn => ?_⟩
    · cases hh.symm.trans hcur
      exact ⟨hl, hun⟩
    · exact hread.live (deletionTimestamp_of_normal hn) h.key h hh hl

/-- The phase after a listing of the capacity pool. -/
theorem picked_listed (hG : Lifecycle names w) (hread : ReadMachine k s.byoMachine w)
    (hnone : NoneLabelled k w) (hs : isNormalScope s = true) {selector : Selector} {pick : Nat}
    (dataSecretName version : String)
    (hh : h ∈ listHosts w (selector ++ [notInCluster]) (some s.byoMachine.ns) pick) :
    Picked k s (attachmentFor s dataSecretName version) h w := by
  obtain ⟨⟨k', hview⟩, hcluster⟩ := clusterLabel_of_listed hh
  rw [World.hostView, hG.fresh] at hview
  have hfree : IsFree h := (hG.each k' h hview).isFree hcluster
  have hkey : h.key = k' := hG.hosts k' h hview
  refine ⟨hs, attachmentFor_label hread.key _ _, hfree, hnone, fun cur hcur => ?_⟩
  rw [hkey] at hcur
  cases hview.symm.trans hcur
  exact hfree

/-- The host that an attachment makes of a free host. -/
theorem Picked.merge (hp : Picked k s a h w) (hcur : w.hosts.lookup h.key = some cur) :
    Labelled k (h.merge ((HostEdit.attach a).apply h) cur) ∧
      (h.merge ((HostEdit.attach a).apply h) cur).clusterLabel ≠ none ∧
      cleanupMark (h.merge ((HostEdit.attach a).apply h) cur) = none := by
  obtain ⟨hl, hc⟩ := merge_attach_labels a hp.free.cluster hp.free.invariant.paired cur
  refine ⟨?_, ?_, ?_⟩
  · rw [Labelled, hl, hp.label]
  · rw [hc]
    exact Option.some_ne_none _
  · rw [merge_cleanupMark, HostEdit.apply_cleanupMark rfl, mergeField_self]
    exact (hp.target cur hcur).mark

/-- The request that attaches the host. -/
theorem Picked.specWritten (hG : Lifecycle names w) (hread : ReadMachine k s.byoMachine w)
    (hp : Picked k s a h w) (hcur : w.hosts.lookup h.key = some cur) :
    Lifecycle names (w.setHost h.key (h.merge ((HostEdit.attach a).apply h) cur)) ∧
      Holding k (w.setHost h.key (h.merge ((HostEdit.attach a).apply h) cur))
        (.write s (.attach a) h .status false) ∧
      HostsVia MarkKept w (w.setHost h.key (h.merge ((HostEdit.attach a).apply h) cur)) := by
  obtain ⟨hl, hc, hm⟩ := hp.merge hcur
  generalize hh' : h.merge ((HostEdit.attach a).apply h) cur = h' at *
  have hun : h'.carries .hostCleanup = false := by rw [carries_eq_isSome, hm]; rfl
  have hlabel : h'.attachedLabel ≠ none := fun hnone => by cases hnone.symm.trans hl
  have hinv : HostInvariant h' :=
    ⟨iff_of_false hc hlabel, .inl hm, fun hmark => by cases hmark.symm.trans hun⟩
  have hkey : h'.key = cur.key := by rw [← hh']; rfl
  refine ⟨hG.setHost hcur hkey hinv (hG.unique.setHost hcur hp.unlabelled (.inr hl)) ?_,
    ⟨⟨hread.key, hread.deleting, fun hd key b hb hlb => ?_⟩, hp.normal, hp.free.mark, ?_, nofun⟩,
    .setHost .refl hcur ?_⟩
  · intro k' _ _ hmark
    cases hmark.symm.trans hun
  · rcases lookup_insert_some hb with ⟨-, rfl⟩ | ⟨-, hb⟩
    · exact hun
    · exact hread.live hd key b hb hlb
  · rintro - b hb
    rw [World.setHost, AList.lookup_insert] at hb
    cases hb
    exact ⟨hl, hun⟩
  · -- the host was free, so not marked
    intro hmark
    rw [carries_eq_isSome, (hp.target cur hcur).mark] at hmark
    cases hmark

/-- The request that marks the host. -/
theorem Fetched.markWritten (hG : Lifecycle names w) (hdistinct : DistinctLabels names)
    (hk : k ∈ names) {u : Bool} (hread : ReadMachine k s.byoMachine w) (hf : Fetched k s h w)
    (hs : isDeleteScope s = true) (hcur : w.hosts.lookup h.key = some cur) :
    Lifecycle names (w.setHost h.key (h.merge ((HostEdit.mark u).apply h) cur)) ∧
      Holding k (w.setHost h.key (h.merge ((HostEdit.mark u).apply h) cur))
        (.write s (.mark u) h .status failed) ∧
      HostsVia MarkKept w (w.setHost h.key (h.merge ((HostEdit.mark u).apply h) cur)) := by
  have hd : s.byoMachine.deletionTimestamp = true := deletionTimestamp_of_delete hs
  obtain ⟨hl, hc⟩ := HostEdit.merge_labels (e := .mark u) rfl h cur
  have hm : cleanupMark (h.merge ((HostEdit.mark u).apply h) cur) =
      mergeField (cleanupMark h) (some "") (cleanupMark cur) := by
    rw [merge_cleanupMark, HostEdit.mark_cleanupMark]
  have hkept : MarkKept cur (h.merge ((HostEdit.mark u).apply h) cur) := by
    refine fun hmark => ⟨(ManagerWrite.spec (.mark u) h : ManagerWrite cur _).cleanup hmark, hl, hc,
      ?_, ?_, rfl⟩
    · exact mergeRef_self ..
    · exact mergeRef_self ..
  refine ⟨?_, ⟨⟨hread.key, hread.deleting, fun hlive => ?_⟩, hs⟩, .setHost .refl hcur hkept⟩
  · rcases hf.mark with hnone | hsome
    · -- the host in memory is not marked, so the one on the server is attached to `k`
      have hun : h.carries .hostCleanup = false := by rw [carries_eq_isSome, hnone]; rfl
      obtain ⟨hlcur, -⟩ := hf.attached hun cur hcur
      rw [hnone, mergeField, if_neg (by simp)] at hm
      have hinv := hG.each h.key cur hcur
      refine hG.setHost hcur rfl ⟨?_, .inr hm, fun _ => ?_⟩ ?_ ?_
      · rw [ByoHost.LabelsPaired, hl, hc]
        exact hinv.paired
      · rw [hl, show cur.attachedLabel = _ from hlcur]
        exact Option.some_ne_none _
      · exact hG.unique.of_hostsVia (R := fun b b' => b'.attachedLabel = b.attachedLabel)
          (HostsVia.setHost (R := fun b b' => b'.attachedLabel = b.attachedLabel) (fun _ => rfl) hcur
            hl) fun _ _ => .inl
      · intro k' hk' hl' _
        have heq : k'.labelValue = k.labelValue :=
          Option.some.inj (hl'.symm.trans (hl.trans hlcur))
        rw [hdistinct k' hk' k hk heq]
        exact hread.deleting hd
    · -- the host in memory is marked, so the mark is not written
      rw [hsome, mergeField_self] at hm
      exact hG.setHost_peer hcur rfl (.inl ⟨hl, hc, hm⟩)
  · cases hlive.symm.trans hd

/-- An edit that neither attaches nor marks leaves the assertion as it is. -/
theorem Fetched.apply (hf : Fetched k s h w) (he : e.isMark = false) :
    Fetched k s (e.apply h) w := by
  have hmark : cleanupMark (e.apply h) = cleanupMark h := e.apply_cleanupMark he h
  refine ⟨?_, ?_, ?_⟩
  · rw [hmark]
    exact hf.mark
  · rw [carries_eq_isSome, hmark, ← carries_eq_isSome, e.apply_key]
    exact hf.attached
  · rw [carries_eq_isSome, hmark, ← carries_eq_isSome]
    exact hf.normal

/-- The host that was attached, as it is in memory. -/
theorem HalfAttached.fetched (hh : HalfAttached k s h failed w) (hfailed : failed = false) :
    Fetched k s h w := by
  have hun : h.carries .hostCleanup = false := by rw [carries_eq_isSome, hh.mark]; rfl
  exact ⟨.inl hh.mark, fun _ => hh.attached hfailed, fun _ => hun⟩

/-- The target of the second request of an attachment is not marked. -/
theorem HalfAttached.not_marked (hh : HalfAttached k s h failed w)
    (hcur : w.hosts.lookup h.key = some cur) : cur.carries .hostCleanup = false := by
  cases failed with
  | false => exact (hh.attached rfl cur hcur).2
  | true => rw [carries_eq_isSome, ((hh.unlabelled rfl).2 cur hcur).mark]; rfl

/-- A write of metadata and spec that neither attaches nor marks. -/
theorem plainSpec_keeps (hG : Lifecycle names w) (ha : e.isAttach = false) (hm : e.isMark = false)
    (hcur : w.hosts.lookup h.key = some cur) :
    Lifecycle names (w.setHost h.key (h.merge (e.apply h) cur)) ∧
      HostsVia PeerEffect w (w.setHost h.key (h.merge (e.apply h) cur)) := by
  have hp : PeerEffect cur (h.merge (e.apply h) cur) := .inl (HostEdit.merge_same ha hm h cur)
  exact ⟨hG.setHost_peer hcur rfl hp, .setHost .refl hcur hp⟩

/-- In `reconcileNormal` the fetched host is not marked on the server. -/
theorem Fetched.markKept {h' : ByoHost} (hf : Fetched k s h w) (hs : isNormalScope s = true)
    (hcur : w.hosts.lookup h.key = some cur) : MarkKept cur h' := by
  intro hmark
  cases hmark.symm.trans (hf.attached (hf.normal hs) cur hcur).2

/-- The request that writes metadata and spec of a host. -/
theorem Holding.specWritten (hG : Lifecycle names w) (hdistinct : DistinctLabels names)
    (hk : k ∈ names) (hH : Holding k w (.write s e h .spec failed))
    (hcur : w.hosts.lookup h.key = some cur) :
    Lifecycle names (w.setHost h.key (h.merge (e.apply h) cur)) ∧
      Holding k (w.setHost h.key (h.merge (e.apply h) cur)) (.write s e h .status failed) ∧
      HostsVia MarkKept w (w.setHost h.key (h.merge (e.apply h) cur)) := by
  cases e with
  | attach a =>
    obtain ⟨hread, hp, rfl⟩ := hH
    exact hp.specWritten hG hread hcur
  | mark u =>
    obtain ⟨hread, hf, hs⟩ := hH
    exact hf.markWritten hG hdistinct hk hread hs hcur
  | pause isPaused =>
    obtain ⟨hG', hw⟩ := plainSpec_keeps hG (e := .pause isPaused) rfl rfl hcur
    have hs := HostEdit.merge_same (e := .pause isPaused) rfl rfl h cur
    refine ⟨hG', ⟨hH.1.mono hw id, hH.2.mono hw⟩, .setHost .refl hcur fun hmark =>
      ⟨hs.carries.trans hmark, hs.label, hs.cluster, ?_, ?_, rfl⟩⟩
    · cases isPaused <;> exact mergeRef_self ..
    · cases isPaused <;> exact mergeRef_self ..
  | install ref =>
    obtain ⟨hG', hw⟩ := plainSpec_keeps hG (e := .install ref) rfl rfl hcur
    exact ⟨hG', ⟨hH.1.mono hw id, hH.2.1.mono hw, hH.2.2⟩,
      .setHost .refl hcur (hH.2.1.markKept hH.2.2 hcur)⟩
  | uninstall ref =>
    obtain ⟨hG', hw⟩ := plainSpec_keeps hG (e := .uninstall ref) rfl rfl hcur
    exact ⟨hG', ⟨hH.1.mono hw id, hH.2.1.mono hw, hH.2.2⟩,
      .setHost .refl hcur (hH.2.1.markKept hH.2.2 hcur)⟩

/-- The request that writes the status of a host; only an attachment sends it. -/
theorem Holding.statusWritten (hG : Lifecycle names w)
    (hH : Holding k w (.write s e h .status failed)) (hchanged : h.statusChanged (e.apply h) = true)
    (hcur : w.hosts.lookup h.key = some cur) :
    Lifecycle names (w.setHost h.key (h.mergeStatus (e.apply h) cur)) ∧
      Holding k (w.setHost h.key (h.mergeStatus (e.apply h) cur)) (.write s e h .done failed) ∧
      HostsVia MarkKept w (w.setHost h.key (h.mergeStatus (e.apply h) cur)) := by
  cases he : e.isAttach with
  | false =>
    rw [HostEdit.statusChanged_eq_false he] at hchanged
    cases hchanged
  | true =>
    cases e with
    | attach a =>
      obtain ⟨hread, hh⟩ := hH
      have hp : PeerEffect cur (h.mergeStatus ((HostEdit.attach a).apply h) cur) :=
        .inl ⟨rfl, rfl, rfl⟩
      have hw : HostsVia PeerEffect w (w.setHost h.key _) := .setHost .refl hcur hp
      refine ⟨hG.setHost_peer hcur rfl hp, ⟨hread.mono hw id, fun hf => (hh.fetched hf).mono hw⟩,
        .setHost .refl hcur fun hmark => ?_⟩
      cases hmark.symm.trans (hh.not_marked hcur)
    | _ => cases he

/-- One call of the reconcile of `k`. -/
theorem Holding.move (hG : Lifecycle names w) (hdistinct : DistinctLabels names) (hk : k ∈ names)
    {q q' : MachinePhase} {c : Call} (hH : Holding k w q) (hmove : MachineMove k o w q c q' w') :
    Lifecycle names w' ∧ Holding k w' q' ∧ HostsVia MarkKept w w' := by
  have hrefl : HostsVia MarkKept w w := .refl .refl w
  cases hmove with
  | @read m hm =>
    refine ⟨hG, ⟨hG.machines k m hm, fun hd m' hm' => ?_, fun hd key h hh hl => ?_⟩, hrefl⟩
    · cases hm.symm.trans hm'
      exact hd
    · -- a marked host would mean that the machine is under deletion
      by_contra hmark
      have := hG.deleting k hk key h hh hl (by simpa using hmark) m hm
      cases this.symm.trans hd
  | owner _ _ => exact ⟨hG, hH, hrefl⟩
  | cluster _ _ => exact ⟨hG, hH, hrefl⟩
  | infra => exact ⟨hG, hH, hrefl⟩
  | quit => exact ⟨hG, trivial, hrefl⟩
  | fetched => exact ⟨hG, holding_fetched hG hH _, hrefl⟩
  | fetchFailed => exact ⟨hG, ⟨hH, rfl⟩, hrefl⟩
  | look hw =>
    obtain ⟨nodes, rfl⟩ := hw
    have hpeer : HostsVia PeerEffect w { w with nodes := nodes } := .of_hosts_eq .refl rfl
    exact ⟨hG.of_eq rfl rfl rfl, hH.mono hpeer id, .of_hosts_eq .refl rfl⟩
  | @template s host =>
    refine ⟨hG, ?_, hrefl⟩
    cases host <;> exact hH
  | @created s host config _ =>
    refine ⟨hG.of_eq rfl rfl rfl, ?_, .of_hosts_eq .refl rfl⟩
    have hw : HostsVia PeerEffect w
        { w with installerConfigs := w.installerConfigs.insert config.key config } :=
      .of_hosts_eq .refl rfl
    cases host with
    | none => exact ⟨hH.1.mono hw id, noneLabelled_of_peer hw hH.2⟩
    | some h => exact ⟨hH.1.mono hw id, hH.2.mono hw⟩
  | @notCreated s host =>
    refine ⟨hG, ?_, hrefl⟩
    cases host <;> exact hH
  | listed hs _ _ hh =>
    exact ⟨hG, ⟨hH.1, picked_listed hG hH.1 hH.2 hs _ _ (List.mem_of_head? hh), rfl⟩, hrefl⟩
  | installReady hs _ _ _ _ _ => exact ⟨hG, ⟨hH.1, hH.2, hs⟩, hrefl⟩
  | uninstallReady hs _ _ _ _ _ => exact ⟨hG, ⟨hH.1, hH.2, hs⟩, hrefl⟩
  | specWritten hcur => exact hH.specWritten hG hdistinct hk hcur
  | @specFailed s e h failed _ =>
    refine ⟨hG, ?_, hrefl⟩
    -- a failed attachment leaves the host free; a failed mark leaves it as it was
    cases e with
    | attach a =>
      obtain ⟨hread, hp, rfl⟩ := hH
      exact ⟨hread, hp.normal, hp.free.mark, nofun, fun _ => ⟨hp.unlabelled, hp.target⟩⟩
    | mark u => exact ⟨hH.1, hH.2.2⟩
    | pause _ => exact hH
    | install _ => exact hH
    | uninstall _ => exact hH
  | statusWritten hchanged hcur => exact hH.statusWritten hG hchanged hcur
  | @statusFailed s e h failed hchanged _ =>
    refine ⟨hG, ?_, hrefl⟩
    cases e with
    | attach a => exact ⟨hH.1, nofun⟩
    | mark u => exact hH
    | pause _ => exact hH
    | install _ => exact hH
    | uninstall _ => exact hH
  | @machineWritten s how m cur m' part _ _ hcur hm' =>
    -- the machine may go now; hosts that it had marked stay marked
    obtain ⟨hG', hdel⟩ := hG.setMachine hcur hm'
    refine ⟨hG', ?_, .of_hosts_eq .refl rfl⟩
    have hpeer : HostsVia PeerEffect w (w.setMachine m.key m') := .of_hosts_eq .refl rfl
    have hH' := hH.mono hpeer (hdel k)
    cases part with
    | conditions => exact hH'
    | spec => exact hH'
    | status => trivial
  | @machineFailed s how m part =>
    refine ⟨hG, ?_, hrefl⟩
    cases part with
    | conditions => exact hH
    | spec => exact hH
    | status => trivial

/-- The patch of an attachment is sent. -/
theorem Picked.changed (hp : Picked k s a h w) :
    h.changed ((HostEdit.attach a).apply h) = true := by
  by_contra hsame
  simp only [ByoHost.changed, Bool.not_eq_true, Bool.not_eq_false', Bool.and_eq_true,
    GoMap.same_iff] at hsame
  have hlabel := hsame.1.1.1.1 .clusterName
  rw [show h.labels.get .clusterName = none from hp.free.cluster] at hlabel
  simp [HostEdit.apply, Attachment.apply] at hlabel

/-- What happens between calls. -/
theorem Holding.step {q q' : MachinePhase} (hH : Holding k w q) (hstep : MachineSilent q q') :
    Holding k w q' := by
  cases hstep with
  | noOwner | noCluster | noInfra | skipMachineStatus => trivial
  | invalidLabel => exact ⟨hH, rfl⟩
  | pause _ => exact hH
  | unpause _ => exact hH
  | mark hs => exact ⟨hH.1, hH.2, hs⟩
  | @skipSpec s e h failed hsame =>
    cases e with
    | attach a => cases hsame.symm.trans hH.2.1.changed
    | mark u => exact ⟨hH.1, hH.2.2⟩
    | pause _ => exact hH
    | install _ => exact hH
    | uninstall _ => exact hH
  | @skipStatus s e h failed _ =>
    cases e with
    | attach a => exact ⟨hH.1, hH.2.fetched⟩
    | mark u => exact hH
    | pause _ => exact hH
    | install _ => exact hH
    | uninstall _ => exact hH
  | @wrote s e h hs =>
    cases e with
    | attach a => exact ⟨hH.1, (hH.2 rfl).apply rfl⟩
    | mark u => cases hs.symm.trans (not_normal_of_delete hH.2)
    | pause _ => exact ⟨hH.1, hH.2.apply rfl⟩
    | install _ => exact ⟨hH.1, hH.2.1.apply rfl⟩
    | uninstall _ => exact ⟨hH.1, hH.2.1.apply rfl⟩
  | @writeFailed s e h m' hs hm =>
    refine ⟨?_, hs, hm⟩
    cases e <;> exact hH.1
  | @leave s host m' hs hm =>
    refine ⟨?_, hs, hm⟩
    cases host <;> exact hH.1
  | pausedNoHost hs => exact ⟨hH.1, hs, rfl⟩
  | pausedHost hs => exact ⟨hH.1, hs, rfl⟩
  | releasedNoHost hs => exact ⟨hH.1, hs, rfl⟩
  | marked hs => exact ⟨hH.1, hs, rfl⟩
  | markFailed _ => exact ⟨hH.1, rfl⟩
  | skipConditions => exact hH
  | skipMachineSpec _ => exact hH

end Moves

/-! ## All threads -/

section Threads

variable {names : List NamespacedName} {k : NamespacedName} {w w' : World} {o : Outcome} {c : Call}
  {t : Tid}

/-- A call of an agent keeps the invariant. -/
theorem Releasing.lifecycle {q q' : AgentPhase} (hG : Lifecycle names w) (hH : Releasing k w q)
    (hmove : AgentMove k o w q c q' w') : Lifecycle names w' := by
  cases hmove with
  | conditionsWritten hcur => exact hG.setHost_peer hcur rfl (.inl ⟨rfl, rfl, rfl⟩)
  | specWritten hreleased hcur => exact hG.setHost_peer hcur rfl (.inr (hH.release hreleased hcur))
  | statusWritten _ _ hcur => exact hG.setHost_peer hcur rfl (.inl ⟨rfl, rfl, rfl⟩)
  | _ => exact hG

/-- A call of the controller of hosts keeps the invariant. -/
theorem HostMove.lifecycle {q q' : HostPhase} (hG : Lifecycle names w)
    (hmove : HostMove k o w q c q' w') : Lifecycle names w' := by
  cases hmove with
  | cleared hcur => exact hG.setHost_peer hcur rfl (.inl (merge_cleared_same _ _))
  | deleted => exact hG.of_eq rfl rfl rfl
  | _ => exact hG

/-- What holds while a thread is in a phase. -/
structure LifecycleThread (names : List NamespacedName) (t : Tid) (w : World) (q : Option Phase) :
    Prop where
  machine : ∀ k p, t = .byoMachine k → q = some (.machine p) → k ∈ names ∧ Holding k w p
  agent : ∀ k p, t = .agent k → q = some (.agent p) → Releasing k w p

theorem lifecycleThread_none (t : Tid) : LifecycleThread names t w none := by
  constructor <;> (rintro _ _ _ ⟨⟩)

theorem lifecycleThread_machine {q : MachinePhase} (hk : k ∈ names) (hH : Holding k w q) :
    LifecycleThread names (.byoMachine k) w (some (.machine q)) := by
  constructor
  · rintro _ _ ⟨⟩ ⟨⟩
    exact ⟨hk, hH⟩
  · rintro _ _ ⟨⟩

theorem lifecycleThread_agent {q : AgentPhase} (hH : Releasing k w q) :
    LifecycleThread names (.agent k) w (some (.agent q)) := by
  constructor
  · rintro _ _ ⟨⟩
  · rintro _ _ ⟨⟩ ⟨⟩
    exact hH

/-- Threads of the other two controllers have no assertion. -/
theorem lifecycleThread_other {q : Option Phase} (hm : ∀ k, t ≠ .byoMachine k)
    (ha : ∀ k, t ≠ .agent k) : LifecycleThread names t w q :=
  ⟨fun k _ ht => absurd ht (hm k), fun k _ ht => absurd ht (ha k)⟩

/-- What holds of a thread holds after a move of another one. -/
theorem LifecycleThread.mono {q : Option Phase} (hH : LifecycleThread names t w q)
    (hmachine : ∀ k p, t = .byoMachine k → q = some (.machine p) → Holding k w p → Holding k w' p)
    (hagent : ∀ k, t = .agent k → ∀ cur', w'.hosts.lookup k = some cur' →
      ∃ cur, w.hosts.lookup k = some cur ∧ MarkKept cur cur') : LifecycleThread names t w' q := by
  refine ⟨fun k p ht hq => ?_, fun k p ht hq => (hH.agent k p ht hq).mono (hagent k ht)⟩
  obtain ⟨hk, hp⟩ := hH.machine k p ht hq
  exact ⟨hk, hmachine k p ht hq hp⟩

/-- A call of a thread: what holds on the server, of the thread itself and of the others. -/
theorem LifecycleThread.call (hG : Lifecycle names w) (hdistinct : DistinctLabels names)
    {q q' : Phase} (hH : LifecycleThread names t w (some q))
    (hnext : Next t q c (exec o c w).1 q') :
    Lifecycle names (exec o c w).2 ∧ LifecycleThread names t (exec o c w).2 (some q') ∧
      ∀ t' q₁, t' ≠ t → (q₁.isSome = true → NotBothMachines names t t') →
        LifecycleThread names t' w q₁ → LifecycleThread names t' (exec o c w).2 q₁ := by
  cases hnext with
  | @machine k q q' c _ h =>
    obtain ⟨hk, hp⟩ := hH.machine k q rfl rfl
    obtain ⟨hG', hp', hkept⟩ := hp.move hG hdistinct hk h.move
    refine ⟨hG', lifecycleThread_machine hk hp', fun t' q₁ _ hcompat hH₁ => hH₁.mono ?_ ?_⟩
    · rintro k' p rfl rfl _
      exact absurd rfl (hcompat rfl k hk k' (hH₁.machine k' p rfl rfl).1 rfl)
    · exact fun _ _ cur' hcur' => hkept.of_some hcur'
  | @config k q q' c _ h =>
    obtain ⟨hh, hm, hi⟩ := h.frame o w
    have hpeer : HostsVia PeerEffect w (exec o c w).2 := .of_hosts_eq .refl hh
    refine ⟨hG.of_eq hh hi hm, lifecycleThread_other (by simp) (by simp),
      fun t' q₁ _ _ hH₁ => hH₁.mono (fun k p _ _ hp => hp.mono hpeer ?_) ?_⟩
    · simp only [Deleting, hm, imp_self]
    · exact fun _ _ cur' hcur' => ⟨cur', by rwa [hh] at hcur', .refl cur'⟩
  | @host k q q' c _ h =>
    have heffect := h.move.effect
    have hpeer : HostsVia PeerEffect w (exec o c w).2 := heffect.mono fun _ _ hr => .inl hr.1
    refine ⟨h.move.lifecycle hG, lifecycleThread_other (by simp) (by simp),
      fun t' q₁ _ _ hH₁ => hH₁.mono (fun k p _ _ hp => hp.mono hpeer ?_) ?_⟩
    · simp only [Deleting, h.move.machines_eq, imp_self]
    · intro _ _ cur' hcur'
      obtain ⟨cur, hcur, hr⟩ := heffect.of_some hcur'
      exact ⟨cur, hcur, hr.2⟩
  | @agent k q q' c _ h =>
    have hp := hH.agent k q rfl rfl
    have hpeer := hp.effect h.move
    refine ⟨hp.lifecycle hG h.move, lifecycleThread_agent (hp.move hG.hosts hG.each h.move),
      fun t' q₁ hne _ hH₁ => hH₁.mono (fun k p _ _ hp => hp.mono hpeer ?_) ?_⟩
    · simp only [Deleting, h.move.machines_eq, imp_self]
    · -- another agent has another host
      rintro k' rfl cur' hcur'
      rw [hp.only h.move fun heq => hne (congrArg Tid.agent heq)] at hcur'
      exact ⟨cur', hcur', .refl cur'⟩

/-- What holds of a thread holds after its own silent moves. -/
theorem LifecycleThread.step {setup : Setup} {q q' : Phase}
    (hH : LifecycleThread names t w (some q)) (hstep : Silent setup t q q') :
    LifecycleThread names t w (some q') := by
  cases hstep with
  | @machine k q q' h =>
    obtain ⟨hk, hp⟩ := hH.machine k q rfl rfl
    exact lifecycleThread_machine hk (hp.step h)
  | config h => exact lifecycleThread_other (by simp) (by simp)
  | @agent k q q' h => exact lifecycleThread_agent ((hH.agent k q rfl rfl).step h)

end Threads

/-- Machines are reconciled one after another and are not created again; everything else happens at
any time. -/
def cycleRules (names : List NamespacedName) : Rules Call Outcome World Tid EnvAction where
  start := fun _ busy t => OneAtATime names busy t
  env := fun _ _ a => noCreation a = true

/-- The cycle is kept by all steps. -/
theorem lifecycle_relyGuarantee (setup : Setup) {names : List NamespacedName}
    (hdistinct : DistinctLabels names) :
    RelyGuarantee (system setup) (cycleRules names) Next (Silent setup) firstPhase Done
      (NotBothMachines names) (Lifecycle names) (LifecycleThread names) where
  follows := system_follows setup
  symm := NotBothMachines.symm
  exclude := fun hstart t' ht' _ => OneAtATime.notBothMachines hstart t' ht'
  start := by
    intro w busy t _ _ hstart
    cases t with
    | byoMachine k => exact lifecycleThread_machine hstart.1 trivial
    | agent k => exact lifecycleThread_agent trivial
    | k8sInstallerConfig k => exact lifecycleThread_other (by simp) (by simp)
    | byoHost k => exact lifecycleThread_other (by simp) (by simp)
  call := by
    intro w t q o c q' hG hH _ hnext
    obtain ⟨hG', hH', -⟩ := hH.call hG hdistinct hnext
    exact ⟨hG', hH'⟩
  others := by
    intro w t q o c q' t' q₁ hG hH _ hnext hne hcompat hH₁
    exact (hH.call hG hdistinct hnext).2.2 t' q₁ hne hcompat hH₁
  silent := fun _ hH hstep => hH.step hstep
  finish := fun _ _ _ => lifecycleThread_none _
  env := by
    intro w busy a w' hG ha henv
    have hh := envStep_hosts henv
    refine ⟨hG.env ha henv, fun t q hH => hH.mono (fun k p _ _ hp => ?_) fun _ _ cur' hcur' => ?_⟩
    · exact hp.mono (.of_hosts_eq .refl hh) fun hdel => hdel.env ha henv
    · exact ⟨cur', by rwa [hh] at hcur', .refl cur'⟩

/-! ## The start -/

/-- Reads are up to date, objects are stored under their keys, and no host was ever attached. -/
structure Pristine (w : World) : Prop where
  fresh : w.informer = none
  hosts : WellKeyed w
  machines : MachinesKeyed w
  free : ∀ key h, w.hosts.lookup key = some h → IsFree h
  bare : ∀ key h, w.hosts.lookup key = some h → h.machineRef = none ∧ h.bootstrapSecret = none ∧
    h.installationSecret = none ∧ h.uninstallationSecret = none

/-- The invariant holds at the start. -/
theorem Pristine.lifecycle {w : World} (hw : Pristine w) (names : List NamespacedName) :
    Lifecycle names w where
  fresh := hw.fresh
  hosts := hw.hosts
  machines := hw.machines
  each := fun key h hh => (hw.free key h hh).invariant
  unique := fun k₁ h₁ _ _ hh₁ _ hsome => absurd (hw.free k₁ h₁ hh₁).label hsome
  deleting := fun k _ key h hh hl => by
    rw [Labelled, (hw.free key h hh).label] at hl
    cases hl

theorem small_pristine (hosts machines : List String) : Pristine (Small.world hosts machines) where
  fresh := rfl
  hosts := by
    intro k h hh
    obtain ⟨name, rfl, rfl⟩ := Small.hosts_lookup hh
    rfl
  machines := by
    intro k m hm
    obtain ⟨name, rfl, rfl⟩ := Small.machines_lookup hm
    rfl
  free := by
    intro k h hh
    obtain ⟨name, rfl, rfl⟩ := Small.hosts_lookup hh
    exact ⟨rfl, rfl, rfl⟩
  bare := by
    intro k h hh
    obtain ⟨name, rfl, rfl⟩ := Small.hosts_lookup hh
    exact ⟨rfl, rfl, rfl, rfl⟩

end Byoh.Protocol
