import Byoh.Foundation.RelyGuarantee
import Byoh.Properties.LabelValues
import Byoh.Protocol.ManagerWrites
import Byoh.Protocol.SystemPhases

/-!
# A machine finds its own host

`FetchAttachedByoHost` trusts the label on a host. Every label on a host object, on the server or
anywhere on its way to the cache of the manager, was written by `attachByoHost` in a reconcile of a
machine with that label value (`label_origin`), whatever else interleaves with it. So a host that is
found for a machine was attached to that very machine exactly if label values determine machines
(`labelValue_identifies_machine`).
-/

set_option autoImplicit false

namespace Byoh.Properties

open Byoh.Foundation Byoh.Model Byoh.Protocol Byoh.Model.ByoMachineReconciler

/-! ## Host objects on the server, in the cache and on the way to it -/

/-- The object `h` is stored as the host `key`. -/
inductive HostAt (w : World) (key : NamespacedName) (h : ByoHost) : Prop
  | server (hh : w.hosts.lookup key = some h)
  | cached {i : Informer} (hi : w.informer = some i) (hh : i.cache.lookup key = some h)
  | queued {i : Informer} (hi : w.informer = some i) (hh : h ∈ i.queue key)

section HostAt

variable {w w' : World} {key : NamespacedName} {h : ByoHost}

theorem HostAt.of_view (hh : w.hostView.lookup key = some h) : HostAt w key h := by
  rw [World.hostView] at hh
  split at hh
  · exact .server hh
  next i hi => exact .cached hi hh

theorem HostAt.of_eq (hat : HostAt w' key h) (hhosts : w'.hosts = w.hosts)
    (hinformer : w'.informer = w.informer) : HostAt w key h := by
  cases hat with
  | server hh => exact .server (hhosts ▸ hh)
  | cached hi hh => exact .cached (hinformer ▸ hi) hh
  | queued hi hh => exact .queued (hinformer ▸ hi) hh

/-- A write adds the new version and nothing else. -/
theorem HostAt.of_setHost {k : NamespacedName} {b : ByoHost} (hat : HostAt (w.setHost k b) key h) :
    HostAt w key h ∨ (w.setHost k b).hosts.lookup key = some h := by
  cases hat with
  | server hh => exact .inr hh
  | cached hi hh =>
    simp only [World.setHost, Option.map_eq_some_iff] at hi
    obtain ⟨i, hi, rfl⟩ := hi
    exact .inl (.cached hi hh)
  | queued hi hh =>
    simp only [World.setHost, Option.map_eq_some_iff] at hi
    obtain ⟨i, hi, rfl⟩ := hi
    by_cases hk : key = k
    · subst hk
      simp only [Function.update_self, List.mem_append, List.mem_singleton] at hh
      rcases hh with hh | rfl
      · exact .inl (.queued hi hh)
      · exact .inr (AList.lookup_insert _)
    · simp only [Function.update_of_ne hk] at hh
      exact .inl (.queued hi hh)

/-- A host object that a call brings about is on the server after it. -/
theorem HostAt.of_exec {o : Outcome} {c : Call} (hat : HostAt (exec o c w).2 key h) :
    HostAt w key h ∨ (exec o c w).2.hosts.lookup key = some h := by
  by_cases hc : c.writes = some .hosts
  · cases c with
    | createByoHost b =>
      rcases exec_createByoHost o w b with ⟨-, hw⟩ | ⟨e, hw⟩ <;> rw [hw] at hat ⊢
      · exact hat.of_setHost
      · exact .inl hat
    | patchByoHostConditions k before after =>
      rcases exec_patchByoHostConditions o w k before after with ⟨_, _, -, -, hw⟩ | ⟨_, hw, -⟩ <;>
        rw [hw] at hat ⊢
      · exact hat.of_setHost
      · exact .inl hat
    | patchByoHost k before after =>
      rcases exec_patchByoHost o w k before after with ⟨_, -, hw⟩ | ⟨_, hw, -⟩ <;> rw [hw] at hat ⊢
      · exact hat.of_setHost
      · exact .inl hat
    | patchByoHostStatus k before after =>
      rcases exec_patchByoHostStatus o w k before after with ⟨_, -, hw⟩ | ⟨_, hw, -⟩ <;>
        rw [hw] at hat ⊢
      · exact hat.of_setHost
      · exact .inl hat
    | _ => cases hc
  · exact .inl (hat.of_eq (exec_hosts o w hc) (exec_informer o w hc))

/-- A delivery moves an object from the queue to the cache. -/
theorem HostAt.of_deliver {i : Informer} {k : NamespacedName} (hi : w.informer = some i)
    (hat : HostAt { w with informer := some (i.deliver k) } key h) : HostAt w key h := by
  cases hqueue : i.queue k with
  | nil =>
    rw [Informer.deliver, hqueue, ← hi] at hat
    exact hat
  | cons b rest =>
    simp only [Informer.deliver, hqueue] at hat
    cases hat with
    | server hh => exact .server hh
    | cached hi' hh =>
      cases hi'
      rcases lookup_insert_some hh with ⟨rfl, rfl⟩ | ⟨-, hh⟩
      · exact .queued hi (hqueue ▸ List.mem_cons_self)
      · exact .cached hi hh
    | queued hi' hh =>
      cases hi'
      by_cases hk : key = k
      · subst hk
        simp only [Function.update_self] at hh
        exact .queued hi (hqueue ▸ List.mem_cons_of_mem _ hh)
      · simp only [Function.update_of_ne hk] at hh
        exact .queued hi hh

theorem HostAt.of_env {a : EnvAction} (henv : envStep a w = some w') (hat : HostAt w' key h) :
    HostAt w key h := by
  cases a <;> simp only [envStep, Option.map_eq_some_iff, Option.some.injEq] at henv
  case createByoMachine m =>
    split at henv
    · cases henv
    · cases henv
      exact hat.of_eq rfl rfl
  case deliver k =>
    obtain ⟨i, hi, rfl⟩ := henv
    exact hat.of_deliver hi
  case deleteByoMachine | pauseByoMachine =>
    obtain ⟨_, _, rfl⟩ := henv
    exact hat.of_eq rfl rfl
  all_goals
    subst henv
    exact hat.of_eq rfl rfl

end HostAt

/-! ## Keys -/

/-- Host objects are stored under their keys. -/
def HostsKeyed (w : World) : Prop := ∀ key h, HostAt w key h → h.key = key

/-- The host has the same key. -/
def SameKey (h h' : ByoHost) : Prop := h'.key = h.key

theorem SameKey.refl (h : ByoHost) : SameKey h h := rfl

/-- No call of the system moves a host to another key. -/
theorem Next.keepsKeys {t : Tid} {q q' : Phase} {c : Call} {o : Outcome} {w : World}
    (h : Next t q c (exec o c w).1 q') : HostsVia SameKey w (exec o c w).2 := by
  have hmanager : IsManagerCall c → HostsVia SameKey w (exec o c w).2 :=
    fun hc => (hc.hostsVia o w).mono fun _ _ hwrites => hwrites.keeps.1
  cases h with
  | machine h => exact hmanager h.isManagerCall
  | config h => exact hmanager h.isManagerCall
  | host h => exact hmanager h.isManagerCall
  | agent h =>
    generalize hw : (exec o c w).2 = w'
    have hmove := hw ▸ h.move
    cases hmove with
    | conditionsWritten hcur => exact .setHost .refl hcur rfl
    | specWritten _ hcur => exact .setHost .refl hcur rfl
    | statusWritten _ _ hcur => exact .setHost .refl hcur rfl
    | _ => exact .refl .refl w

theorem HostsKeyed.call {t : Tid} {q q' : Phase} {c : Call} {o : Outcome} {w : World}
    (hkeys : HostsKeyed w) (h : Next t q c (exec o c w).1 q') : HostsKeyed (exec o c w).2 := by
  intro key b hat
  rcases hat.of_exec with hat | hb
  · exact hkeys key b hat
  · obtain ⟨b₀, hb₀, hkey⟩ := (Next.keepsKeys h).of_some hb
    exact hkey.trans (hkeys key b₀ (.server hb₀))

/-! ## The reconcile of a machine -/

/-- The reconcile of `k` works on the machine `k`, and what it attaches comes from there. -/
def WorksOn (k : NamespacedName) : MachinePhase → Prop
  | .owner m | .cluster m _ | .infra m _ _ => m.key = k
  | .fetch s | .body s _ | .create s _ _ => s.byoMachine.key = k
  | .write s e _ _ _ => s.byoMachine.key = k ∧
      ∀ a, e = .attach a → ∃ dataSecretName version, a = attachmentFor s dataSecretName version
  | .start | .finish _ _ _ _ | .done => True

theorem worksOn_afterPart {k : NamespacedName} {s : Scope} {how : Leave} {m : ByoMachine}
    (part : PatchPart) : WorksOn k (afterPart s how m part) := by
  cases part <;> trivial

section WorksOn

variable {k : NamespacedName} {w w' : World} {o : Outcome} {q q' : MachinePhase} {c : Call}

theorem WorksOn.move (hkeys : MachinesKeyed w) (hH : WorksOn k q)
    (hmove : MachineMove k o w q c q' w') : MachinesKeyed w' ∧ WorksOn k q' := by
  cases hmove with
  | read hm => exact ⟨hkeys, hkeys k _ hm⟩
  | quit => exact ⟨hkeys, trivial⟩
  | fetchFailed => exact ⟨hkeys, trivial⟩
  | look hw =>
    obtain ⟨nodes, rfl⟩ := hw
    exact ⟨hkeys, hH⟩
  | listed => exact ⟨hkeys, hH, fun a ha => ⟨_, _, (HostEdit.attach.inj ha).symm⟩⟩
  | installReady => exact ⟨hkeys, hH, nofun⟩
  | uninstallReady => exact ⟨hkeys, hH, nofun⟩
  | @machineWritten s how m cur m' part _ _ hcur hm' =>
    refine ⟨hkeys.setMachine ?_, worksOn_afterPart part⟩
    rw [hm'.rest]
    exact hkeys m.key cur hcur
  | machineFailed => exact ⟨hkeys, worksOn_afterPart _⟩
  | _ => exact ⟨hkeys, hH⟩

theorem WorksOn.step (hH : WorksOn k q) (hstep : MachineSilent q q') : WorksOn k q' := by
  cases hstep with
  | pause | unpause | mark => exact ⟨hH, nofun⟩
  | wrote => exact hH.1
  | skipSpec | skipStatus => exact hH
  | _ => trivial

/-- The call of `attachByoHost` of the reconcile of `k` that labels the host `key`. -/
def IsAttachOf (k key : NamespacedName) (c : Call) : Prop :=
  ∃ (s : Scope) (dataSecretName version : String) (h : ByoHost), s.byoMachine.key = k ∧
    c = .patchByoHost key h ((attachmentFor s dataSecretName version).apply h)

/-- A label that is on a host after a call of the reconcile was there before, or the call is the
one that attaches. -/
theorem WorksOn.label_origin (hH : WorksOn k q) (hmove : MachineMove k o w q c q' w')
    {key : NamespacedName} {h : ByoHost} {v : String} (hh : w'.hosts.lookup key = some h)
    (hv : h.attachedLabel = some v) :
    (∃ b, w.hosts.lookup key = some b ∧ b.attachedLabel = some v) ∨
      v = k.labelValue ∧ IsAttachOf k key c := by
  cases hmove with
  | @specWritten s e b cur failed hcur =>
    by_cases hk : key = b.key
    · subst hk
      rw [World.setHost, AList.lookup_insert] at hh
      cases hh
      cases he : e.isAttach with
      | false =>
        rw [(HostEdit.merge_labels he b cur).1] at hv
        exact .inl ⟨cur, hcur, hv⟩
      | true =>
        cases e with
        | attach a =>
          obtain ⟨hkey, hattach⟩ := hH
          obtain ⟨dataSecretName, version, rfl⟩ := hattach a rfl
          have hlabel : ((HostEdit.attach (attachmentFor s dataSecretName version)).apply
              b).attachedLabel = some k.labelValue := by
            simp [HostEdit.apply, Attachment.apply, ByoHost.attachedLabel,
              attachmentFor_label hkey dataSecretName version]
          rw [ByoHost.merge_attachedLabel, hlabel, mergeField] at hv
          -- the label was there before the read, or the patch writes it
          split at hv
          · exact .inl ⟨cur, hcur, hv⟩
          · exact .inr ⟨(Option.some.inj hv).symm, s, dataSecretName, version, b, hkey, rfl⟩
        | _ => cases he
    · rw [World.setHost, AList.lookup_insert_ne hk] at hh
      exact .inl ⟨h, hh, hv⟩
  | @statusWritten s e b cur failed _ hcur =>
    rcases lookup_insert_some hh with ⟨rfl, rfl⟩ | ⟨-, hh⟩
    · exact .inl ⟨cur, hcur, hv⟩
    · exact .inl ⟨h, hh, hv⟩
  | look hw =>
    obtain ⟨nodes, rfl⟩ := hw
    exact .inl ⟨h, hh, hv⟩
  | _ => exact .inl ⟨h, hh, hv⟩

end WorksOn

/-! ## Runs -/

/-- The machines whose reconciles may start are those of `names`. -/
def namedRules (names : NamespacedName → Prop) : Rules Call Outcome World Tid EnvAction where
  start := fun _ _ t => ∀ k, t = .byoMachine k → names k

/-- What holds while a thread is in a phase. -/
def WorksOnThread (names : NamespacedName → Prop) : Tid → Option Phase → Prop
  | .byoMachine k, some (.machine q) => names k ∧ WorksOn k q
  | _, _ => True

/-- Objects are stored under their keys. -/
structure Keyed (w : World) : Prop where
  hosts : HostsKeyed w
  machines : MachinesKeyed w

section Runs

variable {names : NamespacedName → Prop} {setup : Setup} {w : World}
  {ls : List (Label Outcome Tid EnvAction)} {σ : Pool Call Resp World Tid}

theorem worksOnThread_none (t : Tid) : WorksOnThread names t none := by
  cases t <;> trivial

theorem keyed_relyGuarantee :
    RelyGuarantee (system setup) (namedRules names) Next (Silent setup) firstPhase Done
      (fun _ _ => True) Keyed (fun t _ => WorksOnThread names t) where
  follows := system_follows setup
  symm := fun _ => trivial
  exclude := fun _ _ _ _ => trivial
  start := by
    intro w busy t _ _ hstart
    cases t with
    | byoMachine k => exact ⟨hstart k rfl, trivial⟩
    | _ => trivial
  call := by
    intro w t q o c q' hG hH _ hnext
    have hhosts := hG.hosts.call hnext
    by_cases ht : ∃ k, t = .byoMachine k
    · obtain ⟨k, rfl⟩ := ht
      cases hnext with
      | machine hnext =>
        obtain ⟨hmachines, hH'⟩ := WorksOn.move hG.machines hH.2 hnext.move
        exact ⟨⟨hhosts, hmachines⟩, hH.1, hH'⟩
    · have hmachines := (hnext.sheds fun k hk => ht ⟨k, hk⟩).2
      refine ⟨⟨hhosts, hG.machines.of_eq hmachines⟩, ?_⟩
      cases hnext with
      | machine _ => exact absurd ⟨_, rfl⟩ ht
      | _ => trivial
  others := fun _ _ _ _ _ _ hH₁ => hH₁
  silent := by
    intro w t q q' _ hH hstep
    cases hstep with
    | machine hstep => exact ⟨hH.1, WorksOn.step hH.2 hstep⟩
    | _ => trivial
  finish := fun _ _ _ => worksOnThread_none _
  env := by
    intro w busy a w' hG _ henv
    exact ⟨⟨fun key h hat => hG.hosts key h (hat.of_env henv), hG.machines.env henv⟩,
      fun _ _ hH => hH⟩

/-- The label value is on an object of the host. -/
def Carries (w : World) (x : NamespacedName × String) : Prop :=
  ∃ h, HostAt w x.1 h ∧ h.attachedLabel = some x.2

/-- The thread reconciles a machine of `names` with the label value, and the call attaches the
host. -/
def AttachesWith (names : NamespacedName → Prop) (t : Tid) (c : Call) (x : NamespacedName × String) :
    Prop :=
  ∃ k, t = .byoMachine k ∧ names k ∧ x.2 = k.labelValue ∧ IsAttachOf k x.1 c

/-- In the run `ls` from `w`, the reconcile of `k` made the call that attaches the host `key`. -/
def AttachedDuring (setup : Setup) (names : NamespacedName → Prop) (w : World)
    (ls : List (Label Outcome Tid EnvAction)) (k key : NamespacedName) : Prop :=
  ∃ ls₁ o ls₂ σ₁ c rest, ls = ls₁ ++ .call (.byoMachine k) o :: ls₂ ∧
    (system setup).Steps (namedRules names) (.init w) ls₁ σ₁ ∧
      σ₁.thread (.byoMachine k) = some (.call c rest) ∧ IsAttachOf k key c

/-- Every label on a host was written in the run, by the reconcile of a machine with that label
value. -/
theorem label_origin (hw : Keyed w) (hnone : ∀ key h, HostAt w key h → h.attachedLabel = none)
    (hrun : (system setup).Steps (namedRules names) (.init w) ls σ) {key : NamespacedName}
    {h : ByoHost} (hat : HostAt σ.store key h) {v : String} (hv : h.attachedLabel = some v) :
    ∃ k, names k ∧ v = k.labelValue ∧ AttachedDuring setup names w ls k key := by
  have horigin := keyed_relyGuarantee.provenance hw worksOnThread_none hrun Carries
    (AttachesWith names) ?_ ?_ (x := (key, v)) ⟨h, hat, hv⟩
  · rcases horigin with ⟨b, hb, hlabel⟩ | ⟨ls₁, t, o, ls₂, σ₁, c, rest, hls, hsteps, hthread, hmade⟩
    · cases (hnone key b hb).symm.trans hlabel
    · obtain ⟨k, rfl, hk, hvalue, hattach⟩ := hmade
      exact ⟨k, hk, hvalue, ls₁, o, ls₂, σ₁, c, rest, hls, hsteps, hthread, hattach⟩
  · -- a new label comes with a new version on the server, and only an attachment adds one there
    rintro w t q o c q' ⟨key, v⟩ hG hH hnext ⟨b, hb, hlabel⟩
    rcases hb.of_exec with hb | hb
    · exact .inl ⟨b, hb, hlabel⟩
    · by_cases ht : ∃ k, t = .byoMachine k
      · obtain ⟨k, rfl⟩ := ht
        cases hnext with
        | machine hnext =>
          rcases WorksOn.label_origin hH.2 hnext.move hb hlabel with
            ⟨b₀, hb₀, hlabel₀⟩ | ⟨hvalue, hattach⟩
          · exact .inl ⟨b₀, .server hb₀, hlabel₀⟩
          · exact .inr ⟨k, rfl, hH.1, hvalue, hattach⟩
      · obtain ⟨b₀, hb₀, hsheds⟩ := (hnext.sheds fun k hk => ht ⟨k, hk⟩).1.of_some hb
        rcases hsheds.label with hsame | hlost
        · exact .inl ⟨b₀, .server hb₀, hsame.symm.trans hlabel⟩
        · cases hlost.symm.trans hlabel
  · rintro w a w' ⟨key, v⟩ henv ⟨b, hb, hlabel⟩
    exact ⟨b, hb.of_env henv, hlabel⟩

/-- A host that `FetchAttachedByoHost` returns is stored under its key and carries the label. -/
theorem ValidKey.fetched {k : NamespacedName} (hk : ValidKey k) {s : Scope} {os : List Outcome}
    {h : ByoHost} (hw : Keyed w)
    (hfetch : (Prog.run exec os (fetchAttachedByoHost k.name k.ns s) w).1.1 = .ok (some h)) :
    HostAt w h.key h ∧ Labelled k h := by
  have hends := hk.fetch_ensures s w os fun _ _ => trivial
  simp only [hfetch, reduceCtorEq, exists_false, false_or, Exit.ok.injEq] at hends
  obtain ⟨pick, hpick⟩ := hends
  let m : ByoMachine := { ns := k.ns, name := k.name }
  obtain ⟨⟨key, hview⟩, hlabel⟩ := labelled_of_fetched (m := m) hpick.symm
  have hat := HostAt.of_view hview
  rw [hw.hosts key h hat]
  exact ⟨hat, hlabel⟩

end Runs

/-- Machines with the same label value are looked up in the same way. -/
theorem fetchAttachedByoHost_congr {k k' : NamespacedName} (heq : k.labelValue = k'.labelValue) :
    fetchAttachedByoHost k.name k.ns = fetchAttachedByoHost k'.name k'.ns := by
  rw [NamespacedName.labelValue, NamespacedName.labelValue] at heq
  rw [fetchAttachedByoHost, heq, fetchAttachedByoHost]

/-- Let the machines that are considered have names that the API server accepts, and let the shortened
hash not collide on them. Equal label values are values of the same machine exactly if no value of one
form is a value of the other. If so, then in every run from a world without attached hosts, whatever
interleaves and whatever the cache shows, a host that is found for a machine was attached by
`attachByoHost` in a reconcile of that very machine. If not, then there are two machines of which one
is looked up like the other in every world. -/
theorem labelValue_identifies_machine (names : NamespacedName → Prop) (hnames : Considered names) :
    ((∀ k k', names k → names k' →
      generateSafeLabelValue k.ns k.name = generateSafeLabelValue k'.ns k'.name → k = k') ↔
        FormsDisjoint names) ∧
    (FormsDisjoint names → ∀ (setup : Setup) (w : World), Keyed w →
      (∀ key h, HostAt w key h → h.attachedLabel = none) →
      ∀ (ls : List (Label Outcome Tid EnvAction)) (σ : Pool Call Resp World Tid),
        (system setup).Steps (namedRules names) (.init w) ls σ →
        ∀ k, names k → ∀ (s : Scope) (os : List Outcome) (h : ByoHost),
          (Prog.run exec os (fetchAttachedByoHost k.name k.ns s) σ.store).1.1 = .ok (some h) →
            AttachedDuring setup names w ls k h.key) ∧
    (¬FormsDisjoint names → ∃ k k', names k ∧ names k' ∧ k ≠ k' ∧
      fetchAttachedByoHost k.name k.ns = fetchAttachedByoHost k'.name k'.ns) := by
  refine ⟨labelValue_injective_iff hnames, ?_, ?_⟩
  · intro hforms setup w hw hnone ls σ hrun k hk s os h hfetch
    have hkeyed : Keyed σ.store := keyed_relyGuarantee.holds hw worksOnThread_none hrun
    obtain ⟨hat, hlabel⟩ := (hnames.valid k hk).fetched hkeyed hfetch
    obtain ⟨k', hk', hvalue, hattached⟩ := label_origin hw hnone hrun hat hlabel
    obtain rfl := hforms.eq_of_labelValue_eq hnames hk hk' hvalue
    exact hattached
  · intro hmeet
    obtain ⟨k, k', hk, hk', hne, heq⟩ := exists_collision hmeet
    exact ⟨k, k', hk, hk', hne, fetchAttachedByoHost_congr heq⟩

/-! ## A run of a small cluster -/

/-- The machine that a thread reconciles. -/
def machineOf : Tid → Option NamespacedName
  | .byoMachine k => some k
  | _ => none

theorem machineOf_eq_some {t : Tid} {k : NamespacedName} : machineOf t = some k ↔ t = .byoMachine k := by
  cases t <;> simp [machineOf]

theorem allMachines_iff {names : List NamespacedName} {t : Tid} :
    (machineOf t).all (· ∈ names) = true ↔ ∀ k, t = .byoMachine k → k ∈ names := by
  simp [Option.all_eq_true, machineOf_eq_some]

instance (names : List NamespacedName) : DecidableRules (namedRules (· ∈ names)) where
  start _ _ t := decidable_of_iff ((machineOf t).all (· ∈ names) = true) allMachines_iff
  call _ _ _ _ := inferInstanceAs (Decidable True)
  env _ _ _ := inferInstanceAs (Decidable True)

theorem hostAt_small {hosts machines : List String} {key : NamespacedName} {h : ByoHost}
    (hat : HostAt (Small.world hosts machines) key h) :
    ∃ name, key = Small.key name ∧ h = Small.host name := by
  cases hat with
  | server hh => exact Small.hosts_lookup hh
  | cached hi _ => cases hi
  | queued hi _ => cases hi

theorem keyed_small (hosts machines : List String) : Keyed (Small.world hosts machines) where
  hosts key h hat := by
    obtain ⟨name, rfl, rfl⟩ := hostAt_small hat
    rfl
  machines k m hm := by
    obtain ⟨name, rfl, rfl⟩ := Small.machines_lookup hm
    rfl

theorem considered_small : Considered (· ∈ [Small.key "m1", Small.key "m2"]) where
  valid := by decide
  noCollision := by
    intro k k' hk _ hlong
    have hshort : ∀ k ∈ [Small.key "m1", Small.key "m2"], ¬OverLong k := by decide
    exact absurd hlong (hshort k hk)

/-- The objects of a reconcile of `m1`. -/
def scopeOfM1 : Scope where
  cluster := Small.cluster
  machine := Small.capiMachine "m1"
  byoCluster := { ns := "default", name := "prod" }
  byoMachine := Small.machine "m1"

/-- The host that is found for `m1` is `h1`. -/
def findsH1 (w : World) : Bool :=
  match (Prog.run exec [] (fetchAttachedByoHost "m1" "default" scopeOfM1) w).1.1 with
  | .ok (some h) => h.key = Small.key "h1"
  | _ => false

theorem labelValue_identifies_machine_small : ∃ ls σ,
    (system {}).Steps (namedRules (· ∈ [Small.key "m1", Small.key "m2"]))
      (.init (Small.world ["h1"] ["m1", "m2"])) ls σ ∧ findsH1 σ.store = true ∧
        AttachedDuring {} (· ∈ [Small.key "m1", Small.key "m2"]) (Small.world ["h1"] ["m1", "m2"])
          ls (Small.key "m1") (Small.key "h1") := by
  obtain ⟨σ, hsteps, hfinds⟩ := (system {}).exists_steps
    (namedRules (· ∈ [Small.key "m1", Small.key "m2"]))
    (Small.calls (.byoMachine (Small.key "m1")) 15) (fun σ => findsH1 σ.store)
    (σ := .init (Small.world ["h1"] ["m1", "m2"])) (by decide +kernel)
  refine ⟨_, σ, hsteps, hfinds, ?_⟩
  rw [findsH1] at hfinds
  split at hfinds
  next h hfetch =>
    rw [← of_decide_eq_true hfinds]
    refine (labelValue_identifies_machine _ considered_small).2.1 (formsDisjoint_of_looks (by decide))
      {} _ (keyed_small _ _) ?_ _ σ hsteps (Small.key "m1") (by decide) scopeOfM1 [] h hfetch
    intro key b hat
    obtain ⟨name, rfl, rfl⟩ := hostAt_small hat
    rfl
  · cases hfinds

end Byoh.Properties
