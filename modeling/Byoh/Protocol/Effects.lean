import Byoh.Protocol.HostEdits
import Mathlib.Data.List.Rotate

/-!
# The effects of calls

What a call can do to the world: which store it writes (`Call.writes`), and for each write the two
cases that it lands or has no effect. Everything else is unchanged.
-/

set_option autoImplicit false

namespace Byoh.Model

open Byoh.Foundation

/-! ## Frames -/

/-- The stores that calls write. -/
inductive Store where
  | hosts
  | machines
  | byoClusters
  | installerConfigs
  | secrets
  | nodes
  deriving DecidableEq, Repr

/-- The store that a call may write. -/
def Call.writes : Call → Option Store
  | .createByoHost _ => some .hosts
  | .patchByoHostConditions _ _ _ | .patchByoHost _ _ _ | .patchByoHostStatus _ _ _ => some .hosts
  | .patchByoMachineConditions _ _ _ | .patchByoMachine _ _ _ | .patchByoMachineStatus _ _ _ =>
      some .machines
  | .patchByoCluster _ _ _ | .patchByoClusterStatus _ _ _ => some .byoClusters
  | .createInstallerConfig _ | .patchInstallerConfig _ _ _ | .patchInstallerConfigStatus _ _ _ =>
      some .installerConfigs
  | .createSecret _ | .updateSecret _ | .deleteSecret _ => some .secrets
  | .patchNode _ _ _ _ => some .nodes
  | _ => none

section Frame

variable {α β : Type} (p : World → β) (o : Outcome) (w : World)

/-- A write keeps what its function keeps. -/
theorem writeObject_frame (x : Option α) (f : α → Except ApiError World)
    (hf : ∀ a w', f a = .ok w' → p w' = p w) : p (writeObject o w x f).2 = p w := by
  unfold writeObject
  split
  · split
    · split
      · exact hf _ _ ‹_›
      · rfl
    · rfl
  · rfl

theorem createObject_frame (present : Bool) (w' : World) (hw : p w' = p w) :
    p (createObject o w present w').2 = p w := by
  unfold createObject
  split
  · split
    · rfl
    · exact hw
  · rfl

/-- A call keeps every part of the world that no write to its store changes. -/
theorem exec_frame (c : Call)
    (hhosts : c.writes = some .hosts → ∀ k h, p (w.setHost k h) = p w)
    (hmachines : c.writes = some .machines → ∀ k m, p (w.setMachine k m) = p w)
    (hclusters : c.writes = some .byoClusters → ∀ l, p { w with byoClusters := l } = p w)
    (hconfigs : c.writes = some .installerConfigs →
      ∀ l, p { w with installerConfigs := l } = p w)
    (hsecrets : c.writes = some .secrets → ∀ l, p { w with secrets := l } = p w)
    (hnodes : c.writes = some .nodes → ∀ l, p { w with nodes := l } = p w) :
    p (exec o c w).2 = p w := by
  -- each request writes its own store, or answers with an error and writes nothing
  cases c
  case createByoHost => exact createObject_frame p o w _ _ (hhosts rfl _ _)
  case patchByoHostConditions =>
    refine writeObject_frame p o w _ _ fun cur w' hw => ?_
    split at hw
    · cases hw
      exact hhosts rfl _ _
    · cases hw
  case patchByoHost | patchByoHostStatus =>
    refine writeObject_frame p o w _ _ fun cur w' hw => ?_
    cases hw
    exact hhosts rfl _ _
  case patchByoMachineConditions =>
    refine writeObject_frame p o w _ _ fun cur w' hw => ?_
    split at hw
    · cases hw
      exact hmachines rfl _ _
    · cases hw
  case patchByoMachine =>
    refine writeObject_frame p o w _ _ fun cur w' hw => ?_
    split at hw
    · cases hw
    · cases hw
      exact hmachines rfl _ _
  case patchByoMachineStatus =>
    refine writeObject_frame p o w _ _ fun cur w' hw => ?_
    cases hw
    exact hmachines rfl _ _
  case patchByoCluster =>
    refine writeObject_frame p o w _ _ fun cur w' hw => ?_
    split at hw
    · cases hw
    · cases hw
      exact hclusters rfl _
  case patchByoClusterStatus =>
    refine writeObject_frame p o w _ _ fun cur w' hw => ?_
    cases hw
    exact hclusters rfl _
  case createInstallerConfig => exact createObject_frame p o w _ _ (hconfigs rfl _)
  case patchInstallerConfig =>
    refine writeObject_frame p o w _ _ fun cur w' hw => ?_
    split at hw
    · cases hw
    · cases hw
      exact hconfigs rfl _
  case patchInstallerConfigStatus =>
    refine writeObject_frame p o w _ _ fun cur w' hw => ?_
    cases hw
    exact hconfigs rfl _
  case createSecret => exact createObject_frame p o w _ _ (hsecrets rfl _)
  case updateSecret | deleteSecret =>
    refine writeObject_frame p o w _ _ fun cur w' hw => ?_
    cases hw
    exact hsecrets rfl _
  case patchNode =>
    refine writeObject_frame p o w _ _ fun cur w' hw => ?_
    cases hw
    exact hnodes rfl _
  all_goals rfl

end Frame

section Stores

variable (o : Outcome) (w : World) {c : Call}

/-- Only a call that writes hosts changes them. -/
theorem exec_hosts (h : c.writes ≠ some .hosts) : (exec o c w).2.hosts = w.hosts :=
  exec_frame (·.hosts) o w c (fun hc => absurd hc h) (fun _ _ _ => rfl) (fun _ _ => rfl)
    (fun _ _ => rfl) (fun _ _ => rfl) fun _ _ => rfl

theorem exec_informer (h : c.writes ≠ some .hosts) : (exec o c w).2.informer = w.informer :=
  exec_frame (·.informer) o w c (fun hc => absurd hc h) (fun _ _ _ => rfl) (fun _ _ => rfl)
    (fun _ _ => rfl) (fun _ _ => rfl) fun _ _ => rfl

theorem exec_machines (h : c.writes ≠ some .machines) : (exec o c w).2.machines = w.machines :=
  exec_frame (·.machines) o w c (fun _ _ _ => rfl) (fun hc => absurd hc h) (fun _ _ => rfl)
    (fun _ _ => rfl) (fun _ _ => rfl) fun _ _ => rfl

variable (c)

/-- No call changes clusters or machines of cluster-api or templates. -/
theorem exec_static :
    (exec o c w).2.capiMachines = w.capiMachines ∧ (exec o c w).2.clusters = w.clusters ∧
      (exec o c w).2.installerTemplates = w.installerTemplates := by
  have h := exec_frame (fun w => (w.capiMachines, w.clusters, w.installerTemplates)) o w c
    (fun _ _ _ => rfl) (fun _ _ _ => rfl) (fun _ _ => rfl) (fun _ _ => rfl) (fun _ _ => rfl)
    fun _ _ => rfl
  simpa only [Prod.mk.injEq] using h

end Stores

/-! ## Writes -/

section Writes

variable (o : Outcome) (w : World)

/-- A creation that returned no error. -/
theorem createObject_created {o : Outcome} {w : World} {present : Bool} {w' : World}
    (h : (createObject o w present w').1 = none) :
    present = false ∧ (createObject o w present w').2 = w' := by
  unfold createObject at h ⊢
  split at h
  · split at h
    · cases h
    next hwrite hpresent =>
      rw [Bool.not_eq_true] at hpresent
      simp [hwrite, hpresent]
  · cases h

/-- A write lands or has no effect; a write that may land has no effect only when the object is
missing or refuses it. -/
theorem writeObject_cases {α : Type} (x : Option α) (f : α → Except ApiError World) :
    (∃ a w', o.writeOk = true ∧ x = some a ∧ f a = .ok w' ∧ writeObject o w x f = (none, w')) ∨
      ∃ e, writeObject o w x f = (some e, w) ∧
        (o.writeOk = true → ∀ a, x = some a → ∃ e', f a = .error e') := by
  unfold writeObject
  by_cases ho : o.writeOk = true
  · rw [if_pos ho]
    cases x with
    | none => exact .inr ⟨_, rfl, by simp⟩
    | some a =>
      cases hf : f a with
      | ok w' => exact .inl ⟨a, w', ho, rfl, hf, by simp [hf]⟩
      | error e =>
        refine .inr ⟨e, by simp [hf], ?_⟩
        rintro - a' ha
        cases ha
        exact ⟨e, hf⟩
  · rw [if_neg ho]
    exact .inr ⟨_, rfl, fun h => absurd h ho⟩

/-- A write that is refused by nothing but the environment or a missing object. -/
theorem writeObject_total {α : Type} (x : Option α) (f : α → World) :
    (∃ a, x = some a ∧ writeObject o w x (fun a => .ok (f a)) = (none, f a)) ∨
      ∃ e, writeObject o w x (fun a => .ok (f a)) = (some e, w) ∧
        (o.writeOk = true → x = none) := by
  rcases writeObject_cases o w x (fun a => .ok (f a)) with ⟨a, w', -, hx, hf, hw⟩ | ⟨e, hw, he⟩
  · cases hf
    exact .inl ⟨a, hx, hw⟩
  · refine .inr ⟨e, hw, fun ho => ?_⟩
    cases x with
    | none => rfl
    | some a =>
      obtain ⟨e', he'⟩ := he ho a rfl
      cases he'

variable (k : NamespacedName)

theorem exec_deleteSecret :
    exec o (.deleteSecret k) w = (none, { w with secrets := w.secrets.erase k }) ∨
      ∃ e, exec o (.deleteSecret k) w = (some e, w) := by
  rcases writeObject_total o w (w.secrets.lookup k) (fun _ =>
    { w with secrets := w.secrets.erase k }) with ⟨cur, -, hw⟩ | ⟨e, hw, -⟩
  · exact .inl hw
  · exact .inr ⟨e, hw⟩

/-- A host is created only under a free key. -/
theorem exec_createByoHost (h : ByoHost) :
    (w.hosts.lookup h.key = none ∧ exec o (.createByoHost h) w = (none, w.setHost h.key h)) ∨
      ∃ e, exec o (.createByoHost h) w = (some e, w) := by
  simp only [exec, createObject]
  split
  · cases w.hosts.lookup h.key with
    | none => exact .inl ⟨rfl, rfl⟩
    | some _ => exact .inr ⟨_, rfl⟩
  · exact .inr ⟨_, rfl⟩

/-- A patch is merged into the stored host; it fails by a failed write or for a missing host. -/
theorem exec_patchByoHost (before after : ByoHost) :
    (∃ cur, w.hosts.lookup k = some cur ∧
      exec o (.patchByoHost k before after) w = (none, w.setHost k (before.merge after cur))) ∨
    ∃ e, exec o (.patchByoHost k before after) w = (some e, w) ∧
      (o.writeOk = true → w.hosts.lookup k = none) :=
  writeObject_total o w (w.hosts.lookup k) fun cur => w.setHost k (before.merge after cur)

/-- The same for the status. -/
theorem exec_patchByoHostStatus (before after : ByoHost) :
    (∃ cur, w.hosts.lookup k = some cur ∧
      exec o (.patchByoHostStatus k before after) w =
        (none, w.setHost k (before.mergeStatus after cur))) ∨
    ∃ e, exec o (.patchByoHostStatus k before after) w = (some e, w) ∧
      (o.writeOk = true → w.hosts.lookup k = none) :=
  writeObject_total o w (w.hosts.lookup k) fun cur => w.setHost k (before.mergeStatus after cur)

/-- A patch of conditions: a conflict when they cannot be merged. -/
def writeConditions (write : Conditions → World) : Option Conditions → Except ApiError World
  | some cs => .ok (write cs)
  | none => .error .conflict

theorem writeConditions_ok {write : Conditions → World} {cs : Option Conditions} {w' : World}
    (h : writeConditions write cs = .ok w') : ∃ merged, cs = some merged ∧ w' = write merged := by
  cases cs with
  | none => cases h
  | some merged => exact ⟨merged, rfl, (Except.ok.inj h).symm⟩

theorem writeConditions_error {write : Conditions → World} {cs : Option Conditions} {e : ApiError}
    (h : writeConditions write cs = .error e) : cs = none := by
  cases cs with
  | none => rfl
  | some merged => cases h

/-- The conditions are merged one by one; a conflict refuses the patch. -/
theorem exec_patchByoHostConditions (before after : ByoHost) :
    (∃ cur cs, w.hosts.lookup k = some cur ∧
      mergeConditions before.conditions after.conditions cur.conditions = some cs ∧
      exec o (.patchByoHostConditions k before after) w =
        (none, w.setHost k { cur with conditions := cs })) ∨
    ∃ e, exec o (.patchByoHostConditions k before after) w = (some e, w) ∧
      (o.writeOk = true → ∀ cur, w.hosts.lookup k = some cur →
        mergeConditions before.conditions after.conditions cur.conditions = none) := by
  rcases writeObject_cases o w (w.hosts.lookup k) (fun cur =>
    writeConditions (fun cs => w.setHost k { cur with conditions := cs })
      (mergeConditions before.conditions after.conditions cur.conditions))
    with ⟨cur, w', -, hx, hf, hw⟩ | ⟨e, hw, he⟩
  · obtain ⟨cs, hm, rfl⟩ := writeConditions_ok hf
    exact .inl ⟨cur, cs, hx, hm, hw⟩
  · refine .inr ⟨e, hw, fun ho cur hcur => ?_⟩
    obtain ⟨e', he'⟩ := he ho cur hcur
    exact writeConditions_error he'

end Writes

/-! ## Reads -/

section Reads

variable {o : Outcome} {w : World} {α : Type}

/-- A read finds the object, finds that there is none, or fails. -/
theorem readObject_exact (o : Outcome) (x : Option α) :
    (∃ a, x = some a ∧ readObject o x = .ok a) ∨
      (x = none ∧ readObject o x = .error .notFound) ∨
      (readObject o x = .error .other ∧ o.readOk = false) := by
  cases hread : o.readOk with
  | false => exact .inr (.inr ⟨by simp [readObject, hread], rfl⟩)
  | true =>
    cases x with
    | none => exact .inr (.inl ⟨rfl, by simp [readObject, hread]⟩)
    | some a => exact .inl ⟨a, rfl, by simp [readObject, hread]⟩

theorem readObject_ok {x : Option α} {a : α} (h : readObject o x = .ok a) : x = some a := by
  rcases readObject_exact o x with ⟨a', hx, hread⟩ | ⟨-, hread⟩ | ⟨hread, -⟩ <;>
    rw [hread] at h <;> cases h
  exact hx

theorem readObject_notFound {o : Outcome} {x : Option α} (h : readObject o x = .error .notFound) :
    x = none := by
  unfold readObject at h
  split at h
  · cases x with
    | none => rfl
    | some a => cases h
  · cases h

/-- The hosts of a listing are those of the view that match. -/
theorem mem_listHosts {selector : Selector} {ns : Option String} {pick : Nat} {h : ByoHost} :
    h ∈ listHosts w selector ns pick ↔
      (∃ k, w.hostView.lookup k = some h) ∧ selector.matches h.labels = true ∧
        ns.all (· = h.ns) = true := by
  rw [listHosts, List.mem_rotate, List.mem_filter, lookup_iff_mem_entries, Bool.and_eq_true]

/-- A listing that succeeds lists the hosts as the reader sees them. -/
theorem exec_listByoHosts {selector : Selector} {ns : Option String} {hosts : List ByoHost}
    (h : (exec o (.listByoHosts selector ns) w).1 = .ok hosts) :
    hosts = listHosts w selector ns o.pick := by
  simp only [exec] at h
  split at h
  · exact (Except.ok.inj h).symm
  · cases h

end Reads

/-! ## Machines -/

section Machines

variable (o : Outcome) (w : World) (k : NamespacedName)

/-- The machine `m` after a request of the patch from `before` to `after`. -/
structure MachinePatched (before after cur m : ByoMachine) : Prop where
  rest : m = { cur with
    finalizers := m.finalizers, providerID := m.providerID, hostInfo := m.hostInfo
    ready := m.ready, conditions := m.conditions }
  finalizers : m.finalizers = cur.finalizers ∨
    m.finalizers = mergeField before.finalizers after.finalizers cur.finalizers
  hostInfo : m.hostInfo = cur.hostInfo ∨
    m.hostInfo = mergeHostInfo before.hostInfo after.hostInfo cur.hostInfo

/-- One of the three requests of the patch of a machine. -/
def IsMachinePatch (c : Call) (before after : ByoMachine) : Prop :=
  c = .patchByoMachineConditions k before after ∨ c = .patchByoMachine k before after ∨
    c = .patchByoMachineStatus k before after

/-- A request of the patch of a machine lands or has no effect. -/
theorem IsMachinePatch.cases {k : NamespacedName} {c : Call} {before after : ByoMachine}
    (hc : IsMachinePatch k c before after) :
    (exec o c w).2 = w ∨ ∃ cur m, w.machines.lookup k = some cur ∧
      MachinePatched before after cur m ∧ (exec o c w).2 = w.setMachine k m := by
  rcases hc with rfl | rfl | rfl
  · rcases writeObject_cases o w (w.machines.lookup k) (fun cur =>
      writeConditions (fun cs => w.setMachine k { cur with conditions := cs })
        (mergeConditions before.conditions after.conditions cur.conditions))
      with ⟨cur, w', -, hx, hf, hw⟩ | ⟨e, hw, -⟩
    · obtain ⟨cs, -, rfl⟩ := writeConditions_ok hf
      exact .inr ⟨cur, { cur with conditions := cs }, hx, ⟨rfl, .inl rfl, .inl rfl⟩,
        congrArg Prod.snd hw⟩
    · exact .inl (congrArg Prod.snd hw)
  · rcases writeObject_cases o w (w.machines.lookup k) (fun cur =>
      if addsFinalizer cur.deletionTimestamp cur.finalizers (before.merge after cur).finalizers
      then .error .other
      else .ok (w.setMachine k (before.merge after cur))) with ⟨cur, w', -, hx, hf, hw⟩ | ⟨e, hw, -⟩
    · split at hf
      · cases hf
      · cases hf
        exact .inr ⟨cur, before.merge after cur, hx, ⟨rfl, .inr rfl, .inl rfl⟩,
          congrArg Prod.snd hw⟩
    · exact .inl (congrArg Prod.snd hw)
  · rcases writeObject_total o w (w.machines.lookup k) (fun cur =>
      w.setMachine k (before.mergeStatus after cur)) with ⟨cur, hx, hw⟩ | ⟨e, hw, -⟩
    · exact .inr ⟨cur, before.mergeStatus after cur, hx, ⟨rfl, .inl rfl, .inr rfl⟩,
        congrArg Prod.snd hw⟩
    · exact .inl (congrArg Prod.snd hw)

theorem setMachine_lookup_ne {k k' : NamespacedName} (hk : k' ≠ k) (m : ByoMachine) :
    (w.setMachine k m).machines.lookup k' = w.machines.lookup k' := by
  unfold World.setMachine
  dsimp only
  split
  · exact AList.lookup_erase_ne hk
  · exact AList.lookup_insert_ne hk

/-- A machine that is being deleted goes with its last finalizer. -/
theorem setMachine_lookup_self (m : ByoMachine) :
    (w.setMachine k m).machines.lookup k =
      if m.deletionTimestamp && m.finalizers.isEmpty then none else some m := by
  unfold World.setMachine
  dsimp only
  split
  · exact AList.lookup_erase ..
  · exact AList.lookup_insert _

/-- A machine with a finalizer stays. -/
theorem setMachine_lookup_of_mem {m : ByoMachine} {f : String} (hf : f ∈ m.finalizers) :
    (w.setMachine k m).machines.lookup k = some m := by
  rw [setMachine_lookup_self, if_neg]
  simp [List.ne_nil_of_mem hf]

end Machines

end Byoh.Model

namespace Byoh.Protocol

open Byoh.Foundation Byoh.Model

/-! ## Host by host -/

/-- The hosts of two worlds, one by one. -/
def HostsVia (R : ByoHost → ByoHost → Prop) (w w' : World) : Prop :=
  ∀ k, Option.Rel R (w.hosts.lookup k) (w'.hosts.lookup k)

namespace HostsVia

variable {R : ByoHost → ByoHost → Prop} {w w' : World} {k : NamespacedName}

theorem refl (hR : ∀ h, R h h) (w : World) : HostsVia R w w := fun k => by
  cases w.hosts.lookup k with
  | none => exact .none
  | some h => exact .some (hR h)

theorem mono {R' : ByoHost → ByoHost → Prop} (h : HostsVia R w w') (hR : ∀ a b, R a b → R' a b) :
    HostsVia R' w w' := fun k => by
  specialize h k
  generalize w.hosts.lookup k = x at *
  generalize w'.hosts.lookup k = y at *
  cases h with
  | none => exact .none
  | some h₁ => exact .some (hR _ _ h₁)

theorem of_hosts_eq (hR : ∀ h, R h h) (h : w'.hosts = w.hosts) : HostsVia R w w' := fun k => by
  rw [h]
  exact refl hR w k

theorem trans (hR : ∀ {a b c}, R a b → R b c → R a c) {w'' : World} (h : HostsVia R w w')
    (h' : HostsVia R w' w'') : HostsVia R w w'' := fun k => by
  specialize h k
  specialize h' k
  generalize w.hosts.lookup k = x at *
  generalize w'.hosts.lookup k = y at *
  generalize w''.hosts.lookup k = z at *
  cases h with
  | none => exact h'
  | some h₁ =>
    cases h' with
    | some h₂ => exact .some (hR h₁ h₂)

theorem setHost (hR : ∀ h, R h h) {cur h : ByoHost} (hcur : w.hosts.lookup k = some cur)
    (h₁ : R cur h) : HostsVia R w (w.setHost k h) := fun k' => by
  by_cases hk : k' = k
  · subst hk
    rw [hcur, World.setHost, AList.lookup_insert]
    exact .some h₁
  · rw [World.setHost, AList.lookup_insert_ne hk]
    exact refl hR w k'

theorem some {h : ByoHost} (hw : HostsVia R w w') (hh : w.hosts.lookup k = some h) :
    ∃ h', w'.hosts.lookup k = .some h' ∧ R h h' := by
  have := hw k
  rw [hh] at this
  generalize hx : w'.hosts.lookup k = x at this
  cases this with
  | some hR => exact ⟨_, rfl, hR⟩

/-- A host on the later server was there before. -/
theorem of_some {h' : ByoHost} (hw : HostsVia R w w') (hh : w'.hosts.lookup k = .some h') :
    ∃ h, w.hosts.lookup k = .some h ∧ R h h' := by
  have := hw k
  rw [hh] at this
  generalize hx : w.hosts.lookup k = x at this
  cases this with
  | some hR => exact ⟨_, rfl, hR⟩

end HostsVia

end Byoh.Protocol
