import Byoh.Model.AgentWatch
import Byoh.Model.ByoAdmissionController
import Byoh.Properties.CommandHistory

/-!
# Event filters do not guard reconciles

Two controllers rely on their event filter: the admission controller for approving only signing
requests of this repository, and the agent for leaving paused hosts alone. A filter sees an object
at the time of its event, while the request is reconciled later. Both properties hold as long as
nothing happens in between to the object of a demanded request, and fail otherwise.
-/

set_option autoImplicit false

namespace Byoh.Properties

open Byoh.Foundation Byoh.Model Byoh.Protocol

/-! ## The admission controller approves its own signing requests -/

namespace Admission

open Byoh.Model.ByoAdmissionReconciler

/-- Signing requests are stored under their names, and the approved ones have the right names. -/
structure ApprovedByoh (s : CSRStore) : Prop where
  keys : ∀ name csr, s.csrs.lookup name = some csr → csr.name = name
  approvals : ∀ name ∈ s.approvals, isByohName name = true

/-- A request for this name does no harm. -/
def Harmless (name : String) (s : CSRStore) : Prop :=
  isByohName name = true ∨ s.csrs.lookup name = none

/-- No signing request under a foreign name is created while a request for the name is queued or
an event that will queue one is undelivered. -/
def NoReuse (st : WatchState CSRStore String CSR) : WatchAction String CSRAction (List Outcome) → Prop
  | .env (.create csr) => isByohName csr.name = true ∨ ¬controller.Demanded st csr.name
  | _ => True

/-- A reconcile approves the signing request of its name, or changes nothing. -/
theorem reconcile_cases {s : CSRStore} {name : String}
    (hkey : ∀ csr, s.csrs.lookup name = some csr → csr.name = name) (os : List Outcome) :
    (Prog.run execCSR os (reconcile name) s).2 = s ∨ ∃ csr conditions,
      s.csrs.lookup name = some csr ∧ (Prog.run execCSR os (reconcile name) s).2 = {
        csrs := s.csrs.insert name { csr with conditions := conditions }
        approvals := name :: s.approvals } := by
  have hrun : Prog.Ensures execCSR (fun _ => True) (reconcile name) s fun _ s' => s' = s ∨
      ∃ csr conditions, s.csrs.lookup name = some csr ∧ s' = {
        csrs := s.csrs.insert name { csr with conditions := conditions }
        approvals := name :: s.approvals } := by
    refine .call trivial fun o _ => ?_
    cases hr : (execCSR o (.get name) s).1 with
    | error e => cases e <;> exact .ret (.inl rfl)
    | ok csr =>
      have hcsr : s.csrs.lookup name = some csr := readObject_ok hr
      obtain rfl := hkey csr hcsr
      rw [Prog.ret_bind]
      dsimp only
      split
      · exact .ret (.inl rfl)
      · refine .call trivial fun o' _ => ?_
        simp only [execCSR, hcsr]
        split
        · exact .ret (.inr ⟨csr, _, rfl, rfl⟩)
        · exact .ret (.inl rfl)
  exact hrun os fun _ _ => trivial

/-- A reconcile of a harmless request approves the right names only, and its event is not one of a
foreign name. -/
theorem reconcile_harmless {s : CSRStore} (name : String) (os : List Outcome) (hI : ApprovedByoh s)
    (hname : Harmless name s) : ApprovedByoh (controller.reconcile name os s).1 ∧
      (∀ name', Harmless name' s → Harmless name' (controller.reconcile name os s).1) ∧
      ∀ e ∈ (controller.reconcile name os s).2.1, controller.filter.passes e = true →
        Harmless (controller.key e.object) (controller.reconcile name os s).1 := by
  simp only [controller]
  rcases reconcile_cases (hI.keys name) os with hsame | ⟨csr, conditions, hcsr, happroved⟩
  · rw [hsame]
    refine ⟨hI, fun _ h => h, fun e he => ?_⟩
    cases hl : s.csrs.lookup name <;> simp [updateEvent, hl] at he
  · -- the signing request is there, so the request is for a name of this repository
    have hbyoh : isByohName name = true := by
      rcases hname with hbyoh | hnone
      · exact hbyoh
      · cases hcsr.symm.trans hnone
    rw [happroved]
    refine ⟨⟨fun name' csr' hcsr' => ?_, fun name' hname' => ?_⟩, fun name' hname' => ?_, fun e he _ => ?_⟩
    · refine forall_lookup_insert hI.keys ?_ name' csr' hcsr'
      exact hI.keys name csr hcsr
    · rcases List.mem_cons.1 hname' with rfl | hmem
      · exact hbyoh
      · exact hI.approvals name' hmem
    · rcases hname' with h | h
      · exact .inl h
      · by_cases heq : name' = name
        · exact .inl (heq ▸ hbyoh)
        · exact .inr ((AList.lookup_insert_ne heq).trans h)
    · left
      simp only [updateEvent, hcsr, AList.lookup_insert] at he
      split at he
      · cases he
      · rw [List.mem_singleton.1 he]
        simpa [WatchEvent.object, hI.keys name csr hcsr] using hbyoh

/-- What others do keeps requests harmless, if no foreign name is used again too early. -/
theorem env_harmless {st : WatchState CSRStore String CSR} {a : CSRAction} {s : CSRStore}
    {es : List (WatchEvent CSR)} (hI : ApprovedByoh st.store)
    (hR : ∀ name, controller.Demanded st name → Harmless name st.store) (hok : NoReuse st (.env a))
    (hstep : csrStep a st.store = some (s, es)) :
    ApprovedByoh s ∧ (∀ name, controller.Demanded st name → Harmless name s) ∧
      ∀ e ∈ es, controller.filter.passes e = true → Harmless (controller.key e.object) s := by
  cases a with
  | create csr =>
    simp only [csrStep] at hstep
    split at hstep
    · cases hstep
    · cases hstep
      refine ⟨⟨fun name c hc => ?_, hI.approvals⟩, fun name hname => ?_, fun e he hpass => ?_⟩
      · exact forall_lookup_insert hI.keys rfl name c hc
      · rcases hR name hname with h | h
        · exact .inl h
        · by_cases heq : name = csr.name
          · -- the only case for which the condition is there
            subst heq
            exact .inl (hok.resolve_right (not_not_intro hname))
          · exact .inr ((AList.lookup_insert_ne heq).trans h)
      · rw [List.mem_singleton.1 he] at hpass ⊢
        exact .inl hpass
  | update name conditions =>
    simp only [csrStep, Option.map_eq_some_iff] at hstep
    obtain ⟨old, hold, hstep⟩ := hstep
    cases hstep
    refine ⟨⟨fun name' c hc => ?_, hI.approvals⟩, fun name' hname' => ?_, fun e he hpass => ?_⟩
    · refine forall_lookup_insert hI.keys ?_ name' c hc
      exact hI.keys name old hold
    · rcases hR name' hname' with h | h
      · exact .inl h
      · have heq : name' ≠ name := by
          rintro rfl
          cases h.symm.trans hold
        exact .inr ((AList.lookup_insert_ne heq).trans h)
    · rw [List.mem_singleton.1 he] at hpass ⊢
      exact .inl hpass
  | delete name =>
    simp only [csrStep, Option.map_eq_some_iff] at hstep
    obtain ⟨old, hold, hstep⟩ := hstep
    cases hstep
    refine ⟨⟨fun name' c hc => ?_, hI.approvals⟩, fun name' hname' => ?_, fun e he _ => ?_⟩
    · exact forall_lookup_erase hI.keys name' c hc
    · rcases hR name' hname' with h | h
      · exact .inl h
      · by_cases heq : name' = name
        · subst heq
          exact .inr (AList.lookup_erase _ _)
        · exact .inr ((AList.lookup_erase_ne heq).trans h)
    · -- a deletion passes the filter whatever the name is, but the signing request is gone
      rw [List.mem_singleton.1 he]
      refine .inr ?_
      show (st.store.csrs.erase name).lookup old.name = none
      rw [hI.keys name old hold]
      exact AList.lookup_erase _ _

/-- In every run in which no foreign name is used again while it is demanded, only signing requests
of this repository are approved. -/
theorem approves_byoh_names (st : WatchState CSRStore String CSR)
    (as : List (WatchAction String CSRAction (List Outcome)))
    (hrun : ActionRun controller.act NoReuse { store := { csrs := ∅ } } as st) :
    ∀ name ∈ st.store.approvals, isByohName name = true := by
  have hinit : ApprovedByoh { csrs := ∅ } ∧ ∀ name,
      controller.Demanded { store := { csrs := ∅ } } name → Harmless name { csrs := ∅ } := by
    refine ⟨⟨fun name csr h => ?_, fun name h => ?_⟩, fun name _ => .inr rfl⟩
    · cases h
    · cases h
  exact (WatchSystem.demanded_invariant env_harmless reconcile_harmless hrun hinit).1.approvals

instance (st : WatchState CSRStore String CSR) :
    (a : WatchAction String CSRAction (List Outcome)) → Decidable (NoReuse st a)
  | .env (.create csr) =>
      inferInstanceAs (Decidable (isByohName csr.name = true ∨ ¬controller.Demanded st csr.name))
  | .env (.update _ _) => .isTrue trivial
  | .env (.delete _) => .isTrue trivial
  | .deliver _ => .isTrue trivial
  | .reconcile _ _ => .isTrue trivial

/-- A signing request of the agent is created and approved. -/
theorem approves_byoh_names_h1 :
    let st := [.env (.create { name := "byoh-csr-h1" }), .deliver 0, .reconcile "byoh-csr-h1" []].foldl
      controller.act { store := { csrs := ∅ } }
    st.store.approvals = ["byoh-csr-h1"] ∧ ∀ name ∈ st.store.approvals, isByohName name = true :=
  ⟨by decide +kernel, approves_byoh_names _ _ (.of_allowed (by decide +kernel))⟩

/-- A foreign signing request is deleted, which queues a request for its name, and another one under
the same name is created before the request is reconciled: it is approved. -/
theorem approves_foreign_name : ∃ as st,
    ActionRun controller.act (fun _ _ => True) { store := { csrs := ∅ } } as st ∧
      ∃ name ∈ st.store.approvals, isByohName name = false :=
  ⟨[.env (.create { name := "admin" }), .deliver 0, .env (.delete "admin"), .deliver 0,
    .env (.create { name := "admin" }), .reconcile "admin" []], _, .of_allowed (by decide +kernel),
    "admin", by decide +kernel, by decide +kernel⟩

end Admission

/-! ## The agent leaves paused hosts alone -/

namespace Paused

open Byoh.Model.HostReconciler

/-- A command that changes what runs on the machine. -/
def changesNode (e : HostEvent) : Bool :=
  match e.command with
  | .install _ | .uninstall _ | .bootstrap _ | .kubeadmReset _ => true
  | _ => false

/-- No reconcile has read a paused host. -/
structure LeftAlone (s : Site) : Prop where
  keys : WellKeyed s.world
  runs : ∀ k, ∀ run ∈ s.runs k, run.before.carries .paused = false

/-- The host, if it is there, is not paused. -/
def NotPaused (k : NamespacedName) (s : Site) : Prop :=
  ∀ h, s.world.hosts.lookup k = some h → h.carries .paused = false

/-- A host becomes paused only while no request for it is queued and no event that will queue one
is undelivered. -/
def PausedIdle (cfg : Config) (st : WatchState Site NamespacedName ByoHost) :
    WatchAction NamespacedName HostAction (List Outcome) → Prop
  | .env (.put h) => h.carries .paused = true → NotPaused h.key st.store →
      ¬(agents cfg).Demanded st h.key
  | _ => True

variable {cfg : Config} {s : Site}

/-- No course touches the paused annotation. -/
theorem course_paused {h h' : ByoHost} {log : List HostEvent} (hc : Course cfg h log h') :
    h'.annotations.get .paused = h.annotations.get .paused := by
  rcases hc.shape with hs | ⟨-, hs⟩
  · rw [ConditionsOnly] at hs
    rw [hs]
  · rw [hs]
    simp [releasedHost, removeAnnotations]

theorem patched_paused {h h' cur : ByoHost} {log : List HostEvent} {c sp st : Bool}
    (hc : Course cfg h log h') (hp : Patched h h' c sp st cur) :
    cur.carries .paused = h.carries .paused := by
  rw [ByoHost.carries, ByoHost.carries, hp.annotations, course_paused hc, ite_self]

/-- A reconcile of a host that is not paused. -/
theorem reconcile_leftAlone (k : NamespacedName) (os : List Outcome) (hI : LeftAlone s)
    (hk : NotPaused k s) : LeftAlone ((agents cfg).reconcile k os s).1 ∧
      (∀ k', NotPaused k' s → NotPaused k' ((agents cfg).reconcile k os s).1) ∧
      ∀ e ∈ ((agents cfg).reconcile k os s).2.1, (agents cfg).filter.passes e = true →
        NotPaused ((agents cfg).key e.object) ((agents cfg).reconcile k os s).1 := by
  simp only [agents]
  rcases agentStep_cases cfg k os s hI.keys with hsame | ⟨h, h', cur, log, c, sp, st, hran, -⟩
  · rw [hsame]
    refine ⟨hI, fun _ h => h, fun e he => ?_⟩
    cases hl : s.world.hosts.lookup k with
    | none => simp [patchEvent, hl] at he
    | some h => simp [patchEvent, hl, hostDiffers, ByoHost.changed, ByoHost.statusChanged] at he
  · have hcur : cur.carries .paused = false :=
      (patched_paused hran.course hran.patched).trans (hk h hran.read)
    have hnotPaused : ∀ k', NotPaused k' s → NotPaused k' (s.agentStep cfg k os) := by
      intro k' hk' b hb
      by_cases heq : k' = k
      · subst heq
        cases hran.written.symm.trans hb
        exact hcur
      · exact hk' b ((hran.onlyHost.others k' heq).symm.trans hb)
    have hcurKey : cur.key = k := hran.patched.key.trans (hI.keys k h hran.read)
    refine ⟨⟨hran.onlyHost.wellKeyed hI.keys fun b hb => ?_, fun k' run hrun => ?_⟩, hnotPaused,
      fun e he _ => ?_⟩
    · cases hran.written.symm.trans hb
      exact hcurKey
    · rw [hran.record] at hrun
      by_cases heq : k' = k
      · subst heq
        rw [Function.update_self] at hrun
        rcases List.mem_append.1 hrun with hrun | hrun
        · exact hI.runs k' run hrun
        · rw [List.mem_singleton.1 hrun]
          exact hk h hran.read
      · rw [Function.update_of_ne heq] at hrun
        exact hI.runs k' run hrun
    · rw [hran.read, hran.written, patchEvent] at he
      split at he
      · rw [List.mem_singleton.1 he]
        show NotPaused cur.key _
        rw [hcurKey]
        exact hnotPaused k hk
      · cases he

/-- A change of one host. -/
theorem leftAlone_put (hI : LeftAlone s) (h : ByoHost) :
    LeftAlone { s with world := s.world.setHost h.key h } where
  keys := forall_lookup_insert hI.keys rfl
  runs := hI.runs

/-- What others do, if no demanded host becomes paused. -/
theorem env_leftAlone {st : WatchState Site NamespacedName ByoHost} {a : HostAction}
    {es : List (WatchEvent ByoHost)} (hI : LeftAlone st.store)
    (hR : ∀ k, (agents cfg).Demanded st k → NotPaused k st.store) (hok : PausedIdle cfg st (.env a))
    (hstep : hostStep a st.store = some (s, es)) :
    LeftAlone s ∧ (∀ k, (agents cfg).Demanded st k → NotPaused k s) ∧
      ∀ e ∈ es, (agents cfg).filter.passes e = true → NotPaused ((agents cfg).key e.object) s := by
  cases a with
  | put h =>
    cases hstep
    have hself : ∀ b, (st.store.world.setHost h.key h).hosts.lookup h.key = some b → b = h := by
      intro b hb
      rw [show (st.store.world.setHost h.key h).hosts.lookup h.key = some h from
        AList.lookup_insert _] at hb
      exact (Option.some.inj hb).symm
    refine ⟨leftAlone_put hI h, fun k hk b hb => ?_, fun e he hpass b hb => ?_⟩
    · rcases lookup_insert_some hb with ⟨rfl, rfl⟩ | ⟨-, hb⟩
      · -- the host itself: a pause is allowed only while nothing about it is under way
        cases hpaused : b.carries .paused with
        | false => rfl
        | true => exact absurd hk (hok hpaused (hR _ hk))
      · exact hR k hk b hb
    · have hobject : e.object = h ∧ (!h.carries .paused) = true := by
        cases hold : st.store.world.hosts.lookup h.key with
        | none =>
          rw [hold] at he
          rw [List.mem_singleton.1 he] at hpass ⊢
          exact ⟨rfl, hpass⟩
        | some old =>
          rw [hold] at he
          rw [List.mem_singleton.1 he] at hpass ⊢
          exact ⟨rfl, hpass⟩
      rw [show (agents cfg).key e.object = h.key by rw [hobject.1]; rfl] at hb
      rw [hself b hb]
      simpa using hobject.2
  | delete k =>
    simp only [hostStep, Option.map_eq_some_iff] at hstep
    obtain ⟨h, hh, hstep⟩ := hstep
    cases hstep
    refine ⟨⟨fun k' b hb => ?_, hI.runs⟩, fun k' hk' b hb => ?_, fun e he _ b hb => ?_⟩
    · exact forall_lookup_erase hI.keys k' b hb
    · exact hR k' hk' b (lookup_erase_some hb).2
    · rw [List.mem_singleton.1 he] at hb
      rw [show (agents cfg).key (WatchEvent.delete h).object = k from hI.keys k h hh,
        AList.lookup_erase] at hb
      cases hb
  | resync k =>
    simp only [hostStep, Option.map_eq_some_iff] at hstep
    obtain ⟨h, hh, hstep⟩ := hstep
    cases hstep
    refine ⟨hI, hR, fun e he hpass b hb => ?_⟩
    rw [List.mem_singleton.1 he] at hpass hb
    rw [show (agents cfg).key (WatchEvent.update h h).object = k from hI.keys k h hh] at hb
    cases hh.symm.trans hb
    simpa [agents, resourceNotPaused, PredicateFuncs.passes] using hpass
  | rest w =>
    cases hstep
    exact ⟨⟨hI.keys, hI.runs⟩, hR, fun e he => by cases he⟩

/-- In every run in which hosts are paused only while nothing about them is under way, no reconcile
reads a paused host: the filter keeps the events of the pause and all later ones from the queue. -/
theorem paused_host_not_read (cfg : Config) {w : World} (hkeys : WellKeyed w)
    {st : WatchState Site NamespacedName ByoHost}
    {as : List (WatchAction NamespacedName HostAction (List Outcome))}
    (hrun : ActionRun (agents cfg).act (PausedIdle cfg) { store := { world := w } } as st)
    (k : NamespacedName) : ∀ run ∈ st.store.runs k, run.before.carries .paused = false := by
  have hinit : LeftAlone { world := w } ∧ ∀ k,
      (agents cfg).Demanded { store := { world := w } } k → NotPaused k { world := w } := by
    refine ⟨⟨hkeys, fun k run h => by cases h⟩, fun k hk => ?_⟩
    rcases hk with hq | ⟨e, he, -⟩
    · cases hq
    · cases he
  exact (WatchSystem.demanded_invariant env_leftAlone reconcile_leftAlone hrun hinit).1.runs k

/-- In such a run no reconcile of a paused host installs, bootstraps, resets or uninstalls. -/
theorem paused_host_left_alone (cfg : Config) (w : World) (hkeys : WellKeyed w)
    (st : WatchState Site NamespacedName ByoHost)
    (as : List (WatchAction NamespacedName HostAction (List Outcome)))
    (hrun : ActionRun (agents cfg).act (PausedIdle cfg) { store := { world := w } } as st)
    (k : NamespacedName) :
    ∀ run ∈ st.store.runs k, run.before.carries .paused = true →
      ∀ e ∈ run.events, changesNode e = false := by
  intro run hmem hpaused
  cases (paused_host_not_read cfg hkeys hrun k run hmem).symm.trans hpaused

instance (k : NamespacedName) (s : Site) : Decidable (NotPaused k s) :=
  decidable_of_iff ((s.world.hosts.lookup k).all (!·.carries .paused) = true) (by
    rw [NotPaused]
    cases s.world.hosts.lookup k <;> simp)

instance (st : WatchState Site NamespacedName ByoHost) :
    (a : WatchAction NamespacedName HostAction (List Outcome)) → Decidable (PausedIdle cfg st a)
  | .env (.put h) => inferInstanceAs (Decidable (h.carries .paused = true →
      NotPaused h.key st.store → ¬(agents cfg).Demanded st h.key))
  | .env (.delete _) | .env (.resync _) | .env (.rest _) | .deliver _ | .reconcile _ _ =>
      .isTrue trivial

/-- The small world with a host that is attached and has its secrets. -/
def attachedWorld : World :=
  (((Small.life "m1" "h1").take 3).foldl (Setup.act {}) { world := Small.world ["h1"] ["m1"] }).world

theorem attachedWorld_wellKeyed : WellKeyed attachedWorld := by
  have hrun : ActionRun (Setup.act {}) PatchesSucceed { world := Small.world ["h1"] ["m1"] }
      ((Small.life "m1" "h1").take 3) _ := .of_allowed (by rfl)
  exact hrun.invariant (I := fun s => WellKeyed s.world) (fun hs ha => act_wellKeyed hs ha)
    (freshSite_small ["h1"] ["m1"]).keys

/-- The agent of the host reconciles it for the first time. -/
def firstReconcile (os : List Outcome) : List (WatchAction NamespacedName HostAction (List Outcome)) :=
  [.env (.resync (Small.key "h1")), .deliver 0, .reconcile (Small.key "h1") os]

/-- The host after these actions, paused. -/
def pausedAfter (as : List (WatchAction NamespacedName HostAction (List Outcome))) : ByoHost :=
  let st := as.foldl (agents {}).act { store := { world := attachedWorld } }
  ByoMachineReconciler.pausedHost true
    ((st.store.world.hosts.lookup (Small.key "h1")).getD (Small.host "h1"))

/-- The host is bootstrapped, and it is paused when the event of its patch has been handled. -/
def pausedLater : List (WatchAction NamespacedName HostAction (List Outcome)) :=
  let as := firstReconcile [] ++ [.deliver 0, .reconcile (Small.key "h1") []]
  as ++ [.env (.put (pausedAfter as)), .deliver 0, .reconcile (Small.key "h1") []]

/-- The two reconciles before the pause are recorded, and none after it. -/
theorem paused_host_left_alone_later :
    let st := pausedLater.foldl (agents {}).act { store := { world := attachedWorld } }
    (st.store.world.hosts.lookup (Small.key "h1")).any (·.carries .paused) = true ∧
      (st.store.runs (Small.key "h1")).length = 2 ∧
      ∀ run ∈ st.store.runs (Small.key "h1"), run.before.carries .paused = true →
        ∀ e ∈ run.events, changesNode e = false :=
  ⟨by decide +kernel, by decide +kernel, paused_host_left_alone {} attachedWorld
    attachedWorld_wellKeyed _ pausedLater (.of_allowed (by decide +kernel)) (Small.key "h1")⟩

/-- The installation fails, the host is paused, and the retry of the failed reconcile runs the
install script again. -/
def pausedMeanwhile : List (WatchAction NamespacedName HostAction (List Outcome)) :=
  let as := firstReconcile [{}, {}, {}, {}, { commandOk := false }]
  as ++ [.env (.put (pausedAfter as)), .reconcile (Small.key "h1") []]

theorem paused_host_installed : ∃ as st, WellKeyed attachedWorld ∧
    ActionRun (agents {}).act (fun _ _ => True) { store := { world := attachedWorld } } as st ∧
      ¬∀ run ∈ st.store.runs (Small.key "h1"), run.before.carries .paused = true →
        ∀ e ∈ run.events, changesNode e = false :=
  ⟨pausedMeanwhile, _, attachedWorld_wellKeyed, .of_allowed (by decide +kernel), by decide +kernel⟩

end Paused

end Byoh.Properties
