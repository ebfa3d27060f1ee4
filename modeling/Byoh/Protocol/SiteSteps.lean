import Byoh.Protocol.Effects
import Byoh.Protocol.AgentPhases

/-!
# Agent reconciles as single steps

What one reconcile of an agent does to a site when nothing happens in between: it cannot read its
host and changes nothing, or it takes a course, adds it to the record and writes some of the three
parts of the host to the server (`Site.agentStep_cases`). All parts are written when no write
fails.
-/

set_option autoImplicit false

namespace Byoh.Protocol

open Byoh.Foundation Byoh.Model Byoh.Model.HostReconciler

/-! ## Patches of a host that nobody else writes -/

/-- The host on the server while the patch from `before` to `after` is sent to it: the flags say
which of conditions, metadata and spec, and status have arrived. -/
structure Patched (before after : ByoHost) (conditions spec status : Bool) (h : ByoHost) :
    Prop where
  key : h.key = before.key
  deletionTimestamp : h.deletionTimestamp = before.deletionTimestamp
  conditions : h.conditions = if conditions then after.conditions else before.conditions
  labels : ∀ k, h.labels.get k = if spec then after.labels.get k else before.labels.get k
  annotations : ∀ k,
    h.annotations.get k = if spec then after.annotations.get k else before.annotations.get k
  bootstrapSecret : h.bootstrapSecret = if spec then after.bootstrapSecret else before.bootstrapSecret
  installationSecret :
    h.installationSecret = if spec then after.installationSecret else before.installationSecret
  uninstallationSecret : h.uninstallationSecret =
    if spec then after.uninstallationSecret else before.uninstallationSecret
  machineRef : h.machineRef = if status then after.machineRef else before.machineRef
  hostDetails : h.hostDetails = if status then after.hostDetails else before.hostDetails
  network : h.network = if status then after.network else before.network

section Patched

variable {b a cur : ByoHost} {c s t : Bool}

theorem Patched.refl (b a : ByoHost) : Patched b a false false false b := by
  constructor <;> simp

@[simp] theorem mergeHostInfo_before (b a : HostInfo) : mergeHostInfo b a b = a := by
  simp [mergeHostInfo]

theorem mergeConditions_before (b a : Conditions) : mergeConditions b a b = some a := by
  have hmerged : mergedConditions b a b = a := by
    funext t
    simp [mergedConditions]
  simp [mergeConditions, hmerged]

/-- The conditions arrive. -/
theorem Patched.writeConditions (h : Patched b a false s t cur) {cs : Conditions}
    (hcs : mergeConditions b.conditions a.conditions cur.conditions = some cs) :
    Patched b a true s t { cur with conditions := cs } := by
  have hcur : cur.conditions = b.conditions := h.conditions
  rw [hcur, mergeConditions_before] at hcs
  cases hcs
  exact { h with conditions := rfl }

/-- The fields outside the status arrive. -/
theorem Patched.writeSpec (h : Patched b a c false t cur) :
    Patched b a c true t (b.merge a cur) where
  key := h.key
  deletionTimestamp := h.deletionTimestamp
  conditions := h.conditions
  labels k := by simp [ByoHost.merge, h.labels k]
  annotations k := by simp [ByoHost.merge, h.annotations k]
  bootstrapSecret := by simp [ByoHost.merge, h.bootstrapSecret]
  installationSecret := by simp [ByoHost.merge, h.installationSecret]
  uninstallationSecret := by simp [ByoHost.merge, h.uninstallationSecret]
  machineRef := h.machineRef
  hostDetails := h.hostDetails
  network := h.network

/-- The status arrives. -/
theorem Patched.writeStatus (h : Patched b a c s false cur) :
    Patched b a c s true (b.mergeStatus a cur) where
  key := h.key
  deletionTimestamp := h.deletionTimestamp
  conditions := h.conditions
  labels := h.labels
  annotations := h.annotations
  bootstrapSecret := h.bootstrapSecret
  installationSecret := h.installationSecret
  uninstallationSecret := h.uninstallationSecret
  machineRef := by simp [ByoHost.mergeStatus, h.machineRef]
  hostDetails := by simp [ByoHost.mergeStatus, h.hostDetails]
  network := by simp [ByoHost.mergeStatus, h.network]

/-! A part in which nothing changed counts as written. -/

theorem Patched.skipConditions (h : Patched b a false s t cur)
    (hsame : b.conditions = a.conditions) : Patched b a true s t cur :=
  { h with conditions := h.conditions.trans hsame }

theorem Patched.skipSpec (h : Patched b a c false t cur) (hsame : b.changed a = false) :
    Patched b a c true t cur := by
  obtain ⟨hl, ha, hb, hi, hu⟩ := ByoHost.spec_of_not_changed hsame
  exact { h with
    labels := fun k => (h.labels k).trans (hl k)
    annotations := fun k => (h.annotations k).trans (ha k)
    bootstrapSecret := h.bootstrapSecret.trans hb
    installationSecret := h.installationSecret.trans hi
    uninstallationSecret := h.uninstallationSecret.trans hu }

theorem Patched.skipStatus (h : Patched b a c s false cur) (hsame : b.statusChanged a = false) :
    Patched b a c s true cur := by
  obtain ⟨hm, hd, hn⟩ := ByoHost.status_of_not_changed hsame
  exact { h with
    machineRef := h.machineRef.trans hm
    hostDetails := h.hostDetails.trans hd
    network := h.network.trans hn }

end Patched

/-! ## Worlds that differ in one host -/

/-- Only the host `k` differs. -/
structure OnlyHost (k : NamespacedName) (w w' : World) : Prop where
  others : ∀ k', k' ≠ k → w'.hosts.lookup k' = w.hosts.lookup k'
  rest : w' = { w with hosts := w'.hosts, informer := w'.informer }
  informer : w.informer = none → w'.informer = none

theorem OnlyHost.refl (k : NamespacedName) (w : World) : OnlyHost k w w := ⟨fun _ _ => rfl, rfl, id⟩

theorem OnlyHost.setHost {k : NamespacedName} {w w' : World} (hw : OnlyHost k w w') (h : ByoHost) :
    OnlyHost k w (w'.setHost k h) where
  others k' hk := (AList.lookup_insert_ne hk).trans (hw.others k' hk)
  rest := by
    have := hw.rest
    simp only [World.setHost]
    rw [this]
  informer hi := by simp [World.setHost, hw.informer hi]

/-- Every host is stored under its key. -/
def WellKeyed (w : World) : Prop := ∀ k h, w.hosts.lookup k = some h → h.key = k

theorem OnlyHost.wellKeyed {k : NamespacedName} {w w' : World} (hw : OnlyHost k w w')
    (hkeys : WellKeyed w) (hk : ∀ h, w'.hosts.lookup k = some h → h.key = k) : WellKeyed w' := by
  intro k' h' hh'
  by_cases hkk : k' = k
  · subst hkk
    exact hk h' hh'
  · exact hkeys k' h' ((hw.others k' hkk) ▸ hh')

/-! ## Patches that succeed -/

/-- The write succeeds unless the server refuses it. -/
def WriteOk (o : Outcome) : Prop := o.writeOk = true

/-- A request that is sent only when something changed. -/
theorem ensures_sendIf {α : Type} {changed : Bool} {x : ApiProg (Option ApiError)}
    {f : Option ApiError → ApiProg α} {w : World} {ok : Outcome → Prop} {Q : α → World → Prop}
    (hsent : changed = true → Prog.Ensures exec ok (x.bind f) w Q)
    (hskipped : changed = false → Prog.Ensures exec ok (f none) w Q) :
    Prog.Ensures exec ok ((sendIf changed x).bind f) w Q := by
  cases changed with
  | true => exact hsent rfl
  | false => exact hskipped rfl

/-- The parts of a patch from `b` to `a` that have arrived in the world `w'`, if it was sent in `w`;
everything but the host `k` is as it was. -/
def Arrived (b a : ByoHost) (k : NamespacedName) (w : World) (conditions spec status : Bool)
    (w' : World) : Prop :=
  ∃ cur, w'.hosts.lookup k = some cur ∧ Patched b a conditions spec status cur ∧ OnlyHost k w w'

section Arrived

variable {b a : ByoHost} {k : NamespacedName} {w w₁ : World} {o : Outcome}

/-- On the server, the first request of a patch succeeds unless writes fail. -/
theorem Arrived.conditions (h : Arrived b a k w false false false w₁) (o : Outcome) :
    (∃ w', exec o (.patchByoHostConditions k b a) w₁ = (none, w') ∧
      Arrived b a k w true false false w') ∨
    ∃ e, exec o (.patchByoHostConditions k b a) w₁ = (some e, w₁) ∧ o.writeOk = false := by
  obtain ⟨cur, hcur, hp, honly⟩ := h
  rcases exec_patchByoHostConditions o w₁ k b a with ⟨cur', cs, hcur', hcs, hw⟩ | ⟨e, hw, hrefused⟩
  · cases hcur.symm.trans hcur'
    exact .inl ⟨_, hw, _, AList.lookup_insert _, hp.writeConditions hcs, honly.setHost _⟩
  · refine .inr ⟨e, hw, Bool.eq_false_iff.2 fun ho => ?_⟩
    -- the conditions on the server are those that were read
    have hnone := hrefused ho cur hcur
    rw [show cur.conditions = b.conditions from hp.conditions, mergeConditions_before] at hnone
    cases hnone

theorem Arrived.spec (h : Arrived b a k w true false false w₁) (o : Outcome) :
    (∃ w', exec o (.patchByoHost k b a) w₁ = (none, w') ∧ Arrived b a k w true true false w') ∨
    ∃ e, exec o (.patchByoHost k b a) w₁ = (some e, w₁) ∧ o.writeOk = false := by
  obtain ⟨cur, hcur, hp, honly⟩ := h
  rcases exec_patchByoHost o w₁ k b a with ⟨cur', hcur', hw⟩ | ⟨e, hw, hmissing⟩
  · cases hcur.symm.trans hcur'
    exact .inl ⟨_, hw, _, AList.lookup_insert _, hp.writeSpec, honly.setHost _⟩
  · refine .inr ⟨e, hw, Bool.eq_false_iff.2 fun ho => ?_⟩
    cases hcur.symm.trans (hmissing ho)

theorem Arrived.status (h : Arrived b a k w true true false w₁) (o : Outcome) :
    (∃ w', exec o (.patchByoHostStatus k b a) w₁ = (none, w') ∧
      Arrived b a k w true true true w') ∨
    ∃ e, exec o (.patchByoHostStatus k b a) w₁ = (some e, w₁) ∧ o.writeOk = false := by
  obtain ⟨cur, hcur, hp, honly⟩ := h
  rcases exec_patchByoHostStatus o w₁ k b a with ⟨cur', hcur', hw⟩ | ⟨e, hw, hmissing⟩
  · cases hcur.symm.trans hcur'
    exact .inl ⟨_, hw, _, AList.lookup_insert _, hp.writeStatus, honly.setHost _⟩
  · refine .inr ⟨e, hw, Bool.eq_false_iff.2 fun ho => ?_⟩
    cases hcur.symm.trans (hmissing ho)

/-- The first error `e` of a patch agrees with what has arrived, and is nil when no write failed. -/
def Sent {ε : Type} (b a : ByoHost) (k : NamespacedName) (w : World) (ok : Outcome → Prop)
    (conditions spec status : Bool) (e : Option ε) (w' : World) : Prop :=
  (e = none → Arrived b a k w conditions spec status w') ∧
    ((∀ o, ok o → o.writeOk = true) → e = none)

variable {ok : Outcome → Prop} {e : Option ApiError} {c s t c' s' t' : Bool}

/-- One more request, with its response and the world after it. -/
theorem Sent.send (h : Sent b a k w ok c s t e w₁) {o : Outcome} (ho : ok o)
    {x : Option ApiError × World}
    (hx : Arrived b a k w c s t w₁ → (∃ w', x = (none, w') ∧ Arrived b a k w c' s' t' w') ∨
      ∃ e, x = (some e, w₁) ∧ o.writeOk = false) :
    Sent b a k w ok c' s' t' (e.or x.1) x.2 := by
  obtain ⟨harrived, hstrict⟩ := h
  cases e with
  | some e =>
    refine ⟨fun he => ?_, fun hok => ?_⟩
    · cases he
    · cases hstrict hok
  | none =>
    rcases hx (harrived rfl) with ⟨w', rfl, h'⟩ | ⟨e, rfl, hfail⟩
    · exact ⟨fun _ => h', fun _ => rfl⟩
    · refine ⟨fun he => ?_, fun hok => ?_⟩
      · cases he
      · rw [hok o ho] at hfail
        cases hfail

/-- A request that is not sent because nothing changed. -/
theorem Sent.skip (h : Sent b a k w ok c s t e w₁)
    (hp : ∀ cur, Patched b a c s t cur → Patched b a c' s' t' cur) :
    Sent b a k w ok c' s' t' (e.or none) w₁ := by
  rw [Option.or_none]
  refine ⟨fun he => ?_, h.2⟩
  obtain ⟨cur, hcur, hpatched, honly⟩ := h.1 he
  exact ⟨cur, hcur, hp cur hpatched, honly⟩

/-- `Helper.Patch` of a host of which nothing has arrived yet. -/
theorem patchByoHost_sent (hdefault : ok default) (hb : Arrived b a a.key w false false false w) :
    Prog.Ensures exec ok (patchByoHost b a) w (Sent b a a.key w ok true true true) := by
  have hreturn : ∀ {e₁ e₂ e₃ : Option ApiError} {w'},
      Sent b a a.key w ok true true true ((e₁.or e₂).or e₃) w' →
      Sent b a a.key w ok true true true ((e₁.or (e₂.or e₃)).map Err.api) w' := by
    intro e₁ e₂ e₃ w' h
    rw [← Option.or_assoc]
    exact ⟨fun he => h.1 (Option.map_eq_none_iff.1 he), fun hok => Option.map_eq_none_iff.2 (h.2 hok)⟩
  have hstatus : ∀ {e₁ e₂ : Option ApiError} {w₁}, Sent b a a.key w ok true true false (e₁.or e₂) w₁ →
      Prog.Ensures exec ok ((sendIf (b.statusChanged a)
        (call (.patchByoHostStatus a.key b a))).bind fun e₃ => .ret ((e₁.or (e₂.or e₃)).map Err.api))
        w₁ (Sent b a a.key w ok true true true) := fun h₁ =>
    ensures_sendIf (fun _ => .call hdefault fun o ho => .ret (hreturn (h₁.send ho (·.status o))))
      fun hsame => .ret (hreturn (h₁.skip fun _ hp => hp.skipStatus hsame))
  have hspec : ∀ {e₁ : Option ApiError} {w₁}, Sent b a a.key w ok true false false e₁ w₁ →
      Prog.Ensures exec ok ((sendIf (b.changed a) (call (.patchByoHost a.key b a))).bind fun e₂ =>
        (sendIf (b.statusChanged a) (call (.patchByoHostStatus a.key b a))).bind fun e₃ =>
          .ret ((e₁.or (e₂.or e₃)).map Err.api)) w₁ (Sent b a a.key w ok true true true) := fun h₁ =>
    ensures_sendIf (fun _ => .call hdefault fun o ho => hstatus (h₁.send ho (·.spec o)))
      fun hsame => hstatus (h₁.skip fun _ hp => hp.skipSpec hsame)
  have h₀ : Sent b a a.key w ok false false false (none : Option ApiError) w :=
    ⟨fun _ => hb, fun _ => rfl⟩
  refine ensures_sendIf (fun _ => .call hdefault fun o ho => hspec ?_) fun hsame => hspec ?_
  · exact h₀.send ho (·.conditions o)
  · exact h₀.skip fun _ hp => hp.skipConditions (by simpa using hsame)

/-- `Helper.Patch` of a host that is on the server as it was read. -/
theorem patchByoHost_ensures (hdefault : ok default) (hb : w.hosts.lookup a.key = some b) :
    Prog.Ensures exec ok (patchByoHost b a) w (Sent b a a.key w ok true true true) :=
  patchByoHost_sent hdefault ⟨b, hb, .refl _ _, .refl _ _⟩

end Arrived

/-! ## One reconcile of an agent -/

/-- What a reconcile of the agent of `k` that could read its host did to the site. -/
structure AgentRan (cfg : Config) (k : NamespacedName) (s s' : Site) (h h' cur : ByoHost)
    (log : List HostEvent) (c sp st : Bool) : Prop where
  read : s.world.hosts.lookup k = some h
  course : Course cfg h log h'
  record : s'.runs = Function.update s.runs k (s.runs k ++
    [⟨h, log, h.carries .hostCleanup && !h'.carries .hostCleanup⟩])
  written : s'.world.hosts.lookup k = some cur
  patched : Patched h h' c sp st cur
  onlyHost : OnlyHost k s.world s'.world

section Run

variable {cfg : Config} {k : NamespacedName}

/-- The events of a log of calls, newest first. -/
def eventsOf (calls : List (Sigma Resp)) : List HostEvent := calls.reverse.filterMap asEvent

theorem eventsOf_cons (c : Sigma Resp) (calls : List (Sigma Resp)) :
    eventsOf (c :: calls) = eventsOf calls ++ (asEvent c).toList := by
  cases h : asEvent c <;> simp [eventsOf, h]

/-- What is on the server while an agent reconciles alone. With `strict`, no write fails. -/
def AgentAlone (cfg : Config) (k : NamespacedName) (strict : Bool) (w₀ : World)
    (s : World × List (Sigma Resp)) : AgentPhase → Prop
  | .start => s.1 = w₀ ∧ eventsOf s.2 = []
  | .body h log => s.1 = w₀ ∧ eventsOf s.2 = log ∧ w₀.hosts.lookup k = some h
  | .finish h log h' part =>
      eventsOf s.2 = log ∧ w₀.hosts.lookup k = some h ∧ Course cfg h log h' ∧
        OnlyHost k w₀ s.1 ∧ ∃ c sp cur, s.1.hosts.lookup k = some cur ∧ Patched h h' c sp false cur ∧
          match part with
          | .conditions => c = false ∧ sp = false
          | .spec => (strict = true → c = true) ∧ sp = false
          | .status => strict = true → c = true ∧ sp = true
  | .done none => s.1 = w₀ ∧ eventsOf s.2 = []
  | .done (some (h, log, h')) =>
      eventsOf s.2 = log ∧ w₀.hosts.lookup k = some h ∧ Course cfg h log h' ∧
        OnlyHost k w₀ s.1 ∧ ∃ c sp st cur, s.1.hosts.lookup k = some cur ∧ Patched h h' c sp st cur ∧
          (strict = true → c = true ∧ sp = true ∧ st = true)

variable {strict : Bool} {w₀ : World}

/-- What holds of an agent that runs alone holds after each of its calls. -/
theorem agentAlone_call (hkeys : WellKeyed w₀) (o : Outcome) (ho : strict = true → o.writeOk = true)
    (s : World × List (Sigma Resp)) (c : Call) (q q' : AgentPhase)
    (hJ : AgentAlone cfg k strict w₀ s q)
    (hnext : AgentCall k q c (Prog.logged exec o c s).1 q') :
    AgentAlone cfg k strict w₀ (Prog.logged exec o c s).2 q' := by
  obtain ⟨w, calls⟩ := s
  generalize hr : (Prog.logged exec o c (w, calls)).1 = r at hnext
  cases hnext with
  | @read h =>
    obtain ⟨rfl, hlog⟩ := hJ
    refine ⟨rfl, (eventsOf_cons ..).trans (by simp [hlog, asEvent]), ?_⟩
    simp only [Prog.logged, exec, readObject] at hr
    split at hr
    · split at hr
      · cases hr
        assumption
      · cases hr
    · cases hr
  | @readFailed e =>
    obtain ⟨rfl, hlog⟩ := hJ
    exact ⟨rfl, (eventsOf_cons ..).trans (by simp [hlog, asEvent])⟩
  | @work h log log' c r hc =>
    obtain ⟨rfl, hlog, hread⟩ := hJ
    cases hc with
    | command =>
      subst hr
      refine ⟨rfl, (eventsOf_cons ..).trans ?_, hread⟩
      rw [hlog]
      rfl
    | look hl =>
      refine ⟨?_, (eventsOf_cons ..).trans ?_, hread⟩
      · cases c <;> first | rfl | cases hl
      · rw [hlog]
        cases c <;> first | exact List.append_nil _ | cases hl
  | @conditionsWritten h h' log r key hkey =>
    obtain ⟨hlog, hread, hcourse, honly, _, _, cur, hcur, hp, rfl, rfl⟩ := hJ
    obtain rfl : key = k := hkey.trans (hkeys _ _ hread)
    refine ⟨(eventsOf_cons ..).trans (by simpa [asEvent] using hlog), hread, hcourse, ?_⟩
    rcases exec_patchByoHostConditions o w key h h' with
      ⟨cur', cs, hcur', hcs, hw⟩ | ⟨e, hw, hrefused⟩
    · simp only [Prog.logged, hw]
      cases hcur.symm.trans hcur'
      exact ⟨honly.setHost _, true, false, _, AList.lookup_insert _, hp.writeConditions hcs,
        fun _ => rfl, rfl⟩
    · simp only [Prog.logged, hw]
      refine ⟨honly, false, false, cur, hcur, hp, fun hs => ?_, rfl⟩
      -- merging into the conditions that were read cannot conflict
      have hnone := hrefused (ho hs) cur hcur
      rw [show cur.conditions = h.conditions from hp.conditions, mergeConditions_before] at hnone
      cases hnone
  | @specWritten h h' log r key hkey _ =>
    obtain ⟨hlog, hread, hcourse, honly, c, _, cur, hcur, hp, hstrict, rfl⟩ := hJ
    obtain rfl : key = k := hkey.trans (hkeys _ _ hread)
    refine ⟨(eventsOf_cons ..).trans (by simpa [asEvent] using hlog), hread, hcourse, ?_⟩
    rcases exec_patchByoHost o w key h h' with ⟨cur', hcur', hw⟩ | ⟨e, hw, hmissing⟩
    · simp only [Prog.logged, hw]
      cases hcur.symm.trans hcur'
      exact ⟨honly.setHost _, c, true, _, AList.lookup_insert _, hp.writeSpec,
        fun hs => ⟨hstrict hs, rfl⟩⟩
    · simp only [Prog.logged, hw]
      refine ⟨honly, c, false, cur, hcur, hp, fun hs => ?_⟩
      -- the host is there, so only a failed write refuses the request
      cases hcur.symm.trans (hmissing (ho hs))
  | @statusWritten h h' log r key hkey _ _ =>
    obtain ⟨hlog, hread, hcourse, honly, c, sp, cur, hcur, hp, hstrict⟩ := hJ
    obtain rfl : key = k := hkey.trans (hkeys _ _ hread)
    refine ⟨(eventsOf_cons ..).trans (by simpa [asEvent] using hlog), hread, hcourse, ?_⟩
    rcases exec_patchByoHostStatus o w key h h' with ⟨cur', hcur', hw⟩ | ⟨e, hw, hmissing⟩
    · simp only [Prog.logged, hw]
      cases hcur.symm.trans hcur'
      exact ⟨honly.setHost _, c, sp, true, _, AList.lookup_insert _, hp.writeStatus,
        fun hs => ⟨(hstrict hs).1, (hstrict hs).2, rfl⟩⟩
    · simp only [Prog.logged, hw]
      refine ⟨honly, c, sp, false, cur, hcur, hp, fun hs => ?_⟩
      cases hcur.symm.trans (hmissing (ho hs))

/-- It holds after each move without a call. -/
theorem agentAlone_silent (s : World × List (Sigma Resp)) (q q' : AgentPhase)
    (hJ : AgentAlone cfg k strict w₀ s q) (hmove : AgentSilent cfg q q') :
    AgentAlone cfg k strict w₀ s q' := by
  obtain ⟨w, calls⟩ := s
  cases hmove with
  | @leave h h' log hc =>
    obtain ⟨rfl, hlog, hread⟩ := hJ
    exact ⟨hlog, hread, hc, .refl _ _, false, false, h, hread, .refl _ _, rfl, rfl⟩
  | skipConditions hsame =>
    obtain ⟨hlog, hread, hcourse, honly, _, _, cur, hcur, hp, rfl, rfl⟩ := hJ
    exact ⟨hlog, hread, hcourse, honly, true, false, cur, hcur, hp.skipConditions hsame,
      fun _ => rfl, rfl⟩
  | skipSpec hsame =>
    obtain ⟨hlog, hread, hcourse, honly, c, _, cur, hcur, hp, hstrict, rfl⟩ := hJ
    exact ⟨hlog, hread, hcourse, honly, c, true, cur, hcur, hp.skipSpec hsame,
      fun hs => ⟨hstrict hs, rfl⟩⟩
  | skipStatus hsame =>
    obtain ⟨hlog, hread, hcourse, honly, c, sp, cur, hcur, hp, hstrict⟩ := hJ
    exact ⟨hlog, hread, hcourse, honly, c, sp, true, cur, hcur, hp.skipStatus hsame,
      fun hs => ⟨(hstrict hs).1, (hstrict hs).2, rfl⟩⟩

/-- A reconcile of an agent changes nothing, or takes a course and patches its host. -/
theorem agentStep_cases (cfg : Config) (k : NamespacedName) (os : List Outcome) (s : Site)
    (hkeys : WellKeyed s.world) :
    s.agentStep cfg k os = s ∨
      ∃ h h' cur log c sp st, AgentRan cfg k s (s.agentStep cfg k os) h h' cur log c sp st ∧
        ((∀ o ∈ os, o.writeOk = true) → c = true ∧ sp = true ∧ st = true) := by
  classical
  -- one invariant serves both cases: `strict` says that no write of this reconcile fails
  obtain ⟨strict, hstrict⟩ : ∃ strict : Bool, strict = true ↔ ∀ o ∈ os, o.writeOk = true :=
    ⟨decide _, decide_eq_true_iff⟩
  have hrun := Prog.Follows.run_of (Prog.logged exec) (fun o => strict = true → o.writeOk = true)
    (J := AgentAlone cfg k strict s.world) (fun _ => rfl) (fun o s c q q' ho => agentAlone_call hkeys o ho s c q q')
    agentAlone_silent (agentReconcile_follows cfg k) (s := (s.world, [])) ⟨rfl, rfl⟩ os
    (fun o ho hs => hstrict.1 hs o ho)
  obtain ⟨q, hreport, hJ⟩ := hrun
  rcases hreport with ⟨hread, hleft, rfl⟩ | ⟨h, log, h', hread, hleft, rfl⟩
  · left
    obtain ⟨hw, -⟩ := hJ
    simp only [Site.agentStep, hw, agentRun, hread, Option.toList, List.append_nil,
      Function.update_eq_self]
  · right
    obtain ⟨hlog, hhost, hcourse, honly, c, sp, st, cur, hcur, hp, hall⟩ := hJ
    refine ⟨h, h', cur, log, c, sp, st, ⟨hhost, hcourse, ?_, hcur, hp, honly⟩,
      fun hos => hall (hstrict.2 hos)⟩
    simp only [Site.agentStep, agentRun, hread, hleft, Option.toList]
    rw [← hlog]
    rfl

end Run

end Byoh.Protocol
