import Byoh.Foundation.Pool

/-!
# Thread by thread

An assertion about a pool is often a global one together with one for each thread, for the phase it
is in or for its rest. Then a call has to keep the global assertion, establish the next assertion of
its own thread, and not disturb the assertions of the others. `compat` says which threads can be
busy at the same time, so that threads that exclude each other need not be compared.
-/

set_option autoImplicit false

namespace Byoh.Foundation

variable {C : Type} {R : C → Type} {O S T A Q : Type}

/-- A global assertion `G` and thread assertions `H` that all steps keep; the phase `none` is that
of an idle thread. -/
structure RelyGuarantee [DecidableEq T] (M : PoolSystem C R O S T A) (rules : Rules C O S T A)
    (next : T → Q → (c : C) → R c → Q → Prop) (silent : T → Q → Q → Prop) (first : T → Q)
    (done : T → Q → Prop) (compat : T → T → Prop) (G : S → Prop) (H : T → S → Option Q → Prop) :
    Prop where
  follows : ∀ t, Prog.Follows (next t) (silent t) (fun _ => done t) (M.prog t) (first t)
  symm : ∀ {t t'}, compat t t' → compat t' t
  exclude : ∀ {s busy t}, rules.start s busy t → ∀ t', busy t' = true → t' ≠ t → compat t t'
  start : ∀ {s busy t}, G s → H t s none → rules.start s busy t → H t s (some (first t))
  call : ∀ {s t q o c q'}, G s → H t s (some q) → rules.call s t o c →
    next t q c (M.exec o c s).1 q' → G (M.exec o c s).2 ∧ H t (M.exec o c s).2 (some q')
  others : ∀ {s t q o c q' t' q₁}, G s → H t s (some q) → rules.call s t o c →
    next t q c (M.exec o c s).1 q' → t' ≠ t → (q₁.isSome = true → compat t t') → H t' s q₁ →
      H t' (M.exec o c s).2 q₁
  silent : ∀ {s t q q'}, G s → H t s (some q) → silent t q q' → H t s (some q')
  finish : ∀ {s t q}, G s → H t s (some q) → done t q → H t s none
  env : ∀ {s busy a s'}, G s → rules.env s busy a → M.env a s = some s' →
    G s' ∧ ∀ t q, H t s q → H t s' q

namespace RelyGuarantee

variable [DecidableEq T] {M : PoolSystem C R O S T A} {rules : Rules C O S T A}
  {next : T → Q → (c : C) → R c → Q → Prop} {silent : T → Q → Q → Prop} {first : T → Q}
  {done : T → Q → Prop} {compat : T → T → Prop} {G : S → Prop} {H : T → S → Option Q → Prop}

/-- The assertion about the whole pool. -/
structure Joint (compat : T → T → Prop) (G : S → Prop) (H : T → S → Option Q → Prop) (s : S)
    (ph : T → Option Q) : Prop where
  all : G s
  each : ∀ t, H t s (ph t)
  exclude : ∀ t t', (ph t).isSome = true → (ph t').isSome = true → t' ≠ t → compat t t'

/-- The assertions of all threads when one of them moves on. -/
theorem each_update {s : S} {ph : T → Option Q} {t : T} {q : Option Q} (ht : H t s q)
    (hothers : ∀ t', t' ≠ t → H t' s (ph t')) (t' : T) : H t' s (Function.update ph t q t') := by
  by_cases h : t' = t
  · subst h
    rwa [Function.update_self]
  · rw [Function.update_of_ne h]
    exact hothers t' h

/-- The exclusion of threads when one of them moves on. -/
theorem Joint.exclude_update {s : S} {ph : T → Option Q}
    (h : Joint compat G H s ph) {t : T} {q : Option Q} (ht : q.isSome = true → (ph t).isSome = true)
    (t₁ t₂ : T) (h₁ : (Function.update ph t q t₁).isSome = true)
    (h₂ : (Function.update ph t q t₂).isSome = true) (hne : t₂ ≠ t₁) : compat t₁ t₂ := by
  have hbusy : ∀ t', (Function.update ph t q t').isSome = true → (ph t').isSome = true := by
    intro t' h'
    by_cases hk : t' = t
    · subst hk
      rw [Function.update_self] at h'
      exact ht h'
    · rwa [Function.update_of_ne hk] at h'
  exact h.exclude t₁ t₂ (hbusy t₁ h₁) (hbusy t₂ h₂) hne

theorem simulation (hM : RelyGuarantee M rules next silent first done compat G H) :
    Simulation M rules next silent first done (Joint compat G H) where
  follows := hM.follows
  start := by
    intro s ph t hJ hidle hrule
    refine ⟨hJ.all, each_update (hM.start hJ.all (hidle ▸ hJ.each t) hrule) fun t' _ => hJ.each t', ?_⟩
    -- the new thread is compatible with those that are busy, by the start rule
    intro t₁ t₂ h₁ h₂ hne
    by_cases ht₁ : t₁ = t
    · subst ht₁
      rw [Function.update_of_ne hne] at h₂
      exact hM.exclude hrule t₂ h₂ hne
    · rw [Function.update_of_ne ht₁] at h₁
      by_cases ht₂ : t₂ = t
      · subst ht₂
        exact hM.symm (hM.exclude hrule t₁ h₁ ht₁)
      · rw [Function.update_of_ne ht₂] at h₂
        exact hJ.exclude t₁ t₂ h₁ h₂ hne
  call := by
    intro s ph t q o c q' hJ hq hrule hnext
    have hH : H t s (some q) := hq ▸ hJ.each t
    obtain ⟨hG, hH'⟩ := hM.call hJ.all hH hrule hnext
    refine ⟨hG, each_update hH' fun t' ht => ?_, hJ.exclude_update fun _ => by rw [hq]; rfl⟩
    exact hM.others hJ.all hH hrule hnext ht
      (fun hbusy => hJ.exclude t t' (by rw [hq]; rfl) hbusy ht) (hJ.each t')
  silent := by
    intro s ph t q q' hJ hq hmove
    have hH : H t s (some q) := hq ▸ hJ.each t
    exact ⟨hJ.all, each_update (hM.silent hJ.all hH hmove) fun t' _ => hJ.each t',
      hJ.exclude_update fun _ => by rw [hq]; rfl⟩
  finish := by
    intro s ph t q hJ hq hdone
    have hH : H t s (some q) := hq ▸ hJ.each t
    exact ⟨hJ.all, each_update (hM.finish hJ.all hH hdone) fun t' _ => hJ.each t',
      hJ.exclude_update fun h => by cases h⟩
  env := by
    intro s ph a s' hJ hrule henv
    obtain ⟨hG, hH⟩ := hM.env hJ.all hrule henv
    exact ⟨hG, fun t => hH t (ph t) (hJ.each t), hJ.exclude⟩

/-- Fewer runs keep the assertions. -/
theorem restrict (hM : RelyGuarantee M rules next silent first done compat G H)
    {rules' : Rules C O S T A}
    (hstart : ∀ {s busy t}, rules'.start s busy t → rules.start s busy t)
    (hcall : ∀ {s t o c}, rules'.call s t o c → rules.call s t o c)
    (henv : ∀ {s busy a}, rules'.env s busy a → rules.env s busy a) :
    RelyGuarantee M rules' next silent first done compat G H where
  follows := hM.follows
  symm := hM.symm
  exclude := fun h => hM.exclude (hstart h)
  start := fun hG hH h => hM.start hG hH (hstart h)
  call := fun hG hH h => hM.call hG hH (hcall h)
  others := fun hG hH h => hM.others hG hH (hcall h)
  silent := hM.silent
  finish := hM.finish
  env := fun hG h => hM.env hG (henv h)

/-- Further assertions `G'` and `H'`, kept by all steps when `G` and `H` hold before and after. -/
structure Extension (M : PoolSystem C R O S T A) (rules : Rules C O S T A)
    (next : T → Q → (c : C) → R c → Q → Prop) (silent : T → Q → Q → Prop) (first : T → Q)
    (done : T → Q → Prop) (compat : T → T → Prop) (G G' : S → Prop)
    (H H' : T → S → Option Q → Prop) : Prop where
  start : ∀ {s busy t}, G s → G' s → H t s none → H' t s none → rules.start s busy t →
    H' t s (some (first t))
  call : ∀ {s t q o c q'}, G s → G' s → H t s (some q) → H' t s (some q) → rules.call s t o c →
    next t q c (M.exec o c s).1 q' → G (M.exec o c s).2 → H t (M.exec o c s).2 (some q') →
      G' (M.exec o c s).2 ∧ H' t (M.exec o c s).2 (some q')
  others : ∀ {s t q o c q' t' q₁}, G s → G' s → H t s (some q) → H' t s (some q) →
    rules.call s t o c → next t q c (M.exec o c s).1 q' → t' ≠ t →
      (q₁.isSome = true → compat t t') → H t' s q₁ → H' t' s q₁ → H' t' (M.exec o c s).2 q₁
  silent : ∀ {s t q q'}, G s → G' s → H t s (some q) → H' t s (some q) → silent t q q' →
    H' t s (some q')
  finish : ∀ {s t q}, G s → G' s → H t s (some q) → H' t s (some q) → done t q → H' t s none
  env : ∀ {s busy a s'}, G s → G' s → rules.env s busy a → M.env a s = some s' →
    G' s' ∧ ∀ t q, H t s q → H' t s q → H' t s' q

theorem extend (hM : RelyGuarantee M rules next silent first done compat G H) {G' : S → Prop}
    {H' : T → S → Option Q → Prop}
    (hE : Extension M rules next silent first done compat G G' H H') :
    RelyGuarantee M rules next silent first done compat (fun s => G s ∧ G' s)
      (fun t s q => H t s q ∧ H' t s q) where
  follows := hM.follows
  symm := hM.symm
  exclude := hM.exclude
  start := fun hG hH h => ⟨hM.start hG.1 hH.1 h, hE.start hG.1 hG.2 hH.1 hH.2 h⟩
  call := by
    intro s t q o c q' hG hH hrule hnext
    obtain ⟨hG₁, hH₁⟩ := hM.call hG.1 hH.1 hrule hnext
    obtain ⟨hG₂, hH₂⟩ := hE.call hG.1 hG.2 hH.1 hH.2 hrule hnext hG₁ hH₁
    exact ⟨⟨hG₁, hG₂⟩, hH₁, hH₂⟩
  others := fun hG hH hrule hnext hne hc h => ⟨hM.others hG.1 hH.1 hrule hnext hne hc h.1,
    hE.others hG.1 hG.2 hH.1 hH.2 hrule hnext hne hc h.1 h.2⟩
  silent := fun hG hH h => ⟨hM.silent hG.1 hH.1 h, hE.silent hG.1 hG.2 hH.1 hH.2 h⟩
  finish := fun hG hH h => ⟨hM.finish hG.1 hH.1 h, hE.finish hG.1 hG.2 hH.1 hH.2 h⟩
  env := by
    intro s busy a s' hG hrule henv
    obtain ⟨hG₁, hH₁⟩ := hM.env hG.1 hrule henv
    obtain ⟨hG₂, hH₂⟩ := hE.env hG.1 hG.2 hrule henv
    exact ⟨⟨hG₁, hG₂⟩, fun t q h => ⟨hH₁ t q h.1, hH₂ t q h.1 h.2⟩⟩

section Runs

variable (hM : RelyGuarantee M rules next silent first done compat G H) {s : S} (hs : G s)
  (hidle : ∀ t, H t s none) {σ : Pool C R S T} {ls : List (Label O T A)}
  (hrun : M.Steps rules (.init s) ls σ)

include hM hs hidle hrun

theorem joint : ∃ ph, Simulation.Describes next silent done (Joint compat G H) σ ph :=
  hM.simulation.holds_init ⟨hs, hidle, nofun⟩ hrun

/-- The global assertion holds in every state of every run that obeys the rules. -/
theorem holds : G σ.store := by
  obtain ⟨ph, hJ, _⟩ := hM.joint hs hidle hrun
  exact hJ.all

/-- So does the assertion of an idle thread. -/
theorem holds_idle {t : T} (ht : σ.thread t = none) : H t σ.store none := by
  obtain ⟨ph, hJ, hmatch⟩ := hM.joint hs hidle hrun
  have hph : ph t = none := by
    have := (hmatch t).isSome_eq
    rw [ht] at this
    simpa using this
  exact hph ▸ hJ.each t

/-- When a thread is about to make a call, its assertion holds for a phase that makes it. -/
theorem holds_next {t : T} {c : C} {k : R c → Prog C R Unit}
    (ht : σ.thread t = some (.call c k)) :
    ∃ q, H t σ.store (some q) ∧ ∀ r, ∃ q', next t q c r q' := by
  obtain ⟨ph, hJ, hmatch⟩ := hM.joint hs hidle hrun
  specialize hmatch t
  rw [ht] at hmatch
  cases hq : ph t with
  | none => simp [hq, Simulation.Matches] at hmatch
  | some q =>
    rw [hq] at hmatch
    obtain ⟨q', dest, hJ', hnext, -⟩ := hM.simulation.advance hmatch rfl hJ hq
    refine ⟨q', ?_, fun r => ⟨dest r, hnext r⟩⟩
    have := hJ'.each t
    rwa [Function.update_self] at this

/-- A fact about the store that holds at the end of a run held at its start, or one of the calls of
the run made it. -/
theorem provenance {X : Type} (fact : S → X → Prop) (origin : T → C → X → Prop)
    (hcall : ∀ {s t q o c q' x}, G s → H t s (some q) → next t q c (M.exec o c s).1 q' →
      fact (M.exec o c s).2 x → fact s x ∨ origin t c x)
    (henv : ∀ {s a s' x}, M.env a s = some s' → fact s' x → fact s x) {x : X}
    (hx : fact σ.store x) :
    fact s x ∨ ∃ ls₁ t o ls₂ σ₁ c k, ls = ls₁ ++ .call t o :: ls₂ ∧
      M.Steps rules (.init s) ls₁ σ₁ ∧ σ₁.thread t = some (.call c k) ∧ origin t c x := by
  have hinit : Simulation.Describes next silent done (Joint compat G H) (.init s : Pool C R S T)
      fun _ => none := ⟨⟨hs, hidle, nofun⟩, fun _ => trivial⟩
  refine hM.simulation.provenance fact origin ?_ henv hrun hx hinit
  intro s ph t q o c q' x hJ hq hnext hfact
  exact hcall hJ.all (hq ▸ hJ.each t) hnext hfact

end Runs

end RelyGuarantee

end Byoh.Foundation
