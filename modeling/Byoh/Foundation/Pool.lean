import Byoh.Foundation.Program

/-!
# Interleaved programs

A pool is a store and a family of threads; a thread is idle or holds the rest of its program. One
step starts an idle thread, makes the next call of a thread, or lets the environment change the
store. `step` is executable, and a run is a list of labels.

`Rules` restrict runs: when a thread may start, which outcomes a call may have, when the
environment may act. They see the store and which threads are busy, never the rest of a program.

`Simulation` is the proof rule. Each program follows its phase structure (`Prog.Follows`), and an
assertion on the store and on the phases of all threads is kept by every start, call, silent move,
end and environment step. Then it holds in every state of every run that obeys the rules
(`Simulation.holds`).
-/

set_option autoImplicit false

namespace Byoh.Foundation

variable {C : Type} {R : C → Type} {O S T A : Type}

/-- A store and threads on it; `none` is an idle thread. -/
structure Pool (C : Type) (R : C → Type) (S T : Type) where
  store : S
  thread : T → Option (Prog C R Unit)

/-- The steps of a pool. -/
inductive Label (O T A : Type) where
  | start (t : T)
  | call (t : T) (o : O)
  | env (a : A)

/-- What the threads run, what their calls do and what the environment does; `none` is an
environment action that is not possible. -/
structure PoolSystem (C : Type) (R : C → Type) (O S T A : Type) where
  prog : T → Prog C R Unit
  exec : O → (c : C) → S → R c × S
  env : A → S → Option S

/-- The rest of a program; a program that has returned leaves its thread idle. -/
def Prog.rest : Prog C R Unit → Option (Prog C R Unit)
  | .ret _ => none
  | .call c k => some (.call c k)

/-- The rules of a run. `busy t` says that thread `t` is not idle. -/
structure Rules (C O S T A : Type) where
  start : S → (T → Bool) → T → Prop := fun _ _ _ => True
  call : S → T → O → C → Prop := fun _ _ _ _ => True
  env : S → (T → Bool) → A → Prop := fun _ _ _ => True

/-- Rules that can be checked. -/
class DecidableRules (rules : Rules C O S T A) where
  start : ∀ s busy t, Decidable (rules.start s busy t)
  call : ∀ s t o c, Decidable (rules.call s t o c)
  env : ∀ s busy a, Decidable (rules.env s busy a)

namespace Pool

/-- The threads that are not idle. -/
def busy (σ : Pool C R S T) (t : T) : Bool := (σ.thread t).isSome

/-- The pool with a store and all threads idle. -/
def init (s : S) : Pool C R S T := ⟨s, fun _ => none⟩

end Pool

namespace PoolSystem

variable [DecidableEq T] (M : PoolSystem C R O S T A)

/-- One step; `none` when the label is not possible. -/
def step (σ : Pool C R S T) : Label O T A → Option (Pool C R S T)
  | .start t =>
      match σ.thread t with
      | none => some { σ with thread := Function.update σ.thread t (M.prog t).rest }
      | some _ => none
  | .call t o =>
      match σ.thread t with
      | some (.call c k) =>
          some ⟨(M.exec o c σ.store).2,
            Function.update σ.thread t (k (M.exec o c σ.store).1).rest⟩
      | _ => none
  | .env a => (M.env a σ.store).map fun s => { σ with store := s }

/-- The rules allow a step. -/
def Allows (rules : Rules C O S T A) (σ : Pool C R S T) : Label O T A → Prop
  | .start t => rules.start σ.store σ.busy t
  | .call t o => ∀ c k, σ.thread t = some (.call c k) → rules.call σ.store t o c
  | .env a => rules.env σ.store σ.busy a

/-- A run under the rules, with its labels. -/
inductive Steps (rules : Rules C O S T A) : Pool C R S T → List (Label O T A) → Pool C R S T → Prop
  | nil (σ : Pool C R S T) : Steps rules σ [] σ
  | cons {σ σ' σ'' : Pool C R S T} {l : Label O T A} {ls : List (Label O T A)}
      (hl : Allows rules σ l) (hstep : M.step σ l = some σ') (hls : Steps rules σ' ls σ'') :
      Steps rules σ (l :: ls) σ''

section Execution

variable (rules : Rules C O S T A) [checks : DecidableRules rules]

/-- Check the rules for one step. -/
def allows (σ : Pool C R S T) : Label O T A → Bool
  | .start t => @decide _ (checks.start σ.store σ.busy t)
  | .call t o =>
      match σ.thread t with
      | some (.call c _) => @decide _ (checks.call σ.store t o c)
      | _ => true
  | .env a => @decide _ (checks.env σ.store σ.busy a)

omit [DecidableEq T] in
theorem allows_iff (σ : Pool C R S T) (l : Label O T A) :
    allows rules σ l = true ↔ Allows rules σ l := by
  cases l with
  | start t => exact @decide_eq_true_iff _ (checks.start σ.store σ.busy t)
  | env a => exact @decide_eq_true_iff _ (checks.env σ.store σ.busy a)
  | call t o =>
    simp only [allows, Allows]
    split
    · rename_i c k hth
      rw [@decide_eq_true_iff _ (checks.call σ.store t o c)]
      constructor
      · rintro h c' k' heq
        cases hth.symm.trans heq
        exact h
      · exact fun h => h c k hth
    · rename_i hth
      exact iff_of_true rfl fun c k heq => absurd heq (hth c k)

/-- Execute a list of labels, as long as they are possible and allowed. -/
def run : List (Label O T A) → Pool C R S T → Option (Pool C R S T)
  | [], σ => some σ
  | l :: ls, σ => if allows rules σ l then (M.step σ l).bind (run ls) else none

variable {rules}

/-- A list of labels that can be executed is a run. -/
theorem steps_of_run {ls : List (Label O T A)} :
    ∀ {σ σ' : Pool C R S T}, M.run rules ls σ = some σ' → M.Steps rules σ ls σ' := by
  induction ls with
  | nil =>
    intro σ σ' h
    cases Option.some.inj h
    exact .nil σ
  | cons l ls ih =>
    intro σ σ' h
    rw [run] at h
    split at h
    · rename_i hl
      obtain ⟨σ₁, h₁, h₂⟩ := Option.bind_eq_some_iff.1 h
      exact .cons ((allows_iff rules σ l).1 hl) h₁ (ih h₂)
    · cases h

end Execution

/-- A run to a state with a property that can be computed. -/
theorem exists_steps (rules : Rules C O S T A) [DecidableRules rules]
    (ls : List (Label O T A)) (P : Pool C R S T → Bool) {σ : Pool C R S T}
    (h : (M.run rules ls σ).any P = true) : ∃ σ', M.Steps rules σ ls σ' ∧ P σ' = true := by
  cases hrun : M.run rules ls σ with
  | none => simp [hrun] at h
  | some σ' =>
    rw [hrun] at h
    exact ⟨σ', M.steps_of_run hrun, h⟩

end PoolSystem

/-! ## Simulation by phases -/

/-- An assertion `J` on the store and the phases of the threads that all steps keep. -/
structure Simulation [DecidableEq T] (M : PoolSystem C R O S T A) (rules : Rules C O S T A)
    {Q : Type} (next : T → Q → (c : C) → R c → Q → Prop) (silent : T → Q → Q → Prop)
    (first : T → Q) (done : T → Q → Prop) (J : S → (T → Option Q) → Prop) : Prop where
  follows : ∀ t, Prog.Follows (next t) (silent t) (fun _ => done t) (M.prog t) (first t)
  start : ∀ {s ph t}, J s ph → ph t = none → rules.start s (fun t => (ph t).isSome) t →
    J s (Function.update ph t (some (first t)))
  call : ∀ {s ph t q o c q'}, J s ph → ph t = some q → rules.call s t o c →
    next t q c (M.exec o c s).1 q' → J (M.exec o c s).2 (Function.update ph t (some q'))
  silent : ∀ {s ph t q q'}, J s ph → ph t = some q → silent t q q' →
    J s (Function.update ph t (some q'))
  finish : ∀ {s ph t q}, J s ph → ph t = some q → done t q → J s (Function.update ph t none)
  env : ∀ {s ph a s'}, J s ph → rules.env s (fun t => (ph t).isSome) a → M.env a s = some s' →
    J s' ph

namespace Simulation

variable [DecidableEq T] {M : PoolSystem C R O S T A} {rules : Rules C O S T A} {Q : Type}
  {next : T → Q → (c : C) → R c → Q → Prop} {silent : T → Q → Q → Prop} {first : T → Q}
  {done : T → Q → Prop} {J : S → (T → Option Q) → Prop} {t : T} {σ σ' : Pool C R S T}
  {ph : T → Option Q} {s : S} {ls : List (Label O T A)}

/-- A thread and its phase: both idle, or the program follows the phase. -/
def Matches (next : T → Q → (c : C) → R c → Q → Prop) (silent : T → Q → Q → Prop)
    (done : T → Q → Prop) (t : T) : Option (Prog C R Unit) → Option Q → Prop
  | none, none => True
  | some p, some q => Prog.Follows (next t) (silent t) (fun _ => done t) p q
  | _, _ => False

/-- The phases `ph` describe the pool `σ`, and the assertion holds. -/
def Describes (next : T → Q → (c : C) → R c → Q → Prop) (silent : T → Q → Q → Prop)
    (done : T → Q → Prop) (J : S → (T → Option Q) → Prop) (σ : Pool C R S T)
    (ph : T → Option Q) : Prop :=
  J σ.store ph ∧ ∀ t, Matches next silent done t (σ.thread t) (ph t)

omit [DecidableEq T] in
theorem Matches.isSome_eq {p : Option (Prog C R Unit)} {q : Option Q}
    (h : Matches next silent done t p q) : q.isSome = p.isSome := by
  cases p <;> cases q <;> first | rfl | exact h.elim

omit [DecidableEq T] in
theorem Describes.busy_eq (h : Describes next silent done J σ ph) :
    (fun t => (ph t).isSome) = σ.busy :=
  funext fun t => (h.2 t).isSome_eq

/-- After a call or a start, silent moves lead from the phase of a returned program to its end. -/
theorem settle (hM : Simulation M rules next silent first done J) {p : Prog C R Unit} {q : Q}
    (hp : Prog.Follows (next t) (silent t) (fun _ => done t) p q) :
    ∀ {ph : T → Option Q}, J s (Function.update ph t (some q)) →
      ∃ q', J s (Function.update ph t q') ∧ Matches next silent done t p.rest q' := by
  induction hp with
  | ret h =>
    intro ph hJ
    have hend := hM.finish hJ (Function.update_self ..) h
    rw [Function.update_idem] at hend
    exact ⟨none, hend, trivial⟩
  | call dest hnext hk _ => exact fun hJ => ⟨_, hJ, .call dest hnext hk⟩
  | silent h _ ih =>
    intro ph hJ
    have hmove := hM.silent hJ (Function.update_self ..) h
    rw [Function.update_idem] at hmove
    exact ih hmove

/-- A thread that is about to make a call can be moved silently to the phase that makes it. -/
theorem advance (hM : Simulation M rules next silent first done J) {c : C} {k : R c → Prog C R Unit}
    {q : Q} {p : Prog C R Unit} (hp : Prog.Follows (next t) (silent t) (fun _ => done t) p q) :
    ∀ {ph : T → Option Q}, p = .call c k → J s ph → ph t = some q →
      ∃ (q' : Q) (dest : R c → Q), J s (Function.update ph t (some q')) ∧ (∀ r, next t q' c r (dest r)) ∧
        ∀ r, Prog.Follows (next t) (silent t) (fun _ => done t) (k r) (dest r) := by
  induction hp with
  | ret h => exact fun heq => nomatch heq
  | call dest hnext hk _ =>
    intro ph heq hJ hq
    cases heq
    rw [← Function.update_eq_self t ph, hq] at hJ
    exact ⟨_, dest, hJ, hnext, hk⟩
  | silent h _ ih =>
    intro ph heq hJ hq
    obtain ⟨q', dest, hJ', hnext, hk⟩ := ih heq (hM.silent hJ hq h) (Function.update_self ..)
    rw [Function.update_idem] at hJ'
    exact ⟨q', dest, hJ', hnext, hk⟩

theorem Matches.update {σ : T → Option (Prog C R Unit)}
    (h : ∀ t, Matches next silent done t (σ t) (ph t)) {p : Option (Prog C R Unit)} {q : Option Q}
    (hp : Matches next silent done t p q) (t' : T) :
    Matches next silent done t' (Function.update σ t p t') (Function.update ph t q t') := by
  by_cases ht : t' = t
  · subst ht
    simpa using hp
  · simpa [ht] using h t'

/-- One step keeps the description. -/
theorem step (hM : Simulation M rules next silent first done J) {l : Label O T A}
    (h : Describes next silent done J σ ph) (hl : PoolSystem.Allows rules σ l)
    (hstep : M.step σ l = some σ') : ∃ ph', Describes next silent done J σ' ph' := by
  cases l with
  | start t =>
    simp only [PoolSystem.step] at hstep
    cases hth : σ.thread t with
    | some p => simp [hth] at hstep
    | none =>
      simp only [hth, Option.some.injEq] at hstep
      subst hstep
      have hidle : ph t = none := by
        have := (h.2 t).isSome_eq
        rw [hth] at this
        simpa using this
      have hrule : rules.start σ.store (fun t => (ph t).isSome) t := h.busy_eq ▸ hl
      obtain ⟨q', hJ, hp⟩ := hM.settle (hM.follows t) (hM.start h.1 hidle hrule)
      exact ⟨_, hJ, Matches.update h.2 hp⟩
  | call t o =>
    simp only [PoolSystem.step] at hstep
    have hmatch := h.2 t
    split at hstep
    case h_2 => cases hstep
    case h_1 c k hth =>
      simp only [Option.some.injEq] at hstep
      subst hstep
      rw [hth] at hmatch
      cases hq : ph t with
      | none => simp [hq, Matches] at hmatch
      | some q =>
        rw [hq] at hmatch
        obtain ⟨q₁, dest, hJ, hnext, hk⟩ := hM.advance hmatch rfl h.1 hq
        have hcall := hM.call hJ (Function.update_self ..) (hl c k hth) (hnext _)
        rw [Function.update_idem] at hcall
        obtain ⟨q', hJ', hp⟩ := hM.settle (hk _) hcall
        exact ⟨_, hJ', Matches.update h.2 hp⟩
  | env a =>
    simp only [PoolSystem.step, Option.map_eq_some_iff] at hstep
    obtain ⟨s, hs, rfl⟩ := hstep
    have hrule : rules.env σ.store (fun t => (ph t).isSome) a := h.busy_eq ▸ hl
    exact ⟨ph, hM.env h.1 hrule hs, h.2⟩

/-- The assertion holds, for some phases, in every state of every run that obeys the rules. -/
theorem holds (hM : Simulation M rules next silent first done J) (hrun : M.Steps rules σ ls σ') :
    ∀ {ph : T → Option Q}, Describes next silent done J σ ph →
      ∃ ph', Describes next silent done J σ' ph' := by
  induction hrun with
  | nil _ => exact fun h => ⟨_, h⟩
  | cons hl hstep _ ih =>
    intro ph h
    obtain ⟨ph', h'⟩ := hM.step h hl hstep
    exact ih h'

/-- A fact `x` about the store that holds at the end of a run held at its start, or one of the calls
of the run made it. `origin` says which threads make it by which calls. -/
theorem provenance {X : Type} (fact : S → X → Prop) (origin : T → C → X → Prop)
    (hM : Simulation M rules next silent first done J)
    (hcall : ∀ {s ph t q o c q' x}, J s ph → ph t = some q → next t q c (M.exec o c s).1 q' →
      fact (M.exec o c s).2 x → fact s x ∨ origin t c x)
    (henv : ∀ {s a s' x}, M.env a s = some s' → fact s' x → fact s x) (hrun : M.Steps rules σ ls σ')
    {x : X} (hx : fact σ'.store x) :
    ∀ {ph : T → Option Q}, Describes next silent done J σ ph →
      fact σ.store x ∨ ∃ ls₁ t o ls₂ σ₁ c k, ls = ls₁ ++ .call t o :: ls₂ ∧
        M.Steps rules σ ls₁ σ₁ ∧ σ₁.thread t = some (.call c k) ∧ origin t c x := by
  induction hrun with
  | nil _ => exact fun _ => .inl hx
  | @cons σ σ₁ σ' l ls hl hstep hrest ih =>
    intro ph h
    obtain ⟨ph₁, h₁⟩ := hM.step h hl hstep
    rcases ih hx h₁ with hfact | ⟨ls₁, t, o, ls₂, σ₂, c, k, rfl, hsteps, hthread, horigin⟩
    · -- the fact holds after the first step: it held before, or this step is the call
      cases l with
      | start t =>
        simp only [PoolSystem.step] at hstep
        split at hstep
        · cases hstep
          exact .inl hfact
        · cases hstep
      | env a =>
        simp only [PoolSystem.step, Option.map_eq_some_iff] at hstep
        obtain ⟨s, hs, rfl⟩ := hstep
        exact .inl (henv hs hfact)
      | call t o =>
        simp only [PoolSystem.step] at hstep
        have hmatch := h.2 t
        split at hstep
        case h_2 => cases hstep
        case h_1 c k hth =>
          cases hstep
          rw [hth] at hmatch
          cases hq : ph t with
          | none => simp [hq, Matches] at hmatch
          | some q =>
            rw [hq] at hmatch
            obtain ⟨q₁, dest, hJ, hnext, -⟩ := hM.advance hmatch rfl h.1 hq
            rcases hcall hJ (Function.update_self ..) (hnext _) hfact with hbefore | horigin
            · exact .inl hbefore
            · exact .inr ⟨[], t, o, ls, σ, c, k, rfl, .nil σ, hth, horigin⟩
    · exact .inr ⟨l :: ls₁, t, o, ls₂, σ₂, c, k, rfl, .cons hl hstep hsteps, hthread, horigin⟩

/-- From an idle start in which the assertion holds. -/
theorem holds_init (hM : Simulation M rules next silent first done J) (hs : J s fun _ => none)
    (hrun : M.Steps rules (.init s) ls σ) : ∃ ph, Describes next silent done J σ ph := by
  have hinit : Describes next silent done J (.init s : Pool C R S T) fun _ => none :=
    ⟨hs, fun _ => trivial⟩
  exact hM.holds hrun hinit

end Simulation

end Byoh.Foundation
