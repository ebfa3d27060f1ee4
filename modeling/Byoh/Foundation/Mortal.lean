import Byoh.Foundation.RelyGuarantee

/-!
# Processes that die

A process may die at any point; its next call is then not made, and the thread is free to be started
again. Dying between two calls is dying with the answer of the first, so a response of `none` is the
end of the process (`Prog.mortal`), and the environment chooses whether it comes (`PoolSystem.mortal`).
The call itself takes effect.

What is proved about processes that do not die carries over when a process may be in the phase of a
dead one at any time (`RelyGuarantee.mortal`).
-/

set_option autoImplicit false

namespace Byoh.Foundation

variable {C : Type} {R : C → Type} {O S T A Q : Type}

/-- The program of a process that may die. -/
def Prog.mortal : Prog C R Unit → Prog C (fun c => Option (R c)) Unit
  | .ret a => .ret a
  | .call c k => .call c fun r => r.elim (.ret ()) fun r => (k r).mortal

/-- The phases of a process that may die. -/
def mortalNext (next : Q → (c : C) → R c → Q → Prop) (dead q : Q) (c : C) :
    Option (R c) → Q → Prop
  | some r, q' => next q c r q'
  | none, q' => (∀ r, ∃ q₁, next q c r q₁) ∧ q' = dead

theorem Prog.Follows.mortal {next : Q → (c : C) → R c → Q → Prop} {silent : Q → Q → Prop}
    {done : Q → Prop} {p : Prog C R Unit} {q dead : Q}
    (h : Prog.Follows next silent (fun _ => done) p q) (hdead : done dead) :
    Prog.Follows (mortalNext next dead) silent (fun _ => done) p.mortal q := by
  induction h with
  | ret h => exact .ret h
  | call dest hnext _ ih =>
    refine .call (fun r => r.elim dead dest) (fun r => ?_) fun r => ?_
    · cases r with
      | none => exact ⟨fun r => ⟨dest r, hnext r⟩, rfl⟩
      | some r => exact hnext r
    · cases r with
      | none => exact .ret hdead
      | some r => exact ih r
  | silent h _ ih => exact .silent h ih

/-- The threads die when `dies` says so. -/
def PoolSystem.mortal (M : PoolSystem C R O S T A) (dies : O → Bool) :
    PoolSystem C (fun c => Option (R c)) O S T A where
  prog t := (M.prog t).mortal
  exec o c s := (if dies o then none else some (M.exec o c s).1, (M.exec o c s).2)
  env := M.env

/-- Whether the process dies or not, the call is one that it makes. -/
theorem next_of_mortalNext {M : PoolSystem C R O S T A} {dies : O → Bool}
    {next : Q → (c : C) → R c → Q → Prop} {dead q q' : Q} {o : O} {c : C} {s : S}
    (h : mortalNext next dead q c ((M.mortal dies).exec o c s).1 q') :
    ∃ q₁, next q c (M.exec o c s).1 q₁ ∧ (q' = q₁ ∨ q' = dead) := by
  cases hdies : dies o with
  | true =>
    simp only [PoolSystem.mortal, hdies, if_true] at h
    obtain ⟨q₁, hnext⟩ := h.1 (M.exec o c s).1
    exact ⟨q₁, hnext, .inr h.2⟩
  | false =>
    simp only [PoolSystem.mortal, hdies, Bool.false_eq_true, if_false] at h
    exact ⟨q', h, .inl rfl⟩

/-- The assertions hold for processes that die as well. -/
theorem RelyGuarantee.mortal [DecidableEq T] {M : PoolSystem C R O S T A} {rules : Rules C O S T A}
    {next : T → Q → (c : C) → R c → Q → Prop} {silent : T → Q → Q → Prop} {first : T → Q}
    {done : T → Q → Prop} {compat : T → T → Prop} {G : S → Prop} {H : T → S → Option Q → Prop}
    (hM : RelyGuarantee M rules next silent first done compat G H) (dies : O → Bool) (dead : Q)
    (hdone : ∀ t, done t dead) (hdead : ∀ t s q, H t s (some q) → H t s (some dead)) :
    RelyGuarantee (M.mortal dies) rules (fun t => mortalNext (next t) dead) silent first done compat
      G H where
  follows := fun t => (hM.follows t).mortal (hdone t)
  symm := hM.symm
  exclude := hM.exclude
  start := hM.start
  call := by
    intro s t q o c q' hG hH hrule hnext
    obtain ⟨q₁, hnext₁, hq'⟩ := next_of_mortalNext hnext
    obtain ⟨hG', hH'⟩ := hM.call hG hH hrule hnext₁
    refine ⟨hG', ?_⟩
    rcases hq' with rfl | rfl
    · exact hH'
    · exact hdead t _ q₁ hH'
  others := by
    intro s t q o c q' t' q₁ hG hH hrule hnext hne hcompat hH'
    obtain ⟨q₂, hnext₂, -⟩ := next_of_mortalNext hnext
    exact hM.others hG hH hrule hnext₂ hne hcompat hH'
  silent := hM.silent
  finish := hM.finish
  env := hM.env

end Byoh.Foundation
