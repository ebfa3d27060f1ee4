import Mathlib.Logic.Basic

/-!
# Runs of actions

A system that takes one action after the other, each a function on states. `ActionRun act ok` are
the runs in which every action meets the condition `ok` in the state it is taken in;
`ActionRun.invariant` is the rule for what such runs keep.
-/

set_option autoImplicit false

namespace Byoh.Foundation

variable {S A : Type}

/-- A run with its actions. -/
inductive ActionRun (act : S → A → S) (ok : S → A → Prop) : S → List A → S → Prop
  | nil (s : S) : ActionRun act ok s [] s
  | cons {s s' : S} {a : A} {as : List A} (ha : ok s a) (h : ActionRun act ok (act s a) as s') :
      ActionRun act ok s (a :: as) s'

namespace ActionRun

variable {act : S → A → S} {ok : S → A → Prop}

/-- What every allowed action keeps, every run keeps. -/
theorem invariant {I : S → Prop} (hstep : ∀ {s a}, I s → ok s a → I (act s a)) {s s' : S}
    {as : List A} (h : ActionRun act ok s as s') (hs : I s) : I s' := by
  induction h with
  | nil _ => exact hs
  | cons ha _ ih => exact ih (hstep hs ha)

/-- The actions of a list, taken in order, are a run when each is allowed where it is taken. -/
def allowed (act : S → A → S) (ok : S → A → Prop) [∀ s a, Decidable (ok s a)] :
    S → List A → Bool
  | _, [] => true
  | s, a :: as => decide (ok s a) && allowed act ok (act s a) as

theorem of_allowed [∀ s a, Decidable (ok s a)] {as : List A} :
    ∀ {s : S}, allowed act ok s as = true → ActionRun act ok s as (as.foldl act s) := by
  induction as with
  | nil => exact fun _ => .nil _
  | cons a as ih =>
    intro s h
    simp only [allowed, Bool.and_eq_true, decide_eq_true_eq] at h
    exact .cons h.1 (ih h.2)

end ActionRun

end Byoh.Foundation
