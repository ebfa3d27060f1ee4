import Mathlib.Data.List.Basic

/-!
# Interleaved updates

Two parties update one object, each with a list of updates in its own order. `Interleave` are the
orders in which the updates can arrive. When every update of one party commutes with every update
of the other, the order makes no difference (`foldl_interleave`).
-/

set_option autoImplicit false

namespace Byoh.Foundation

variable {A S : Type} {l : List A}

/-- `l` is a merge of `l₁` and `l₂` that keeps the order of each. -/
inductive Interleave : List A → List A → List A → Prop
  | nil : Interleave [] [] []
  | left {a : A} {l₁ l₂ l : List A} (h : Interleave l₁ l₂ l) : Interleave (a :: l₁) l₂ (a :: l)
  | right {a : A} {l₁ l₂ l : List A} (h : Interleave l₁ l₂ l) : Interleave l₁ (a :: l₂) (a :: l)

namespace Interleave

theorem symm {l₁ l₂ : List A} (h : Interleave l₁ l₂ l) : Interleave l₂ l₁ l := by
  induction h with
  | nil => exact .nil
  | left _ ih => exact .right ih
  | right _ ih => exact .left ih

theorem append (l₁ l₂ : List A) : Interleave l₁ l₂ (l₁ ++ l₂) := by
  induction l₁ with
  | cons a l₁ ih => exact .left ih
  | nil =>
    induction l₂ with
    | nil => exact .nil
    | cons a l₂ ih => exact .right ih

end Interleave

variable {apply : S → A → S}

/-- An update that commutes with each update of a list can be made first or last. -/
theorem foldl_comm {a : A} (hcomm : ∀ b ∈ l, ∀ s, apply (apply s b) a = apply (apply s a) b)
    (s : S) : apply (l.foldl apply s) a = l.foldl apply (apply s a) := by
  induction l generalizing s with
  | nil => rfl
  | cons b l ih =>
    rw [List.foldl_cons, List.foldl_cons, ih fun c hc => hcomm c (List.mem_cons_of_mem b hc),
      hcomm b List.mem_cons_self]

/-- Commuting updates give the same object in every order in which they can arrive. -/
theorem foldl_interleave {l₁ l₂ : List A} (h : Interleave l₁ l₂ l)
    (hcomm : ∀ a ∈ l₁, ∀ b ∈ l₂, ∀ s, apply (apply s a) b = apply (apply s b) a) (s : S) :
    l.foldl apply s = l₂.foldl apply (l₁.foldl apply s) := by
  induction h generalizing s with
  | nil => rfl
  | left _ ih => exact ih (fun a ha => hcomm a (List.mem_cons_of_mem _ ha)) _
  | @right b l₁ l₂ l _ ih =>
    rw [List.foldl_cons, List.foldl_cons, ih fun a ha c hc => hcomm a ha c (List.mem_cons_of_mem _ hc)]
    -- `b` arrives before the updates of the first party; move it behind them
    rw [foldl_comm fun a ha s => hcomm a ha b List.mem_cons_self s]

end Byoh.Foundation
