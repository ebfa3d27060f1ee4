import Mathlib.Data.List.Basic

/-!
# Fail-stop courses

Steps that are made one after the other until one of them fails. A step has a result, of which
`succeeded` tells whether it went well, and may be an `effect` that a plan asks for; other steps
only look. `Course plan ended steps` says that the steps follow the plan: what was attempted is a
beginning of the plan, nothing comes after a failed step, and the plan was carried out exactly when
the course has `ended` well.

A course that has ended well can be continued (`Course.append`); one that has not stays as it is,
whatever the plan would have asked for next (`Course.stop`).
-/

set_option autoImplicit false

namespace Byoh.Foundation

variable {S E : Type} (succeeded : S → Bool) (effect : S → Option E) {s : S}

/-- The effects that were attempted. -/
def attempted (steps : List S) : List E := steps.filterMap effect

/-- The effects that were attempted with success. -/
def performed (steps : List S) : List E := attempted effect (steps.filter succeeded)

/-- The steps follow a plan. -/
structure Course (plan : List E) (ended : Bool) (steps : List S) : Prop where
  isPrefix : attempted effect steps <+: plan
  failStop : ∀ before step after, steps = before ++ step :: after → succeeded step = false →
    after = []
  carriedOut : ended = true →
    (∀ step ∈ steps, succeeded step = true) ∧ attempted effect steps = plan
  leftOver : ended = false → (performed succeeded effect steps).length < plan.length

variable {succeeded effect} {plan rest : List E} {ended : Bool} {steps later : List S}

theorem performed_of_succeeded (h : ∀ step ∈ steps, succeeded step = true) :
    performed succeeded effect steps = attempted effect steps := by
  rw [performed, List.filter_eq_self.2 h]

theorem attempted_concat (init : List S) (last : S) :
    attempted effect (init ++ [last]) = attempted effect init ++ (effect last).toList := by
  rw [attempted, List.filterMap_append, attempted]
  cases heffect : effect last <;> simp [heffect]

namespace Course

/-- The plan was carried out exactly when the course ended well. -/
theorem ended_iff (h : Course succeeded effect plan ended steps) :
    ended = true ↔ performed succeeded effect steps = plan := by
  constructor
  · intro hended
    obtain ⟨hsucceeded, hattempted⟩ := h.carriedOut hended
    rw [performed_of_succeeded hsucceeded, hattempted]
  · intro hperformed
    cases ended with
    | true => rfl
    | false =>
      have hlt := h.leftOver rfl
      rw [hperformed] at hlt
      exact absurd hlt (Nat.lt_irrefl _)

/-- Only the last step can have failed. -/
theorem init_succeeded {init : List S} {last : S}
    (h : Course succeeded effect plan ended (init ++ [last])) :
    ∀ step ∈ init, succeeded step = true := by
  intro step hstep
  obtain ⟨before, after, rfl⟩ := List.append_of_mem hstep
  by_contra hfailed
  have hafter := h.failStop before step (after ++ [last]) (by simp) (Bool.eq_false_iff.2 hfailed)
  exact List.append_ne_nil_of_right_ne_nil _ (List.cons_ne_nil _ _) hafter

theorem performed_concat {init : List S} {last : S}
    (h : Course succeeded effect plan ended (init ++ [last])) :
    performed succeeded effect (init ++ [last]) =
      attempted effect init ++ if succeeded last then (effect last).toList else [] := by
  rw [performed, List.filter_append, List.filter_eq_self.2 h.init_succeeded]
  cases hlast : succeeded last with
  | true => rw [List.filter_cons_of_pos hlast, List.filter_nil, attempted_concat, if_pos rfl]
  | false =>
    rw [List.filter_cons_of_neg (by rw [hlast]; exact Bool.false_ne_true), List.filter_nil]
    simp

theorem performed_prefix (h : Course succeeded effect plan ended steps) :
    performed succeeded effect steps <+: plan := by
  refine List.IsPrefix.trans ?_ h.isPrefix
  rcases List.eq_nil_or_concat steps with rfl | ⟨init, last, rfl⟩
  · exact List.prefix_refl _
  · rw [List.concat_eq_append] at h ⊢
    rw [h.performed_concat, attempted_concat, List.prefix_append_right_inj]
    cases succeeded last with
    | true => exact List.prefix_refl _
    | false => exact List.nil_prefix

/-- What was attempted before another effect was carried out. -/
theorem performed_before (h : Course succeeded effect plan ended steps) {first : List E} {e : E}
    (hfirst : first ++ [e] <+: attempted effect steps) :
    first <+: performed succeeded effect steps := by
  rcases List.eq_nil_or_concat steps with rfl | ⟨init, last, rfl⟩
  · exact absurd (List.prefix_nil.1 hfirst)
      (List.append_ne_nil_of_right_ne_nil _ (List.cons_ne_nil _ _))
  · rw [List.concat_eq_append] at h hfirst ⊢
    rw [h.performed_concat]
    -- the last step is at most one effect, so `first` was attempted by the steps before it
    have hle : first.length ≤ (attempted effect init).length := by
      have hlength := hfirst.length_le
      have hlast : (effect last).toList.length ≤ 1 := by cases effect last <;> simp
      rw [attempted_concat, List.length_append, List.length_append] at hlength
      simp only [List.length_singleton] at hlength
      omega
    rw [attempted_concat] at hfirst
    have hinit : first <+: attempted effect init :=
      List.prefix_of_prefix_length_le ((List.prefix_append _ _).trans hfirst)
        (List.prefix_append _ _) hle
    exact hinit.trans (List.prefix_append _ _)

/-- Nothing to do. -/
theorem nil : Course succeeded effect [] true [] where
  isPrefix := List.prefix_refl _
  failStop before step after h _ := by simp at h
  carriedOut _ := ⟨fun step hstep => (nomatch hstep), rfl⟩
  leftOver h := nomatch h

/-- Nothing is attempted and something is left. -/
theorem halt (h : plan ≠ []) : Course succeeded effect plan false [] where
  isPrefix := List.nil_prefix
  failStop before step after h _ := by simp at h
  carriedOut h := nomatch h
  leftOver _ := List.length_pos_of_ne_nil h

theorem eq_nil_of_singleton {step : S} {before after : List S} (h : [s] = before ++ step :: after) :
    after = [] := by
  rw [List.singleton_eq_append_iff] at h
  rcases h with ⟨-, hafter⟩ | ⟨-, hafter⟩
  · exact (List.cons.inj hafter).2
  · cases hafter

/-- One step that goes well. -/
theorem step (hs : succeeded s = true) : Course succeeded effect (effect s).toList true [s] where
  isPrefix := by
    rw [attempted, List.filterMap_cons]
    cases effect s <;> exact List.prefix_refl _
  failStop before step after h _ := eq_nil_of_singleton h
  carriedOut _ := by
    constructor
    · intro step hstep
      rw [List.mem_singleton.1 hstep]
      exact hs
    · rw [attempted, List.filterMap_cons]
      cases effect s <;> rfl
  leftOver h := nomatch h

/-- One step that fails. -/
theorem fail (hs : succeeded s = false) (hplan : (effect s).toList <+: plan) (hne : plan ≠ []) :
    Course succeeded effect plan false [s] where
  isPrefix := by
    rw [attempted, List.filterMap_cons]
    cases heffect : effect s with
    | none => exact List.nil_prefix
    | some e =>
      rw [heffect] at hplan
      exact hplan
  failStop before step after h _ := eq_nil_of_singleton h
  carriedOut h := nomatch h
  leftOver _ := by
    rw [performed, List.filter_cons_of_neg (by rw [hs]; exact Bool.false_ne_true)]
    exact List.length_pos_of_ne_nil hne

/-- A course that has not ended well is one for every longer plan. -/
theorem stop (h : Course succeeded effect plan false steps) (rest : List E) :
    Course succeeded effect (plan ++ rest) false steps where
  isPrefix := h.isPrefix.trans (List.prefix_append _ _)
  failStop := h.failStop
  carriedOut hended := nomatch hended
  leftOver _ := by
    rw [List.length_append]
    exact Nat.lt_of_lt_of_le (h.leftOver rfl) (Nat.le_add_right _ _)

/-- A course that has ended well, continued. -/
theorem append (h : Course succeeded effect plan true steps)
    (hlater : Course succeeded effect rest ended later) :
    Course succeeded effect (plan ++ rest) ended (steps ++ later) := by
  obtain ⟨hsucceeded, hattempted⟩ := h.carriedOut rfl
  have hboth : attempted effect (steps ++ later) = plan ++ attempted effect later := by
    rw [attempted, List.filterMap_append, ← hattempted]
    rfl
  refine ⟨?_, ?_, ?_, ?_⟩
  · rw [hboth, List.prefix_append_right_inj]
    exact hlater.isPrefix
  · intro before step after heq hfailed
    -- the failed step is not one of the first part
    rcases List.append_eq_append_iff.1 heq with ⟨middle, -, hmiddle⟩ | ⟨middle, hmiddle, hcons⟩
    · exact hlater.failStop middle step after hmiddle hfailed
    · cases middle with
      | nil => exact hlater.failStop [] step after (by simpa using hcons.symm) hfailed
      | cons s middle =>
        rw [List.cons_append, List.cons.injEq] at hcons
        have hstep := hsucceeded step (by rw [hmiddle, hcons.1]; simp)
        rw [hfailed] at hstep
        cases hstep
  · intro hended
    obtain ⟨hlaterSucceeded, hlaterAttempted⟩ := hlater.carriedOut hended
    constructor
    · intro step hstep
      rcases List.mem_append.1 hstep with hin | hin
      · exact hsucceeded step hin
      · exact hlaterSucceeded step hin
    · rw [hboth, hlaterAttempted]
  · intro hended
    have hperformed : performed succeeded effect (steps ++ later) =
        plan ++ performed succeeded effect later := by
      rw [performed, List.filter_append, List.filter_eq_self.2 hsucceeded, attempted,
        List.filterMap_append, ← hattempted]
      rfl
    rw [hperformed, List.length_append, List.length_append]
    exact Nat.add_lt_add_left (hlater.leftOver hended) _

end Course

end Byoh.Foundation
