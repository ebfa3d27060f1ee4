import Byoh.Foundation.Interface

/-!
# Shell scripts under `set -e`

A script is a tree over simple commands `C`. A simple command succeeds, fails, or is cut off because
the shell is killed. Under `set -e` a failed command stops the shell, unless it is tested: as the
condition of an `if`, under `!`, or anywhere in a `&&` or `||` list but in its last command. A list
that fails because of a tested command does not stop the shell either, so a script can go on after
`a && b` with `a` failed and `b` never run.

* `Script.prog` is the program of a script, with the commands as calls.
* `Script.Triple` are triples with three exits: the script ran to its end with an exit status, or the
  shell stopped. There is one rule for each construct, and a frame rule (`Triple.keeps`) for scripts
  whose commands all keep an assertion.
* `Script.sure` are the commands that have succeeded when a script has run to its end
  (`Triple.sure`).

What the commands do is a contract `spec c s r s'`, as in `Prog.Meets`.
-/

set_option autoImplicit false

namespace Byoh.Foundation

namespace Shell

/-- How a simple command ends. -/
inductive Status where
  | success
  | failure
  | killed
  deriving DecidableEq, Repr

/-- A script over the simple commands `C`. -/
inductive Script (C : Type) where
  | command (c : C)
  | nothing
  | seq (first second : Script C)
  | and (first second : Script C)
  | or (first second : Script C)
  | not (tested : Script C)
  | ifThen (condition yes no : Script C)
  | forEach (name : String) (words : List String) (body : String → Script C)

/-- How a script ends: it ran to its end with an exit status, or the shell stopped. -/
inductive Ending where
  | ran (ok : Bool)
  | stopped
  deriving DecidableEq, Repr

namespace Script

variable {C : Type}

/-- Statements one after the other. -/
def block : List (Script C) → Script C
  | [] => .nothing
  | [s] => s
  | s :: rest => .seq s (block rest)

/-! ## Execution -/

/-- Go on with the exit status, unless the shell has stopped. -/
def continued (p : Prog C (fun _ => Status) Ending) (k : Bool → Prog C (fun _ => Status) Ending) :
    Prog C (fun _ => Status) Ending :=
  p.bind fun
    | .ran ok => k ok
    | .stopped => .ret .stopped

/-- The words of a loop one after the other; the status is that of the last one. -/
def loop (body : String → Prog C (fun _ => Status) Ending) :
    List String → Bool → Prog C (fun _ => Status) Ending
  | [], ok => .ret (.ran ok)
  | w :: ws, _ => continued (body w) (loop body ws)

/-- What the shell makes of the status of a simple command. -/
def ended (tested : Bool) : Status → Ending
  | .success => .ran true
  | .failure => if tested then .ran false else .stopped
  | .killed => .stopped

/-- The program of a script; `tested` says that failing commands do not stop the shell. -/
def prog (tested : Bool) : Script C → Prog C (fun _ => Status) Ending
  | .command c => .call c fun status => .ret (ended tested status)
  | .nothing => .ret (.ran true)
  | .seq a b => continued (prog tested a) fun _ => prog tested b
  | .and a b => continued (prog true a) fun ok => if ok then prog tested b else .ret (.ran false)
  | .or a b => continued (prog true a) fun ok => if ok then .ret (.ran true) else prog tested b
  | .not a => continued (prog true a) fun ok => .ret (.ran !ok)
  | .ifThen c yes no => continued (prog true c) fun ok => if ok then prog tested yes else prog tested no
  | .forEach _ words body => loop (fun w => prog tested (body w)) words true

/-- The simple commands of a script. -/
def commands : Script C → List C
  | .command c => [c]
  | .nothing => []
  | .seq a b | .and a b | .or a b => commands a ++ commands b
  | .not a => commands a
  | .ifThen c yes no => commands c ++ (commands yes ++ commands no)
  | .forEach _ words body => words.flatMap fun w => commands (body w)

/-- The commands that have succeeded when the script has run to its end, and whether its status is
then success as well; tested commands are counted unless they may fail. -/
def sure (mayFail : C → Bool) (tested : Bool) : Script C → List C × Bool
  | .command c => if tested && mayFail c then ([], false) else ([c], true)
  | .nothing => ([], true)
  | .seq a b => ((sure mayFail tested a).1 ++ (sure mayFail tested b).1, (sure mayFail tested b).2)
  | .and a b =>
      if (sure mayFail true a).2 then
        ((sure mayFail true a).1 ++ (sure mayFail tested b).1, (sure mayFail tested b).2)
      else ((sure mayFail true a).1, false)
  | .or a _ => sure mayFail true a
  | .not a => ((sure mayFail true a).1, false)
  | .ifThen c _ _ => ((sure mayFail true c).1, false)
  | .forEach _ words body => (words.flatMap fun w => (sure mayFail tested (body w)).1, false)

/-! ## Triples -/

section Triples

variable {S : Type} {spec : C → S → Status → S → Prop} {tested : Bool} {P P' : S → Prop}
  {Q Q' M : Bool → S → Prop} {X X' : S → Prop} {s a b : Script C} {R : S → Prop}
  {rest : List (Script C)}

/-- The assertion at the end of a script. -/
def atEnd (Q : Bool → S → Prop) (X : S → Prop) : Ending → S → Prop
  | .ran ok => Q ok
  | .stopped => X

/-- From a state with `P`, the script ends with `Q` of its status, or the shell stops with `X`. -/
def Triple (spec : C → S → Status → S → Prop) (tested : Bool) (P : S → Prop) (s : Script C)
    (Q : Bool → S → Prop) (X : S → Prop) : Prop :=
  ∀ t, P t → Prog.Meets spec (atEnd Q X) (prog tested s) t

theorem meets_continued {p : Prog C (fun _ => Status) Ending}
    {k : Bool → Prog C (fun _ => Status) Ending} {t : S}
    (h : Prog.Meets spec (atEnd (fun ok t' => Prog.Meets spec (atEnd Q X) (k ok) t') X) p t) :
    Prog.Meets spec (atEnd Q X) (continued p k) t := by
  refine .bind (h.mono fun e t' he => ?_)
  cases e with
  | ran ok => exact he
  | stopped => exact .ret he

theorem Triple.conseq (h : Triple spec tested P s Q X) (hP : ∀ t, P' t → P t)
    (hQ : ∀ ok t, Q ok t → Q' ok t) (hX : ∀ t, X t → X' t) : Triple spec tested P' s Q' X' := by
  refine fun t ht => (h t (hP t ht)).mono fun e t' he => ?_
  cases e with
  | ran ok => exact hQ ok t' he
  | stopped => exact hX t' he

/-- Less is asserted when the shell stops. -/
theorem Triple.stopping (h : Triple spec tested P s Q X) (hX : ∀ t, X t → X' t) :
    Triple spec tested P s Q X' :=
  h.conseq (fun _ h => h) (fun _ _ h => h) hX

theorem Triple.command {c : C}
    (h : ∀ t status t', P t → spec c t status t' → atEnd Q X (ended tested status) t') :
    Triple spec tested P (.command c) Q X :=
  fun t ht => .call fun status t' hc => .ret (h t status t' ht hc)

theorem Triple.nothing (h : ∀ t, P t → Q true t) : Triple spec tested P .nothing Q X :=
  fun t ht => .ret (h t ht)

theorem Triple.seq (ha : Triple spec tested P a (fun _ => R) X) (hb : Triple spec tested R b Q X) :
    Triple spec tested P (.seq a b) Q X := by
  refine fun t ht => meets_continued ((ha t ht).mono fun e t' he => ?_)
  cases e with
  | ran ok => exact hb t' he
  | stopped => exact he

theorem Triple.and (ha : Triple spec true P a M X) (hb : Triple spec tested (M true) b Q X)
    (hfailed : ∀ t, M false t → Q false t) : Triple spec tested P (.and a b) Q X := by
  refine fun t ht => meets_continued ((ha t ht).mono fun e t' he => ?_)
  cases e with
  | ran ok =>
    cases ok with
    | true => exact hb t' he
    | false => exact .ret (hfailed t' he)
  | stopped => exact he

/-- The first part succeeds, so the second one runs. -/
theorem Triple.and_ok {R' : S → Prop} (ha : Triple spec true P a (fun ok t => ok = true ∧ R t) X)
    (hb : Triple spec tested R b (fun ok t => ok = true ∧ R' t) X) :
    Triple spec tested P (.and a b) (fun _ => R') X := by
  refine ha.and (hb.conseq (fun _ h => h.2) (fun _ _ h => h.2) fun _ h => h) ?_
  rintro t ⟨hfalse, -⟩
  cases hfalse

theorem Triple.or (ha : Triple spec true P a M X) (hb : Triple spec tested (M false) b Q X)
    (hdone : ∀ t, M true t → Q true t) : Triple spec tested P (.or a b) Q X := by
  refine fun t ht => meets_continued ((ha t ht).mono fun e t' he => ?_)
  cases e with
  | ran ok =>
    cases ok with
    | true => exact .ret (hdone t' he)
    | false => exact hb t' he
  | stopped => exact he

theorem Triple.not (ha : Triple spec true P a (fun ok => Q !ok) X) :
    Triple spec tested P (.not a) Q X := by
  refine fun t ht => meets_continued ((ha t ht).mono fun e t' he => ?_)
  cases e with
  | ran ok => exact .ret he
  | stopped => exact he

theorem Triple.ifThen {c yes no : Script C} (hc : Triple spec true P c M X)
    (hyes : Triple spec tested (M true) yes Q X) (hno : Triple spec tested (M false) no Q X) :
    Triple spec tested P (.ifThen c yes no) Q X := by
  refine fun t ht => meets_continued ((hc t ht).mono fun e t' he => ?_)
  cases e with
  | ran ok =>
    cases ok with
    | true => exact hyes t' he
    | false => exact hno t' he
  | stopped => exact he

/-- A loop, by an assertion for the words that are left. -/
theorem Triple.forEach {name : String} {words : List String} {body : String → Script C}
    (I : List String → S → Prop) (hP : ∀ t, P t → I words t)
    (hbody : ∀ w ws, w :: ws <:+ words → Triple spec tested (I (w :: ws)) (body w) (fun _ => I ws) X)
    (hQ : ∀ ok t, I [] t → Q ok t) : Triple spec tested P (.forEach name words body) Q X := by
  have key : ∀ ws, ws <:+ words → ∀ ok t, I ws t →
      Prog.Meets spec (atEnd Q X) (loop (fun w => prog tested (body w)) ws ok) t := by
    intro ws
    induction ws with
    | nil => exact fun _ ok t ht => .ret (hQ ok t ht)
    | cons w ws ih =>
      intro hws ok t ht
      refine meets_continued ((hbody w ws hws t ht).mono fun e t' he => ?_)
      cases e with
      | ran ok => exact ih ((List.suffix_cons w ws).trans hws) ok t' he
      | stopped => exact he
  exact fun t ht => key words List.suffix_rfl true t (hP t ht)

/-- A loop, by an assertion for the words that are done. -/
theorem Triple.forEach_done {name : String} {words : List String} {body : String → Script C}
    (I : List String → S → Prop) (hP : ∀ t, P t → I [] t)
    (hbody : ∀ ws w rest, ws ++ w :: rest = words →
      Triple spec tested (I ws) (body w) (fun _ => I (ws ++ [w])) X)
    (hQ : ∀ ok t, I words t → Q ok t) : Triple spec tested P (.forEach name words body) Q X := by
  refine .forEach (fun rest t => ∃ ws, ws ++ rest = words ∧ I ws t) (fun t ht => ⟨[], rfl, hP t ht⟩)
    (fun w rest _ => ?_) fun ok t => ?_
  · rintro t ⟨ws, hws, hI⟩
    refine (hbody ws w rest hws t hI).mono fun e t' he => ?_
    cases e with
    | ran ok => exact ⟨ws ++ [w], by simpa using hws, he⟩
    | stopped => exact he
  · rintro ⟨ws, hws, hI⟩
    rw [List.append_nil] at hws
    exact hQ ok t (hws ▸ hI)

theorem Triple.block_cons (hne : rest ≠ []) (hs : Triple spec tested P s (fun _ => R) X)
    (hrest : Triple spec tested R (block rest) Q X) :
    Triple spec tested P (block (s :: rest)) Q X := by
  cases rest with
  | nil => exact absurd rfl hne
  | cons s' rest => exact hs.seq hrest

/-- Statements that keep an assertion. -/
theorem Triple.block_all {I : S → Prop} {l : List (Script C)}
    (h : ∀ s ∈ l, Triple spec tested I s (fun _ => I) X) :
    Triple spec tested I (block l) (fun _ => I) X := by
  induction l with
  | nil => exact .nothing fun _ ht => ht
  | cons s rest ih =>
    by_cases hrest : rest = []
    · subst hrest
      exact h s List.mem_cons_self
    · exact (h s List.mem_cons_self).block_cons hrest (ih fun x hx => h x (List.mem_cons_of_mem _ hx))

/-- Statements that keep an assertion, before others. -/
theorem Triple.block_append (before : List (Script C)) (hne : rest ≠ [])
    (hbefore : ∀ x ∈ before, Triple spec tested P x (fun _ => P) X)
    (hrest : Triple spec tested P (block rest) Q X) :
    Triple spec tested P (block (before ++ rest)) Q X := by
  induction before with
  | nil => exact hrest
  | cons x before ih =>
    exact (hbefore x List.mem_cons_self).block_cons (by simp [hne])
      (ih fun y hy => hbefore y (List.mem_cons_of_mem _ hy))

/-- A statement between others that keep the assertion before it and those that follow. -/
theorem Triple.block_then (before : List (Script C)) (hne : rest ≠ [])
    (hbefore : ∀ x ∈ before, Triple spec tested P x (fun _ => P) X)
    (hs : Triple spec tested P s (fun _ => R) X) (hrest : Triple spec tested R (block rest) Q X) :
    Triple spec tested P (block (before ++ s :: rest)) Q X :=
  .block_append before (List.cons_ne_nil _ _) hbefore (hs.block_cons hne hrest)

/-- A statement among others that keep the assertions before and after it. -/
theorem Triple.block_around (before after : List (Script C))
    (hbefore : ∀ x ∈ before, Triple spec tested P x (fun _ => P) X)
    (hs : Triple spec tested P s (fun _ => R) X)
    (hafter : ∀ x ∈ after, Triple spec tested R x (fun _ => R) X) :
    Triple spec tested P (block (before ++ s :: after)) (fun _ => R) X := by
  by_cases hne : after = []
  · subst hne
    exact .block_append before (List.cons_ne_nil _ _) hbefore hs
  · exact .block_then before hne hbefore hs (.block_all hafter)

/-- A script whose commands all keep an assertion keeps it, however it ends. -/
theorem Triple.keeps {I : S → Prop}
    (h : ∀ c ∈ commands s, ∀ t status t', I t → spec c t status t' → I t') :
    Triple spec tested I s (fun _ => I) I := by
  induction s generalizing tested with
  | command c =>
    refine .command fun t status t' ht hc => ?_
    have hI : I t' := h c (List.mem_singleton_self c) t status t' ht hc
    cases ended tested status <;> exact hI
  | nothing => exact .nothing fun _ ht => ht
  | seq a b iha ihb =>
    exact (iha fun c hc => h c (List.mem_append_left _ hc)).seq
      (ihb fun c hc => h c (List.mem_append_right _ hc))
  | and a b iha ihb =>
    exact (iha fun c hc => h c (List.mem_append_left _ hc)).and
      (ihb fun c hc => h c (List.mem_append_right _ hc)) fun _ ht => ht
  | or a b iha ihb =>
    exact (iha fun c hc => h c (List.mem_append_left _ hc)).or
      (ihb fun c hc => h c (List.mem_append_right _ hc)) fun _ ht => ht
  | not a iha => exact (iha h).not
  | ifThen c yes no ihc ihyes ihno =>
    exact (ihc fun x hx => h x (List.mem_append_left _ hx)).ifThen
      (ihyes fun x hx => h x (List.mem_append_right _ (List.mem_append_left _ hx)))
      (ihno fun x hx => h x (List.mem_append_right _ (List.mem_append_right _ hx)))
  | forEach name words body ih =>
    refine .forEach (fun _ => I) (fun _ ht => ht) (fun w ws hws => ?_) fun _ _ ht => ht
    have hw : w ∈ words := hws.subset List.mem_cons_self
    exact ih w fun c hc => h c (List.mem_flatMap.2 ⟨w, hw, hc⟩)

/-- Commands that succeed establish `φ`, and all commands keep it: then it holds at the end of the
script for those that are sure to have succeeded. -/
theorem Triple.sure {φ : C → S → Prop} (mayFail : C → Bool) (given : List C)
    (hkeep : ∀ d ∈ commands s, ∀ c t status t', φ c t → spec d t status t' → φ c t')
    (hdone : ∀ c t t', spec c t .success t' → φ c t')
    (hfails : ∀ c t t', mayFail c = false → ¬ spec c t .failure t') :
    Triple spec tested (fun t => ∀ c ∈ given, φ c t) s
      (fun ok t => (∀ c ∈ given ++ (sure mayFail tested s).1, φ c t) ∧
        ((sure mayFail tested s).2 = true → ok = true)) fun _ => True := by
  -- what is given stays when a part of the script runs that is not counted
  have hstay {tested : Bool} {given : List C} {s : Script C}
      (hkeep : ∀ d ∈ commands s, ∀ c t status t', φ c t → spec d t status t' → φ c t') :
      Triple spec tested (fun t => ∀ c ∈ given, φ c t) s (fun _ t => ∀ c ∈ given, φ c t)
        fun _ => True :=
    (Triple.keeps fun d hd t status t' ht hspec c hc => hkeep d hd c t status t' (ht c hc) hspec).stopping
      fun _ _ => trivial
  induction s generalizing tested given with
  | command c =>
    refine .command fun t status t' ht hspec => ?_
    have hgiven : ∀ d ∈ given, φ d t' := fun d hd =>
      hkeep c (List.mem_singleton_self c) d t status t' (ht d hd) hspec
    cases status with
    | success =>
      refine ⟨fun d hd => ?_, fun _ => rfl⟩
      rw [Script.sure] at hd
      split at hd
      · exact hgiven d (by simpa using hd)
      · rcases List.mem_append.1 hd with hd | hd
        · exact hgiven d hd
        · exact List.mem_singleton.1 hd ▸ hdone c t t' hspec
    | failure =>
      cases tested with
      | false => trivial
      | true =>
        cases hc : mayFail c with
        | false => exact absurd hspec (hfails c t t' hc)
        | true =>
          simp only [Script.sure, hc, Bool.and_self, if_true, List.append_nil]
          exact ⟨hgiven, fun h => by cases h⟩
    | killed => trivial
  | nothing => exact .nothing fun t ht => ⟨by simpa [Script.sure] using ht, fun _ => rfl⟩
  | seq a b iha ihb =>
    have ha := @iha tested given fun d hd => hkeep d (List.mem_append_left _ hd)
    have hb := @ihb tested (given ++ (Script.sure mayFail tested a).1)
      fun d hd => hkeep d (List.mem_append_right _ hd)
    refine (ha.conseq (fun _ h => h) (fun _ _ h => h.1) fun _ h => h).seq
      (hb.conseq (fun _ h => h) (fun ok t h => ?_) fun _ h => h)
    rw [List.append_assoc] at h
    exact h
  | and a b iha ihb =>
    have ha := @iha true given fun d hd => hkeep d (List.mem_append_left _ hd)
    rw [Script.sure]
    split
    · next hsure =>
      have hb := @ihb tested (given ++ (Script.sure mayFail true a).1)
        fun d hd => hkeep d (List.mem_append_right _ hd)
      refine ha.and (hb.conseq (fun _ h => h.1) (fun ok t h => ?_) fun _ h => h) fun t h => ?_
      · rw [List.append_assoc] at h
        exact h
      · cases h.2 hsure
    · exact ha.and ((hstay fun d hd => hkeep d (List.mem_append_right _ hd)).conseq (fun _ h => h.1)
        (fun _ _ h => ⟨h, fun h => by cases h⟩) fun _ h => h) fun _ h => ⟨h.1, fun h => by cases h⟩
  | or a b iha _ =>
    have ha := @iha true given fun d hd => hkeep d (List.mem_append_left _ hd)
    refine ha.or (M := fun ok t => (∀ c ∈ given ++ (Script.sure mayFail true a).1, φ c t) ∧
      ((Script.sure mayFail true a).2 = true → ok = true)) ?_ fun _ h => h
    refine fun t ht => (hstay (fun d hd => hkeep d (List.mem_append_right _ hd)) t ht.1).mono ?_
    intro e t' he
    cases e with
    | ran ok => exact ⟨he, fun hsure => by cases ht.2 hsure⟩
    | stopped => trivial
  | not a iha =>
    exact ((@iha true given hkeep).conseq (fun _ h => h)
      (fun _ _ h => ⟨h.1, fun h => by cases h⟩) fun _ h => h).not
  | ifThen c yes no ihc _ _ =>
    have hc := @ihc true given fun d hd => hkeep d (List.mem_append_left _ hd)
    exact hc.ifThen
      ((hstay fun d hd => hkeep d (List.mem_append_right _ (List.mem_append_left _ hd))).conseq
        (fun _ h => h.1) (fun _ _ h => ⟨h, fun h => by cases h⟩) fun _ h => h)
      ((hstay fun d hd => hkeep d (List.mem_append_right _ (List.mem_append_right _ hd))).conseq
        (fun _ h => h.1) (fun _ _ h => ⟨h, fun h => by cases h⟩) fun _ h => h)
  | forEach name words body ih =>
    refine .forEach_done
      (fun ws t => ∀ c ∈ given ++ ws.flatMap fun w => (Script.sure mayFail tested (body w)).1, φ c t)
      (fun t ht => by simpa using ht) (fun ws w rest hws => ?_) fun ok t ht => ⟨ht, fun h => by cases h⟩
    have hw : w ∈ words := hws ▸ List.mem_append_right _ List.mem_cons_self
    refine (@ih w tested (given ++ ws.flatMap fun w => (Script.sure mayFail tested (body w)).1)
      fun d hd => hkeep d (List.mem_flatMap.2 ⟨w, hw, hd⟩)).conseq (fun _ h => h) (fun ok t ht => ?_)
      fun _ h => h
    rw [List.flatMap_append, List.flatMap_singleton, ← List.append_assoc]
    exact ht.1

/-- The end of a run of a script. -/
theorem Triple.run {t t' : S} {e : Ending} (h : Triple spec tested P s Q X) (ht : P t)
    (hrun : Prog.Runs spec (prog tested s) t e t') : atEnd Q X e t' :=
  (h t ht).runs hrun

end Triples

end Script

end Shell

end Byoh.Foundation
