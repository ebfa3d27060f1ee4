import Byoh.Foundation.GoFunction

/-!
# Programs over an interface

A program that makes the calls of an interface runs on a machine once every call is carried out by a
program of the machine (`Prog.handle`). It is verified against a contract of the interface
(`Prog.Meets`): `spec c s r s'` says that the call `c`, made in the store `s`, may be answered by `r`
and leave the store `s'`. An implementation that keeps the contract keeps what was verified
(`Meets.handle`). `Prog.Runs` are the single runs under a contract.

`Only p` are the programs that make calls of one kind only; in a phase structure that does not
distinguish these calls they stay where they are (`Only.follows`). `Prog.tag` marks the calls of a
program with the party that makes them.
-/

set_option autoImplicit false

namespace Byoh.Foundation

namespace Prog

variable {C C' : Type} {R : C → Type} {R' : C' → Type} {α β S : Type} {p x : Prog C R α} {s : S}
  {Q : α → S → Prop}

/-- The program in which the calls of an interface are carried out by programs on other calls. -/
def handle (h : (c : C) → Prog C' R' (R c)) : Prog C R α → Prog C' R' α
  | .ret a => .ret a
  | .call c k => (h c).bind fun r => handle h (k r)

theorem bind_assoc {γ : Type} (p : Prog C R α) (f : α → Prog C R β) (g : β → Prog C R γ) :
    (p.bind f).bind g = p.bind fun a => (f a).bind g := by
  induction p with
  | ret a => rfl
  | call c k ih =>
    simp only [call_bind]
    congr 1
    funext r
    exact ih r

theorem handle_bind (h : (c : C) → Prog C' R' (R c)) (p : Prog C R α) (f : α → Prog C R β) :
    handle h (p.bind f) = (handle h p).bind fun a => handle h (f a) := by
  induction p with
  | ret a => rfl
  | call c k ih =>
    simp only [call_bind, handle, bind_assoc]
    congr 1
    funext r
    exact ih r

/-- `Q` holds of the result and the store, whatever the contract allows the calls to do. -/
inductive Meets (spec : (c : C) → S → R c → S → Prop) (Q : α → S → Prop) :
    Prog C R α → S → Prop where
  | ret {a : α} {s : S} (h : Q a s) : Meets spec Q (.ret a) s
  | call {c : C} {k : R c → Prog C R α} {s : S}
      (h : ∀ r s', spec c s r s' → Meets spec Q (k r) s') : Meets spec Q (.call c k) s

variable {spec : (c : C) → S → R c → S → Prop}

theorem Meets.mono {Q' : α → S → Prop} (h : Meets spec Q p s) (hQ : ∀ a t, Q a t → Q' a t) :
    Meets spec Q' p s := by
  induction h with
  | ret h => exact .ret (hQ _ _ h)
  | call _ ih => exact .call ih

theorem Meets.bind {f : α → Prog C R β} {Q : β → S → Prop}
    (h : Meets spec (fun a t => Meets spec Q (f a) t) p s) : Meets spec Q (p.bind f) s := by
  induction h with
  | ret h => exact h
  | call _ ih => exact .call ih

/-- What holds under a contract holds of every implementation that keeps it. -/
theorem Meets.handle {O : Type} [Inhabited O] {exec : O → (c : C') → S → R' c × S} {ok : O → Prop}
    {h : (c : C) → Prog C' R' (R c)}
    (hspec : ∀ c s, Ensures exec ok (h c) s fun r s' => spec c s r s') (hp : Meets spec Q p s) :
    Ensures exec ok (handle h p) s Q := by
  induction hp with
  | ret h => exact .ret h
  | call _ ih => exact .bind ((hspec _ _).mono fun r s' hr => ih r s' hr)

/-! ### Runs under a contract -/

/-- The program has a run from `s` that returns `a` and leaves `s'`. -/
inductive Runs (spec : (c : C) → S → R c → S → Prop) : Prog C R α → S → α → S → Prop where
  | ret (a : α) (s : S) : Runs spec (.ret a) s a s
  | call {c : C} {k : R c → Prog C R α} {s s' s'' : S} {r : R c} {a : α} (hc : spec c s r s')
      (h : Runs spec (k r) s' a s'') : Runs spec (.call c k) s a s''

/-- A run under a contract is a run under a weaker one. -/
theorem Runs.mono {spec' : (c : C) → S → R c → S → Prop} {s' : S} {a : α} (h : Runs spec p s a s')
    (hspec : ∀ c t r t', spec c t r t' → spec' c t r t') : Runs spec' p s a s' := by
  induction h with
  | ret a s => exact .ret a s
  | call hc _ ih => exact .call (hspec _ _ _ _ hc) ih

/-- What a program meets holds at the end of its runs. -/
theorem Meets.runs {s' : S} {a : α} (hp : Meets spec Q p s) (h : Runs spec p s a s') : Q a s' := by
  induction h with
  | ret a s =>
    cases hp with
    | ret h => exact h
  | call hc _ ih =>
    cases hp with
    | call h => exact ih (h _ _ hc)

/-- What holds of both. -/
theorem Meets.and {Q' : α → S → Prop} (h : Meets spec Q p s) (h' : Meets spec Q' p s) :
    Meets spec (fun a t => Q a t ∧ Q' a t) p s := by
  induction h with
  | ret h =>
    cases h' with
    | ret h' => exact .ret ⟨h, h'⟩
  | call _ ih =>
    cases h' with
    | call h' => exact .call fun r s' hr => ih r s' hr (h' r s' hr)

/-- What holds of all executions with outcomes of one kind holds under a contract that such outcomes
keep. -/
theorem Ensures.meets {O : Type} [Inhabited O] {exec : O → (c : C) → S → R c × S} {ok : O → Prop}
    (hspec : ∀ c s r s', spec c s r s' → ∃ o, ok o ∧ exec o c s = (r, s'))
    (h : Ensures exec ok p s Q) : Meets spec Q p s := by
  induction p generalizing s with
  | ret a => exact .ret (h [] nofun)
  | call c k ih =>
    refine .call fun r s' hr => ?_
    obtain ⟨o, ho, hexec⟩ := hspec c s r s' hr
    refine ih r fun os hos => ?_
    have hrun := h (o :: os) (List.forall_mem_cons.2 ⟨ho, hos⟩)
    rw [run_call, List.headD_cons, List.tail_cons, hexec] at hrun
    exact hrun

section Checked

variable {O : Type} [Inhabited O] {exec : O → (c : C) → S → R c × S} {check : O → C → S → Bool}

variable (exec check) in
/-- Execute a program, as long as its outcomes pass a check. -/
def runChecked : List O → Prog C R α → S → Option (α × S)
  | _, .ret a, s => some (a, s)
  | os, .call c k, s =>
      if check (os.headD default) c s then
        runChecked os.tail (k (exec (os.headD default) c s).1) (exec (os.headD default) c s).2
      else none

/-- An execution whose outcomes pass the check is a run. -/
theorem runs_of_runChecked
    (hspec : ∀ o c s, check o c s = true → spec c s (exec o c s).1 (exec o c s).2)
    {p : Prog C R α} {os : List O} {s s' : S} {a : α}
    (h : runChecked exec check os p s = some (a, s')) : Runs spec p s a s' := by
  induction p generalizing os s with
  | ret b =>
    cases h
    exact .ret _ _
  | call c k ih =>
    rw [runChecked] at h
    split at h
    · next hcheck => exact .call (hspec _ c s hcheck) (ih _ h)
    · cases h

end Checked

/-! ### Calls of one kind -/

/-- The program makes only calls with `p`. -/
inductive Only (p : C → Prop) : Prog C R α → Prop where
  | ret (a : α) : Only p (.ret a)
  | call {c : C} {k : R c → Prog C R α} (hc : p c) (h : ∀ r, Only p (k r)) : Only p (.call c k)

theorem Only.bind {p : C → Prop} {f : α → Prog C R β} (hx : Only p x) (hf : ∀ a, Only p (f a)) :
    Only p (x.bind f) := by
  induction hx with
  | ret a => exact hf a
  | call hc _ ih => exact .call hc ih

/-- Calls that a phase does not distinguish. -/
theorem Only.follows {Q : Type} {next : Q → (c : C) → R c → Q → Prop} {silent : Q → Q → Prop}
    {p : C → Prop} {q : Q} (hnext : ∀ c r, p c → next q c r q) (hx : Only p x) :
    Follows next silent (fun _ q' => q' = q) x q := by
  induction hx with
  | ret a => exact .ret rfl
  | call hc _ ih => exact .call (fun _ => q) (fun r => hnext _ r hc) ih

/-! ### Parties -/

/-- The program as a program of the party `t`. -/
def tag {T : Type} (t : T) : Prog C R α → Prog (T × C) (fun c => R c.2) α
  | .ret a => .ret a
  | .call c k => .call (t, c) fun r => tag t (k r)

/-- A party follows the phases that its program follows. -/
theorem Follows.tag {T Q : Type} {next : Q → (c : C) → R c → Q → Prop} {silent : Q → Q → Prop}
    {next' : Q → (c : T × C) → R c.2 → Q → Prop} (t : T)
    (hnext : ∀ q c r q', next q c r q' → next' q (t, c) r q') {post : α → Q → Prop} {q : Q}
    (hx : Follows next silent post x q) : Follows next' silent post (x.tag t) q := by
  induction hx with
  | ret h => exact .ret h
  | call dest hn _ ih => exact .call dest (fun r => hnext _ _ r _ (hn r)) ih
  | silent h _ ih => exact .silent h ih

end Prog

namespace GoM

variable {C : Type} {R : C → Type} {E σ α β S : Type} {spec : (c : C) → S → R c → S → Prop}
  {f : α → GoM C R E σ β} {x : GoM C R E σ α}

/-- A composition as a program: the second function is entered after a return only. -/
theorem bind_apply (x : GoM C R E σ α) (f : α → GoM C R E σ β) (m : σ) :
    ∃ rest, (x >>= f) m = (x m).bind rest ∧ (∀ e m', rest (.err e, m') = .ret (.err e, m')) ∧
      ∀ msg m', rest (.panic msg, m') = .ret (.panic msg, m') :=
  ⟨_, rfl, fun _ _ => rfl, fun _ _ => rfl⟩

/-- The same for a function on objects in memory. -/
def Meets (spec : (c : C) → S → R c → S → Prop) (x : GoM C R E σ α) (m : σ) (s : S)
    (Q : Exit E α → σ → S → Prop) : Prop :=
  Prog.Meets spec (fun r s' => Q r.1 r.2 s') (x m) s

variable {m : σ} {s : S} {Q : Exit E β → σ → S → Prop}

theorem Meets.pure {b : β} (h : Q (.ok b) m s) : Meets spec (Pure.pure b) m s Q := .ret h

theorem Meets.throw {e : E} (h : Q (.err e) m s) : Meets spec (GoM.throw e) m s Q := .ret h

theorem Meets.panic {msg : String} (h : Q (.panic msg) m s) : Meets spec (GoM.panic msg) m s Q :=
  .ret h

/-- One call, then a function of the response. -/
theorem Meets.call_bind {c : C} {f : R c → GoM C R E σ β}
    (h : ∀ r s', spec c s r s' → Meets spec (f r) m s' Q) :
    Meets spec (GoM.lift (Prog.perform c) >>= f) m s Q := .call h

theorem Meets.lift_bind {p : Prog C R α}
    (h : Prog.Meets spec (fun a s' => Meets spec (f a) m s' Q) p s) :
    Meets spec (GoM.lift p >>= f) m s Q :=
  Prog.Meets.bind (Prog.Meets.bind (h.mono fun _ _ ha => .ret ha))

theorem Meets.bind (h : Meets spec x m s fun e m' s' => match e with
      | .ok a => Meets spec (f a) m' s' Q
      | .err e => Q (.err e) m' s'
      | .panic msg => Q (.panic msg) m' s') : Meets spec (x >>= f) m s Q := by
  refine Prog.Meets.bind (Prog.Meets.mono h ?_)
  rintro ⟨e, m'⟩ s' he
  cases e with
  | ok a => exact he
  | err e => exact .ret he
  | panic msg => exact .ret he

theorem Meets.mono {x : GoM C R E σ β} {Q' : Exit E β → σ → S → Prop} (h : Meets spec x m s Q)
    (hQ : ∀ e m' s', Q e m' s' → Q' e m' s') : Meets spec x m s Q' :=
  Prog.Meets.mono h fun _ _ => hQ _ _ _

/-- The function, then what it defers. -/
theorem Meets.deferred {x : GoM C R E σ β} {d : σ → Prog C R (Option E)}
    (h : Meets spec x m s fun e m' s' =>
      Prog.Meets spec (fun e' s'' => Q (e.withDeferred e') m' s'') (d m') s') :
    Meets spec (GoM.deferred x d) m s Q := by
  refine Prog.Meets.bind (Prog.Meets.mono h ?_)
  rintro ⟨e, m'⟩ s' he
  refine .bind (Prog.Meets.mono he ?_)
  rintro e' s'' hQ
  cases e with
  | ok a => cases e' <;> exact .ret hQ
  | err e => exact .ret hQ
  | panic msg => exact .ret hQ

theorem Meets.get_bind {f : σ → GoM C R E σ β} (h : Meets spec (f m) m s Q) :
    Meets spec (GoM.get >>= f) m s Q := h

theorem Meets.modify_bind {g : σ → σ} {f : Unit → GoM C R E σ β} (h : Meets spec (f ()) (g m) s Q) :
    Meets spec (GoM.modify g >>= f) m s Q := h

/-- A function that returns without an error, then the next one. -/
theorem Meets.ok_bind {P : α → σ → S → Prop}
    (hx : Meets spec x m s fun e m' s' => ∃ a, e = .ok a ∧ P a m' s')
    (hf : ∀ a m' s', P a m' s' → Meets spec (f a) m' s' Q) : Meets spec (x >>= f) m s Q := by
  refine .bind (hx.mono ?_)
  rintro _ m' s' ⟨a, rfl, hP⟩
  exact hf a m' s' hP

/-- The same, when the error is looked at. -/
theorem Meets.ok_attempt {f : Except E α → GoM C R E σ β} {P : α → σ → S → Prop}
    (hx : Meets spec x m s fun e m' s' => ∃ a, e = .ok a ∧ P a m' s')
    (hf : ∀ a m' s', P a m' s' → Meets spec (f (.ok a)) m' s' Q) :
    Meets spec (GoM.attempt x >>= f) m s Q := by
  refine Prog.Meets.bind (Prog.Meets.bind (Prog.Meets.mono hx ?_))
  rintro ⟨e, m'⟩ s' ⟨a, he, hP⟩
  cases he
  exact .ret (hf a m' s' hP)

/-! ### Calls of one kind -/

/-- The function makes only calls with `p`. -/
def Only (p : C → Prop) (x : GoM C R E σ α) : Prop := ∀ m, Prog.Only p (x m)

variable {p : C → Prop}

theorem Only.pure (a : α) : Only p (Pure.pure a : GoM C R E σ α) := fun _ => .ret _

theorem Only.throw (e : E) : Only p (GoM.throw e : GoM C R E σ α) := fun _ => .ret _

theorem Only.panic (msg : String) : Only p (GoM.panic msg : GoM C R E σ α) := fun _ => .ret _

theorem Only.bind (hx : Only p x) (hf : ∀ a, Only p (f a)) : Only p (x >>= f) := by
  refine fun m => (hx m).bind ?_
  rintro ⟨e, m'⟩
  cases e with
  | ok a => exact hf a m'
  | err e => exact .ret _
  | panic msg => exact .ret _

/-- One call, then a function of the response. -/
theorem Only.call {c : C} {f : R c → GoM C R E σ β} (hc : p c) (hf : ∀ r, Only p (f r)) :
    Only p (GoM.lift (Prog.perform c) >>= f) :=
  fun m => .call hc fun r => hf r m

theorem Only.attempt (hx : Only p x) : Only p (GoM.attempt x) := by
  refine fun m => (hx m).bind ?_
  rintro ⟨e, m'⟩
  cases e <;> exact .ret _

theorem Only.when {c : Bool} {x : GoM C R E σ Unit} (hx : Only p x) : Only p (GoM.when c x) := by
  cases c with
  | true => exact hx
  | false => exact .pure ()

theorem Only.follows {Q : Type} {next : Q → (c : C) → R c → Q → Prop} {silent : Q → Q → Prop}
    {q : Q} (hnext : ∀ c r, p c → next q c r q) (hx : Only p x) (m : σ) :
    Follows next silent (fun _ _ q' => q' = q) x m q :=
  (hx m).follows hnext

end GoM

end Byoh.Foundation
