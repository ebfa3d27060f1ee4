import Byoh.Foundation.Program

/-!
# Functions with mutable objects, errors and panics

`GoM C R E σ α` is a program that works on objects `σ` in memory, makes calls, and leaves by
returning a value, by returning an error or by a panic. The objects survive every exit, so a
deferred function (`deferred`) sees them as the body left them, after an error and after a panic
as well. `attempt` turns a returned error into a value; it does not stop a panic.
-/

set_option autoImplicit false

namespace Byoh.Foundation

/-- How a function ends. -/
inductive Exit (E α : Type) where
  | ok (a : α)
  | err (e : E)
  | panic (msg : String)
  deriving DecidableEq, Repr

/-- The exit of a function whose deferred part returned `d`. -/
def Exit.withDeferred {E α : Type} (e : Exit E α) (d : Option E) : Exit E α :=
  match e, d with
  | .ok _, some e => .err e
  | e, _ => e

/-- A function on objects `σ` in memory. -/
def GoM (C : Type) (R : C → Type) (E σ α : Type) : Type := σ → Prog C R (Exit E α × σ)

namespace GoM

variable {C : Type} {R : C → Type} {E σ α β : Type}

/-- Continue with the value of `x`; an error or a panic of `x` ends the function. -/
def bind (x : GoM C R E σ α) (f : α → GoM C R E σ β) : GoM C R E σ β := fun s =>
  (x s).bind fun r =>
    match r with
    | (.ok a, s') => f a s'
    | (.err e, s') => .ret (.err e, s')
    | (.panic m, s') => .ret (.panic m, s')

instance : Monad (GoM C R E σ) where
  pure a := fun s => .ret (.ok a, s)
  bind := bind

/-- The objects in memory. -/
def get : GoM C R E σ σ := fun s => .ret (.ok s, s)

/-- Change the objects in memory. -/
def modify (f : σ → σ) : GoM C R E σ Unit := fun s => .ret (.ok (), f s)

/-- Return an error. -/
def throw (e : E) : GoM C R E σ α := fun s => .ret (.err e, s)

/-- Panic. -/
def panic (m : String) : GoM C R E σ α := fun s => .ret (.panic m, s)

/-- Run a program that does not touch the objects. -/
def lift (p : Prog C R α) : GoM C R E σ α := fun s => p.bind fun a => .ret (.ok a, s)

/-- `if c { x }`. -/
def when (c : Bool) (x : GoM C R E σ Unit) : GoM C R E σ Unit := if c then x else pure ()

/-- The error of `x` as a value. -/
def attempt (x : GoM C R E σ α) : GoM C R E σ (Except E α) := fun s =>
  (x s).bind fun r =>
    match r with
    | (.ok a, s') => .ret (.ok (.ok a), s')
    | (.err e, s') => .ret (.ok (.error e), s')
    | (.panic m, s') => .ret (.panic m, s')

/-- Return the error of a response, or its value. -/
def ofExcept : Except E α → GoM C R E σ α
  | .ok a => pure a
  | .error e => throw e

/-- Dereference a pointer; a nil pointer panics. -/
def deref (what : String) : Option α → GoM C R E σ α
  | some a => pure a
  | none => panic what

/-- Run `d` on the objects after `x` has ended in any way. An error of `d` is returned when `x`
returned none. -/
def deferred (x : GoM C R E σ α) (d : σ → Prog C R (Option E)) : GoM C R E σ α := fun s =>
  (x s).bind fun r =>
    (d r.2).bind fun e =>
      match r.1, e with
      | .ok _, some e => .ret (.err e, r.2)
      | exit, _ => .ret (exit, r.2)

@[simp] theorem pure_bind (a : α) (f : α → GoM C R E σ β) : (pure a >>= f) = f a := rfl

@[simp] theorem throw_bind (e : E) (f : α → GoM C R E σ β) : (throw e >>= f) = throw e := rfl

@[simp] theorem panic_bind (m : String) (f : α → GoM C R E σ β) : (panic m >>= f) = panic m := rfl

/-- One call, then a function of the response. -/
theorem call_bind_apply (c : C) (f : R c → GoM C R E σ β) (s : σ) :
    (lift (Prog.perform c) >>= f) s = .call c fun r => f r s := rfl

@[simp] theorem deref_some (what : String) (a : α) :
    (deref what (some a) : GoM C R E σ α) = pure a := rfl

@[simp] theorem deref_none (what : String) :
    (deref what none : GoM C R E σ α) = panic what := rfl

@[simp] theorem when_true (x : GoM C R E σ Unit) : when true x = x := rfl

@[simp] theorem when_false (x : GoM C R E σ Unit) : when false x = pure () := rfl

@[simp] theorem ofExcept_ok (a : α) : (ofExcept (.ok a) : GoM C R E σ α) = pure a := rfl

@[simp] theorem ofExcept_error (e : E) :
    (ofExcept (.error e) : GoM C R E σ α) = throw e := rfl

/-! ## Phases -/

section Phases

variable {Q : Type} {next : Q → (c : C) → R c → Q → Prop} {silent : Q → Q → Prop}
  {post : Exit E α → σ → Q → Prop} {x : GoM C R E σ α} {s : σ} {q : Q}

/-- The function `x`, called on the objects `s` in phase `q`, follows the phase structure and
ends so that `post` holds of its exit, the objects and the phase. -/
def Follows (next : Q → (c : C) → R c → Q → Prop) (silent : Q → Q → Prop)
    (post : Exit E α → σ → Q → Prop) (x : GoM C R E σ α) (s : σ) (q : Q) : Prop :=
  Prog.Follows next silent (fun r q' => post r.1 r.2 q') (x s) q

theorem Follows.bind {post : Exit E β → σ → Q → Prop} {f : α → GoM C R E σ β}
    (h : Follows next silent (fun e s' q' => match e with
      | .ok a => Follows next silent post (f a) s' q'
      | .err e => post (.err e) s' q'
      | .panic m => post (.panic m) s' q') x s q) : Follows next silent post (x >>= f) s q := by
  refine Prog.Follows.bind (Prog.Follows.mono h ?_)
  rintro ⟨e, s'⟩ q' he
  cases e with
  | ok a => exact he
  | err e => exact .ret he
  | panic m => exact .ret he

theorem Follows.pure {a : α} (h : post (.ok a) s q) : Follows next silent post (Pure.pure a) s q :=
  .ret h

theorem Follows.throw {e : E} (h : post (.err e) s q) :
    Follows next silent post (GoM.throw e) s q :=
  .ret h

theorem Follows.panic {m : String} (h : post (.panic m) s q) :
    Follows next silent post (GoM.panic m) s q :=
  .ret h

theorem Follows.get_bind {f : σ → GoM C R E σ α} (h : Follows next silent post (f s) s q) :
    Follows next silent post (GoM.get >>= f) s q :=
  h

theorem Follows.modify_bind {g : σ → σ} {f : Unit → GoM C R E σ α}
    (h : Follows next silent post (f ()) (g s) q) :
    Follows next silent post (GoM.modify g >>= f) s q :=
  h

theorem Follows.lift_bind {post : Exit E β → σ → Q → Prop} {p : Prog C R α} {f : α → GoM C R E σ β}
    (h : Prog.Follows next silent (fun a q' => Follows next silent post (f a) s q') p q) :
    Follows next silent post (GoM.lift p >>= f) s q :=
  Prog.Follows.bind (Prog.Follows.bind (h.mono fun _ _ ha => .ret ha))

theorem Follows.mono {post' : Exit E α → σ → Q → Prop} (h : Follows next silent post x s q)
    (hpost : ∀ e s' q', post e s' q' → post' e s' q') : Follows next silent post' x s q :=
  Prog.Follows.mono h fun _ _ => hpost _ _ _

theorem Follows.modify {post : Exit E Unit → σ → Q → Prop} {g : σ → σ} (h : post (.ok ()) (g s) q) :
    Follows next silent post (GoM.modify g) s q :=
  .ret h

theorem Follows.when {post : Exit E Unit → σ → Q → Prop} {c : Bool} {x : GoM C R E σ Unit}
    (hx : c = true → Follows next silent post x s q) (hskip : c = false → post (.ok ()) s q) :
    Follows next silent post (GoM.when c x) s q := by
  cases c with
  | true => exact hx rfl
  | false => exact .pure (hskip rfl)

theorem Follows.move {q' : Q} (hq : silent q q') (h : Follows next silent post x s q') :
    Follows next silent post x s q :=
  Prog.Follows.silent hq h

theorem Follows.attempt_bind {post : Exit E β → σ → Q → Prop} {f : Except E α → GoM C R E σ β}
    (h : Follows next silent (fun e s' q' => match e with
      | .ok a => Follows next silent post (f (.ok a)) s' q'
      | .err e => Follows next silent post (f (.error e)) s' q'
      | .panic m => post (.panic m) s' q') x s q) :
    Follows next silent post (GoM.attempt x >>= f) s q := by
  refine Prog.Follows.bind (Prog.Follows.bind (Prog.Follows.mono h ?_))
  rintro ⟨e, s'⟩ q' he
  cases e with
  | ok a => exact .ret he
  | err e => exact .ret he
  | panic m => exact .ret (.ret he)

end Phases

/-! ## Outcomes of one kind -/

section Ensures

variable {O S : Type} [Inhabited O] {exec : O → (c : C) → S → R c × S} {ok : O → Prop}

/-- The function `x`, called on the objects `s` in the store `t`, ends so that `Q` holds of its
exit, the objects and the store, whenever every outcome is allowed by `ok`. -/
def Ensures (exec : O → (c : C) → S → R c × S) (ok : O → Prop) (x : GoM C R E σ α) (s : σ) (t : S)
    (Q : Exit E α → σ → S → Prop) : Prop :=
  Prog.Ensures exec ok (x s) t fun r t' => Q r.1 r.2 t'

variable {Q : Exit E β → σ → S → Prop} {s : σ} {t : S}

theorem Ensures.bind {x : GoM C R E σ α} {f : α → GoM C R E σ β}
    (h : Ensures exec ok x s t fun e s' t' => match e with
      | .ok a => Ensures exec ok (f a) s' t' Q
      | .err e => Q (.err e) s' t'
      | .panic m => Q (.panic m) s' t') : Ensures exec ok (x >>= f) s t Q := by
  refine Prog.Ensures.bind (Prog.Ensures.mono h ?_)
  rintro ⟨e, s'⟩ t' he
  cases e with
  | ok a => exact he
  | err e => exact .ret he
  | panic m => exact .ret he

theorem Ensures.pure {a : β} (h : Q (.ok a) s t) : Ensures exec ok (Pure.pure a) s t Q := .ret h

theorem Ensures.throw {e : E} (h : Q (.err e) s t) : Ensures exec ok (GoM.throw e) s t Q := .ret h

theorem Ensures.get_bind {f : σ → GoM C R E σ β} (h : Ensures exec ok (f s) s t Q) :
    Ensures exec ok (GoM.get >>= f) s t Q := h

theorem Ensures.modify_bind {g : σ → σ} {f : Unit → GoM C R E σ β}
    (h : Ensures exec ok (f ()) (g s) t Q) : Ensures exec ok (GoM.modify g >>= f) s t Q := h

theorem Ensures.lift_bind {p : Prog C R α} {f : α → GoM C R E σ β}
    (h : Prog.Ensures exec ok p t fun a t' => Ensures exec ok (f a) s t' Q) :
    Ensures exec ok (GoM.lift p >>= f) s t Q :=
  Prog.Ensures.bind (Prog.Ensures.bind (h.mono fun _ _ ha => .ret ha))

/-- The changed objects, under a name of their own. -/
theorem Ensures.modify_get_bind {g : σ → σ} {f : σ → GoM C R E σ β}
    (h : ∀ s', s' = g s → Ensures exec ok (f s') s' t Q) :
    Ensures exec ok (GoM.modify g >>= fun _ => GoM.get >>= f) s t Q := h _ rfl

/-- One call, then a function of the response. -/
theorem Ensures.call_bind {c : C} {f : R c → GoM C R E σ β} (hdefault : ok default)
    (h : ∀ o, ok o → Ensures exec ok (f (exec o c t).1) s (exec o c t).2 Q) :
    Ensures exec ok (GoM.lift (Prog.perform c) >>= f) s t Q :=
  .lift_bind (.call hdefault fun o ho => .ret (h o ho))

theorem Ensures.attempt_bind {x : GoM C R E σ α} {f : Except E α → GoM C R E σ β}
    (h : Ensures exec ok x s t fun e s' t' => match e with
      | .ok a => Ensures exec ok (f (.ok a)) s' t' Q
      | .err e => Ensures exec ok (f (.error e)) s' t' Q
      | .panic m => Q (.panic m) s' t') : Ensures exec ok (GoM.attempt x >>= f) s t Q := by
  refine Prog.Ensures.bind (Prog.Ensures.bind (Prog.Ensures.mono h ?_))
  rintro ⟨e, s'⟩ t' he
  cases e with
  | ok a => exact .ret he
  | err e => exact .ret he
  | panic m => exact .ret (.ret he)

theorem Ensures.deferred {x : GoM C R E σ β} {d : σ → Prog C R (Option E)}
    (h : Ensures exec ok x s t fun e s' t' =>
      Prog.Ensures exec ok (d s') t' fun e' t'' => Q (e.withDeferred e') s' t'') :
    Ensures exec ok (GoM.deferred x d) s t Q := by
  refine Prog.Ensures.bind (Prog.Ensures.mono h ?_)
  rintro ⟨e, s'⟩ t' he
  refine .bind (Prog.Ensures.mono he ?_)
  rintro e' t'' hQ
  cases e with
  | ok a => cases e' <;> exact .ret hQ
  | err e => exact .ret hQ
  | panic m => exact .ret hQ

theorem Ensures.mono {x : GoM C R E σ β} {Q' : Exit E β → σ → S → Prop}
    (h : Ensures exec ok x s t Q) (hQ : ∀ e s' t', Q e s' t' → Q' e s' t') :
    Ensures exec ok x s t Q' :=
  Prog.Ensures.mono h fun _ _ => hQ _ _ _

end Ensures

end GoM

end Byoh.Foundation
