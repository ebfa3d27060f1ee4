import Byoh.Foundation.GoFunction

/-!
# Functions that return

A function returns when it does not panic. `GoM.Returns ok x m Q` says that `x`, called on the objects
`m`, returns however its calls are answered: with an error, or with a value and objects that satisfy
`Q`. Here `ok` are the answers that a call may have, at any time.

There is a rule for each construct of `GoM`, and the rules are equivalences. So they compute the
weakest condition under which a function returns, and a condition that is found in this way is exact.
-/

set_option autoImplicit false

namespace Byoh.Foundation

namespace Prog

variable {C : Type} {R : C → Type} {α β : Type} {ok : (c : C) → R c → Prop}

/-- The program may return `a`, when its calls have answers in `ok`. -/
inductive MayReturn (ok : (c : C) → R c → Prop) : Prog C R α → α → Prop where
  | ret (a : α) : MayReturn ok (.ret a) a
  | call {c : C} {k : R c → Prog C R α} {r : R c} {a : α} (hr : ok c r)
      (h : MayReturn ok (k r) a) : MayReturn ok (.call c k) a

@[simp] theorem mayReturn_ret {a b : α} : MayReturn ok (.ret a : Prog C R α) b ↔ b = a := by
  constructor
  · intro h
    cases h with
    | ret => rfl
  · rintro rfl
    exact .ret b

@[simp] theorem mayReturn_call {c : C} {k : R c → Prog C R α} {a : α} :
    MayReturn ok (.call c k) a ↔ ∃ r, ok c r ∧ MayReturn ok (k r) a := by
  constructor
  · intro h
    cases h with
    | call hr h => exact ⟨_, hr, h⟩
  · rintro ⟨r, hr, h⟩
    exact .call hr h

theorem mayReturn_bind {p : Prog C R α} {f : α → Prog C R β} {b : β} :
    MayReturn ok (p.bind f) b ↔ ∃ a, MayReturn ok p a ∧ MayReturn ok (f a) b := by
  induction p with
  | ret a =>
    rw [ret_bind]
    simp only [mayReturn_ret, exists_eq_left]
  | call c k ih =>
    rw [call_bind]
    simp only [mayReturn_call, ih]
    constructor
    · rintro ⟨r, hr, a, ha, hb⟩
      exact ⟨a, ⟨r, hr, ha⟩, hb⟩
    · rintro ⟨a, ⟨r, hr, ha⟩, hb⟩
      exact ⟨r, hr, a, ha, hb⟩

/-- A program returns something if its calls are answered at all. -/
theorem exists_mayReturn (hok : ∀ c, ∃ r, ok c r) (p : Prog C R α) : ∃ a, MayReturn ok p a := by
  induction p with
  | ret a => exact ⟨a, .ret a⟩
  | call c k ih =>
    obtain ⟨r, hr⟩ := hok c
    obtain ⟨a, ha⟩ := ih r
    exact ⟨a, .call hr ha⟩

/-- What an execution returns, in stores whose answers are in `ok`. -/
theorem mayReturn_run {O S : Type} [Inhabited O] {exec : O → (c : C) → S → R c × S} {I : S → Prop}
    (hexec : ∀ o c s, I s → ok c (exec o c s).1 ∧ I (exec o c s).2) (os : List O) (p : Prog C R α)
    {s : S} (hs : I s) : MayReturn ok p (run exec os p s).1 := by
  induction p generalizing os s with
  | ret a => exact .ret a
  | call c k ih =>
    obtain ⟨hok, hI⟩ := hexec (os.headD default) c s hs
    exact .call hok (ih _ os.tail hI)

end Prog

/-- The function has returned, an error or a value with `P`. -/
def Exit.Returned {E α : Type} (P : α → Prop) : Exit E α → Prop
  | .ok a => P a
  | .err _ => True
  | .panic _ => False

namespace GoM

variable {C : Type} {R : C → Type} {E σ α β : Type} {ok : (c : C) → R c → Prop} {m : σ}
  {x : GoM C R E σ α}

/-- The function returns: an error, or a value and objects with `Q`. -/
def Returns (ok : (c : C) → R c → Prop) (x : GoM C R E σ α) (m : σ) (Q : α → σ → Prop) : Prop :=
  ∀ e m', Prog.MayReturn ok (x m) (e, m') → e.Returned fun a => Q a m'

variable {Q : α → σ → Prop} {Q' : β → σ → Prop}

theorem Returns.ne_panic (h : Returns ok x m Q) {e : Exit E α} {m' : σ}
    (hrun : Prog.MayReturn ok (x m) (e, m')) (msg : String) : e ≠ .panic msg := by
  rintro rfl
  exact h _ _ hrun

theorem Returns.mono {P : α → σ → Prop} (hx : Returns ok x m P) (h : ∀ a m', P a m' → Q a m') :
    Returns ok x m Q := by
  intro e m' hrun
  have he := hx e m' hrun
  cases e with
  | ok a => exact h a m' he
  | err e => trivial
  | panic msg => exact he

/-- A function that ends at once. -/
theorem returns_ret (e : Exit E α) (m' : σ) (hx : x m = .ret (e, m')) :
    Returns ok x m Q ↔ e.Returned fun a => Q a m' := by
  constructor
  · intro h
    exact h e m' (hx ▸ .ret _)
  · intro h e' m'' hrun
    rw [hx, Prog.mayReturn_ret] at hrun
    cases hrun
    exact h

@[simp] theorem returns_pure {a : α} : Returns ok (Pure.pure a : GoM C R E σ α) m Q ↔ Q a m :=
  returns_ret (.ok a) m rfl

@[simp] theorem returns_throw {e : E} : Returns ok (GoM.throw e : GoM C R E σ α) m Q ↔ True :=
  returns_ret (.err e) m rfl

@[simp] theorem returns_panic {msg : String} :
    Returns ok (GoM.panic msg : GoM C R E σ α) m Q ↔ False :=
  returns_ret (.panic msg) m rfl

@[simp] theorem returns_get {Q : σ → σ → Prop} :
    Returns ok (GoM.get : GoM C R E σ σ) m Q ↔ Q m m :=
  returns_ret (.ok m) m rfl

@[simp] theorem returns_modify {g : σ → σ} {Q : Unit → σ → Prop} :
    Returns ok (GoM.modify g : GoM C R E σ Unit) m Q ↔ Q () (g m) :=
  returns_ret (.ok ()) (g m) rfl

@[simp] theorem returns_bind {x : GoM C R E σ α} {f : α → GoM C R E σ β} :
    Returns ok (x >>= f) m Q' ↔ Returns ok x m fun a m' => Returns ok (f a) m' Q' := by
  constructor
  · intro h e m' hx
    cases e with
    | ok a =>
      intro e' m'' hf
      exact h e' m'' (Prog.mayReturn_bind.2 ⟨_, hx, hf⟩)
    | err e => trivial
    | panic msg => exact h (.panic msg) m' (Prog.mayReturn_bind.2 ⟨_, hx, .ret _⟩)
  · intro h e m' hrun
    obtain ⟨⟨e₁, m₁⟩, hx, hf⟩ := Prog.mayReturn_bind.1 hrun
    have he := h e₁ m₁ hx
    cases e₁ with
    | ok a => exact he e m' hf
    | err e₁ =>
      cases Prog.mayReturn_ret.1 hf
      trivial
    | panic msg => exact he.elim

@[simp] theorem returns_ofExcept {r : Except E α} :
    Returns ok (GoM.ofExcept r : GoM C R E σ α) m Q ↔ ∀ a, r = .ok a → Q a m := by
  cases r with
  | ok a => simp
  | error e => simp

/-- A dereference returns if the pointer is not nil. -/
@[simp] theorem returns_deref {what : String} {p : Option α} :
    Returns ok (GoM.deref what p : GoM C R E σ α) m Q ↔ ∃ a, p = some a ∧ Q a m := by
  cases p with
  | none => simp
  | some a => simp

/-- A program that does not touch the objects. -/
@[simp] theorem returns_lift {p : Prog C R α} :
    Returns ok (GoM.lift p : GoM C R E σ α) m Q ↔ ∀ a, Prog.MayReturn ok p a → Q a m := by
  constructor
  · intro h a ha
    exact h (.ok a) m (Prog.mayReturn_bind.2 ⟨a, ha, .ret _⟩)
  · intro h e m' hrun
    obtain ⟨a, ha, hret⟩ := Prog.mayReturn_bind.1 hrun
    cases Prog.mayReturn_ret.1 hret
    exact h a ha

@[simp] theorem returns_when {c : Bool} {x : GoM C R E σ Unit} {Q : Unit → σ → Prop} :
    Returns ok (GoM.when c x) m Q ↔ (c = true → Returns ok x m Q) ∧ (c = false → Q () m) := by
  cases c with
  | true => simp
  | false => simp

/-- A change of the objects that makes no difference for what follows. -/
theorem returns_when_modify {c : Bool} {g : σ → σ} {Q : Unit → σ → Prop} {P : Prop}
    (hset : Q () (g m) ↔ P) (hkept : Q () m ↔ P) :
    Returns ok (GoM.when c (GoM.modify g : GoM C R E σ Unit)) m Q ↔ P := by
  cases c with
  | true => rw [when_true, returns_modify, hset]
  | false => rw [when_false, returns_pure, hkept]

/-- The error of a function as a value. -/
theorem returns_attempt {Q : Except E α → σ → Prop} :
    Returns ok (GoM.attempt x) m Q ↔ (Returns ok x m fun a m' => Q (.ok a) m') ∧
      ∀ e m', Prog.MayReturn ok (x m) (.err e, m') → Q (.error e) m' := by
  constructor
  · intro h
    refine ⟨fun e m' hx => ?_, fun e m' hx => ?_⟩
    · cases e with
      | ok a => exact h (.ok (.ok a)) m' (Prog.mayReturn_bind.2 ⟨_, hx, .ret _⟩)
      | err e => trivial
      | panic msg => exact h (.panic msg) m' (Prog.mayReturn_bind.2 ⟨_, hx, .ret _⟩)
    · exact h (.ok (.error e)) m' (Prog.mayReturn_bind.2 ⟨_, hx, .ret _⟩)
  · rintro ⟨hreturns, herror⟩ e m' hrun
    obtain ⟨⟨e₁, m₁⟩, hx, hret⟩ := Prog.mayReturn_bind.1 hrun
    cases e₁ with
    | ok a =>
      cases Prog.mayReturn_ret.1 hret
      exact hreturns _ _ hx
    | err e₁ =>
      cases Prog.mayReturn_ret.1 hret
      exact herror e₁ _ hx
    | panic msg => exact (hreturns _ _ hx).elim

/-- Whatever the deferred program returns, it does not stop or make a panic. -/
theorem returns_deferred (hok : ∀ c, ∃ r, ok c r) {d : σ → Prog C R (Option E)} :
    Returns ok (GoM.deferred x d) m (fun _ _ => True) ↔ Returns ok x m fun _ _ => True := by
  constructor
  · intro h e m' hx
    obtain ⟨e', hd⟩ := Prog.exists_mayReturn hok (d m')
    cases e with
    | ok a => trivial
    | err e => trivial
    | panic msg =>
      exact h (.panic msg) m' (Prog.mayReturn_bind.2 ⟨_, hx, Prog.mayReturn_bind.2 ⟨e', hd, .ret _⟩⟩)
  · intro h e m' hrun
    obtain ⟨⟨e₁, m₁⟩, hx, hrest⟩ := Prog.mayReturn_bind.1 hrun
    obtain ⟨e', -, hret⟩ := Prog.mayReturn_bind.1 hrest
    have he := h e₁ m₁ hx
    cases e₁ with
    | ok a =>
      cases e' with
      | none =>
        cases Prog.mayReturn_ret.1 hret
        trivial
      | some e' =>
        cases Prog.mayReturn_ret.1 hret
        trivial
    | err e₁ =>
      cases Prog.mayReturn_ret.1 hret
      trivial
    | panic msg => exact he.elim

end GoM

end Byoh.Foundation
