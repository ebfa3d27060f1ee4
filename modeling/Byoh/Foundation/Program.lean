import Mathlib.Logic.Function.Basic

/-!
# Programs as trees of calls

A program is a finite tree: it returns a value, or it makes one call and continues with the
response. The calls `c : C` and their response types `R c` are parameters, and so is what a call
does to a store: `exec o c s` answers the call `c` in the store `s`, where the outcome `o` is the
choice of the environment (does the call fail, in which order does a listing come back).

`Prog.run` executes a whole program with nothing in between. `Prog.Ensures` says what holds at the
end of every execution whose outcomes are of one kind, such as those in which no call fails.

`Follows` compares a program with an abstract control structure. The phases `q : Q` say where a
program is; `next q c r q'` says that in phase `q` the call `c` may be made and that the response
`r` leads to phase `q'`; `silent q q'` is a move without a call. A program that follows a phase
structure can be replaced by it in every invariant proof (`Follows.run`, and for interleaved
programs `Pool.lean`), so the tree of the program is walked once.
-/

set_option autoImplicit false

namespace Byoh.Foundation

/-- A program that makes calls `c : C`, is answered by `R c`, and returns an `α`. -/
inductive Prog (C : Type) (R : C → Type) (α : Type) where
  | ret (a : α) : Prog C R α
  | call (c : C) (k : R c → Prog C R α) : Prog C R α

namespace Prog

variable {C : Type} {R : C → Type} {α β : Type}

/-- Sequential composition. -/
def bind : Prog C R α → (α → Prog C R β) → Prog C R β
  | .ret a, f => f a
  | .call c k, f => .call c fun r => bind (k r) f

instance : Monad (Prog C R) where
  pure := .ret
  bind := .bind

/-- The program that makes one call and returns the response. -/
def perform (c : C) : Prog C R (R c) := .call c .ret

@[simp] theorem pure_eq (a : α) : (pure a : Prog C R α) = .ret a := rfl

@[simp] theorem bind_eq (p : Prog C R α) (f : α → Prog C R β) : (p >>= f) = p.bind f := rfl

@[simp] theorem ret_bind (a : α) (f : α → Prog C R β) : (ret a : Prog C R α).bind f = f a := rfl

@[simp] theorem call_bind (c : C) (k : R c → Prog C R α) (f : α → Prog C R β) :
    (call c k).bind f = .call c fun r => (k r).bind f := rfl

@[simp] theorem perform_bind (c : C) (f : R c → Prog C R β) :
    (perform c).bind f = .call c f := rfl

/-! ## Execution without interference -/

section Run

variable {O S : Type} (exec : O → (c : C) → S → R c × S)

/-- Execute a program; the outcomes of its calls are read off the list, and are the default
outcome once the list is used up. -/
def run [Inhabited O] : List O → Prog C R α → S → α × S
  | _, .ret a, s => (a, s)
  | os, .call c k, s =>
      run os.tail (k (exec (os.headD default) c s).1) (exec (os.headD default) c s).2

theorem run_call [Inhabited O] (os : List O) (c : C) (k : R c → Prog C R α) (s : S) :
    run exec os (.call c k) s =
      run exec os.tail (k (exec (os.headD default) c s).1) (exec (os.headD default) c s).2 := rfl

/-- The parts of a composition run one after the other, the second on the outcomes that are
left. -/
theorem run_bind [Inhabited O] (p : Prog C R α) (f : α → Prog C R β) (os : List O) (s : S) :
    ∃ n, run exec os (p.bind f) s =
      run exec (os.drop n) (f (run exec os p s).1) (run exec os p s).2 := by
  induction p generalizing os s with
  | ret a => exact ⟨0, rfl⟩
  | call c k ih =>
    obtain ⟨n, hn⟩ := ih _ os.tail (exec (os.headD default) c s).2
    refine ⟨n + 1, ?_⟩
    rw [call_bind, run_call, run_call, hn, List.drop_tail]

/-- `Q` holds of the result and the store whenever every outcome is allowed by `ok`. -/
def Ensures [Inhabited O] (ok : O → Prop) (p : Prog C R α) (s : S) (Q : α → S → Prop) : Prop :=
  ∀ os : List O, (∀ o ∈ os, ok o) → Q (run exec os p s).1 (run exec os p s).2

section Ensures

variable {exec} [Inhabited O] {ok : O → Prop} {Q : α → S → Prop} {s : S}

theorem Ensures.ret {a : α} (h : Q a s) : Ensures exec ok (.ret a : Prog C R α) s Q :=
  fun _ _ => h

theorem Ensures.call {c : C} {k : R c → Prog C R α} (hdefault : ok default)
    (h : ∀ o, ok o → Ensures exec ok (k (exec o c s).1) (exec o c s).2 Q) :
    Ensures exec ok (.call c k) s Q := by
  intro os hos
  have ho : ok (os.headD default) := by
    cases os with
    | nil => exact hdefault
    | cons o os => exact hos o List.mem_cons_self
  exact h _ ho os.tail fun o h => hos o (List.mem_of_mem_tail h)

/-- One call, then a program that goes on with the response. -/
theorem Ensures.perform {c : C} {f : R c → Prog C R α} (hdefault : ok default)
    (h : ∀ o, ok o → Ensures exec ok (f (exec o c s).1) (exec o c s).2 Q) :
    Ensures exec ok ((Prog.perform c).bind f) s Q := .call hdefault h

theorem Ensures.bind {p : Prog C R β} {f : β → Prog C R α}
    (h : Ensures exec ok p s fun b t => Ensures exec ok (f b) t Q) :
    Ensures exec ok (p.bind f) s Q := by
  intro os hos
  obtain ⟨n, hn⟩ := run_bind exec p f os s
  rw [hn]
  exact h os hos (os.drop n) fun o ho => hos o (List.mem_of_mem_drop ho)

theorem Ensures.mono {p : Prog C R α} {Q' : α → S → Prop} (h : Ensures exec ok p s Q)
    (hQ : ∀ a t, Q a t → Q' a t) : Ensures exec ok p s Q' :=
  fun os hos => hQ _ _ (h os hos)

end Ensures

/-- The execution that also keeps the calls with their responses, newest first. -/
def logged : O → (c : C) → S × List (Sigma R) → R c × (S × List (Sigma R)) := fun o c s =>
  ((exec o c s.1).1, (exec o c s.1).2, ⟨c, (exec o c s.1).1⟩ :: s.2)

/-- The log does not change what a program does. -/
theorem run_logged [Inhabited O] (p : Prog C R α) :
    ∀ (os : List O) (s : S) (l : List (Sigma R)),
      (run (logged exec) os p (s, l)).1 = (run exec os p s).1 ∧
        (run (logged exec) os p (s, l)).2.1 = (run exec os p s).2 := by
  induction p with
  | ret a => exact fun _ _ _ => ⟨rfl, rfl⟩
  | call c k ih => exact fun os s l => ih _ os.tail _ _

end Run

/-! ## Phase structures -/

section Phases

variable {Q : Type} (next : Q → (c : C) → R c → Q → Prop) (silent : Q → Q → Prop) {p : Prog C R α}
  {q : Q} {post : α → Q → Prop}

/-- The program `p`, started in phase `q`, makes only calls that its phase allows, and returns in
a phase that satisfies `post`. -/
inductive Follows (post : α → Q → Prop) : Prog C R α → Q → Prop where
  | ret {a : α} {q : Q} (h : post a q) : Follows post (.ret a) q
  | call {c : C} {k : R c → Prog C R α} {q : Q} (dest : R c → Q) (hnext : ∀ r, next q c r (dest r))
      (hk : ∀ r, Follows post (k r) (dest r)) : Follows post (.call c k) q
  | silent {p : Prog C R α} {q q' : Q} (h : silent q q') (hp : Follows post p q') :
      Follows post p q

variable {next silent}

theorem Follows.bind {post : β → Q → Prop} {f : α → Prog C R β}
    (h : Follows next silent (fun a q' => Follows next silent post (f a) q') p q) :
    Follows next silent post (p.bind f) q := by
  induction h with
  | ret h => exact h
  | call dest hnext _ ih => exact .call dest hnext ih
  | silent h _ ih => exact .silent h ih

theorem Follows.mono {post' : α → Q → Prop} (h : Follows next silent post p q)
    (hpost : ∀ a q', post a q' → post' a q') : Follows next silent post' p q := by
  induction h with
  | ret h => exact .ret (hpost _ _ h)
  | call dest hnext _ ih => exact .call dest hnext ih
  | silent h _ ih => exact .silent h ih

/-- A program that follows a phase structure follows every structure that it maps into. -/
theorem Follows.map {Q' : Type} {next' : Q' → (c : C) → R c → Q' → Prop} {silent' : Q' → Q' → Prop}
    (g : Q → Q') (hnext : ∀ q c r q', next q c r q' → next' (g q) c r (g q'))
    (hsilent : ∀ q q', silent q q' → silent' (g q) (g q')) {post' : α → Q' → Prop}
    (hpost : ∀ a q, post a q → post' a (g q)) (h : Follows next silent post p q) :
    Follows next' silent' post' p (g q) := by
  induction h with
  | ret h => exact .ret (hpost _ _ h)
  | call dest hn _ ih => exact .call (fun r => g (dest r)) (fun r => hnext _ _ _ _ (hn r)) ih
  | silent h _ ih => exact .silent (hsilent _ _ h) ih

/-- One call, then a program that follows the phase after the response. -/
theorem Follows.perform {post : β → Q → Prop} {c : C} {f : R c → Prog C R β} (dest : R c → Q)
    (hnext : ∀ r, next q c r (dest r)) (hf : ∀ r, Follows next silent post (f r) (dest r)) :
    Follows next silent post ((Prog.perform c).bind f) q :=
  .call dest hnext hf

/-- An assertion on store and phase that every allowed call and every silent move keeps holds at
the end of an uninterrupted run. -/
theorem Follows.run {O S : Type} [Inhabited O] (exec : O → (c : C) → S → R c × S) {J : S → Q → Prop}
    (hcall : ∀ o s c q q', J s q → next q c (exec o c s).1 q' → J (exec o c s).2 q')
    (hsilent : ∀ s q q', J s q → silent q q' → J s q') (h : Follows next silent post p q) :
    ∀ {s : S}, J s q → ∀ os, ∃ q', post (Prog.run exec os p s).1 q' ∧
      J (Prog.run exec os p s).2 q' := by
  induction h with
  | ret h => exact fun hJ _ => ⟨_, h, hJ⟩
  | call dest hnext _ ih =>
    intro s hJ os
    exact ih _ (hcall (os.headD default) s _ _ _ hJ (hnext _)) os.tail
  | silent h _ ih => exact fun hJ os => ih (hsilent _ _ _ hJ h) os

/-- The same, for runs whose outcomes are all allowed by `ok`. -/
theorem Follows.run_of {O S : Type} [Inhabited O] (exec : O → (c : C) → S → R c × S) (ok : O → Prop)
    {J : S → Q → Prop} (hdefault : ok default)
    (hcall : ∀ o s c q q', ok o → J s q → next q c (exec o c s).1 q' → J (exec o c s).2 q')
    (hsilent : ∀ s q q', J s q → silent q q' → J s q') (h : Follows next silent post p q) :
    ∀ {s : S}, J s q → ∀ os, (∀ o ∈ os, ok o) → ∃ q', post (Prog.run exec os p s).1 q' ∧
      J (Prog.run exec os p s).2 q' := by
  induction h with
  | ret h => exact fun hJ _ _ => ⟨_, h, hJ⟩
  | call dest hnext _ ih =>
    intro s hJ os hos
    have ho : ok (os.headD default) := by
      cases os with
      | nil => exact hdefault
      | cons o os => exact hos o List.mem_cons_self
    exact ih _ (hcall _ s _ _ _ ho hJ (hnext _)) os.tail
      fun o h => hos o (List.mem_of_mem_tail h)
  | silent h _ ih => exact fun hJ os hos => ih (hsilent _ _ _ hJ h) os hos

end Phases

end Prog

end Byoh.Foundation
