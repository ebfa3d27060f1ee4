import Byoh.Foundation.ActionRun
import Mathlib.Data.List.Basic

/-!
# Controllers behind a watch and a work queue

Objects of type `α` are watched. Every change makes an event; an event that passes the filter of the
controller puts a request for the key of its object into the work queue, and a request is
reconciled at any later time, with the objects as they are by then. A reconcile that fails stays in
the queue. Events are delivered in any order.

The filter is controller-runtime's `predicate.Funcs`: a kind of event without a function passes.

A key is `Demanded` when a request for it is queued or an undelivered event will queue one.
`WatchSystem.demanded_invariant` is the rule for facts about demanded keys: they have to survive what
others do to the objects, since the filter does not look at the objects again.
-/

set_option autoImplicit false

namespace Byoh.Foundation

/-! ## Events -/

/-- A watch event. -/
inductive WatchEvent (α : Type) where
  | create (object : α)
  | update (objectOld objectNew : α)
  | delete (object : α)

/-- The object of an event, as it was last. -/
def WatchEvent.object {α : Type} : WatchEvent α → α
  | .create a | .update _ a | .delete a => a

/-- `predicate.Funcs`. -/
structure PredicateFuncs (α : Type) where
  createFunc : Option (α → Bool) := none
  updateFunc : Option (α → α → Bool) := none
  deleteFunc : Option (α → Bool) := none

/-- Does the event pass the filter? -/
def PredicateFuncs.passes {α : Type} (p : PredicateFuncs α) : WatchEvent α → Bool
  | .create a => match p.createFunc with | some f => f a | none => true
  | .update old new => match p.updateFunc with | some f => f old new | none => true
  | .delete a => match p.deleteFunc with | some f => f a | none => true

/-! ## Systems -/

variable {S K α A O : Type}

/-- What a controller reacts to and does. `env` are the changes that others make, `reconcile` is one
reconcile; both give the new store and the events of their changes, and a reconcile also says
whether its request stays in the queue. -/
structure WatchSystem (S K α A O : Type) where
  key : α → K
  filter : PredicateFuncs α
  env : A → S → Option (S × List (WatchEvent α))
  reconcile : K → O → S → S × List (WatchEvent α) × Bool

/-- The store, the events that are not delivered yet, and the requests in the work queue. -/
structure WatchState (S K α : Type) where
  store : S
  events : List (WatchEvent α) := []
  queue : List K := []

/-- A step. -/
inductive WatchAction (K A O : Type) where
  | env (a : A)
  | deliver (i : Nat)
  | reconcile (k : K) (o : O)

namespace WatchSystem

variable [DecidableEq K] (sys : WatchSystem S K α A O)

/-- One step; an impossible one changes nothing. -/
def act (st : WatchState S K α) : WatchAction K A O → WatchState S K α
  | .env a =>
      match sys.env a st.store with
      | none => st
      | some (s, es) => { st with store := s, events := st.events ++ es }
  | .deliver i =>
      match st.events[i]? with
      | none => st
      | some e =>
          { st with
            events := st.events.eraseIdx i
            queue := if sys.filter.passes e then sys.key e.object :: st.queue else st.queue }
  | .reconcile k o =>
      if k ∈ st.queue then
        let r := sys.reconcile k o st.store
        { store := r.1
          events := st.events ++ r.2.1
          queue := if r.2.2 then st.queue else st.queue.erase k }
      else st

/-- A request for the key is queued, or an undelivered event will queue one. -/
def Demanded (st : WatchState S K α) (k : K) : Prop :=
  k ∈ st.queue ∨ ∃ e ∈ st.events, sys.filter.passes e = true ∧ sys.key e.object = k

instance (st : WatchState S K α) (k : K) : Decidable (sys.Demanded st k) :=
  inferInstanceAs (Decidable (_ ∨ _))

variable {sys} {st : WatchState S K α}

/-- A delivery demands nothing new. -/
theorem demanded_of_deliver {i : Nat} {k : K} (h : sys.Demanded (sys.act st (.deliver i)) k) :
    sys.Demanded st k := by
  simp only [act] at h
  cases he : st.events[i]? with
  | none => simpa [he] using h
  | some e =>
    rw [he] at h
    have hmem : e ∈ st.events := List.mem_of_getElem? he
    rcases h with hq | ⟨e', he', hpass, hkey⟩
    · dsimp only at hq
      split at hq
      · rename_i hpass
        rcases List.mem_cons.1 hq with rfl | hq
        · exact .inr ⟨e, hmem, hpass, rfl⟩
        · exact .inl hq
      · exact .inl hq
    · exact .inr ⟨e', List.mem_of_mem_eraseIdx he', hpass, hkey⟩

/-- Facts about demanded keys. `I` is an invariant of the store and `R k` a fact about the key `k`:
both survive the allowed changes of others and every reconcile of a key with the fact, and events
that pass the filter have it. -/
theorem demanded_invariant {I : S → Prop} {R : K → S → Prop}
    {ok : WatchState S K α → WatchAction K A O → Prop}
    (henv : ∀ {st a s es}, I st.store → (∀ k, sys.Demanded st k → R k st.store) → ok st (.env a) →
      sys.env a st.store = some (s, es) → I s ∧ (∀ k, sys.Demanded st k → R k s) ∧
        ∀ e ∈ es, sys.filter.passes e = true → R (sys.key e.object) s)
    (hreconcile : ∀ {s} k o, I s → R k s → I (sys.reconcile k o s).1 ∧
      (∀ k', R k' s → R k' (sys.reconcile k o s).1) ∧
      ∀ e ∈ (sys.reconcile k o s).2.1, sys.filter.passes e = true →
        R (sys.key e.object) (sys.reconcile k o s).1)
    {st' : WatchState S K α} {as : List (WatchAction K A O)} (hrun : ActionRun sys.act ok st as st')
    (hinit : I st.store ∧ ∀ k, sys.Demanded st k → R k st.store) :
    I st'.store ∧ ∀ k, sys.Demanded st' k → R k st'.store := by
  refine hrun.invariant (I := fun st => I st.store ∧ ∀ k, sys.Demanded st k → R k st.store) ?_ hinit
  rintro st a ⟨hI, hR⟩ hok
  cases a with
  | deliver i =>
    have hstore : (sys.act st (.deliver i)).store = st.store := by
      simp only [act]
      split <;> rfl
    rw [hstore]
    exact ⟨hI, fun k hk => hR k (demanded_of_deliver hk)⟩
  | env a =>
    simp only [act]
    cases he : sys.env a st.store with
    | none => exact ⟨hI, hR⟩
    | some r =>
      obtain ⟨s, es⟩ := r
      obtain ⟨hI', hold, hnew⟩ := henv hI hR hok he
      refine ⟨hI', fun k hk => ?_⟩
      -- a demanded key was demanded before, or one of the new events demands it
      rcases hk with hq | ⟨e, hmem, hpass, rfl⟩
      · exact hold k (.inl hq)
      · rcases List.mem_append.1 hmem with hmem | hmem
        · exact hold _ (.inr ⟨e, hmem, hpass, rfl⟩)
        · exact hnew e hmem hpass
  | reconcile k o =>
    simp only [act]
    split
    case isFalse => exact ⟨hI, hR⟩
    case isTrue hmem =>
      obtain ⟨hI', hold, hnew⟩ := hreconcile k o hI (hR k (.inl hmem))
      refine ⟨hI', fun k' hk' => ?_⟩
      rcases hk' with hq | ⟨e, hmem', hpass, rfl⟩
      · refine hold k' (hR k' (.inl ?_))
        -- the key itself may be queued again; the others were queued before
        dsimp only at hq
        split at hq
        · exact hq
        · exact List.mem_of_mem_erase hq
      · rcases List.mem_append.1 hmem' with hmem' | hmem'
        · exact hold _ (hR _ (.inr ⟨e, hmem', hpass, rfl⟩))
        · exact hnew e hmem' hpass

end WatchSystem

end Byoh.Foundation
