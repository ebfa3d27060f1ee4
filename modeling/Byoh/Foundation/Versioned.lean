import Byoh.Foundation.Lookup

/-!
# Stores with versions

Every write of an object gives it a version that no object had before. A conditional update names
the version that was read and is refused when the object has another one by then. `Current` is
what a reader may rely on whatever else is written: as long as the object has the version that was
read, it has the value that was read.
-/

set_option autoImplicit false

namespace Byoh.Foundation

/-- A value and the version of the write that made it. -/
structure Versioned (V : Type) where
  value : V
  version : Nat
  deriving DecidableEq, Repr

/-- Objects with versions; the next write uses the version `next`. -/
structure VersionedStore (K V : Type) [DecidableEq K] where
  objects : AList fun _ : K => Versioned V
  next : Nat
  version_lt : ∀ k v, objects.lookup k = some v → v.version < next

namespace VersionedStore

variable {K V : Type} [DecidableEq K]

/-- The store without objects. -/
def empty : VersionedStore K V := ⟨∅, 0, fun k v h => by simp at h⟩

/-- The object at a key. -/
def get (s : VersionedStore K V) (k : K) : Option (Versioned V) := s.objects.lookup k

/-- Write an object, whatever is there. -/
def put (s : VersionedStore K V) (k : K) (v : V) : VersionedStore K V where
  objects := s.objects.insert k ⟨v, s.next⟩
  next := s.next + 1
  version_lt := forall_lookup_insert (fun k v h => Nat.lt_succ_of_lt (s.version_lt k v h))
    (Nat.lt_succ_self _)

/-- Remove an object. -/
def erase (s : VersionedStore K V) (k : K) : VersionedStore K V where
  objects := s.objects.erase k
  next := s.next
  version_lt := forall_lookup_erase s.version_lt

/-- Write an object that still has the version of `obj`. -/
def update (s : VersionedStore K V) (k : K) (obj : Versioned V) : Option (VersionedStore K V) :=
  match s.get k with
  | none => none
  | some cur => if cur.version = obj.version then some (s.put k obj.value) else none

/-- The object at `k` is `obj` as long as it has its version. -/
structure Current (s : VersionedStore K V) (k : K) (obj : Versioned V) : Prop where
  version_lt : obj.version < s.next
  eq : ∀ cur, s.get k = some cur → cur.version = obj.version → cur = obj

variable {s s' : VersionedStore K V} {k : K} {obj : Versioned V}

theorem get_put_self (s : VersionedStore K V) (k : K) (v : V) :
    (s.put k v).get k = some ⟨v, s.next⟩ :=
  AList.lookup_insert _

theorem get_put_of_ne {k' : K} (hk : k ≠ k') (v : V) : (s.put k' v).get k = s.get k :=
  AList.lookup_insert_ne hk

theorem get_erase_self (s : VersionedStore K V) (k : K) : (s.erase k).get k = none :=
  AList.lookup_erase _ _

theorem get_erase_of_ne {k' : K} (hk : k ≠ k') : (s.erase k').get k = s.get k :=
  AList.lookup_erase_ne hk

/-- An update that goes through is a write. -/
theorem eq_put_of_update (h : s.update k obj = some s') : s' = s.put k obj.value := by
  rw [update] at h
  split at h
  · cases h
  · split at h
    · exact (Option.some.inj h).symm
    · cases h

theorem current_of_get (h : s.get k = some obj) : Current s k obj where
  version_lt := s.version_lt k obj h
  eq _ hcur _ := Option.some.inj (hcur.symm.trans h)

theorem Current.put (h : Current s k obj) (k' : K) (v : V) : Current (s.put k' v) k obj where
  version_lt := Nat.lt_succ_of_lt h.version_lt
  eq cur hcur hversion := by
    by_cases hk : k = k'
    · -- the new object has a version that the reader has not seen
      subst hk
      obtain rfl : ⟨v, s.next⟩ = cur := Option.some.inj ((get_put_self s k v).symm.trans hcur)
      exact absurd hversion (Nat.ne_of_gt h.version_lt)
    · rw [get_put_of_ne hk] at hcur
      exact h.eq cur hcur hversion

theorem Current.erase (h : Current s k obj) (k' : K) : Current (s.erase k') k obj where
  version_lt := h.version_lt
  eq cur hcur hversion := h.eq cur (lookup_erase_some hcur).2 hversion

/-- An update that goes through replaces the object that was read. -/
theorem Current.get_of_update (h : Current s k obj) {v : V}
    (hupdate : s.update k { obj with value := v } = some s') : s.get k = some obj := by
  rw [update] at hupdate
  split at hupdate
  · cases hupdate
  next cur hcur =>
    split at hupdate
    next hversion => rw [hcur, h.eq cur hcur hversion]
    · cases hupdate

end VersionedStore

end Byoh.Foundation
