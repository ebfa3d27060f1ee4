import Byoh.Foundation.Lookup

/-!
# Go maps and JSON merge patches

A Go map is an association list, or nil. The patch of a map from `before` to `after` names the
keys on which the two differ; applied to a third map it sets those keys to their value in `after`
and leaves the others alone (`GoMap.get_merge`). A scalar field is patched when it differs
(`mergeField`).

Two maps are compared by their entries, not by their order, and a map without entries is written
as the nil map, as the encoder leaves an empty map out.
-/

set_option autoImplicit false

namespace Byoh.Foundation

/-- A Go map; `none` is the nil map. -/
abbrev GoMap (K V : Type) := Option (AList fun _ : K => V)

/-- A field of a merge patch: written when it differs from the old value, else left alone. -/
def mergeField {α : Type} [DecidableEq α] (before after cur : α) : α :=
  if before = after then cur else after

@[simp] theorem mergeField_self {α : Type} [DecidableEq α] (a cur : α) :
    mergeField a a cur = cur := by
  simp [mergeField]

@[simp] theorem mergeField_before {α : Type} [DecidableEq α] (before after : α) :
    mergeField before after before = after := by
  unfold mergeField
  split
  · assumption
  · rfl

namespace GoMap

variable {K V : Type} [DecidableEq K] [DecidableEq V]

/-- The value at a key. -/
def get (m : GoMap K V) (k : K) : Option V := m.bind (AList.lookup k)

/-- The keys of a map. -/
def keys (m : GoMap K V) : List K := (m.getD ∅).keys

/-- `delete(m, k)`; deleting from the nil map does nothing. -/
def delete (m : GoMap K V) (k : K) : GoMap K V := m.map (AList.erase k)

/-- `if m == nil { m = make(..) }`. -/
def make (m : GoMap K V) : GoMap K V := some (m.getD ∅)

/-- The map after `m[k] = v`; on the nil map Go panics instead, so the code calls `make` first. -/
def insert (m : GoMap K V) (k : K) (v : V) : GoMap K V := some ((m.getD ∅).insert k v)

/-- A map with the entries of a list; no entry gives the nil map. -/
def ofAList (l : AList fun _ : K => V) : GoMap K V := if l.entries.isEmpty then none else some l

/-- The same entries. -/
def same (m m' : GoMap K V) : Bool :=
  (m.keys ++ m'.keys).all fun k => decide (m.get k = m'.get k)

/-- Set the keys of `ks` on which `before` and `after` differ to their value in `after`. -/
def mergeKeys (before after : GoMap K V) : List K → (AList fun _ : K => V) → AList fun _ : K => V
  | [], l => l
  | k :: ks, l =>
      mergeKeys before after ks <|
        if before.get k = after.get k then l
        else match after.get k with
          | some v => l.insert k v
          | none => l.erase k

/-- The merge patch from `before` to `after`, applied to `cur`. -/
def merge (before after cur : GoMap K V) : GoMap K V :=
  ofAList (mergeKeys before after (before.keys ++ after.keys) (cur.getD ∅))

omit [DecidableEq V] in
theorem get_eq_lookup (m : GoMap K V) (k : K) : m.get k = (m.getD ∅).lookup k := by
  cases m with
  | none => simp [get]
  | some l => rfl

omit [DecidableEq V] in
@[simp] theorem get_none (k : K) : get (none : GoMap K V) k = none := rfl

omit [DecidableEq V] in
@[simp] theorem get_make (m : GoMap K V) (k : K) : m.make.get k = m.get k :=
  (get_eq_lookup m k).symm

omit [DecidableEq V] in
@[simp] theorem get_insert (m : GoMap K V) (k k' : K) (v : V) :
    (m.insert k v).get k' = if k' = k then some v else m.get k' := by
  rw [get_eq_lookup m k']
  by_cases h : k' = k
  · subst h
    simp [insert, get]
  · simp [insert, get, h, AList.lookup_insert_ne]

omit [DecidableEq V] in
@[simp] theorem get_delete (m : GoMap K V) (k k' : K) :
    (m.delete k).get k' = if k' = k then none else m.get k' := by
  cases m with
  | none => simp [delete]
  | some l =>
    by_cases h : k' = k
    · subst h
      simp [delete, get]
    · simp [delete, get, h, AList.lookup_erase_ne]

omit [DecidableEq V] in
@[simp] theorem get_ofAList (l : AList fun _ : K => V) (k : K) : (ofAList l).get k = l.lookup k := by
  unfold ofAList
  split
  · rename_i h
    have hl : l = ∅ := AList.ext (by simpa using h)
    simp [hl]
  · rfl

omit [DecidableEq V] in
theorem mem_keys_of_get {m : GoMap K V} {k : K} (h : m.get k ≠ none) : k ∈ m.keys := by
  rw [get_eq_lookup] at h
  exact AList.mem_keys.1 (AList.lookup_isSome.1 (Option.isSome_iff_ne_none.2 h))

theorem same_iff (m m' : GoMap K V) : m.same m' = true ↔ ∀ k, m.get k = m'.get k := by
  simp only [same, List.all_eq_true, decide_eq_true_eq, List.mem_append]
  constructor
  · intro h k
    by_cases hk : m.get k = none
    · by_cases hk' : m'.get k = none
      · rw [hk, hk']
      · exact h k (Or.inr (mem_keys_of_get hk'))
    · exact h k (Or.inl (mem_keys_of_get hk))
  · exact fun h k _ => h k

@[simp] theorem same_self (m : GoMap K V) : m.same m = true := (same_iff m m).2 fun _ => rfl

theorem lookup_mergeKeys (before after : GoMap K V) (k : K) :
    ∀ (ks : List K) (l : AList fun _ : K => V),
      (mergeKeys before after ks l).lookup k =
        if k ∈ ks ∧ before.get k ≠ after.get k then after.get k else l.lookup k
  | [], l => by simp [mergeKeys]
  | k' :: ks, l => by
      rw [mergeKeys, lookup_mergeKeys before after k ks]
      by_cases hk : k = k'
      · subst hk
        by_cases hd : before.get k = after.get k
        · simp [hd]
        · cases ha : after.get k with
          | none =>
            rw [ha] at hd
            simp [hd]
          | some v =>
            rw [ha] at hd
            simp [hd]
      · by_cases hd : before.get k' = after.get k'
        · simp [hk, hd]
        · cases ha : after.get k' with
          | none =>
            rw [ha] at hd
            simp [hk, hd, AList.lookup_erase_ne]
          | some v =>
            rw [ha] at hd
            simp [hk, hd, AList.lookup_insert_ne]

/-- A merge patch sets exactly the keys on which its two sides differ. -/
@[simp] theorem get_merge (before after cur : GoMap K V) (k : K) :
    (merge before after cur).get k = mergeField (before.get k) (after.get k) (cur.get k) := by
  rw [merge, get_ofAList, lookup_mergeKeys, ← get_eq_lookup, mergeField]
  by_cases h : before.get k = after.get k
  · simp [h]
  · have hk : k ∈ before.keys ++ after.keys := by
      by_cases hb : before.get k = none
      · have ha : after.get k ≠ none := fun ha => h (by rw [hb, ha])
        exact List.mem_append_right _ (mem_keys_of_get ha)
      · exact List.mem_append_left _ (mem_keys_of_get hb)
    simp [h, hk]

end GoMap

end Byoh.Foundation
