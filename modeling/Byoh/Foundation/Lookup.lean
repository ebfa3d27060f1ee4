import Mathlib.Data.List.AList

/-!
# Objects under keys

A store keeps its objects in an association list under their keys. What is found after a write is
what was written or was there before, so a fact about every stored object is kept by the write of
an object of which it holds (`forall_lookup_insert`) and by every removal.
-/

set_option autoImplicit false

namespace Byoh.Foundation

variable {K V : Type} [DecidableEq K] {l : AList fun _ : K => V} {k k' : K} {v x : V}

/-- What is found after a write is what was written, or was there before under another key. -/
theorem lookup_insert_some (h : (l.insert k v).lookup k' = some x) :
    k' = k ∧ x = v ∨ k' ≠ k ∧ l.lookup k' = some x := by
  by_cases hk : k' = k
  · subst hk
    rw [AList.lookup_insert] at h
    exact .inl ⟨rfl, (Option.some.inj h).symm⟩
  · rw [AList.lookup_insert_ne hk] at h
    exact .inr ⟨hk, h⟩

/-- What is found after a removal was there before under another key. -/
theorem lookup_erase_some (h : (l.erase k).lookup k' = some x) : k' ≠ k ∧ l.lookup k' = some x := by
  have hk : k' ≠ k := by
    rintro rfl
    rw [AList.lookup_erase] at h
    cases h
  exact ⟨hk, (AList.lookup_erase_ne hk).symm.trans h⟩

/-- A write keeps what holds of every object, if it holds of the new one. -/
theorem forall_lookup_insert {P : K → V → Prop} (h : ∀ k v, l.lookup k = some v → P k v)
    (hv : P k v) (k' : K) (x : V) (hx : (l.insert k v).lookup k' = some x) : P k' x := by
  rcases lookup_insert_some hx with ⟨rfl, rfl⟩ | ⟨-, hx⟩
  · exact hv
  · exact h k' x hx

/-- A removal keeps what holds of every object. -/
theorem forall_lookup_erase {P : K → V → Prop} (h : ∀ k v, l.lookup k = some v → P k v)
    (k' : K) (x : V) (hx : (l.erase k).lookup k' = some x) : P k' x :=
  h k' x (lookup_erase_some hx).2

/-- The objects that are found are those of the entries. -/
theorem lookup_iff_mem_entries (l : AList fun _ : K => V) (v : V) :
    (∃ k, l.lookup k = some v) ↔ v ∈ l.entries.map (·.2) := by
  simp only [List.mem_map, AList.mem_lookup_iff.symm, Option.mem_def, Sigma.exists]
  exact ⟨fun ⟨k, h⟩ => ⟨k, v, h, rfl⟩, fun ⟨k, v', h, hv⟩ => ⟨k, hv ▸ h⟩⟩

section Tables

variable {ι : Type} (key : ι → K) (f : ι → V) {items : List ι}

/-- What is found in a table that was built from items was built for one of them. -/
theorem lookup_foldr
    (h : (items.foldr (fun i (l : AList fun _ : K => V) => l.insert (key i) (f i)) ∅).lookup k =
      some v) : ∃ i ∈ items, k = key i ∧ v = f i := by
  induction items with
  | nil => cases h
  | cons i items ih =>
    rcases lookup_insert_some h with ⟨hk, hv⟩ | ⟨-, h⟩
    · exact ⟨i, List.mem_cons_self, hk, hv⟩
    · obtain ⟨j, hj, hk, hv⟩ := ih h
      exact ⟨j, List.mem_cons_of_mem _ hj, hk, hv⟩

/-- Every item has an entry in a table that was built from items. -/
theorem lookup_foldr_isSome {i : ι} (hi : i ∈ items) :
    ((items.foldr (fun i (l : AList fun _ : K => V) => l.insert (key i) (f i)) ∅).lookup
      (key i)).isSome = true := by
  induction items with
  | nil => cases hi
  | cons j items ih =>
    by_cases hkey : key i = key j
    · rw [List.foldr_cons, hkey, AList.lookup_insert]
      rfl
    · rw [List.foldr_cons, AList.lookup_insert_ne hkey]
      rcases List.mem_cons.1 hi with rfl | hmem
      · exact absurd rfl hkey
      · exact ih hmem

end Tables

end Byoh.Foundation
