import Byoh.Model.AgentMain

/-!
# The label flag

`labelFlags.Set` has a path for one pair and a path for a list with commas. On parts that are not empty
the two do the same (`setLabels_join`), so setting a list is setting its parts one after the other
(`setPairs_none_iff`, `setPairs_foldl`), and what `String` prints in any order is read back
(`labels_roundtrip`).
-/

set_option autoImplicit false

namespace Byoh.Properties

open Byoh.Foundation Byoh.Model.AgentMain

variable {l : LabelFlags} {value : String} {parts : List String} {s : String}

/-! ## Lists of parts -/

/-- A part that a list may have: it is not empty and has no comma. -/
structure IsPart (s : String) : Prop where
  nonempty : s ≠ ""
  noComma : ',' ∉ s.toList

/-- The path for lists, on a list of one part, is the path for one pair. -/
theorem setPairs_singleton (hs : s ≠ "") : setPairs value l [s] = setPair value l s := by
  rw [setPairs, if_neg hs]
  rcases setPair value l s with ⟨l', _ | e⟩ <;> rfl

theorem setLabels_join (hne : parts ≠ []) (hparts : ∀ s ∈ parts, IsPart s) :
    setLabels l (Text.join parts ',') = setPairs (Text.join parts ',') l parts := by
  rw [setLabels, Text.split_join hne fun s hs => (hparts s hs).noComma]
  split
  · rfl
  · rename_i hlength
    obtain ⟨s, rfl⟩ : ∃ s, parts = [s] := by
      match parts, hne, hlength with
      | [s], _, _ => exact ⟨s, rfl⟩
      | s :: s' :: rest, _, h => exact absurd (by simp) h
    have hjoin : Text.join [s] ',' = s := by simp [Text.join]
    rw [hjoin, setPairs_singleton (hparts s List.mem_cons_self).nonempty]

/-- One part, as the whole argument. -/
theorem setLabels_part (hs : IsPart s) : setLabels l s = setPair s l s := by
  have hone := setLabels_join (l := l) (List.cons_ne_nil s []) (by simpa using hs)
  rw [show Text.join [s] ',' = s by simp [Text.join], setPairs_singleton hs.nonempty] at hone
  exact hone

/-! ## One part after the other -/

/-- Whether a pair can be set depends on its text only. -/
theorem setPair_none_iff : (setPair value l s).2 = none ↔ (Text.splitPair s '=').isSome = true := by
  rw [setPair]
  cases Text.splitPair s '=' <;> simp

theorem setPairs_cons (hs : s ≠ "") :
    setPairs value l (s :: parts) = match Text.splitPair s '=' with
      | none => (l, some ("invalid argument value. expect key=value, got " ++ value))
      | some (k, v) => setPairs value (l.insert (Text.trimSpace k) (Text.trimSpace v)) parts := by
  rw [setPairs, if_neg hs, setPair]
  cases Text.splitPair s '=' <;> rfl

theorem setPairs_none_iff (hparts : ∀ s ∈ parts, IsPart s) :
    (setPairs value l parts).2 = none ↔ ∀ s ∈ parts, (Text.splitPair s '=').isSome = true := by
  induction parts generalizing l with
  | nil => simp [setPairs]
  | cons s parts ih =>
    obtain ⟨hs, hrest⟩ := List.forall_mem_cons.1 hparts
    rw [List.forall_mem_cons, setPairs_cons hs.nonempty]
    cases Text.splitPair s '=' with
    | none => simp
    | some kv =>
      rw [Option.isSome_some]
      simpa using ih hrest

/-- A list that is set without an error has set its parts one after the other. -/
theorem setPairs_foldl (hparts : ∀ s ∈ parts, IsPart s) (hok : (setPairs value l parts).2 = none) :
    (setPairs value l parts).1 = parts.foldl (fun l s => (setLabels l s).1) l := by
  induction parts generalizing l with
  | nil => rfl
  | cons s parts ih =>
    obtain ⟨hs, hrest⟩ := List.forall_mem_cons.1 hparts
    rw [List.foldl_cons, setLabels_part hs, setPair]
    rw [setPairs_cons hs.nonempty] at hok ⊢
    cases hsplit : Text.splitPair s '=' with
    | none =>
      rw [hsplit] at hok
      cases hok
    | some kv =>
      rw [hsplit] at hok
      exact ih hrest hok

/-! ## Printing and reading -/

/-- A label that the flag can carry. -/
structure IsLabel (e : LabelEntry) : Prop where
  keyNonempty : e.1 ≠ ""
  keyPlain : ',' ∉ e.1.toList ∧ '=' ∉ e.1.toList
  valuePlain : ',' ∉ e.2.toList
  keyTrimmed : Text.Trimmed e.1
  valueTrimmed : Text.Trimmed e.2

theorem IsLabel.part {e : LabelEntry} (h : IsLabel e) : IsPart (labelText e) where
  nonempty := by
    intro hempty
    have hchars := congrArg String.toList hempty
    simp [labelText] at hchars
  noComma := by
    simp [labelText, h.keyPlain.1, h.valuePlain]

theorem setPair_labelText {e : LabelEntry} (h : IsLabel e) :
    setPair value l (labelText e) = (l.insert e.1 e.2, none) := by
  have hsplit : Text.splitPair (labelText e) '=' = some (e.1, e.2) :=
    Text.splitPair_append h.keyPlain.2
  rw [setPair, hsplit]
  dsimp only
  rw [Text.trimSpace_of_trimmed h.keyTrimmed, Text.trimSpace_of_trimmed h.valueTrimmed]

theorem setPairs_labelTexts {entries : List LabelEntry} (h : ∀ e ∈ entries, IsLabel e) :
    setPairs value l (entries.map labelText) =
      (entries.foldl (fun l e => l.insert e.1 e.2) l, none) := by
  induction entries generalizing l with
  | nil => rfl
  | cons e entries ih =>
    obtain ⟨he, hrest⟩ := List.forall_mem_cons.1 h
    rw [List.map_cons, List.foldl_cons, setPairs, if_neg he.part.nonempty, setPair_labelText he]
    exact ih hrest

/-- Inserting the entries of a map one after the other, in any order, gives the map. -/
theorem foldl_insert_eq {entries : List LabelEntry} (h : IsIteration l entries) :
    entries.foldl (fun l e => l.insert e.1 e.2) (∅ : LabelFlags) = l := by
  have hfold : ∀ es : List LabelEntry,
      es.foldl (fun l e => l.insert e.1 e.2) (∅ : LabelFlags) = es.reverse.toFinmap := by
    intro es
    induction es using List.reverseRecOn with
    | nil => rfl
    | append_singleton es e ih =>
      rw [List.foldl_append, ih, List.reverse_append]
      exact (Finmap.toFinmap_cons e.1 e.2 es.reverse).symm
  obtain ⟨es, hes⟩ := l
  have hentries : (entries : Multiset LabelEntry) = es := h
  subst hentries
  rw [hfold]
  refine Finmap.ext_lookup fun k => ?_
  rw [Finmap.dlookup_list_toFinmap]
  have hnodup : entries.NodupKeys := hes
  exact List.perm_dlookup k ((List.perm_nodupKeys (List.reverse_perm entries)).2 hnodup)
    (List.reverse_perm entries)

/-- What `String` prints for a map of labels, in any order of iteration, is read back by `Set` on an
empty map; and setting a list of parts is setting them one after the other, with success exactly when
each of them can be set. -/
theorem labels_roundtrip :
    (∀ (m : LabelFlags) (entries : List LabelEntry), IsIteration m entries → entries ≠ [] →
      (∀ e ∈ entries, IsLabel e) → setLabels ∅ (labelsString entries) = (m, none)) ∧
    ∀ (l : LabelFlags) (parts : List String), parts ≠ [] → (∀ s ∈ parts, IsPart s) →
      ((setLabels l (Text.join parts ',')).2 = none ↔ ∀ s ∈ parts, (setLabels l s).2 = none) ∧
      ((setLabels l (Text.join parts ',')).2 = none →
        (setLabels l (Text.join parts ',')).1 = parts.foldl (fun l s => (setLabels l s).1) l) := by
  constructor
  · intro m entries hiter hne hlabels
    have hparts : ∀ s ∈ entries.map labelText, IsPart s := by
      intro s hs
      obtain ⟨e, he, rfl⟩ := List.mem_map.1 hs
      exact (hlabels e he).part
    rw [labelsString, setLabels_join (by simpa using hne) hparts, setPairs_labelTexts hlabels,
      foldl_insert_eq hiter]
  · intro l parts hne hparts
    rw [setLabels_join hne hparts]
    refine ⟨?_, setPairs_foldl hparts⟩
    rw [setPairs_none_iff hparts]
    refine forall₂_congr fun s hs => ?_
    rw [setLabels_part (hparts s hs), setPair_none_iff]

/-- Two labels, one with a separator in its value, and a list in which a key is repeated. -/
theorem labels_roundtrip_two :
    setLabels ∅ (labelsString [⟨"cores", "2"⟩, ⟨"zone", "a=b"⟩]) =
        (List.toFinmap [⟨"cores", "2"⟩, ⟨"zone", "a=b"⟩], none) ∧
      ((setLabels ∅ (Text.join ["k=1", "k = 2"] ',')).2 = none ↔
        ∀ s ∈ ["k=1", "k = 2"], (setLabels ∅ s).2 = none) := by
  constructor
  · refine labels_roundtrip.1 _ _ rfl (List.cons_ne_nil _ _) ?_
    rw [List.forall_mem_cons, List.forall_mem_singleton]
    exact ⟨⟨by decide, by decide, by decide, by decide, by decide⟩,
      ⟨by decide, by decide, by decide, by decide, by decide⟩⟩
  · refine (labels_roundtrip.2 ∅ _ (List.cons_ne_nil _ _) ?_).1
    rw [List.forall_mem_cons, List.forall_mem_singleton]
    exact ⟨⟨by decide, by decide⟩, ⟨by decide, by decide⟩⟩

end Byoh.Properties
