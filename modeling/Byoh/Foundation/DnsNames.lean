import Mathlib.Data.List.Basic

/-!
# DNS-1123 names

The checks of apimachinery for the names of objects. A label is `[a-z0-9]([-a-z0-9]*[a-z0-9])?` of
at most 63 characters; a subdomain is one or more of these, without the bound on each, joined by
dots, of at most 253 characters together.

What a user of a name needs is collected in `isDNS1123Label_spec` and `isDNS1123Subdomain_spec`:
which characters occur in it, and that it begins and ends with a letter or digit.
-/

set_option autoImplicit false

namespace Byoh.Foundation.DnsNames

/-- `a-z` and `0-9`. -/
def isLowerAlphanum (c : Char) : Bool := c.isLower || c.isDigit

/-- A text that begins and ends with a letter or digit. -/
def endsOk (cs : List Char) : Bool := cs.head?.any isLowerAlphanum && cs.getLast?.any isLowerAlphanum

/-- The pattern of a label. -/
def isLabelText (cs : List Char) : Bool :=
  endsOk cs && cs.all fun c => isLowerAlphanum c || c = '-'

/-- `validation.IsDNS1123Label`. -/
def isDNS1123Label (s : String) : Bool := decide (s.length ≤ 63) && isLabelText s.toList

/-- `validation.IsDNS1123Subdomain`. -/
def isDNS1123Subdomain (s : String) : Bool :=
  decide (s.length ≤ 253) && (s.toList.splitOn '.').all isLabelText

/-! ## Bytes -/

theorem isAscii_of_lower {c : Char} (h : isLowerAlphanum c = true) : c.val ≤ 0x7F := by
  rw [isLowerAlphanum, Bool.or_eq_true] at h
  rcases h with h | h
  · have hz : c.val ≤ 'z'.val := of_decide_eq_true (Bool.and_eq_true_iff.1 h).2
    exact Nat.le_trans hz (by decide)
  · have hnine : c.val ≤ '9'.val := of_decide_eq_true (Bool.and_eq_true_iff.1 h).2
    exact Nat.le_trans hnine (by decide)

/-- A text of ASCII characters has one byte for each. -/
theorem utf8ByteSize_eq_length {s : String} (h : ∀ c ∈ s.toList, c.val ≤ 0x7F) :
    s.utf8ByteSize = s.length := by
  have hlist : ∀ cs : List Char, (∀ c ∈ cs, c.val ≤ 0x7F) →
      (String.ofList cs).utf8ByteSize = cs.length := by
    intro cs hcs
    induction cs with
    | nil => rfl
    | cons c cs ih =>
      have hsize : c.utf8Size = 1 := if_pos (hcs c List.mem_cons_self)
      have hcons : String.ofList (c :: cs) = String.singleton c ++ String.ofList cs := by
        simp
      rw [hcons, String.utf8ByteSize_append, String.utf8ByteSize_singleton, hsize,
        ih fun d hd => hcs d (List.mem_cons_of_mem _ hd), List.length_cons, Nat.add_comm]
  rw [← String.length_toList, ← hlist s.toList h, String.ofList_toList]

/-! ## Ends -/

theorem endsOk_iff {cs : List Char} : endsOk cs = true ↔
    (∃ c, cs.head? = some c ∧ isLowerAlphanum c = true) ∧
      ∃ c, cs.getLast? = some c ∧ isLowerAlphanum c = true := by
  simp [endsOk, Option.any_eq_true]

/-- The ends of a text joined of two are those of its parts. -/
theorem endsOk_append {as bs : List Char} (ha : endsOk as = true) (hb : endsOk bs = true)
    (sep : List Char) : endsOk (as ++ (sep ++ bs)) = true := by
  obtain ⟨⟨c, hc, hcok⟩, -⟩ := endsOk_iff.1 ha
  obtain ⟨-, d, hd, hdok⟩ := endsOk_iff.1 hb
  refine endsOk_iff.2 ⟨⟨c, ?_, hcok⟩, d, ?_, hdok⟩
  · rw [List.head?_append, hc]
    rfl
  · rw [List.getLast?_append, List.getLast?_append, hd]
    rfl

/-! ## What the checks give -/

/-- The characters of a label. -/
theorem isLabelText_chars {cs : List Char} (h : isLabelText cs = true) {c : Char} (hc : c ∈ cs) :
    isLowerAlphanum c = true ∨ c = '-' := by
  simp only [isLabelText, Bool.and_eq_true, List.all_eq_true, Bool.or_eq_true,
    decide_eq_true_eq] at h
  exact h.2 c hc

theorem isLabelText_endsOk {cs : List Char} (h : isLabelText cs = true) : endsOk cs = true := by
  simp only [isLabelText, Bool.and_eq_true] at h
  exact h.1

/-- Labels joined by dots have good ends and no other characters. -/
theorem joined_labels {parts : List (List Char)} (hne : parts ≠ [])
    (hparts : ∀ p ∈ parts, isLabelText p = true) :
    endsOk (['.'].intercalate parts) = true ∧
      ∀ c ∈ ['.'].intercalate parts, isLowerAlphanum c = true ∨ c = '-' ∨ c = '.' := by
  induction parts with
  | nil => exact absurd rfl hne
  | cons p rest ih =>
    have hp := hparts p List.mem_cons_self
    have hpchars : ∀ c ∈ p, isLowerAlphanum c = true ∨ c = '-' ∨ c = '.' := by
      intro c hc
      rcases isLabelText_chars hp hc with h | h
      · exact .inl h
      · exact .inr (.inl h)
    cases rest with
    | nil =>
      rw [List.intercalate_singleton]
      exact ⟨isLabelText_endsOk hp, hpchars⟩
    | cons q rest =>
      obtain ⟨hends, hchars⟩ :=
        ih (List.cons_ne_nil q rest) fun p hp => hparts p (List.mem_cons_of_mem _ hp)
      rw [List.intercalate_cons_cons, List.append_assoc]
      refine ⟨endsOk_append (isLabelText_endsOk hp) hends _, ?_⟩
      intro c hc
      rcases List.mem_append.1 hc with hc | hc
      · exact hpchars c hc
      · rcases List.mem_append.1 hc with hc | hc
        · exact .inr (.inr (List.mem_singleton.1 hc))
        · exact hchars c hc

/-- A label has good ends, at most 63 characters, and none but letters, digits and dashes. -/
theorem isDNS1123Label_spec {s : String} (h : isDNS1123Label s = true) :
    s.length ≤ 63 ∧ endsOk s.toList = true ∧
      ∀ c ∈ s.toList, isLowerAlphanum c = true ∨ c = '-' := by
  simp only [isDNS1123Label, Bool.and_eq_true, decide_eq_true_eq] at h
  exact ⟨h.1, isLabelText_endsOk h.2, fun _ => isLabelText_chars h.2⟩

/-- There is no dot in a label. -/
theorem not_mem_dot {s : String} (h : isDNS1123Label s = true) : '.' ∉ s.toList := by
  intro hdot
  rcases (isDNS1123Label_spec h).2.2 '.' hdot with hc | hc
  · exact absurd hc (by decide)
  · exact absurd hc (by decide)

/-- A subdomain has good ends, and no characters but letters, digits, dashes and dots. -/
theorem isDNS1123Subdomain_spec {s : String} (h : isDNS1123Subdomain s = true) :
    endsOk s.toList = true ∧
      ∀ c ∈ s.toList, isLowerAlphanum c = true ∨ c = '-' ∨ c = '.' := by
  simp only [isDNS1123Subdomain, Bool.and_eq_true, List.all_eq_true] at h
  have hjoined := joined_labels (List.splitOn_ne_nil '.' s.toList) h.2
  rwa [List.intercalate_splitOn] at hjoined

/-- A text is split at its first dot in one way only. -/
theorem split_at_dot {as bs as' bs' : List Char} (has : '.' ∉ as) (has' : '.' ∉ as')
    (h : as ++ '.' :: bs = as' ++ '.' :: bs') : as = as' ∧ bs = bs' := by
  induction as generalizing as' with
  | nil =>
    cases as' with
    | nil => exact ⟨rfl, List.tail_eq_of_cons_eq h⟩
    | cons c as' =>
      rw [List.nil_append, List.cons_append, List.cons.injEq] at h
      exact absurd (h.1 ▸ List.mem_cons_self) has'
  | cons c as ih =>
    cases as' with
    | nil =>
      rw [List.nil_append, List.cons_append, List.cons.injEq] at h
      exact absurd (h.1 ▸ List.mem_cons_self) has
    | cons d as' =>
      rw [List.cons_append, List.cons_append, List.cons.injEq] at h
      obtain ⟨rfl, hrest⟩ := h
      obtain ⟨rfl, hbs⟩ := ih (fun hc => has (List.mem_cons_of_mem _ hc))
        (fun hc => has' (List.mem_cons_of_mem _ hc)) hrest
      exact ⟨rfl, hbs⟩

end Byoh.Foundation.DnsNames
