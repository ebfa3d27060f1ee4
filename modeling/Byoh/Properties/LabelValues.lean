import Byoh.Foundation.DnsNames
import Byoh.Model.ByoMachineController

/-!
# The label value of a machine

`generateSafeLabelValue` has two forms: `namespace.name` as it is, or its first 54 characters, a
dash and eight digits of its hash. For names that the API server accepts, both forms are valid
label values (`generateSafeLabelValue_valid`), so the requirement that `FetchAttachedByoHost`
builds is never nil.

Within each form the value determines the machine, but the forms overlap: a machine may be named
like the shortened value of another one (`labelValue_collides`). Values determine machines exactly if
this does not happen (`labelValue_injective_iff`).
-/

set_option autoImplicit false

namespace Byoh.Properties

open Byoh.Foundation Byoh.Foundation.DnsNames Byoh.Model Byoh.Model.ByoMachineReconciler

/-! ## The two forms -/

/-- The value before it is shortened. -/
def originalValue (k : NamespacedName) : String := k.ns ++ "." ++ k.name

/-- The machine has a value that is too long for a label. -/
def OverLong (k : NamespacedName) : Prop := maxK8sLabelValueLength < (originalValue k).length

instance (k : NamespacedName) : Decidable (OverLong k) :=
  inferInstanceAs (Decidable (_ < _))

/-- The first digits of the hash of a value. -/
def hashSuffix (value : String) : List Char :=
  (Sha256.digest value.toUTF8.toList).hex.take labelHashLength

theorem toList_originalValue (k : NamespacedName) :
    (originalValue k).toList = k.ns.toList ++ '.' :: k.name.toList := by
  simp [originalValue]

theorem labelValue_short {k : NamespacedName} (h : ¬OverLong k) : k.labelValue = originalValue k :=
  if_pos (Nat.le_of_not_lt h)

theorem labelValue_long {k : NamespacedName} (h : OverLong k) :
    k.labelValue.toList =
      (originalValue k).toList.take maxLabelPrefixLength ++ '-' :: hashSuffix (originalValue k) := by
  have hlong : k.labelValue = String.ofList ((originalValue k).toList.take maxLabelPrefixLength) ++
      labelSeparator ++ String.ofList (hashSuffix (originalValue k)) := if_neg (Nat.not_le_of_gt h)
  rw [hlong]
  simp [labelSeparator]

/-! ## Digits -/

/-- The digits of a hash. -/
def isHexDigit (c : Char) : Bool := c ∈ "0123456789abcdef".toList

theorem hexDigit_isHexDigit (n : Nat) : isHexDigit (Sha256.hexDigit n) = true := by
  rw [isHexDigit, decide_eq_true_eq, Sha256.hexDigit, List.getD_eq_getElem?_getD]
  cases h : "0123456789abcdef".toList[n]? with
  | none => decide
  | some c => exact List.mem_of_getElem? h

/-- The first eight digits of a digest are those of its first word. -/
theorem hashSuffix_eq (value : String) :
    hashSuffix value = Sha256.hexWord (Sha256.digest value.toUTF8.toList).a := by
  rw [hashSuffix, Sha256.Digest.hex, List.flatMap_cons]
  exact List.take_left' (by simp [Sha256.hexWord, labelHashLength])

theorem hashSuffix_length (value : String) : (hashSuffix value).length = labelHashLength := by
  rw [hashSuffix_eq]
  simp [Sha256.hexWord, labelHashLength]

theorem isHexDigit_of_mem_hashSuffix {value : String} {c : Char} (hc : c ∈ hashSuffix value) :
    isHexDigit c = true := by
  rw [hashSuffix_eq, Sha256.hexWord] at hc
  obtain ⟨i, -, rfl⟩ := List.mem_map.1 hc
  exact hexDigit_isHexDigit _

theorem isHexDigit_lower {c : Char} (h : isHexDigit c = true) : isLowerAlphanum c = true := by
  have hall : ∀ c ∈ "0123456789abcdef".toList, isLowerAlphanum c = true :=
    List.all_eq_true.1 (by decide)
  exact hall c (by simpa [isHexDigit] using h)

/-! ## Machines with names that the API server accepts -/

/-- The namespace is a DNS-1123 label and the name a DNS-1123 subdomain. -/
structure ValidKey (k : NamespacedName) : Prop where
  ns : isDNS1123Label k.ns = true
  name : isDNS1123Subdomain k.name = true

instance (k : NamespacedName) : Decidable (ValidKey k) :=
  decidable_of_iff (isDNS1123Label k.ns = true ∧ isDNS1123Subdomain k.name = true)
    ⟨fun h => ⟨h.1, h.2⟩, fun h => ⟨h.ns, h.name⟩⟩

/-- The characters of a value. -/
def isValueChar (c : Char) : Prop := isLowerAlphanum c = true ∨ c = '-' ∨ c = '.'

theorem isAlphanum_of_lower {c : Char} (h : isLowerAlphanum c = true) : c.isAlphanum = true := by
  rw [isLowerAlphanum, Bool.or_eq_true] at h
  rcases h with h | h
  · have halpha : c.isAlpha = true := Bool.or_eq_true_iff.2 (.inr h)
    exact Bool.or_eq_true_iff.2 (.inl halpha)
  · exact Bool.or_eq_true_iff.2 (.inr h)

theorem isValueChar.isLabelChar {c : Char} (h : isValueChar c) : isLabelChar c = true := by
  rcases h with h | rfl | rfl
  · simp only [Model.isLabelChar, isAlphanum_of_lower h, Bool.true_or]
  · decide
  · decide

theorem isLabelEnd_of_lower {c : Char} (h : isLowerAlphanum c = true) :
    isLabelEnd c = true := by
  exact isAlphanum_of_lower h

section Valid

variable {k : NamespacedName}

theorem ValidKey.original_ends (h : ValidKey k) : endsOk (originalValue k).toList = true := by
  rw [toList_originalValue]
  exact endsOk_append (isDNS1123Label_spec h.ns).2.1 (isDNS1123Subdomain_spec h.name).1 ['.']

theorem ValidKey.original_chars (h : ValidKey k) : ∀ c ∈ (originalValue k).toList, isValueChar c := by
  intro c hc
  rw [toList_originalValue, List.mem_append, List.mem_cons] at hc
  rcases hc with hc | rfl | hc
  · rcases (isDNS1123Label_spec h.ns).2.2 c hc with hc | hc
    · exact .inl hc
    · exact .inr (.inl hc)
  · exact .inr (.inr rfl)
  · exact (isDNS1123Subdomain_spec h.name).2 c hc

/-- A shortened value has exactly 63 characters. -/
theorem labelValue_long_length (h : OverLong k) : k.labelValue.length = maxK8sLabelValueLength := by
  rw [← String.length_toList, labelValue_long h, List.length_append, List.length_cons,
    hashSuffix_length, List.length_take_of_le]
  · decide
  · rw [String.length_toList]
    exact Nat.le_trans (by decide) (Nat.le_of_lt h)

theorem labelValue_length_le (k : NamespacedName) : k.labelValue.length ≤ maxK8sLabelValueLength := by
  by_cases h : OverLong k
  · exact Nat.le_of_eq (labelValue_long_length h)
  · rw [labelValue_short h]
    exact Nat.le_of_not_lt h

theorem ValidKey.value_chars (h : ValidKey k) : ∀ c ∈ k.labelValue.toList, isValueChar c := by
  intro c hc
  by_cases hlong : OverLong k
  · rw [labelValue_long hlong, List.mem_append, List.mem_cons] at hc
    rcases hc with hc | rfl | hc
    · exact h.original_chars c (List.mem_of_mem_take hc)
    · exact .inr (.inl rfl)
    · exact .inl (isHexDigit_lower (isHexDigit_of_mem_hashSuffix hc))
  · rw [labelValue_short hlong] at hc
    exact h.original_chars c hc

/-- A value begins like the namespace and ends like the name, or with a digit of the hash. The cut
may fall anywhere, since a dash follows it. -/
theorem ValidKey.value_ends (h : ValidKey k) : endsOk k.labelValue.toList = true := by
  by_cases hlong : OverLong k
  · obtain ⟨⟨c, hc, hcok⟩, -⟩ := endsOk_iff.1 h.original_ends
    obtain ⟨d, hd⟩ : ∃ d, (hashSuffix (originalValue k)).getLast? = some d := by
      cases hs : (hashSuffix (originalValue k)).getLast? with
      | some d => exact ⟨d, rfl⟩
      | none =>
        have hlen := hashSuffix_length (originalValue k)
        rw [List.getLast?_eq_none_iff.1 hs] at hlen
        exact absurd hlen (by decide)
    rw [labelValue_long hlong]
    refine endsOk_iff.2 ⟨⟨c, ?_, hcok⟩, d, ?_, ?_⟩
    · rw [List.head?_append, List.head?_take, if_neg (by decide), hc]
      rfl
    · rw [List.getLast?_append, List.getLast?_cons, hd]
      rfl
    · exact isHexDigit_lower (isHexDigit_of_mem_hashSuffix (List.mem_of_getLast? hd))
  · rw [labelValue_short hlong]
    exact h.original_ends

/-- The value of a machine is a valid label value. -/
theorem ValidKey.value_valid (h : ValidKey k) : isValidLabelValue k.labelValue = true := by
  obtain ⟨⟨c, hc, hcok⟩, d, hd, hdok⟩ := endsOk_iff.1 h.value_ends
  have hlen : k.labelValue.toList.length ≤ 63 := by
    rw [String.length_toList]
    exact labelValue_length_le k
  have hchars : k.labelValue.toList.all isLabelChar = true :=
    List.all_eq_true.2 fun c hc => (h.value_chars c hc).isLabelChar
  simp only [isValidLabelValue, hlen, hchars, hc, hd, Option.any_some, decide_true,
    isLabelEnd_of_lower hcok, isLabelEnd_of_lower hdok, Bool.and_self, Bool.or_true]

/-- The value of a machine has as many bytes as characters. -/
theorem ValidKey.value_bytes (h : ValidKey k) :
    k.labelValue.utf8ByteSize = k.labelValue.length := by
  refine utf8ByteSize_eq_length fun c hc => ?_
  rcases h.value_chars c hc with hc | rfl | rfl
  · exact isAscii_of_lower hc
  · decide
  · decide

/-- The requirement for the label of a machine is built without an error. -/
theorem ValidKey.newRequirement_ok (h : ValidKey k) :
    newRequirement .attachedByoMachine .opIn [k.labelValue] =
      .ok ⟨.attachedByoMachine, .opIn, [k.labelValue]⟩ := by
  simp [newRequirement, h.value_valid]

/-- The requirement is never nil: the listing for it is sent, and its error or its first host is
returned. -/
theorem ValidKey.fetch_ensures (h : ValidKey k) (s : Scope) (w : World) :
    GoM.Ensures exec (fun _ => True) (fetchAttachedByoHost k.name k.ns) s w fun e _ _ =>
      (∃ err, e = .err err) ∨ ∃ pick, e =
        .ok (listHosts w [⟨.attachedByoMachine, .opIn, [k.labelValue]⟩] none pick).head? := by
  have hreq := h.newRequirement_ok
  rw [NamespacedName.labelValue] at hreq
  delta fetchAttachedByoHost
  rw [hreq]
  refine .call_bind trivial fun o _ => ?_
  cases hread : o.readOk with
  | false =>
    simp only [exec, hread]
    exact .throw (.inl ⟨_, rfl⟩)
  | true =>
    simp only [exec, hread]
    exact .pure (.inr ⟨o.pick, rfl⟩)

end Valid

/-- For a namespace that is a DNS-1123 label and a name that is a DNS-1123 subdomain, the label
value is accepted wherever it goes: it has the format of a label value, `labels.NewRequirement`
returns no error for it, so `FetchAttachedByoHost` dereferences no nil requirement, and the API
server accepts the label that `attachByoHost` writes. -/
theorem generateSafeLabelValue_valid (ns name : String) (hns : isDNS1123Label ns = true)
    (hname : isDNS1123Subdomain name = true) :
    (generateSafeLabelValue ns name).utf8ByteSize ≤ 63 ∧
    (∃ c, (generateSafeLabelValue ns name).toList.head? = some c ∧ c.isAlphanum = true) ∧
    (∃ c, (generateSafeLabelValue ns name).toList.getLast? = some c ∧ c.isAlphanum = true) ∧
    (∀ c ∈ (generateSafeLabelValue ns name).toList,
      c.isAlphanum = true ∨ c = '-' ∨ c = '_' ∨ c = '.') ∧
    newRequirement .attachedByoMachine .opIn [generateSafeLabelValue ns name] =
      .ok ⟨.attachedByoMachine, .opIn, [generateSafeLabelValue ns name]⟩ ∧
    (∀ (s : Scope) (os : List Outcome) (w : World) (msg : String),
      (Prog.run exec os (fetchAttachedByoHost name ns s) w).1.1 ≠ .panic msg) ∧
    (∀ (s : Scope) (dataSecretName version : String) (h : ByoHost), s.byoMachine.ns = ns →
      s.byoMachine.name = name → ∃ v,
        ((attachmentFor s dataSecretName version).apply h).labels.get .attachedByoMachine = some v ∧
          v = generateSafeLabelValue ns name ∧ isValidLabelValue v = true) := by
  have h : ValidKey ⟨ns, name⟩ := ⟨hns, hname⟩
  obtain ⟨⟨c, hc, hcok⟩, d, hd, hdok⟩ := endsOk_iff.1 h.value_ends
  refine ⟨?_, ⟨c, hc, isLabelEnd_of_lower hcok⟩, ⟨d, hd, isLabelEnd_of_lower hdok⟩, ?_,
    h.newRequirement_ok, ?_, ?_⟩
  · exact h.value_bytes.trans_le (labelValue_length_le _)
  · intro c hc
    have hlabel := (h.value_chars c hc).isLabelChar
    simp only [Model.isLabelChar, Bool.or_eq_true, decide_eq_true_eq] at hlabel
    rcases hlabel with ((hlabel | hlabel) | hlabel) | hlabel
    · exact .inl hlabel
    · exact .inr (.inl hlabel)
    · exact .inr (.inr (.inl hlabel))
    · exact .inr (.inr (.inr hlabel))
  · intro s os w msg hpanic
    have hends := h.fetch_ensures s w os fun _ _ => trivial
    simp only [hpanic, reduceCtorEq, exists_false, or_self] at hends
  · rintro s dataSecretName version b rfl rfl
    refine ⟨_, ?_, rfl, h.value_valid⟩
    simp [Attachment.apply, attachmentFor]

theorem generateSafeLabelValue_valid_cut :
    (generateSafeLabelValue "default" (String.ofList (List.replicate 60 'x'))).utf8ByteSize ≤ 63 :=
  (generateSafeLabelValue_valid "default" (String.ofList (List.replicate 60 'x')) (by decide)
    (by decide)).1

/-! ## The machine of a value -/

/-- The text has the shape of a shortened value: 63 characters, of which the last nine are a dash
and eight digits of a hash. -/
def looksShortened (value : String) : Bool :=
  decide (value.length = maxK8sLabelValueLength) &&
    decide (value.toList[maxLabelPrefixLength]? = some '-') &&
      (value.toList.drop (maxLabelPrefixLength + 1)).all isHexDigit

/-- The machines that are considered have names that the API server accepts, and the shortened hash
does not collide on the over-long ones among them. -/
structure Considered (names : NamespacedName → Prop) : Prop where
  valid : ∀ k, names k → ValidKey k
  noCollision : ∀ k k', names k → names k' → OverLong k → OverLong k' →
    hashSuffix (originalValue k) = hashSuffix (originalValue k') → originalValue k = originalValue k'

/-- No value that is used as it is equals the shortened value of an over-long one. -/
def FormsDisjoint (names : NamespacedName → Prop) : Prop :=
  ∀ k k', names k → names k' → OverLong k → ¬OverLong k' →
    (originalValue k').toList ≠
      (originalValue k).toList.take maxLabelPrefixLength ++ '-' :: hashSuffix (originalValue k)

/-- There is no dot in a namespace, so the first dot of a value ends it. -/
theorem originalValue_injective {k k' : NamespacedName} (h : ValidKey k) (h' : ValidKey k')
    (heq : originalValue k = originalValue k') : k = k' := by
  have hlists : k.ns.toList ++ '.' :: k.name.toList = k'.ns.toList ++ '.' :: k'.name.toList := by
    rw [← toList_originalValue, ← toList_originalValue, heq]
  obtain ⟨hns, hname⟩ := split_at_dot (not_mem_dot h.ns) (not_mem_dot h'.ns) hlists
  cases k
  cases k'
  rw [NamespacedName.mk.injEq]
  exact ⟨String.toList_injective hns, String.toList_injective hname⟩

theorem take_length {k : NamespacedName} (h : OverLong k) :
    ((originalValue k).toList.take maxLabelPrefixLength).length = maxLabelPrefixLength := by
  rw [List.length_take_of_le]
  rw [String.length_toList]
  exact Nat.le_trans (by decide) (Nat.le_of_lt h)

/-- Shortened values are equal only if the hashes are. -/
theorem hashSuffix_eq_of_labelValue_eq {k k' : NamespacedName} (h : OverLong k) (h' : OverLong k')
    (heq : k.labelValue = k'.labelValue) :
    hashSuffix (originalValue k) = hashSuffix (originalValue k') := by
  have hlists := congrArg String.toList heq
  rw [labelValue_long h, labelValue_long h'] at hlists
  obtain ⟨-, hsuffix⟩ := List.append_inj hlists ((take_length h).trans (take_length h').symm)
  exact List.tail_eq_of_cons_eq hsuffix

theorem looksShortened_labelValue {k : NamespacedName} (h : OverLong k) :
    looksShortened k.labelValue = true := by
  have hat : k.labelValue.toList[maxLabelPrefixLength]? = some '-' := by
    rw [labelValue_long h, List.getElem?_append_right (Nat.le_of_eq (take_length h)), take_length h,
      Nat.sub_self]
    rfl
  have hrest : k.labelValue.toList.drop (maxLabelPrefixLength + 1) =
      hashSuffix (originalValue k) := by
    rw [labelValue_long h, ← List.singleton_append, ← List.append_assoc, List.drop_left']
    rw [List.length_append, take_length h, List.length_singleton]
  simp only [looksShortened, labelValue_long_length h, hat, hrest, decide_true, Bool.true_and,
    List.all_eq_true]
  exact fun c hc => isHexDigit_of_mem_hashSuffix hc

section Considered

variable {names : NamespacedName → Prop}

/-- It is enough that no value that is used as it is looks like a shortened one. -/
theorem formsDisjoint_of_looks
    (h : ∀ k, names k → ¬OverLong k → looksShortened (originalValue k) = false) :
    FormsDisjoint names := by
  intro k k' _ hk' hlong hshort heq
  have hvalue : originalValue k' = k.labelValue := String.toList_injective (by
    rw [labelValue_long hlong, heq])
  have hlooks := h k' hk' hshort
  rw [hvalue, looksShortened_labelValue hlong] at hlooks
  cases hlooks

/-- A value of one form is not a value of the other. -/
theorem FormsDisjoint.labelValue_ne (h : FormsDisjoint names) {k k' : NamespacedName} (hk : names k)
    (hk' : names k') (hlong : OverLong k) (hshort : ¬OverLong k') : k.labelValue ≠ k'.labelValue := by
  intro heq
  refine h k k' hk hk' hlong hshort ?_
  rw [← labelValue_long hlong, heq, labelValue_short hshort]

/-- The label value determines the machine. -/
theorem FormsDisjoint.eq_of_labelValue_eq (h : FormsDisjoint names) (hnames : Considered names)
    {k k' : NamespacedName} (hk : names k) (hk' : names k') (heq : k.labelValue = k'.labelValue) :
    k = k' := by
  refine originalValue_injective (hnames.valid k hk) (hnames.valid k' hk') ?_
  by_cases hlong : OverLong k
  · by_cases hlong' : OverLong k'
    · exact hnames.noCollision k k' hk hk' hlong hlong'
        (hashSuffix_eq_of_labelValue_eq hlong hlong' heq)
    · exact absurd heq (h.labelValue_ne hk hk' hlong hlong')
  · by_cases hlong' : OverLong k'
    · exact absurd heq.symm (h.labelValue_ne hk' hk hlong' hlong)
    · rw [← labelValue_short hlong, ← labelValue_short hlong', heq]

/-- Two machines whose values are equal across the two forms. -/
theorem exists_collision (h : ¬FormsDisjoint names) :
    ∃ k k', names k ∧ names k' ∧ k ≠ k' ∧ k.labelValue = k'.labelValue := by
  simp only [FormsDisjoint, not_forall, not_not] at h
  obtain ⟨k, k', hk, hk', hlong, hshort, heq⟩ := h
  refine ⟨k, k', hk, hk', ?_, ?_⟩
  · rintro rfl
    exact hshort hlong
  · refine String.toList_injective ?_
    rw [labelValue_long hlong, labelValue_short hshort, heq]

/-- Label values determine machines exactly if the two forms do not meet. -/
theorem labelValue_injective_iff (hnames : Considered names) :
    (∀ k k', names k → names k' → k.labelValue = k'.labelValue → k = k') ↔ FormsDisjoint names := by
  constructor
  · intro hinj
    by_contra hmeet
    obtain ⟨k, k', hk, hk', hne, heq⟩ := exists_collision hmeet
    exact hne (hinj k k' hk hk' heq)
  · intro h k k' hk hk' heq
    exact h.eq_of_labelValue_eq hnames hk hk' heq

end Considered

/-- A machine named like the shortened value of another one has its label value. -/
theorem labelValue_collides :
    let long : NamespacedName := ⟨"default",
      "worker-pool-with-a-name-that-is-cut-before-it-ends-md-0-7c9f4-x2x9k"⟩
    let short : NamespacedName := ⟨"default",
      "worker-pool-with-a-name-that-is-cut-before-it--7231b761"⟩
    ValidKey long ∧ ValidKey short ∧ OverLong long ∧ ¬OverLong short ∧
      generateSafeLabelValue long.ns long.name = generateSafeLabelValue short.ns short.name ∧
        long ≠ short := by
  decide +kernel

end Byoh.Properties
