import Byoh.Foundation.Sha256
import Byoh.Foundation.Text
import Byoh.Model.Objects

/-!
# Label values and label selectors

`generateSafeLabelValue` is the value under which `attachByoHost` records a machine on its host
and `FetchAttachedByoHost` finds it again. The selector functions are those of apimachinery:
a requirement is checked when it is built (`newRequirement`), and a selector holds of a label map
when each of its requirements does.
-/

set_option autoImplicit false

namespace Byoh.Model

open Byoh.Foundation

/-- `MaxK8sLabelValueLength`. -/
def maxK8sLabelValueLength : Nat := 63

/-- `LabelHashLength`. -/
def labelHashLength : Nat := 8

/-- `LabelSeparator`. -/
def labelSeparator : String := "-"

/-- `MaxLabelPrefixLength`. -/
def maxLabelPrefixLength : Nat :=
  maxK8sLabelValueLength - labelHashLength - labelSeparator.length

/-- The value of `AttachedByoMachineLabel` for a machine. A value that is too long for a label is
cut and ends in the first digits of the hash of the whole value. -/
def generateSafeLabelValue (ns name : String) : String :=
  let originalValue := ns ++ "." ++ name
  if originalValue.length ≤ maxK8sLabelValueLength then originalValue
  else
    let hashSuffix := (Sha256.digest originalValue.toUTF8.toList).hex.take labelHashLength
    let prefixToUse := originalValue.toList.take maxLabelPrefixLength
    String.ofList prefixToUse ++ labelSeparator ++ String.ofList hashSuffix

/-- The label value of the machine with this key. -/
def NamespacedName.labelValue (k : NamespacedName) : String := generateSafeLabelValue k.ns k.name

/-- The characters that may stand at the ends of a label value. -/
def isLabelEnd (c : Char) : Bool := c.isAlphanum

/-- The characters that may stand in a label value. -/
def isLabelChar (c : Char) : Bool := c.isAlphanum || c = '-' || c = '_' || c = '.'

/-- `validation.IsValidLabelValue`: empty, or at most 63 characters with an alphanumeric one at
each end. -/
def isValidLabelValue (v : String) : Bool :=
  v.toList.isEmpty ||
    (decide (v.toList.length ≤ 63) && v.toList.all isLabelChar &&
      (v.toList.head?.any isLabelEnd) && (v.toList.getLast?.any isLabelEnd))

/-- `selection.Operator`, as far as selectors of this repository use it; `Equals` is `opIn` with
one value. -/
inductive SelectionOperator where
  | opIn
  | opNotIn
  | opExists
  | opDoesNotExist
  deriving DecidableEq, Repr

/-- `labels.Requirement`. -/
structure Requirement where
  key : LabelKey
  operator : SelectionOperator
  values : List String
  deriving DecidableEq, Repr

/-- `labels.Selector`, the conjunction of its requirements. -/
abbrev Selector := List Requirement

/-- `labels.NewRequirement` for a valid key. -/
def newRequirement (key : LabelKey) (op : SelectionOperator) (vals : List String) :
    Except Err Requirement :=
  match op with
  | .opIn | .opNotIn =>
      if vals.isEmpty then .error (.text "for 'in', 'notin' operators, values set can't be empty")
      else if vals.all isValidLabelValue then .ok ⟨key, op, vals⟩
      else .error (.text "invalid label value")
  | .opExists | .opDoesNotExist =>
      if vals.isEmpty then .ok ⟨key, op, vals⟩
      else .error (.text "values set must be empty for exists and does not exist")

/-- `Requirement.Matches`. -/
def Requirement.matches (r : Requirement) (ls : Labels) : Bool :=
  match r.operator, ls.get r.key with
  | .opIn, some v => r.values.contains v
  | .opIn, none => false
  | .opNotIn, some v => !r.values.contains v
  | .opNotIn, none => true
  | .opExists, v => v.isSome
  | .opDoesNotExist, v => v.isNone

/-- `Selector.Matches`. -/
def Selector.matches (s : Selector) (ls : Labels) : Bool := s.all (·.matches ls)

/-- The requirement of one match expression. -/
def LabelSelectorRequirement.asRequirement (e : LabelSelectorRequirement) :
    Except Err Requirement :=
  match e.operator with
  | .opIn => newRequirement e.key .opIn e.values
  | .opNotIn => newRequirement e.key .opNotIn e.values
  | .opExists => newRequirement e.key .opExists e.values
  | .opDoesNotExist => newRequirement e.key .opDoesNotExist e.values
  | .other op => .error (.text (op ++ " is not a valid label selector operator"))

/-- `metav1.LabelSelectorAsSelector` for a selector that is not nil. -/
def labelSelectorAsSelector (s : LabelSelector) : Except Err Selector := do
  let ls ← s.matchLabels.mapM fun kv => newRequirement kv.1 .opIn [kv.2]
  let es ← s.matchExpressions.mapM LabelSelectorRequirement.asRequirement
  return ls ++ es

theorem Selector.matches_append (s t : Selector) (ls : Labels) :
    Selector.matches (s ++ t) ls = (s.matches ls && t.matches ls) := by
  simp [Selector.matches]

example : generateSafeLabelValue "default" "worker-0" = "default.worker-0" := by decide

end Byoh.Model
