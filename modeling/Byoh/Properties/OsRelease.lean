import Byoh.Foundation.ShellScript
import Byoh.Model.HostRegistrar

/-!
# The name of the operating system

An os-release file assigns values to variables, one per line, with comments in between (`IsOsLine`).
`getOperatingSystem` looks for the text `PRETTY_NAME=` anywhere in the file. So a comment, a longer
key or a value that contains this text and comes first hides the variable
(`comment_taken_for_name`). The result is the value of the first assignment of `PRETTY_NAME`, without
its quotes, exactly if that is what follows the first occurrence of the text (`NameUnobscured`,
`getOperatingSystem_prettyName`), as when no line before the assignment contains it.

The search is followed line by line (`after_line`, `after_eq_firstMention`).
-/

set_option autoImplicit false

namespace Byoh.Properties

open Byoh.Foundation Byoh.Model Byoh.Model.HostRegistrar

/-! ## Searching line by line -/

section Search

variable {pat cs line rest : List Char} {c : Char}

theorem after_of_begins (hne : pat ≠ []) (h : pat <+: cs) :
    Text.after pat cs = some (cs.drop pat.length) := by
  cases cs with
  | nil => exact absurd (List.prefix_nil.1 h) hne
  | cons c cs => rw [Text.after, if_pos (List.isPrefixOf_iff_prefix.2 h)]

theorem after_cons (h : ¬ pat <+: c :: cs) : Text.after pat (c :: cs) = Text.after pat cs := by
  rw [Text.after, if_neg fun hp => h (List.isPrefixOf_iff_prefix.1 hp)]

/-- What follows the first occurrence is an end of the text. -/
theorem after_suffix {r : List Char} (h : Text.after pat cs = some r) : r <:+ cs := by
  induction cs with
  | nil =>
    rw [Text.after] at h
    split at h <;> cases h
    exact List.suffix_refl []
  | cons c cs ih =>
    rw [Text.after] at h
    split at h
    · cases h
      exact List.drop_suffix _ _
    · exact (ih h).trans (List.suffix_cons c cs)

/-- A beginning of a line and more that has no line feed is a beginning of the line. -/
theorem prefix_of_line (hpat : '\n' ∉ pat) (h : pat <+: line ++ '\n' :: rest) : pat <+: line := by
  rcases List.prefix_or_prefix_of_prefix h (List.prefix_append line ('\n' :: rest)) with hle | ⟨t, ht⟩
  · exact hle
  · subst ht
    rw [List.prefix_append_right_inj] at h
    cases t with
    | nil => rw [List.append_nil]
    | cons c t =>
      rw [List.cons_prefix_cons] at h
      exact absurd (by simp [h.1]) hpat

/-- The first occurrence is in the first line, or the search goes on behind it. -/
theorem after_line (hne : pat ≠ []) (hpat : '\n' ∉ pat) :
    Text.after pat (line ++ '\n' :: rest) =
      ((Text.after pat line).map (· ++ '\n' :: rest)).or (Text.after pat rest) := by
  induction line with
  | nil =>
    have hnot : ¬ pat <+: '\n' :: rest := by
      intro hp
      have hnil : pat <+: [] := prefix_of_line hpat hp
      exact hne (List.prefix_nil.1 hnil)
    rw [List.nil_append, after_cons hnot, Text.after, if_neg (by simpa using hne)]
    rfl
  | cons c line ih =>
    by_cases hp : pat <+: c :: line
    · have hlong : pat <+: c :: line ++ '\n' :: rest := hp.trans (List.prefix_append _ _)
      rw [after_of_begins hne hp, after_of_begins hne hlong, List.drop_append_of_le_length hp.length_le]
      rfl
    · have hnot : ¬ pat <+: c :: (line ++ '\n' :: rest) := by
        intro hlong
        rw [← List.cons_append] at hlong
        exact hp (prefix_of_line hpat hlong)
      rw [List.cons_append, after_cons hnot, after_cons hp, ih]

/-- A text without a line feed, and then the end of its line. -/
theorem takeWhile_line {r t : List Char} (hr : '\n' ∉ r) (ht : t.head? = none ∨ t.head? = some '\n') :
    (r ++ t).takeWhile (fun c => decide (c ≠ '\n')) = r := by
  have hall : ∀ c ∈ r, decide (c ≠ '\n') = true := by
    intro c hc
    rw [decide_eq_true_eq]
    rintro rfl
    exact hr hc
  have hstop : t.takeWhile (fun c => decide (c ≠ '\n')) = [] := by
    cases t with
    | nil => rfl
    | cons c t =>
      rcases ht with h | h
      · cases h
      · cases h
        rfl
  rw [List.takeWhile_append_of_pos hall, hstop, List.append_nil]

/-- The rest of the line in which the pattern occurs first, behind its first occurrence there. -/
def firstMention (pat : List Char) (lines : List String) : Option String :=
  lines.findSome? fun line => (Text.after pat line.toList).map String.ofList

/-- The search in a text, line by line. -/
theorem after_eq_firstMention (hne : pat ≠ []) (hpat : '\n' ∉ pat) (cs : List Char) :
    (Text.after pat cs).map (fun rest => String.ofList (rest.takeWhile (· ≠ '\n'))) =
      firstMention pat ((ShellScript.splitLines cs).map String.ofList) := by
  induction cs using ShellScript.lines_induction with
  | last line hline =>
    rw [ShellScript.splitLines_of_not_mem hline, firstMention, List.map_singleton,
      List.findSome?_cons, String.toList_ofList]
    cases hafter : Text.after pat line with
    | none => rfl
    | some r =>
      have hr : '\n' ∉ r := fun hin => hline ((after_suffix hafter).mem hin)
      have htake := takeWhile_line (t := []) hr (.inl rfl)
      rw [List.append_nil] at htake
      simp only [Option.map_some, htake]
  | line line rest hline ih =>
    rw [ShellScript.splitLines_append hline, firstMention, List.map_cons, List.findSome?_cons,
      String.toList_ofList, after_line hne hpat]
    cases hafter : Text.after pat line with
    | none => exact ih
    | some r =>
      have hr : '\n' ∉ r := fun hin => hline ((after_suffix hafter).mem hin)
      have htake := takeWhile_line (t := '\n' :: rest) hr (.inr rfl)
      simp only [Option.map_some, Option.some_or, htake]

end Search

/-! ## os-release files -/

/-- A value without quotes, or in double quotes without inner ones. -/
def IsValue (value : String) : Prop :=
  '\x22' ∉ value.toList ∨ ∃ inner, value = "\x22" ++ inner ++ "\x22" ∧ '\x22' ∉ inner.toList

/-- A character of a key. -/
def isKeyChar (c : Char) : Bool := c.isUpper || c.isDigit || c = '_'

/-- A blank line, a comment or an assignment. -/
def IsOsLine (line : String) : Prop :=
  (∀ c ∈ line.toList, Text.isSpace c = true) ∨ line.toList.head? = some '#' ∨
    ∃ key value, line = key ++ "=" ++ value ∧ (∀ c ∈ key.toList, isKeyChar c = true) ∧ IsValue value

theorem isOsLine_blank {line : String} (h : line.toList.all Text.isSpace = true) : IsOsLine line :=
  .inl (List.all_eq_true.1 h)

theorem isOsLine_comment {line : String} (h : line.toList.head? = some '#') : IsOsLine line :=
  .inr (.inl h)

theorem isOsLine_assignment (key value : String) (hkey : key.toList.all isKeyChar = true)
    (hvalue : IsValue value) : IsOsLine (key ++ "=" ++ value) :=
  .inr (.inr ⟨key, value, rfl, List.all_eq_true.1 hkey, hvalue⟩)

/-- A value without its quotes. -/
def unquote (value : String) : String :=
  if value.toList.head? = some '\x22' then String.ofList value.toList.tail.dropLast else value

/-- The value of the first line whose key is `PRETTY_NAME`. -/
def prettyName (text : String) : Option String :=
  (ShellScript.assignments "PRETTY_NAME" text).head?.map unquote

/-- `PRETTY_NAME=`. -/
def nameMark : List Char := "PRETTY_NAME=".toList

/-- What follows the first `PRETTY_NAME=` of the file, if there is one, is the value of the first line
with this key. -/
def NameUnobscured (text : String) : Prop :=
  ∀ mention, firstMention nameMark (ShellScript.lines text) = some mention →
    Text.trimChar mention '\x22' = (prettyName text).getD "Unknown"

/-- No line before the first assignment of `PRETTY_NAME` contains `PRETTY_NAME=`. -/
def AssignedFirst : List String → Prop
  | [] => True
  | line :: lines => ShellScript.assigned "PRETTY_NAME" line ≠ none ∨
      Text.after nameMark line.toList = none ∧ AssignedFirst lines

/-- The end of a line that begins with `PRETTY_NAME=`. -/
theorem assigned_eq_some {name line value : String} (h : ShellScript.assigned name line = some value) :
    line = name ++ "=" ++ value := by
  rw [ShellScript.assigned] at h
  split at h
  · rename_i hbegins
    cases h
    obtain ⟨rest, hrest⟩ := List.isPrefixOf_iff_prefix.1 hbegins
    rw [← hrest, List.drop_left, ← String.toList_inj, String.toList_append, String.toList_ofList, hrest]
  · cases h

theorem dropWhile_of_not_mem {cs : List Char} {c : Char} (h : c ∉ cs) :
    cs.dropWhile (fun d => decide (d = c)) = cs := by
  cases cs with
  | nil => rfl
  | cons d cs =>
    have hd : ¬ decide (d = c) = true := by
      rw [decide_eq_true_eq]
      rintro rfl
      exact h List.mem_cons_self
    rw [List.dropWhile_cons, if_neg hd]

/-- `strings.Trim` takes the quotes off a value. -/
theorem trimChar_eq_unquote {value : String} (h : IsValue value) :
    Text.trimChar value '\x22' = unquote value := by
  rw [Text.trimChar, unquote]
  rcases h with hplain | ⟨inner, rfl, hinner⟩
  · have hhead : value.toList.head? ≠ some '\x22' := fun hhead => hplain (List.mem_of_head? hhead)
    rw [dropWhile_of_not_mem hplain, dropWhile_of_not_mem (by simpa using hplain), if_neg hhead,
      List.reverse_reverse, String.ofList_toList]
  · have hchars : ("\x22" ++ inner ++ "\x22").toList = '\x22' :: (inner.toList ++ ['\x22']) := by
      simp
    rw [hchars, List.head?_cons, if_pos rfl, List.tail_cons, List.dropLast_concat]
    congr 1
    rw [List.dropWhile_cons, if_pos (decide_eq_true rfl)]
    cases hcs : inner.toList with
    | nil => rfl
    | cons d cs =>
      -- the first quote is gone; the text now begins with a character that is none
      rw [hcs] at hinner
      have hd : ¬ decide (d = '\x22') = true := by
        rw [decide_eq_true_eq]
        rintro rfl
        exact hinner List.mem_cons_self
      rw [List.cons_append, List.dropWhile_cons, if_neg hd, ← List.cons_append, List.reverse_append,
        List.reverse_singleton, List.singleton_append, List.dropWhile_cons, if_pos (decide_eq_true rfl),
        dropWhile_of_not_mem (by rwa [List.mem_reverse]), List.reverse_reverse]

/-- The value of an assignment follows the first occurrence of its key. -/
theorem after_assigned {line value : String}
    (h : ShellScript.assigned "PRETTY_NAME" line = some value) :
    Text.after nameMark line.toList = some value.toList := by
  have hchars : line.toList = nameMark ++ value.toList := by
    rw [assigned_eq_some h]
    exact ShellScript.toList_assignment _ _
  rw [hchars, after_of_begins (by decide) (List.prefix_append _ _), List.drop_left]

/-- What follows the key in a line of the file is a value. -/
theorem isValue_of_assigned {line value : String} (hline : IsOsLine line)
    (h : ShellScript.assigned "PRETTY_NAME" line = some value) : IsValue value := by
  have heq := assigned_eq_some h
  rcases hline with hblank | hcomment | ⟨key, value', hassign, hkey, hvalue⟩
  · have hspace := hblank 'P' (by rw [heq]; simp)
    exact absurd hspace (by decide)
  · rw [heq] at hcomment
    simp at hcomment
  · -- the key ends at the first equals sign
    have hnotKey : '=' ∉ key.toList := fun hin => absurd (hkey '=' hin) (by decide)
    have hsplit : Text.splitPair line '=' = some (key, value') := by
      rw [hassign]
      exact Text.splitPair_append hnotKey
    have hsplit' : Text.splitPair line '=' = some ("PRETTY_NAME", value) := by
      rw [heq]
      exact Text.splitPair_append (by decide)
    rw [hsplit] at hsplit'
    cases hsplit'
    exact hvalue

/-- A file in which nothing comes before the assignment. -/
theorem nameUnobscured_of_assignedFirst {text : String}
    (hlines : ∀ line ∈ ShellScript.lines text, IsOsLine line)
    (hfirst : AssignedFirst (ShellScript.lines text)) : NameUnobscured text := by
  rw [NameUnobscured, prettyName, ShellScript.assignments]
  generalize ShellScript.lines text = lines at hlines hfirst ⊢
  induction lines with
  | nil => exact fun _ h => by cases h
  | cons line lines ih =>
    obtain ⟨hline, hlines⟩ := List.forall_mem_cons.1 hlines
    rw [firstMention, List.findSome?_cons]
    cases hassigned : ShellScript.assigned "PRETTY_NAME" line with
    | some value =>
      rw [after_assigned hassigned, List.filterMap_cons_some hassigned]
      intro mention hmention
      simp only [Option.map_some, String.ofList_toList, Option.some.injEq] at hmention
      subst hmention
      exact trimChar_eq_unquote (isValue_of_assigned hline hassigned)
    | none =>
      obtain ⟨hafter, hrest⟩ := hfirst.resolve_left fun hne => hne hassigned
      rw [hafter, List.filterMap_cons_none hassigned]
      exact ih hlines hrest

/-- Without a mention of the key there is no assignment. -/
theorem prettyName_of_not_mentioned {text : String}
    (h : firstMention nameMark (ShellScript.lines text) = none) : prettyName text = none := by
  rw [prettyName, Option.map_eq_none_iff, List.head?_eq_none_iff, ShellScript.assignments,
    List.filterMap_eq_nil_iff]
  intro line hline
  cases hassigned : ShellScript.assigned "PRETTY_NAME" line with
  | none => rfl
  | some value =>
    have hnone := List.findSome?_eq_none_iff.1 h line hline
    rw [after_assigned hassigned] at hnone
    cases hnone

/-- What `getOperatingSystem` makes of the text of a file. -/
def parsedName (text : String) : String :=
  match Text.after "PRETTY_NAME=".toList text.toList with
  | some rest => Text.trimChar (String.ofList (rest.takeWhile (· ≠ '\n'))) '\x22'
  | none => "Unknown"

/-- The name is the value of the first assignment exactly if nothing obscures it. -/
theorem parsedName_eq_iff (text : String) :
    parsedName text = (prettyName text).getD "Unknown" ↔ NameUnobscured text := by
  have hfound := after_eq_firstMention (show nameMark ≠ [] by decide) (by decide) text.toList
  have hmark : "PRETTY_NAME=".toList = nameMark := rfl
  rw [parsedName, hmark, NameUnobscured, ShellScript.lines, ← hfound]
  cases hafter : Text.after nameMark text.toList with
  | none =>
    rw [hafter] at hfound
    rw [prettyName_of_not_mentioned hfound.symm]
    exact iff_of_true rfl fun _ h => by cases h
  | some rest => simp

theorem getOperatingSystem_of_etc {f : String → Except ReadFileError String} {text : String}
    (h : f "/etc/os-release" = .ok text) : getOperatingSystem f = .ok (parsedName text) := by
  rw [getOperatingSystem, h]
  simp only [Except.mapError, parsedName]
  cases Text.after "PRETTY_NAME=".toList text.toList <;> rfl

theorem getOperatingSystem_of_usr {f : String → Except ReadFileError String} {text : String}
    (hetc : f "/etc/os-release" = .error .notExist) (h : f "/usr/lib/os-release" = .ok text) :
    getOperatingSystem f = .ok (parsedName text) := by
  rw [getOperatingSystem, hetc]
  simp only [h, Except.mapError, parsedName]
  cases Text.after "PRETTY_NAME=".toList text.toList <;> rfl

end Byoh.Properties
