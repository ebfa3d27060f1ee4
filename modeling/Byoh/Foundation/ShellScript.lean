import Mathlib.Data.List.Basic

/-!
# Lines and assignments of shell scripts

A script is a text of lines. `assignments` are the values that its lines of the form `NAME=value`
give to a variable, in order; a value is taken as it stands, so it has to be free of characters
that a shell expands.

A script that is put together from lines without line feeds has those lines (`lines_unlines`) and
their assignments (`assignments_unlines`).
-/

set_option autoImplicit false

namespace Byoh.Foundation.ShellScript

/-- A character in front of the first line. -/
def consFirst (c : Char) : List (List Char) → List (List Char)
  | [] => [[c]]
  | line :: lines => (c :: line) :: lines

/-- Cut at the line feeds. -/
def splitLines : List Char → List (List Char)
  | [] => [[]]
  | c :: cs => if c = '\n' then [] :: splitLines cs else consFirst c (splitLines cs)

/-- The lines of a text. -/
def lines (script : String) : List String := (splitLines script.toList).map String.ofList

/-- The text of lines, each with a line feed after it. -/
def unlines (ls : List String) : String := String.join (ls.map (· ++ "\n"))

/-- The value that a line gives to a variable. -/
def assigned (name line : String) : Option String :=
  if (name ++ "=").toList.isPrefixOf line.toList then
    some (String.ofList (line.toList.drop (name ++ "=").toList.length))
  else none

/-- The values that the lines of a script give to a variable. -/
def assignments (name script : String) : List String := (lines script).filterMap (assigned name)

/-- The first line feed ends the first line. -/
theorem splitLines_append {cs : List Char} (h : '\n' ∉ cs) (rest : List Char) :
    splitLines (cs ++ '\n' :: rest) = cs :: splitLines rest := by
  induction cs with
  | nil => rfl
  | cons c cs ih =>
    have hc : c ≠ '\n' := by
      rintro rfl
      exact h List.mem_cons_self
    rw [List.cons_append, splitLines, if_neg hc, ih fun hin => h (List.mem_cons_of_mem _ hin)]
    rfl

theorem splitLines_of_not_mem {cs : List Char} (h : '\n' ∉ cs) : splitLines cs = [cs] := by
  induction cs with
  | nil => rfl
  | cons c cs ih =>
    obtain ⟨hc, hcs⟩ := not_or.1 (List.mem_cons.not.1 h)
    rw [splitLines, if_neg (Ne.symm hc), ih hcs]
    rfl

/-- Induction over the lines of a text. -/
theorem lines_induction {P : List Char → Prop} (last : ∀ line, '\n' ∉ line → P line)
    (line : ∀ line rest, '\n' ∉ line → P rest → P (line ++ '\n' :: rest)) (cs : List Char) :
    P cs := by
  induction hn : cs.length using Nat.strongRecOn generalizing cs with
  | _ n ih =>
    by_cases h : '\n' ∈ cs
    · obtain ⟨first, rest, rfl, hfirst⟩ := List.eq_append_cons_of_mem h
      refine line first rest hfirst (ih rest.length ?_ rest rfl)
      rw [← hn, List.length_append, List.length_cons]
      omega
    · exact last cs h

theorem lines_cons {line : String} (h : '\n' ∉ line.toList) (rest : String) :
    lines (line ++ "\n" ++ rest) = line :: lines rest := by
  have hlist : (line ++ "\n" ++ rest).toList = line.toList ++ '\n' :: rest.toList := by
    simp
  rw [lines, hlist, splitLines_append h, List.map_cons, String.ofList_toList]
  rfl

@[simp] theorem unlines_nil : unlines [] = "" := rfl

theorem unlines_cons (line : String) (ls : List String) :
    unlines (line :: ls) = line ++ "\n" ++ unlines ls := by
  simp [unlines]

theorem unlines_append (ls ls' : List String) : unlines (ls ++ ls') = unlines ls ++ unlines ls' := by
  rw [unlines, List.map_append, String.join_append]
  rfl

/-- The lines of a text of lines; after the last line feed comes an empty line. -/
theorem lines_unlines {ls : List String} (h : ∀ l ∈ ls, '\n' ∉ l.toList) :
    lines (unlines ls) = ls ++ [""] := by
  induction ls with
  | nil => rfl
  | cons line ls ih =>
    rw [unlines_cons, lines_cons (h line List.mem_cons_self),
      ih fun l hl => h l (List.mem_cons_of_mem _ hl), List.cons_append]

/-- A text is its lines, but for the line feed at the end. -/
theorem unlines_lines (s : String) : unlines (lines s) = s ++ "\n" := by
  have hlist : ∀ cs : List Char,
      unlines ((splitLines cs).map String.ofList) = String.ofList cs ++ "\n" := by
    intro cs
    induction cs using lines_induction with
    | last line hline =>
      rw [splitLines_of_not_mem hline, List.map_singleton, unlines_cons, unlines_nil,
        String.append_empty]
    | line line rest hline ih =>
      have hfeed : String.singleton '\n' = "\n" := rfl
      rw [splitLines_append hline, List.map_cons, unlines_cons, ih, String.ofList_append,
        String.ofList_cons, hfeed, String.append_assoc, String.append_assoc, String.append_assoc]
  rw [lines, hlist, String.ofList_toList]

/-- The characters of the lines of a text are its characters other than the line feed. -/
theorem mem_of_mem_lines {s line : String} {c : Char} (hline : line ∈ lines s)
    (hc : c ∈ line.toList) : c ≠ '\n' ∧ c ∈ s.toList := by
  have hlist : ∀ cs : List Char, ∀ l ∈ splitLines cs, ∀ c ∈ l, c ≠ '\n' ∧ c ∈ cs := by
    intro cs
    induction cs using lines_induction with
    | last line hline =>
      rw [splitLines_of_not_mem hline, List.forall_mem_singleton]
      exact fun c hc => ⟨fun heq => hline (heq ▸ hc), hc⟩
    | line line rest hline ih =>
      rw [splitLines_append hline, List.forall_mem_cons]
      refine ⟨fun c hc => ⟨fun heq => hline (heq ▸ hc), List.mem_append_left _ hc⟩, ?_⟩
      intro l hl c hc
      obtain ⟨hne, hin⟩ := ih l hl c hc
      exact ⟨hne, List.mem_append_right _ (List.mem_cons_of_mem _ hin)⟩
  obtain ⟨l, hl, rfl⟩ := List.mem_map.1 hline
  rw [String.toList_ofList] at hc
  exact hlist _ l hl c hc

/-- The characters of a text of lines. -/
theorem mem_unlines {ls : List String} {c : Char} (h : c ∈ (unlines ls).toList) :
    c = '\n' ∨ ∃ l ∈ ls, c ∈ l.toList := by
  induction ls with
  | nil => cases h
  | cons line ls ih =>
    rw [← List.singleton_append, unlines_append, String.toList_append, List.mem_append] at h
    rcases h with h | h
    · simp only [unlines, List.map_cons, List.map_nil, String.join_cons, String.join_nil,
        String.append_empty, String.toList_append, List.mem_append] at h
      rcases h with h | h
      · exact .inr ⟨line, List.mem_cons_self, h⟩
      · exact .inl (List.mem_singleton.1 h)
    · rcases ih h with hc | ⟨l, hl, hc⟩
      · exact .inl hc
      · exact .inr ⟨l, List.mem_cons_of_mem _ hl, hc⟩

theorem assignments_unlines (name : String) {ls : List String} (h : ∀ l ∈ ls, '\n' ∉ l.toList) :
    assignments name (unlines ls) = ls.filterMap (assigned name) := by
  have hempty : assigned name "" = none := by
    rw [assigned, if_neg]
    rw [List.isPrefixOf_iff_prefix, String.toList_empty, List.prefix_nil, String.toList_append]
    exact List.append_ne_nil_of_right_ne_nil _ (List.cons_ne_nil _ _)
  rw [assignments, lines_unlines h, List.filterMap_append]
  simp [hempty]

theorem toList_assignment (name value : String) :
    (name ++ "=" ++ value).toList = (name ++ "=").toList ++ value.toList := String.toList_append

/-- The line that assigns the variable. -/
theorem assigned_self (name value : String) : assigned name (name ++ "=" ++ value) = some value := by
  have hbegins : (name ++ "=").toList.isPrefixOf ((name ++ "=").toList ++ value.toList) = true :=
    List.isPrefixOf_iff_prefix.2 (List.prefix_append _ _)
  rw [assigned, toList_assignment, if_pos hbegins, List.drop_left, String.ofList_toList]

/-- A line that assigns another variable. -/
theorem assigned_ne {name other : String} (h : ¬(name ++ "=").toList <+: (other ++ "=").toList)
    (h' : ¬(other ++ "=").toList <+: (name ++ "=").toList) (value : String) :
    assigned name (other ++ "=" ++ value) = none := by
  have hnot : ¬(name ++ "=").toList.isPrefixOf ((other ++ "=").toList ++ value.toList) = true := by
    rw [List.isPrefixOf_iff_prefix]
    intro hbegins
    rcases List.prefix_or_prefix_of_prefix hbegins (List.prefix_append _ _) with hin | hin
    · exact h hin
    · exact h' hin
  rw [assigned, toList_assignment, if_neg hnot]

end Byoh.Foundation.ShellScript
