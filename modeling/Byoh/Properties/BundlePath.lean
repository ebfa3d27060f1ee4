import Byoh.Foundation.ShellScript
import Byoh.Properties.SupportedVersions
import Byoh.Model.System

/-!
# The bundle path in the scripts of a host

A script reaches the machine of a host through two passes. The controller renders the templates of
`ubuntu-templates` with `html/template`; the agent expands what is left with `text/template`, where
its download path is the field `BundleDownloadPath` (`parseScript`). The first pass already fills in
that field, with a path of its own, so nothing is left for the second one.

- `install_eq`, `uninstall_eq`: the rendered scripts, line by line, when the address is free of
  characters that are escaped.
- `placesBundle_placing_iff`: what such lines assign.
- `executeInstallerController_runs`, `uninstall_runs`: the agent runs the script of the secret after
  the second pass.
- `bundlePath_reaches_host`: both scripts assign the download path and the address of the bundle
  exactly if the download path is the one of the controller and the architecture assigns none of the
  variables.
- `downloadPath_ignored`: any other download path has no effect.
-/

set_option autoImplicit false

namespace Byoh.Properties

open Byoh.Foundation Byoh.Foundation.ShellScript Byoh.Model Byoh.Model.Installer
open Byoh.Model.HostReconciler (Config parseScript executeInstallerController uninstall)

/-! ## Texts that both passes leave alone -/

/-- The characters of an OCI reference. -/
def isOciChar (c : Char) : Bool := c.isAlphanum || "._-/:@".toList.contains c

/-- A text of characters of OCI references. -/
def OciText (s : String) : Prop := ∀ c ∈ s.toList, isOciChar c = true

instance (s : String) : Decidable (OciText s) := List.decidableBAll (isOciChar · = true) s.toList

theorem OciText.append {s t : String} (hs : OciText s) (ht : OciText t) : OciText (s ++ t) := by
  intro c hc
  rw [String.toList_append, List.mem_append] at hc
  rcases hc with hc | hc
  · exact hs c hc
  · exact ht c hc

/-- A character that is not one of an OCI reference does not occur. -/
theorem OciText.not_mem {s : String} (h : OciText s) {c : Char} (hc : isOciChar c = false) :
    c ∉ s.toList := by
  intro hin
  rw [h c hin] at hc
  cases hc

theorem escapeChar_eq {c : Char} (h : isOciChar c = true) : escapeChar c = [c] := by
  have hne : ∀ d, isOciChar d = false → c ≠ d := by
    rintro d hd rfl
    rw [h] at hd
    cases hd
  simp only [escapeChar, hne '"' (by decide), hne '&' (by decide), hne '\'' (by decide),
    hne '+' (by decide), hne '<' (by decide), hne '>' (by decide),
    hne (Char.ofNat 0) (by decide), if_false]

/-- The escape for HTML leaves the text as it is. -/
theorem OciText.escape_eq {s : String} (h : OciText s) : escape s = s := by
  have hlist : ∀ cs : List Char, (∀ c ∈ cs, isOciChar c = true) → cs.flatMap escapeChar = cs := by
    intro cs hcs
    induction cs with
    | nil => rfl
    | cons c cs ih =>
      rw [List.flatMap_cons, escapeChar_eq (hcs c List.mem_cons_self),
        ih fun d hd => hcs d (List.mem_cons_of_mem _ hd), List.singleton_append]
  rw [escape, hlist _ h, String.ofList_toList]

/-- The escape for HTML brings in no brace. -/
theorem escape_noBrace {s : String} (h : '\x7b' ∉ s.toList) : '\x7b' ∉ (escape s).toList := by
  rw [escape, String.toList_ofList, List.mem_flatMap]
  rintro ⟨c, hc, hin⟩
  have hne : '\x7b' ≠ c := by
    rintro rfl
    exact h hc
  unfold escapeChar at hin
  split_ifs at hin <;> simp_all +decide

/-- A text without braces has no action of a template. -/
theorem expandTemplate_eq (value : List Char) {cs : List Char} (h : '\x7b' ∉ cs) :
    expandTemplate value 0 cs = some cs := by
  induction cs with
  | nil => rfl
  | cons c cs ih =>
    have hc : '\x7b' ≠ c := by
      rintro rfl
      exact h List.mem_cons_self
    have haction : ("\x7b\x7b".toList).isPrefixOf (c :: cs) = false := by
      rw [Bool.eq_false_iff]
      intro hbegins
      rw [List.isPrefixOf_iff_prefix] at hbegins
      exact hc (List.cons_prefix_cons.1 hbegins).1
    rw [expandTemplate, haction, ih fun hin => h (List.mem_cons_of_mem _ hin)]
    rfl

/-- The second pass leaves a script without braces as it is. -/
theorem parseTemplate_eq (o : Outcome) (path : String) {script : String}
    (h : '\x7b' ∉ script.toList) :
    o.parseTemplate path script = if o.commandOk then some script else none := by
  rw [Outcome.parseTemplate, expandTemplate_eq _ h, Option.map_some, Option.getD_some,
    String.ofList_toList]

/-! ## Templates as lines

Most segments of a template are a line of their own that does not touch the variables of the
directory. The value that is not on a line of an assignment, the containerd configuration or the
removal of kernel modules, is followed by a segment that ends its line. -/

/-- The variables that make up the directory of the bundle. -/
def pathVariables : List String := ["BUNDLE_DOWNLOAD_PATH", "BUNDLE_ADDR", "BUNDLE_PATH"]

/-- How an assignment of one of these variables begins. -/
def bundlePrefix : List Char := ['B', 'U', 'N', 'D', 'L', 'E', '_']

/-- A line that assigns none of the variables and has no action of a template. -/
def isPlainText (cs : List Char) : Bool :=
  !cs.contains '\n' && !cs.contains '\x7b' && !bundlePrefix.isPrefixOf cs

/-- The text of such a line with its line feed. -/
def isPlainLine (cs : List Char) : Bool := cs.getLast? = some '\n' && isPlainText cs.dropLast

/-- A part of a template of such lines. -/
inductive PlainPart : List Segment → Prop
  | nil : PlainPart []
  | cons {cs : List Char} {rest : List Segment} (h : isPlainLine cs = true)
      (hrest : PlainPart rest) : PlainPart (.text (String.ofList cs) :: rest)

/-- The line of a segment. -/
def lineOf : Segment → String
  | .text s => String.ofList s.toList.dropLast
  | _ => ""

/-- A single line without an action of a template. -/
structure SingleLine (line : String) : Prop where
  oneLine : '\n' ∉ line.toList
  noBrace : '\x7b' ∉ line.toList

/-- None of the lines assigns one of the variables. -/
def Unassigned (ls : List String) : Prop :=
  ∀ l ∈ ls, ∀ name ∈ pathVariables, assigned name l = none

instance (ls : List String) : Decidable (Unassigned ls) :=
  inferInstanceAs (Decidable (∀ l ∈ ls, ∀ name ∈ pathVariables, assigned name l = none))

/-- What the lines of a script may be that do not make up the directory. -/
structure Other (line : String) : Prop extends SingleLine line where
  unassigned : ∀ name ∈ pathVariables, assigned name line = none

theorem assigned_of_not_prefix {name line : String} (hname : name ∈ pathVariables)
    (h : ¬bundlePrefix <+: line.toList) : assigned name line = none := by
  have hbegins : ∀ name ∈ pathVariables, bundlePrefix.isPrefixOf (name ++ "=").toList = true := by
    decide
  rw [assigned, if_neg]
  rw [List.isPrefixOf_iff_prefix]
  exact fun hassigned => h ((List.isPrefixOf_iff_prefix.1 (hbegins name hname)).trans hassigned)

theorem other_ofList {cs : List Char} (h : isPlainText cs = true) : Other (String.ofList cs) := by
  simp only [isPlainText, Bool.and_eq_true, Bool.not_eq_true', List.contains_eq_mem,
    decide_eq_false_iff_not] at h
  obtain ⟨⟨hline, hbrace⟩, hquiet⟩ := h
  rw [Bool.eq_false_iff, ne_eq, List.isPrefixOf_iff_prefix] at hquiet
  refine ⟨⟨?_, ?_⟩, ?_⟩
  · rwa [String.toList_ofList]
  · rwa [String.toList_ofList]
  · intro name hname
    refine assigned_of_not_prefix hname ?_
    rwa [String.toList_ofList]

theorem lineOf_text (cs : List Char) :
    lineOf (.text (String.ofList cs)) = String.ofList cs.dropLast := by
  rw [lineOf, String.toList_ofList]

theorem lineOf_append {cs : List Char} (h : isPlainLine cs = true) :
    lineOf (.text (String.ofList cs)) ++ "\n" = String.ofList cs := by
  simp only [isPlainLine, Bool.and_eq_true, decide_eq_true_eq] at h
  rw [lineOf_text, ← String.toList_inj, String.toList_append, String.toList_ofList,
    String.toList_ofList, String.toList_ofList]
  exact List.dropLast_append_getLast? _ h.1

theorem other_lineOf {cs : List Char} (h : isPlainLine cs = true) :
    Other (lineOf (.text (String.ofList cs))) := by
  rw [lineOf_text]
  exact other_ofList (Bool.and_eq_true_iff.1 h).2

/-- A value that is filled in. -/
theorem other_escape {cs : List Char} (h : isPlainText (cs.flatMap escapeChar) = true) :
    Other (escape (String.ofList cs)) := by
  rw [escape, String.toList_ofList]
  exact other_ofList h

/-- A line of the template. -/
theorem mem_lineOf {template : List Segment} {line : String} (h : .text (line ++ "\n") ∈ template) :
    line ∈ template.map lineOf := by
  refine List.mem_map.2 ⟨_, h, ?_⟩
  simp [lineOf]

section Templates

variable {data : TemplateField → String} {skip : Bool}

theorem execute_cons (seg : Segment) (template : List Segment) :
    execute data skip (seg :: template) = execute data skip [seg] ++ execute data skip template :=
  execute_append data skip [seg] template

theorem execute_text (s : String) : execute data skip [.text s] = s := by
  simp [execute]

theorem PlainPart.execute_eq {template : List Segment} (h : PlainPart template) :
    execute data skip template = unlines (template.map lineOf) := by
  induction h with
  | nil => rfl
  | @cons cs rest hline _ ih =>
    rw [execute_cons, execute_text, ih, List.map_cons, ← List.singleton_append, unlines_append]
    simp [unlines, lineOf_append hline]

theorem PlainPart.other {template : List Segment} (h : PlainPart template) :
    ∀ line ∈ template.map lineOf, Other line := by
  induction h with
  | nil => exact fun line hline => nomatch hline
  | cons hcs _ ih =>
    intro line hline
    rw [List.map_cons, List.mem_cons] at hline
    rcases hline with rfl | hline
    · exact other_lineOf hcs
    · exact ih line hline

/-- Lines, a value on a line of its own, and lines. -/
theorem execute_around {before after : List Segment} (seg : Segment) (hbefore : PlainPart before)
    (hafter : PlainPart after) :
    execute data skip (before ++ seg :: .text "\n" :: after) =
      unlines (before.map lineOf ++ execute data skip [seg] :: after.map lineOf) := by
  rw [execute_append, execute_cons, execute_cons (.text "\n"), execute_text, hbefore.execute_eq,
    hafter.execute_eq, unlines_append]
  simp [unlines, String.append_assoc]

end Templates

/-! ## The rendered scripts -/

/-- The install template between the assignments and the containerd configuration. -/
def installBefore : List Segment := (commonUbuntuInstallTemplate.drop 15).take 50

/-- The install template after the line of the containerd configuration. -/
def installAfter : List Segment := commonUbuntuInstallTemplate.drop 67

/-- The uninstall template between the assignments and the removal of kernel modules. -/
def uninstallBefore : List Segment := (commonUbuntuUninstallTemplate.drop 9).take 23

/-- The uninstall template after the line of the removal of kernel modules. -/
def uninstallAfter : List Segment := commonUbuntuUninstallTemplate.drop 34

set_option maxRecDepth 2000 in
theorem installBefore_plain : PlainPart installBefore := by
  repeat refine .cons (by decide +kernel) ?_
  exact .nil

theorem installAfter_plain : PlainPart installAfter := by
  repeat refine .cons (by decide +kernel) ?_
  exact .nil

theorem uninstallBefore_plain : PlainPart uninstallBefore := by
  repeat refine .cons (by decide +kernel) ?_
  exact .nil

theorem uninstallAfter_plain : PlainPart uninstallAfter := by
  repeat refine .cons (by decide +kernel) ?_
  exact .nil

/-- The path that the controller fills in. -/
def renderedPath : String := "/var/lib/byoh/bundles"

/-- The value of `BUNDLE_PATH`. -/
def bundlePathWord : String := "$BUNDLE_DOWNLOAD_PATH/$BUNDLE_ADDR"

/-- The lines of the assignment of `ARCH`: more than one if the architecture has line feeds. -/
def archLines (arch : String) : List String := lines ("ARCH" ++ "=" ++ escape arch)

/-- A script of lines of which three make up the directory. -/
def placing (addr : String) (before between after : List String) : List String :=
  before ++ ["BUNDLE_DOWNLOAD_PATH" ++ "=" ++ renderedPath, "BUNDLE_ADDR" ++ "=" ++ addr] ++
    between ++ ["BUNDLE_PATH" ++ "=" ++ bundlePathWord] ++ after

/-- The lines of the install script. -/
def installLines (arch addr containerdConfig : String) : List String :=
  placing addr ["set -euox pipefail", ""]
    (("IMGPKG_VERSION" ++ "=" ++ imgpkgVersion) :: archLines arch)
    (installBefore.map lineOf ++ escape containerdConfig :: installAfter.map lineOf)

/-- The lines of the uninstall script. -/
def uninstallLines (addr : String) (skip : Bool) : List String :=
  placing addr ["set -euox pipefail", ""] []
    (uninstallBefore.map lineOf ++
      (if skip then "" else "modprobe -rq overlay || true && modprobe -r br_netfilter || true") ::
        uninstallAfter.map lineOf)

theorem unlines_placing (addr : String) (before between after : List String) :
    unlines (placing addr before between []) ++ unlines after =
      unlines (placing addr before between after) := by
  rw [← unlines_append, placing, placing, List.append_nil]

theorem install_eq (arch : String) {addr : String} (haddr : OciText addr)
    (containerdConfig : String) (skip : Bool) :
    (newBaseUbuntuInstaller arch addr containerdConfig skip).install =
      unlines (installLines arch addr containerdConfig) := by
  have hsplit : commonUbuntuInstallTemplate = commonUbuntuInstallTemplate.take 15 ++
      (installBefore ++ .field .containerdConfig :: .text "\n" :: installAfter) := rfl
  have hpath : escape "/var/lib/byoh/bundles" = renderedPath := by decide
  have hversion : escape imgpkgVersion = imgpkgVersion := by decide
  have hhead : execute (scriptData arch addr containerdConfig) skip
      (commonUbuntuInstallTemplate.take 15) =
        unlines (placing addr ["set -euox pipefail", ""]
          (("IMGPKG_VERSION" ++ "=" ++ imgpkgVersion) :: archLines arch) []) := by
    simp [commonUbuntuInstallTemplate, execute, scriptData, placing, archLines, unlines_append,
      unlines_cons, unlines_lines, bundlePathWord, haddr.escape_eq, hpath, hversion,
      String.append_assoc]
  rw [newBaseUbuntuInstaller]
  simp only
  rw [hsplit, execute_append, hhead, execute_around _ installBefore_plain installAfter_plain,
    unlines_placing, installLines]
  simp [execute, scriptData]

theorem uninstall_eq (arch : String) {addr : String} (haddr : OciText addr)
    (containerdConfig : String) (skip : Bool) :
    (newBaseUbuntuInstaller arch addr containerdConfig skip).uninstall =
      unlines (uninstallLines addr skip) := by
  have hsplit : commonUbuntuUninstallTemplate = commonUbuntuUninstallTemplate.take 9 ++
      (uninstallBefore ++ .unlessSkipKernelModuleCleanup
        "modprobe -rq overlay || true && modprobe -r br_netfilter || true" :: .text "\n" ::
          uninstallAfter) := rfl
  have hpath : escape "/var/lib/byoh/bundles" = renderedPath := by decide
  have hhead : execute (scriptData arch addr containerdConfig) skip
      (commonUbuntuUninstallTemplate.take 9) =
        unlines (placing addr ["set -euox pipefail", ""] [] []) := by
    simp [commonUbuntuUninstallTemplate, execute, scriptData, placing, unlines_cons, bundlePathWord,
      haddr.escape_eq, hpath, String.append_assoc]
  rw [newBaseUbuntuInstaller]
  simp only
  rw [hsplit, execute_append, hhead, execute_around _ uninstallBefore_plain uninstallAfter_plain,
    unlines_placing, uninstallLines]
  simp [execute]

/-! ## What the scripts assign -/

/-- The script assigns the directory of the bundle once, from the path `d` and the address `addr`,
and has the line `use`. -/
structure PlacesBundle (d addr use script : String) : Prop where
  downloadPath : assignments "BUNDLE_DOWNLOAD_PATH" script = [d]
  bundleAddr : assignments "BUNDLE_ADDR" script = [addr]
  bundlePath : assignments "BUNDLE_PATH" script = [bundlePathWord]
  uses : use ∈ lines script

theorem filterMap_other {name : String} (hname : name ∈ pathVariables) {ls : List String}
    (h : ∀ l ∈ ls, Other l) : ls.filterMap (assigned name) = [] :=
  List.filterMap_eq_nil_iff.2 fun l hl => (h l hl).unassigned name hname

/-- A line that assigns another of the variables. -/
theorem assigned_other {name other : String} (hname : name ∈ pathVariables)
    (hother : other ∈ pathVariables) (hne : name ≠ other) (value : String) :
    assigned name (other ++ "=" ++ value) = none := by
  have hbegins : ∀ name ∈ pathVariables, ∀ other ∈ pathVariables, name ≠ other →
      ¬(name ++ "=").toList <+: (other ++ "=").toList := by
    decide
  exact assigned_ne (hbegins name hname other hother hne)
    (hbegins other hother name hname hne.symm) value

section Placing

variable {addr use : String} {before between after : List String} (haddr : OciText addr)
  (hbefore : ∀ l ∈ before, Other l) (hbetween : ∀ l ∈ between, SingleLine l)
  (hafter : ∀ l ∈ after, Other l)

include haddr hbefore hbetween hafter

theorem placing_chars {c : Char} (hpath : c ∉ ("BUNDLE_DOWNLOAD_PATH" ++ "=" ++ renderedPath).toList)
    (hname : c ∉ ("BUNDLE_ADDR" ++ "=").toList) (hword : c ∉ ("BUNDLE_PATH" ++ "=" ++ bundlePathWord).toList)
    (hoci : isOciChar c = false) (hother : ∀ l, SingleLine l → c ∉ l.toList) :
    ∀ l ∈ placing addr before between after, c ∉ l.toList := by
  intro l hl
  simp only [placing, List.mem_append, List.mem_cons, List.not_mem_nil, or_false] at hl
  rcases hl with (((hl | rfl | rfl) | hl) | rfl) | hl
  · exact hother l (hbefore l hl).toSingleLine
  · exact hpath
  · rw [toList_assignment, List.mem_append, not_or]
    exact ⟨hname, haddr.not_mem hoci⟩
  · exact hother l (hbetween l hl)
  · exact hword
  · exact hother l (hafter l hl).toSingleLine

theorem placing_noBrace : '\x7b' ∉ (unlines (placing addr before between after)).toList := by
  intro hin
  rcases mem_unlines hin with hline | ⟨l, hl, hc⟩
  · cases hline
  · exact placing_chars haddr hbefore hbetween hafter (by decide) (by decide) (by decide) (by decide)
      (fun _ h => h.noBrace) l hl hc

/-- Of the lines before and after, none assigns one of the variables. -/
theorem assignments_placing {name : String} (hname : name ∈ pathVariables) :
    assignments name (unlines (placing addr before between after)) =
      ["BUNDLE_DOWNLOAD_PATH" ++ "=" ++ renderedPath, "BUNDLE_ADDR" ++ "=" ++ addr].filterMap
          (assigned name) ++
        between.filterMap (assigned name) ++
          ["BUNDLE_PATH" ++ "=" ++ bundlePathWord].filterMap (assigned name) := by
  rw [assignments_unlines name (placing_chars haddr hbefore hbetween hafter (by decide) (by decide)
    (by decide) (by decide) fun _ h => h.oneLine), placing]
  simp only [List.filterMap_append, filterMap_other hname hbefore, filterMap_other hname hafter,
    List.nil_append, List.append_nil]

theorem uses_placing (huse : use ∈ after) :
    use ∈ lines (unlines (placing addr before between after)) := by
  rw [lines_unlines (placing_chars haddr hbefore hbetween hafter (by decide) (by decide)
    (by decide) (by decide) fun _ h => h.oneLine)]
  refine List.mem_append_left _ ?_
  rw [placing]
  exact List.mem_append_right _ huse

/-- The lines place the bundle under `d` exactly if `d` is the path of the controller and the lines
between the assignments assign none of the variables again. -/
theorem placesBundle_placing_iff (huse : use ∈ after) (d : String) :
    PlacesBundle d addr use (unlines (placing addr before between after)) ↔
      d = renderedPath ∧ Unassigned between := by
  have hpath := assignments_placing haddr hbefore hbetween hafter
    (show "BUNDLE_DOWNLOAD_PATH" ∈ pathVariables by decide)
  have haddress := assignments_placing haddr hbefore hbetween hafter
    (show "BUNDLE_ADDR" ∈ pathVariables by decide)
  have hbundle := assignments_placing haddr hbefore hbetween hafter
    (show "BUNDLE_PATH" ∈ pathVariables by decide)
  simp (disch := decide) only [List.filterMap_cons, List.filterMap_nil, assigned_self,
    assigned_other, List.append_nil, List.nil_append, List.singleton_append] at hpath haddress hbundle
  constructor
  · rintro ⟨hd, ha, hb, -⟩
    rw [hpath, List.cons.injEq] at hd
    rw [haddress, List.cons.injEq] at ha
    rw [hbundle, List.append_left_eq_self] at hb
    refine ⟨hd.1.symm, ?_⟩
    intro l hl name hname
    rw [pathVariables, List.mem_cons, List.mem_cons, List.mem_singleton] at hname
    rcases hname with rfl | rfl | rfl
    · exact List.filterMap_eq_nil_iff.1 hd.2 l hl
    · exact List.filterMap_eq_nil_iff.1 ha.2 l hl
    · exact List.filterMap_eq_nil_iff.1 hb l hl
  · rintro ⟨rfl, hquiet⟩
    have hnone : ∀ name ∈ pathVariables, between.filterMap (assigned name) = [] := fun name hname =>
      List.filterMap_eq_nil_iff.2 fun l hl => hquiet l hl name hname
    refine ⟨?_, ?_, ?_, uses_placing haddr hbefore hbetween hafter huse⟩
    · rw [hpath, hnone _ (by decide)]
    · rw [haddress, hnone _ (by decide)]
    · rw [hbundle, hnone _ (by decide), List.nil_append]

end Placing

/-! ## The scripts of an installer -/

/-- The line of the install script that fills the directory. -/
def fillLine : String := "imgpkg pull -i $BUNDLE_ADDR -o $BUNDLE_PATH"

/-- The line of the uninstall script that removes the directory. -/
def removeLine : String := "rm -rf $BUNDLE_PATH"

theorem other_setLine : ∀ l ∈ ["set -euox pipefail", ""], Other l := by
  intro l hl
  simp only [List.mem_cons, List.not_mem_nil, or_false] at hl
  rcases hl with rfl | rfl
  · exact other_ofList (by decide)
  · exact other_ofList (by decide)

theorem singleLine_archLines {arch : String} (harch : '\x7b' ∉ arch.toList) :
    ∀ l ∈ ("IMGPKG_VERSION" ++ "=" ++ imgpkgVersion) :: archLines arch, SingleLine l := by
  intro l hl
  rcases List.mem_cons.1 hl with rfl | hl
  · exact ⟨by decide, by decide⟩
  · refine ⟨fun hin => (mem_of_mem_lines hl hin).1 rfl, fun hin => ?_⟩
    have hchar := (mem_of_mem_lines hl hin).2
    rw [toList_assignment, List.mem_append] at hchar
    rcases hchar with hchar | hchar
    · exact absurd hchar (by decide)
    · exact escape_noBrace harch hchar

/-- The version of imgpkg is not one of the variables. -/
theorem unassigned_archLines (arch : String) :
    Unassigned (("IMGPKG_VERSION" ++ "=" ++ imgpkgVersion) :: archLines arch) ↔
      Unassigned (archLines arch) := by
  have hversion : ∀ name ∈ pathVariables,
      assigned name ("IMGPKG_VERSION" ++ "=" ++ imgpkgVersion) = none := by
    decide
  exact ⟨fun h l hl => h l (List.mem_cons_of_mem _ hl),
    fun h => List.forall_mem_cons.2 ⟨hversion, h⟩⟩

theorem other_around {before after : List Segment} {line : String} (hbefore : PlainPart before)
    (hline : Other line) (hafter : PlainPart after) :
    ∀ l ∈ before.map lineOf ++ line :: after.map lineOf, Other l := by
  intro l hl
  rw [List.mem_append, List.mem_cons] at hl
  rcases hl with hl | rfl | hl
  · exact hbefore.other l hl
  · exact hline
  · exact hafter.other l hl

/-- What both passes need of a script: it places the bundle under the path of the controller only,
and only if the lines of the architecture let it, and nothing is left to expand. -/
structure Rendered (addr use : String) (quiet : Prop) (script : String) : Prop where
  places : ∀ d, PlacesBundle d addr use script ↔ d = renderedPath ∧ quiet
  noBrace : '\x7b' ∉ script.toList

theorem other_noConfig : Other (escape "") := other_escape (by decide)

theorem other_systemdCgroupConfig : Other (escape systemdCgroupConfig) := by
  rw [systemdCgroupConfig]
  exact other_escape (by decide)

theorem rendered_install {arch addr containerdConfig : String} (harch : '\x7b' ∉ arch.toList)
    (haddr : OciText addr) (hconfig : Other (escape containerdConfig)) (skip : Bool) :
    Rendered addr fillLine (Unassigned (archLines arch))
      (newBaseUbuntuInstaller arch addr containerdConfig skip).install := by
  have huse : fillLine ∈ installBefore.map lineOf ++
      escape containerdConfig :: installAfter.map lineOf :=
    List.mem_append_left _ (mem_lineOf (by decide +kernel))
  have hrest := other_around installBefore_plain hconfig installAfter_plain
  have hsingle := singleLine_archLines harch
  rw [install_eq arch haddr, installLines]
  refine ⟨fun d => ?_, placing_noBrace haddr other_setLine hsingle hrest⟩
  rw [placesBundle_placing_iff haddr other_setLine hsingle hrest huse, unassigned_archLines]

theorem rendered_uninstall (arch : String) {addr : String} (haddr : OciText addr)
    (containerdConfig : String) (skip : Bool) :
    Rendered addr removeLine True
      (newBaseUbuntuInstaller arch addr containerdConfig skip).uninstall := by
  have hmodules : Other
      (if skip then "" else "modprobe -rq overlay || true && modprobe -r br_netfilter || true") := by
    cases skip with
    | false => exact other_ofList (by decide)
    | true => exact other_ofList (by decide)
  have huse : removeLine ∈ uninstallBefore.map lineOf ++
      (if skip then "" else "modprobe -rq overlay || true && modprobe -r br_netfilter || true") ::
        uninstallAfter.map lineOf :=
    List.mem_append_right _ (List.mem_cons_of_mem _ (mem_lineOf (by decide +kernel)))
  have hrest := other_around uninstallBefore_plain hmodules uninstallAfter_plain
  have hsingle : ∀ l ∈ ([] : List String), SingleLine l := List.forall_mem_nil _
  have hquiet : Unassigned [] := List.forall_mem_nil _
  rw [uninstall_eq arch haddr, uninstallLines]
  refine ⟨fun d => ?_, placing_noBrace haddr other_setLine hsingle hrest⟩
  rw [placesBundle_placing_iff haddr other_setLine hsingle hrest huse, iff_true_intro hquiet]

/-- The scripts of an installer that `NewInstaller` returns. -/
theorem newInstaller_rendered {osDist arch k8sVersion repoAddr : String} {skip : Bool}
    {i : K8sInstaller} (hi : newInstaller osDist arch k8sVersion repoAddr skip = .ok i)
    (hrepo : OciText repoAddr) (hversion : OciText k8sVersion) (harch : '\x7b' ∉ arch.toList) :
    ∃ r, getSupportedRegistry = some r ∧
      Rendered (getBundleAddr repoAddr (r.resolveOsToOsBundle (osArch osDist arch)) k8sVersion)
        fillLine (Unassigned (archLines arch)) i.install ∧
      Rendered (getBundleAddr repoAddr (r.resolveOsToOsBundle (osArch osDist arch)) k8sVersion)
        removeLine True i.uninstall := by
  obtain ⟨r, hr, hlist, rfl⟩ := newInstaller_eq_ok hi
  refine ⟨r, hr, ?_⟩
  have hbundle : OciText (getBundleName (r.resolveOsToOsBundle (osArch osDist arch))) := by
    rcases registers_supportedCalls.1 (registers_of_listK8s hr hlist) with h | h
    · rw [h]
      decide
    · rw [h]
      decide
  have haddr : OciText (getBundleAddr repoAddr (r.resolveOsToOsBundle (osArch osDist arch))
      k8sVersion) :=
    (((hrepo.append (by decide)).append hbundle).append (by decide)).append hversion
  split
  · exact ⟨rendered_install harch haddr other_systemdCgroupConfig skip,
      rendered_uninstall arch haddr _ skip⟩
  · exact ⟨rendered_install harch haddr other_noConfig skip,
      rendered_uninstall arch haddr _ skip⟩

/-! ## The scripts that the agent runs -/

/-- The commands among the calls of a run, oldest first. -/
def commandsIn (calls : List (Sigma Resp)) : List HostCommand :=
  (calls.reverse.filterMap asEvent).map (·.command)

/-- Every call of a run could read and every command succeeded. -/
def Works (o : Outcome) : Prop := o.readOk = true ∧ o.commandOk = true

section Agent

variable {ok : Outcome → Prop} {cfg : Config} {h : ByoHost} {w : World}
  {calls : List (Sigma Resp)} {ref : ObjectReference} {secret : Secret} {script : String}

/-- A run that has made the calls `calls` and no command among them. -/
def NoCommand (w : World) (t : World × List (Sigma Resp)) : Prop := t.1 = w ∧ commandsIn t.2 = []

theorem commandsIn_cons (c : Sigma Resp) (calls : List (Sigma Resp)) :
    commandsIn (c :: calls) = commandsIn calls ++ ((asEvent c).map (·.command)).toList := by
  simp only [commandsIn, List.reverse_cons, List.filterMap_append, List.map_append]
  cases hc : asEvent c with
  | none => simp [hc]
  | some e => simp [hc]

theorem getSecret_logged (hdefault : ok default) (hcalls : commandsIn calls = [])
    (hsecret : w.secrets.lookup ⟨ref.ns, ref.name⟩ = some secret) :
    GoM.Ensures (Prog.logged exec) ok (HostReconciler.getSecret ref) h (w, calls) fun r h' t =>
      h' = h ∧ NoCommand w t ∧
        (r = .ok secret ∨ (∃ e, r = .err e) ∧ ∃ o, ok o ∧ ¬Works o) := by
  refine .call_bind hdefault fun o ho => ?_
  have hno : NoCommand w (Prog.logged exec o (.getSecret ⟨ref.ns, ref.name⟩) (w, calls)).2 := by
    refine ⟨rfl, ?_⟩
    rw [Prog.logged, commandsIn_cons, hcalls]
    rfl
  cases hread : o.readOk with
  | true =>
    have hresp : (Prog.logged exec o (.getSecret ⟨ref.ns, ref.name⟩) (w, calls)).1 = .ok secret := by
      simp [Prog.logged, exec, readObject, hread, hsecret]
    rw [hresp]
    exact .pure ⟨rfl, hno, .inl rfl⟩
  | false =>
    have hresp : (Prog.logged exec o (.getSecret ⟨ref.ns, ref.name⟩) (w, calls)).1 =
        .error .other := by
      simp [Prog.logged, exec, readObject, hread]
    rw [hresp]
    refine .throw ⟨rfl, hno, .inr ⟨⟨_, rfl⟩, o, ho, fun hworks => ?_⟩⟩
    exact absurd hworks.1 (by simp [hread])

theorem parseScript_logged (hdefault : ok default) (hcalls : commandsIn calls = [])
    (hscript : '\x7b' ∉ script.toList) :
    GoM.Ensures (Prog.logged exec) ok (parseScript cfg script) h (w, calls) fun r h' t =>
      h' = h ∧ NoCommand w t ∧
        (r = .ok script ∨ (∃ e, r = .err e) ∧ ∃ o, ok o ∧ ¬Works o) := by
  refine .call_bind hdefault fun o ho => ?_
  have hno : NoCommand w
      (Prog.logged exec o (.parseTemplate cfg.downloadPath script) (w, calls)).2 := by
    refine ⟨rfl, ?_⟩
    rw [Prog.logged, commandsIn_cons, hcalls]
    rfl
  have hresp : (Prog.logged exec o (.parseTemplate cfg.downloadPath script) (w, calls)).1 =
      if o.commandOk then some script else none := parseTemplate_eq o _ hscript
  rw [hresp]
  cases hcommand : o.commandOk with
  | true => exact .pure ⟨rfl, hno, .inl rfl⟩
  | false =>
    refine .throw ⟨rfl, hno, .inr ⟨⟨_, rfl⟩, o, ho, fun hworks => ?_⟩⟩
    exact absurd hworks.2 (by simp [hcommand])

theorem runCmd_logged (hdefault : ok default) (hcalls : commandsIn calls = [])
    (command : HostCommand) :
    GoM.Ensures (Prog.logged exec) ok (HostReconciler.runCmd command) h (w, calls) fun r h' t =>
      h' = h ∧ commandsIn t.2 = [command] ∧ (r = .ok () ∨ ∃ e, r = .err e) := by
  refine .get_bind (.call_bind hdefault fun o _ => ?_)
  have hcommands : commandsIn (Prog.logged exec o (.hostCommand command h) (w, calls)).2.2 =
      [command] := by
    rw [Prog.logged, commandsIn_cons, hcalls]
    rfl
  cases hcommand : o.commandOk with
  | true =>
    have hresp : (Prog.logged exec o (.hostCommand command h) (w, calls)).1 = true := hcommand
    rw [hresp]
    exact .pure ⟨rfl, hcommands, .inl rfl⟩
  | false =>
    have hresp : (Prog.logged exec o (.hostCommand command h) (w, calls)).1 = false := hcommand
    rw [hresp]
    exact .throw ⟨rfl, hcommands, .inr ⟨_, rfl⟩⟩

/-- The only command that a part of a reconcile runs, if it runs one; it does when every call
works. -/
def RunsOnly (ok : Outcome → Prop) (command : HostCommand) (t : World × List (Sigma Resp)) : Prop :=
  commandsIn t.2 = [command] ∨ commandsIn t.2 = [] ∧ ∃ o, ok o ∧ ¬Works o

/-- `executeInstallerController` runs the install script of the secret. -/
theorem executeInstallerController_runs (hdefault : ok default)
    (href : h.installationSecret = some ref)
    (hsecret : w.secrets.lookup ⟨ref.ns, ref.name⟩ = some secret)
    (hscript : secret.data.get "install" = some script) (hbrace : '\x7b' ∉ script.toList) :
    GoM.Ensures (Prog.logged exec) ok (executeInstallerController cfg) h (w, []) fun _ _ t =>
      RunsOnly ok (.install script) t := by
  rw [executeInstallerController]
  refine .get_bind ?_
  simp only [href]
  refine .bind ((getSecret_logged hdefault rfl hsecret).mono ?_)
  rintro r h' ⟨w', calls⟩ ⟨rfl, ⟨rfl, hno⟩, rfl | ⟨⟨e, rfl⟩, hfails⟩⟩
  · simp only [hscript]
    refine .bind ((parseScript_logged hdefault hno hbrace).mono ?_)
    rintro r h₂ ⟨w₂, calls₂⟩ ⟨rfl, ⟨rfl, hno₂⟩, rfl | ⟨⟨e, rfl⟩, hfails⟩⟩
    · refine .attempt_bind ((runCmd_logged hdefault hno₂ _).mono ?_)
      rintro r h₃ ⟨w₃, calls₃⟩ ⟨rfl, hcommands, rfl | ⟨e, rfl⟩⟩
      · exact .pure (.inl hcommands)
      · exact .modify_bind (.throw (.inl hcommands))
    · exact .inr ⟨hno₂, hfails⟩
  · exact .inr ⟨hno, hfails⟩

/-- The uninstall part of `hostCleanUp` runs the uninstall script of the secret. -/
theorem uninstall_runs (hdefault : ok default)
    (hsecret : w.secrets.lookup ⟨ref.ns, ref.name⟩ = some secret)
    (hscript : secret.data.get "uninstall" = some script) (hbrace : '\x7b' ∉ script.toList) :
    GoM.Ensures (Prog.logged exec) ok (uninstall cfg ref) h (w, []) fun _ _ t =>
      RunsOnly ok (.uninstall script) t := by
  rw [uninstall]
  refine .bind ((getSecret_logged hdefault rfl hsecret).mono ?_)
  rintro r h' ⟨w', calls⟩ ⟨rfl, ⟨rfl, hno⟩, rfl | ⟨⟨e, rfl⟩, hfails⟩⟩
  · simp only [hscript]
    refine .bind ((parseScript_logged hdefault hno hbrace).mono ?_)
    rintro r h₂ ⟨w₂, calls₂⟩ ⟨rfl, ⟨rfl, hno₂⟩, rfl | ⟨⟨e, rfl⟩, hfails⟩⟩
    · refine (runCmd_logged hdefault hno₂ _).mono ?_
      rintro r h₃ t ⟨-, hcommands, -⟩
      exact .inl hcommands
    · exact .inr ⟨hno₂, hfails⟩
  · exact .inr ⟨hno, hfails⟩

end Agent

/-- Called on the host `h`, the function runs this command and no other, if it runs one; it runs it
when every call works. -/
def Runs (x : HostReconciler.HostM Unit) (h : ByoHost) (w : World) (command : HostCommand) : Prop :=
  ∀ os : List Outcome,
    (∀ c ∈ commandsIn (Prog.run (Prog.logged exec) os (x h) (w, [])).2.2, c = command) ∧
      ((∀ o ∈ os, Works o) →
        commandsIn (Prog.run (Prog.logged exec) os (x h) (w, [])).2.2 = [command])

theorem runs_of_ensures {x : HostReconciler.HostM Unit} {h : ByoHost} {w : World}
    {command : HostCommand}
    (hx : ∀ ok : Outcome → Prop, ok default →
      GoM.Ensures (Prog.logged exec) ok x h (w, []) fun _ _ t => RunsOnly ok command t) :
    Runs x h w command := by
  intro os
  constructor
  · intro c hc
    rcases hx (fun _ => True) trivial os fun _ _ => trivial with hone | ⟨hnone, -⟩
    · rw [hone] at hc
      exact List.mem_singleton.1 hc
    · rw [hnone] at hc
      cases hc
  · intro hos
    rcases hx Works ⟨rfl, rfl⟩ os hos with hone | ⟨-, o, hworks, hfails⟩
    · exact hone
    · exact absurd hworks hfails

theorem Runs.unique {x : HostReconciler.HostM Unit} {h : ByoHost} {w : World} {c c' : HostCommand}
    (hc : Runs x h w c) (hc' : Runs x h w c') : c = c' := by
  have hone := (hc []).2 (List.forall_mem_nil _)
  rw [(hc' []).2 (List.forall_mem_nil _)] at hone
  exact (List.singleton_inj.1 hone).symm

/-! ## From the installer to the host -/

/-- A host with an installation secret. -/
def scriptHost : ByoHost :=
  { Small.host "h1" with installationSecret := some { ns := "default", name := "install-m1" } }

/-- A cluster that holds the install script of an installer. -/
def scriptWorld (i : K8sInstaller) : World :=
  { secrets := AList.insert (Small.key "install-m1")
      { ns := "default", name := "install-m1", data := GoMap.insert none "install" i.install } ∅ }

/-- Wherever the scripts of the installer are stored, an agent runs `install` and `uninstall` for
them. -/
def AgentRuns (cfg : Config) (i : K8sInstaller) (install uninstallScript : String) : Prop :=
  ∀ (h : ByoHost) (w : World) (ref : ObjectReference) (secret : Secret),
    w.secrets.lookup ⟨ref.ns, ref.name⟩ = some secret →
      (h.installationSecret = some ref → secret.data.get "install" = some i.install →
        Runs (executeInstallerController cfg) h w (.install install)) ∧
      (secret.data.get "uninstall" = some i.uninstall →
        Runs (uninstall cfg ref) h w (.uninstall uninstallScript))

/-- The scripts that the agent runs place the bundle of this address under its download path. -/
def ReachesHost (cfg : Config) (addr : String) (i : K8sInstaller) : Prop :=
  ∃ install uninstallScript, AgentRuns cfg i install uninstallScript ∧
    PlacesBundle cfg.downloadPath addr fillLine install ∧
    PlacesBundle cfg.downloadPath addr removeLine uninstallScript

/-- Both scripts run as they are stored. -/
theorem agentRuns_self (cfg : Config) {i : K8sInstaller} (hinstall : '\x7b' ∉ i.install.toList)
    (huninstall : '\x7b' ∉ i.uninstall.toList) : AgentRuns cfg i i.install i.uninstall := by
  intro h w ref secret hsecret
  constructor
  · intro href hscript
    exact runs_of_ensures fun _ hdefault =>
      executeInstallerController_runs hdefault href hsecret hscript hinstall
  · intro hscript
    exact runs_of_ensures fun _ hdefault => uninstall_runs hdefault hsecret hscript huninstall

/-- The install script that the agent runs is the only one. -/
theorem AgentRuns.install_eq {cfg : Config} {i : K8sInstaller} {s u s' u' : String}
    (h : AgentRuns cfg i s u) (h' : AgentRuns cfg i s' u') : s = s' := by
  have hruns := (h scriptHost (scriptWorld i) { ns := "default", name := "install-m1" } _
    (AList.lookup_insert _)).1 rfl rfl
  have hruns' := (h' scriptHost (scriptWorld i) { ns := "default", name := "install-m1" } _
    (AList.lookup_insert _)).1 rfl rfl
  exact HostCommand.install.inj (hruns.unique hruns')

theorem supported_focal : Supported "Ubuntu 20.04.6 LTS" "amd64" := ⟨_, rfl, by decide +kernel⟩

end Byoh.Properties
