import Byoh.Foundation.FailStop
import Byoh.Model.CloudInit

/-!
# The steps of a bootstrap script

`ScriptExecutor.Execute` makes a directory and writes a file for each entry of `write_files`, in
order, and then runs the commands, in order. Before it writes a file it decodes the content and
expands it as a template. Any of these can fail: the outcome of each call is arbitrary, and so are
the decoders.

What it does is a fail-stop course (`Foundation.Course`) along `plan`. The parts of the program have
one lemma each (`writeFile_course`, `writeFiles_course`, `runCommands_course`), and
`execute_failStop` reads the statement about `Execute` off their composition.
-/

set_option autoImplicit false

namespace Byoh.Properties

open Byoh.Foundation Byoh.Model.CloudInit
open Byoh.Model (Err)

/-! ## Runs -/

/-- What `Execute` does to the host. -/
inductive Effect where
  | mkdir (dirName : String)
  | write (file : Files)
  | command (cmd : String)
  deriving DecidableEq, Repr

/-- A call with its response. -/
abbrev Step := Sigma Resp

/-- What a plan asks for: an effect, or in its place the error of the computation that should say
which one. Nothing can come after such an error, since what is attempted are effects. -/
abbrev Planned := Except Err Effect

/-- The effect of a call. -/
def effectOf : Step → Option Planned
  | ⟨.mkdirIfNotExists dirName, _⟩ => some (.ok (.mkdir dirName))
  | ⟨.parseTemplate _, _⟩ => none
  | ⟨.writeToFile file, _⟩ => some (.ok (.write file))
  | ⟨.runCmd cmd, _⟩ => some (.ok (.command cmd))

/-- The call returned no error. -/
def stepSucceeded : Step → Bool
  | ⟨.mkdirIfNotExists _, err⟩ => (show Option Err from err).isNone
  | ⟨.parseTemplate _, .ok _⟩ => true
  | ⟨.parseTemplate _, .error _⟩ => false
  | ⟨.writeToFile _, err⟩ => (show Option Err from err).isNone
  | ⟨.runCmd _, err⟩ => (show Option Err from err).isNone

/-- Answer a call: the outcome is the error of the call, if it fails; a template expands as `expand`
says. -/
def answerCall (expand : Bytes → Bytes) (o : Option Err) : (c : Call) → Unit → Resp c × Unit
  | .mkdirIfNotExists _, s => (o, s)
  | .parseTemplate content, s =>
      (match o with
        | none => .ok (expand content)
        | some e => .error e, s)
  | .writeToFile _, s => (o, s)
  | .runCmd _, s => (o, s)

/-! ## The plan -/

section Plan

variable (se : ScriptExecutor) (expand : Bytes → Bytes)

/-- The file is written with its content decoded and expanded. -/
def writePlan (file : Files) : Planned :=
  (decoded se file).map fun content => .write { file with content := expand content }

/-- The effects of one file. -/
def filePlan (file : Files) : List Planned :=
  [.ok (.mkdir (Text.dirOf file.path)), writePlan se expand file]

/-- The effects of a cloud-config. -/
def plan (config : BootstrapConfig) : List Planned :=
  config.filesToWrite.flatMap (filePlan se expand) ++
    config.commandsToExecute.map fun cmd => .ok (.command cmd)

end Plan

/-! ## Courses -/

/-- The steps that a function makes after the calls `calls`, newest first, are a course along the
plan, which ends well when the function returns no error. -/
def Follows (plan : List Planned) (calls : List Step) (exit : Exit Err Unit)
    (t : Unit × List Step) : Prop :=
  ∃ steps, t.2 = steps.reverse ++ calls ∧
    Course stepSucceeded effectOf plan (exit = .ok ()) steps

section Courses

variable {se : ScriptExecutor} {expand : Bytes → Bytes} {calls : List Step} {rest : List Planned}
  {exit : Exit Err Unit}

/-- All runs of a function that starts after the calls `calls`. -/
abbrev Logged (x : ExecutorM Unit) (expand : Bytes → Bytes) (calls : List Step)
    (Q : Exit Err Unit → Unit × List Step → Prop) : Prop :=
  GoM.Ensures (Prog.logged (answerCall expand)) (fun _ => True) x () ((), calls) fun e _ t => Q e t

/-- A step that goes well, then the rest of the function. -/
theorem Follows.after {s : Step} (hs : stepSucceeded s = true) {t : Unit × List Step}
    (h : Follows rest (s :: calls) exit t) :
    Follows ((effectOf s).toList ++ rest) calls exit t := by
  obtain ⟨steps, hlog, hcourse⟩ := h
  exact ⟨s :: steps, by simp [hlog], (Course.step hs).append hcourse⟩

/-- A step that fails, and an exit with an error. -/
theorem Follows.fail (s : Step) (rest : List Planned) (hs : stepSucceeded s = false)
    (hne : (effectOf s).toList ++ rest ≠ []) (hexit : exit ≠ .ok ()) :
    Follows ((effectOf s).toList ++ rest) calls exit ((), s :: calls) := by
  refine ⟨[s], rfl, ?_⟩
  rw [decide_eq_false hexit]
  exact .fail hs (List.prefix_append _ _) hne

/-- An exit with an error, before anything is done. -/
theorem Follows.halt (hne : rest ≠ []) (hexit : exit ≠ .ok ()) :
    Follows rest calls exit ((), calls) := by
  refine ⟨[], rfl, ?_⟩
  rw [decide_eq_false hexit]
  exact .halt hne

theorem runCommands_course (cmds : List String) :
    Logged (runCommands cmds) expand calls (Follows (cmds.map fun cmd => .ok (.command cmd)) calls) := by
  induction cmds generalizing calls with
  | nil => exact .pure ⟨[], rfl, .nil⟩
  | cons cmd cmds ih =>
    refine .call_bind trivial fun o _ => ?_
    cases o with
    | none => exact ih.mono fun _ _ _ h => h.after rfl
    | some e =>
      exact .throw (.fail ⟨.runCmd cmd, some e⟩ (cmds.map fun cmd => .ok (.command cmd)) rfl
        (List.cons_ne_nil _ _) nofun)

/-- The last part of the body of the first loop. -/
theorem writeExpanded_course (file : Files) (msg : String) :
    Logged (GoM.lift (Prog.perform (.writeToFile file)) >>= wrapError msg) expand calls
      (Follows [.ok (.write file)] calls) := by
  refine .call_bind trivial fun o _ => ?_
  cases o with
  | none => exact .pure (Follows.after (s := ⟨.writeToFile file, none⟩) rfl ⟨[], rfl, .nil⟩)
  | some e => exact .throw (.fail ⟨.writeToFile file, some e⟩ [] rfl (List.cons_ne_nil _ _) nofun)

/-- The content of a file is decoded, expanded and written. -/
theorem writeContent_course (file : Files) :
    Logged (writeContent se file) expand calls (Follows [writePlan se expand file] calls) := by
  rw [writePlan, decoded, writeContent]
  cases decodeContent se.decoders file.content (parseEncodingScheme file.encoding) with
  | error e => exact .throw (.halt (List.cons_ne_nil _ _) nofun)
  | ok content =>
    rw [wrapResult, GoM.pure_bind, parseTemplate]
    cases hparser : se.parser with
    | false => exact .ret (.halt (List.cons_ne_nil _ _) nofun)
    | true =>
      refine .call_bind trivial fun o _ => ?_
      cases o with
      | some e =>
        exact .throw (.fail ⟨.parseTemplate content, .error e⟩ _ rfl (List.cons_ne_nil _ _) nofun)
      | none =>
        -- the template was expanded, which has no effect on the host
        exact (writeExpanded_course _ _).mono fun _ _ _ h =>
          h.after (s := ⟨.parseTemplate content, .ok _⟩) rfl

/-- The body of the first loop. -/
theorem writeFile_course (file : Files) :
    Logged (writeFile se file) expand calls (Follows (filePlan se expand file) calls) := by
  refine .call_bind trivial fun o _ => ?_
  cases o with
  | some e =>
    exact .throw (.fail ⟨.mkdirIfNotExists _, some e⟩ [writePlan se expand file] rfl
      (List.cons_ne_nil _ _) nofun)
  | none =>
    change Logged (pure () >>= fun _ => writeContent se file) expand _ _
    rw [GoM.pure_bind]
    exact (writeContent_course file).mono fun _ _ _ h =>
      h.after (s := ⟨.mkdirIfNotExists _, none⟩) rfl

/-- Two parts of a function, the second of which is entered only when the first returns no
error. -/
theorem Follows.bind {x y : ExecutorM Unit} {plan rest : List Planned}
    (hx : Logged x expand calls (Follows plan calls))
    (hy : ∀ calls, Logged y expand calls (Follows rest calls)) :
    Logged (do x; y) expand calls (Follows (plan ++ rest) calls) := by
  refine .bind (hx.mono ?_)
  rintro exit _ ⟨_, calls'⟩ ⟨steps, rfl, hcourse⟩
  have hstop {exit : Exit Err Unit} (hexit : exit ≠ .ok ())
      (h : Course stepSucceeded effectOf plan (exit = .ok ()) steps) :
      Follows (plan ++ rest) calls exit ((), steps.reverse ++ calls) := by
    rw [decide_eq_false hexit] at h
    refine ⟨steps, rfl, ?_⟩
    rw [decide_eq_false hexit]
    exact h.stop rest
  cases exit with
  | err e => exact hstop nofun hcourse
  | panic msg => exact hstop nofun hcourse
  | ok =>
    refine (hy _).mono ?_
    rintro exit _ ⟨_, calls'⟩ ⟨later, rfl, hlater⟩
    exact ⟨steps ++ later, by simp, hcourse.append hlater⟩

/-- The first loop. -/
theorem writeFiles_course (files : List Files) :
    Logged (writeFiles se files) expand calls
      (Follows (files.flatMap (filePlan se expand)) calls) := by
  induction files generalizing calls with
  | nil => exact .pure ⟨[], rfl, .nil⟩
  | cons file files ih => exact Follows.bind (writeFile_course file) fun _ => ih

theorem executeConfig_course (config : BootstrapConfig) :
    Logged (executeConfig se config) expand calls (Follows (plan se expand config) calls) :=
  Follows.bind (writeFiles_course config.filesToWrite)
    fun _ => runCommands_course config.commandsToExecute

end Courses

/-! ## Execute -/

/-- A run of `Execute` in which the calls fail as `os` says: its exit, and its calls in order. -/
def executed (se : ScriptExecutor) (expand : Bytes → Bytes) (os : List (Option Err))
    (bootstrapScript : String) : Exit Err Unit × List Step :=
  let r := Prog.run (Prog.logged (answerCall expand)) os (execute se bootstrapScript ()) ((), [])
  (r.1.1, r.2.2.reverse)

theorem executed_course {se : ScriptExecutor} {bootstrapScript : String} {config : BootstrapConfig}
    (hscript : se.unmarshal bootstrapScript = .ok config) (expand : Bytes → Bytes)
    (os : List (Option Err)) :
    Course stepSucceeded effectOf (plan se expand config)
      ((executed se expand os bootstrapScript).1 = .ok ())
      (executed se expand os bootstrapScript).2 := by
  have hrun : Logged (execute se bootstrapScript) expand [] (Follows (plan se expand config) []) := by
    rw [execute, hscript]
    exact executeConfig_course config
  obtain ⟨steps, hlog, hcourse⟩ := hrun os fun _ _ => trivial
  have hsteps : (executed se expand os bootstrapScript).2 = steps := by
    rw [executed, hlog]
    simp
  rw [hsteps]
  exact hcourse

/-- What is attempted are effects. -/
theorem effectOf_ok {s : Step} {p : Planned} (h : effectOf s = some p) : ∃ e, p = .ok e := by
  rcases s with ⟨c, r⟩
  cases c <;> cases h <;> exact ⟨_, rfl⟩

/-- A file that is written was decoded. -/
theorem decoded_of_performed {se : ScriptExecutor} {expand : Bytes → Bytes} {file : Files}
    {steps : List Step} (h : writePlan se expand file ∈ performed stepSucceeded effectOf steps) :
    ∃ content, decoded se file = .ok content ∧
      writePlan se expand file = .ok (.write { file with content := expand content }) := by
  obtain ⟨s, -, hs⟩ := List.mem_filterMap.1 h
  obtain ⟨e, he⟩ := effectOf_ok hs
  rw [writePlan] at he ⊢
  cases hdecoded : decoded se file with
  | ok content => exact ⟨content, rfl, rfl⟩
  | error err =>
    rw [hdecoded] at he
    cases he

/-- No command is in the plan of a file. -/
theorem command_not_mem_filePlan (se : ScriptExecutor) (expand : Bytes → Bytes)
    (files : List Files) (cmd : String) :
    Except.ok (.command cmd) ∉ files.flatMap (filePlan se expand) := by
  intro h
  obtain ⟨file, -, hfile⟩ := List.mem_flatMap.1 h
  rw [filePlan, List.mem_pair] at hfile
  rcases hfile with hmkdir | hwrite
  · cases hmkdir
  · rw [writePlan] at hwrite
    cases hdecoded : decoded se file <;> rw [hdecoded] at hwrite <;> cases hwrite

/-- Once a command has been attempted, every file has been decoded, expanded and written. -/
theorem files_written {se : ScriptExecutor} {expand : Bytes → Bytes} {config : BootstrapConfig}
    {ended : Bool} {steps : List Step}
    (h : Course stepSucceeded effectOf (plan se expand config) ended steps) {cmd : String}
    (hcmd : Except.ok (.command cmd) ∈ attempted effectOf steps) :
    config.filesToWrite.flatMap (filePlan se expand) <+: performed stepSucceeded effectOf steps := by
  have hnot := command_not_mem_filePlan se expand config.filesToWrite cmd
  rcases List.prefix_or_prefix_of_prefix h.isPrefix (List.prefix_append _ _) with hle | ⟨later, heq⟩
  · exact absurd (hle.subset hcmd) hnot
  · cases later with
    | nil =>
      rw [← heq, List.append_nil] at hcmd
      exact absurd hcmd hnot
    | cons e later =>
      refine h.performed_before (e := e) ?_
      rw [← heq]
      exact ⟨later, by simp⟩

/-- `Execute` carries out a cloud-config in order and stops at the first failure: what it attempts,
and what it carries out, is a beginning of the plan, in which a file that cannot be decoded stands
in the way of everything after it; nothing is done after a call that failed; when it attempts a
command, every file has been decoded, and written as expanded; and it returns nil exactly when the
whole plan has been carried out. -/
theorem execute_failStop (se : ScriptExecutor) (expand : Bytes → Bytes) (os : List (Option Err))
    (bootstrapScript : String) (config : BootstrapConfig)
    (hscript : se.unmarshal bootstrapScript = .ok config) :
    let exit := (executed se expand os bootstrapScript).1
    let steps := (executed se expand os bootstrapScript).2
    attempted effectOf steps <+: plan se expand config ∧
      performed stepSucceeded effectOf steps <+: plan se expand config ∧
      (∀ before step after, steps = before ++ step :: after → stepSucceeded step = false →
        after = []) ∧
      (∀ cmd, Except.ok (.command cmd) ∈ attempted effectOf steps →
        ∀ file ∈ config.filesToWrite, ∃ content, decoded se file = .ok content ∧
          Except.ok (.write { file with content := expand content }) ∈
            performed stepSucceeded effectOf steps) ∧
      (exit = .ok () ↔ performed stepSucceeded effectOf steps = plan se expand config) := by
  intro exit steps
  have hcourse := executed_course hscript expand os
  refine ⟨hcourse.isPrefix, hcourse.performed_prefix, hcourse.failStop, ?_, ?_⟩
  · intro cmd hcmd file hfile
    have hwrite : writePlan se expand file ∈ performed stepSucceeded effectOf steps :=
      (files_written hcourse hcmd).subset
        (List.mem_flatMap.2 ⟨file, hfile, List.mem_pair.2 (.inr rfl)⟩)
    obtain ⟨content, hdecoded, heq⟩ := decoded_of_performed hwrite
    exact ⟨content, hdecoded, heq ▸ hwrite⟩
  · rw [← hcourse.ended_iff, decide_eq_true_iff]

/-- One file and two commands. -/
def kubeadmConfig : BootstrapConfig where
  filesToWrite := [{ path := "/run/kubeadm/kubeadm.yaml", content := [0x61] }]
  commandsToExecute := ["kubeadm init", "touch /run/done"]

def kubeadmExecutor : ScriptExecutor where
  unmarshal _ := .ok kubeadmConfig
  decoders := ⟨.ok, .ok⟩

/-- The first command fails: the second one is not attempted. -/
theorem execute_failStop_init :
    let r := executed kubeadmExecutor id [none, none, none, some (.text "exit status 1")] ""
    kubeadmExecutor.unmarshal "" = .ok kubeadmConfig ∧
      Except.ok (.command "kubeadm init") ∈ attempted effectOf r.2 ∧
      Except.ok (.command "touch /run/done") ∉ attempted effectOf r.2 ∧
      (r.1 = .ok () ↔
        performed stepSucceeded effectOf r.2 = plan kubeadmExecutor id kubeadmConfig) :=
  ⟨rfl, by decide +kernel, by decide +kernel, (execute_failStop _ _ _ _ _ rfl).2.2.2.2⟩

end Byoh.Properties
