import Byoh.Foundation.Returns
import Byoh.Model.AgentMain
import Byoh.Properties.BootstrapSteps

/-!
# The template parser of the agent

The agent chooses its template parser once, from the name of the default interface that
`GetNetworkStatus` left behind at registration, and `ScriptExecutor.Execute` uses it for every file
of a bootstrap script.

* `agentTemplateParser_isSome_iff`: there is a parser exactly if the default interface is found.
* `execute_returns`: with a parser, `Execute` returns; `executed_panics_iff`: without one it panics
  exactly when it gets to the template of the first file.
* `bootstrap_returns` puts them together, over every machine, every script and every run.
* `bootstrap_without_gateway`: without a default gateway there is no parser, and the first file of a
  script makes the agent panic.
-/

set_option autoImplicit false

namespace Byoh.Properties

open Byoh.Foundation Byoh.Model.CloudInit Byoh.Model.AgentMain
open Byoh.Model (Err)
open Byoh.Model.HostRegistrar (LocalHost Interface networkStatuses networkStatus getNetworkStatus)

/-! ## The default interface -/

/-- The addresses of the interface can be read, and one of them is the default IP. -/
def holdsDefault (defaultIP : String) (iface : Interface) : Bool :=
  iface.addrs.any fun addrs => addrs.any (·.ip = defaultIP)

/-- The gateway is discovered, the interfaces are listed, and the last of them that holds the default
IP has a name. -/
def DefaultInterfaceFound (l : LocalHost) : Prop :=
  ∃ defaultIP ifaces iface, l.defaultIP = some defaultIP ∧ l.interfaces = some ifaces ∧
    (ifaces.filter (holdsDefault defaultIP)).getLast? = some iface ∧ iface.name ≠ ""

/-- The loop leaves the name of the last interface with the default IP, or the name that it had. -/
theorem networkStatuses_name (defaultIP : String) (ifaces : List Interface) (name : String) :
    (networkStatuses defaultIP ifaces name).2 =
      ((ifaces.filter (holdsDefault defaultIP)).getLast?.map (·.name)).getD name := by
  induction ifaces generalizing name with
  | nil => rfl
  | cons iface ifaces ih =>
    rw [networkStatuses]
    cases haddrs : iface.addrs with
    | none =>
      have hnot : holdsDefault defaultIP iface = false := by rw [holdsDefault, haddrs]; rfl
      rw [List.filter_cons_of_neg (by rw [hnot]; exact Bool.false_ne_true)]
      exact ih name
    | some addrs =>
      have hholds : holdsDefault defaultIP iface = (networkStatus defaultIP iface addrs).isDefault := by
        rw [holdsDefault, haddrs]
        rfl
      cases hdefault : (networkStatus defaultIP iface addrs).isDefault with
      | true =>
        -- this interface holds the default IP, so the name is its name from here on
        rw [List.filter_cons_of_pos (hholds.trans hdefault), List.getLast?_cons, Option.map_some,
          Option.getD_some]
        simp only [hdefault, if_true, ih]
        cases (ifaces.filter (holdsDefault defaultIP)).getLast? <;> rfl
      | false =>
        rw [List.filter_cons_of_neg (by rw [hholds, hdefault]; exact Bool.false_ne_true)]
        simp only [hdefault, Bool.false_eq_true, if_false]
        exact ih name

/-- An agent has a parser exactly if its default interface was found. -/
theorem agentTemplateParser_isSome_iff (l : LocalHost) :
    (agentTemplateParser l).isSome = true ↔ DefaultInterfaceFound l := by
  have hname : (agentTemplateParser l).isSome = true ↔ (getNetworkStatus l "").2 ≠ "" := by
    rw [agentTemplateParser, setupTemplateParser]
    split
    next hempty => simp [hempty]
    next hne => simp [hne]
  rw [hname, DefaultInterfaceFound, getNetworkStatus]
  cases hip : l.defaultIP with
  | none => simp
  | some defaultIP =>
    cases hifaces : l.interfaces with
    | none => simp
    | some ifaces =>
      simp only [networkStatuses_name, Option.some.injEq, exists_and_left, exists_eq_left']
      cases (ifaces.filter (holdsDefault defaultIP)).getLast? <;> simp

/-! ## Scripts -/

/-- The function returns, whatever its calls return. -/
abbrev AlwaysReturns {α : Type} (x : ExecutorM α) : Prop :=
  x.Returns (fun _ _ => True) () fun _ _ => True

theorem wrapError_returns (msg : String) (err : Option Err) : AlwaysReturns (wrapError msg err) := by
  cases err with
  | none => exact GoM.returns_pure.2 trivial
  | some e => exact GoM.returns_throw.2 trivial

theorem wrapResult_returns (msg : String) (r : Except Err Bytes) :
    AlwaysReturns (wrapResult msg r) := by
  cases r with
  | ok content => exact GoM.returns_pure.2 trivial
  | error e => exact GoM.returns_throw.2 trivial

/-- One call, then a function of the response. -/
theorem alwaysReturns_call {α : Type} (c : Call) {f : Resp c → ExecutorM α}
    (hf : ∀ r, AlwaysReturns (f r)) : AlwaysReturns (GoM.lift (Prog.perform c) >>= f) :=
  GoM.returns_bind.2 (GoM.returns_lift.2 fun r _ => hf r)

theorem alwaysReturns_bind {α β : Type} {x : ExecutorM α} {f : α → ExecutorM β}
    (hx : AlwaysReturns x) (hf : ∀ a, AlwaysReturns (f a)) : AlwaysReturns (x >>= f) :=
  GoM.returns_bind.2 (hx.mono fun a _ _ => hf a)

theorem runCommands_returns (cmds : List String) : AlwaysReturns (runCommands cmds) := by
  induction cmds with
  | nil => exact GoM.returns_pure.2 trivial
  | cons cmd cmds ih =>
    exact alwaysReturns_call _ fun err => alwaysReturns_bind (wrapError_returns _ err) fun _ => ih

/-- With a parser, the body of the first loop returns. -/
theorem writeFile_returns {se : ScriptExecutor} (hparser : se.parser = true) (file : Files) :
    AlwaysReturns (writeFile se file) := by
  refine alwaysReturns_call _ fun err => alwaysReturns_bind (wrapError_returns _ err) fun _ => ?_
  refine alwaysReturns_bind (wrapResult_returns _ _) fun content => ?_
  have hparse : AlwaysReturns (parseTemplate se content) := by
    rw [parseTemplate, if_pos hparser]
    exact GoM.returns_lift.2 fun _ _ => trivial
  refine alwaysReturns_bind hparse fun res => ?_
  refine alwaysReturns_bind (wrapResult_returns _ res) fun content => ?_
  exact alwaysReturns_call _ fun err => wrapError_returns _ err

theorem writeFiles_returns {se : ScriptExecutor} (hparser : se.parser = true)
    (files : List Files) : AlwaysReturns (writeFiles se files) := by
  induction files with
  | nil => exact GoM.returns_pure.2 trivial
  | cons file files ih => exact alwaysReturns_bind (writeFile_returns hparser file) fun _ => ih

/-- With a parser, `Execute` returns. -/
theorem execute_returns {se : ScriptExecutor} (hparser : se.parser = true) (bootstrapScript : String) :
    AlwaysReturns (execute se bootstrapScript) := by
  rw [execute]
  cases se.unmarshal bootstrapScript with
  | error e => exact GoM.returns_throw.2 trivial
  | ok config =>
    exact alwaysReturns_bind (writeFiles_returns hparser _) fun _ => runCommands_returns _

/-- The script gets to the template of its first file: it has one, the call that creates its directory
succeeds, and its content can be decoded. -/
def ReachesTemplate (unmarshal : String → Except Err BootstrapConfig) (decoders : Decoders)
    (bootstrapScript : String) (os : List (Option Err)) : Prop :=
  ∃ config file files content, unmarshal bootstrapScript = .ok config ∧
    config.filesToWrite = file :: files ∧ os.headD none = none ∧
      decodeContent decoders file.content (parseEncodingScheme file.encoding) = .ok content

section Runs

variable {se : ScriptExecutor} {expand : Bytes → Bytes} {os : List (Option Err)}
  {bootstrapScript : String}

/-- What returns however its calls are answered returns in every run. -/
theorem executed_ne_panic {x : ExecutorM Unit} (hreturns : AlwaysReturns x)
    (s : Unit × List (Sigma Resp)) (msg : String) :
    (Prog.run (Prog.logged (answerCall expand)) os (x ()) s).1.1 ≠ .panic msg := by
  have hrun : Prog.MayReturn (fun _ _ => True) (x ())
      (Prog.run (Prog.logged (answerCall expand)) os (x ()) s).1 :=
    Prog.mayReturn_run (I := fun _ => True) (fun _ _ _ _ => ⟨trivial, trivial⟩) os (x ()) trivial
  exact hreturns.ne_panic hrun msg

/-- The exit of a function on a script with files, when there is no parser: that of the first file. -/
theorem writeFiles_exit (hparser : se.parser = false) (file : Files) (files : List Files)
    (f : Unit → ExecutorM Unit) (s : Unit × List (Sigma Resp)) :
    (∃ msg, (Prog.run (Prog.logged (answerCall expand)) os
        ((writeFiles se (file :: files) >>= f) ()) s).1.1 = .panic msg) ↔
      os.headD none = none ∧
        ∃ content, decodeContent se.decoders file.content (parseEncodingScheme file.encoding) =
          .ok content := by
  show (∃ msg, (Prog.run (Prog.logged (answerCall expand)) os
    (.call (Call.mkdirIfNotExists (Text.dirOf file.path)) fun err =>
      (((wrapError _ err >>= fun _ => writeContent se file) >>= fun _ => writeFiles se files) >>= f) ())
    s).1.1 = .panic msg) ↔ _
  rw [Prog.run_call]
  show (∃ msg, (Prog.run _ _ ((((wrapError _ (os.headD none) >>= fun _ => writeContent se file) >>=
    fun _ => writeFiles se files) >>= f) ()) _).1.1 = .panic msg) ↔ _
  cases os.headD none with
  | some e =>
    -- the directory of the file cannot be created
    refine iff_of_false ?_ fun h => Option.some_ne_none _ h.1
    rintro ⟨msg, hpanic⟩
    cases hpanic
  | none =>
    rw [wrapError, GoM.pure_bind, writeContent]
    cases decodeContent se.decoders file.content (parseEncodingScheme file.encoding) with
    | error e =>
      refine iff_of_false ?_ fun h => ?_
      · rintro ⟨msg, hpanic⟩
        cases hpanic
      · obtain ⟨-, content, hcontent⟩ := h
        cases hcontent
    | ok content =>
      refine iff_of_true ?_ ⟨rfl, content, rfl⟩
      rw [wrapResult, GoM.pure_bind, parseTemplate, hparser]
      exact ⟨_, rfl⟩

/-- Without a parser, a run panics exactly when it gets to the template of the first file. -/
theorem executed_panics_iff (hparser : se.parser = false) :
    (∃ msg, (executed se expand os bootstrapScript).1 = .panic msg) ↔
      ReachesTemplate se.unmarshal se.decoders bootstrapScript os := by
  show (∃ msg, (Prog.run (Prog.logged (answerCall expand)) os (execute se bootstrapScript ())
    ((), [])).1.1 = .panic msg) ↔ _
  cases hscript : se.unmarshal bootstrapScript with
  | error e =>
    refine iff_of_false ?_ ?_
    · rintro ⟨msg, hpanic⟩
      rw [execute, hscript] at hpanic
      cases hpanic
    · rintro ⟨config, -, -, -, hconfig, -⟩
      cases hscript.symm.trans hconfig
  | ok config =>
    have hexecute : execute se bootstrapScript =
        (writeFiles se config.filesToWrite >>= fun _ => runCommands config.commandsToExecute) := by
      rw [execute, hscript]
      rfl
    rw [hexecute]
    cases hfiles : config.filesToWrite with
    | nil =>
      refine iff_of_false ?_ ?_
      · rintro ⟨msg, hpanic⟩
        exact executed_ne_panic (runCommands_returns config.commandsToExecute) _ msg hpanic
      · rintro ⟨config', file, files, -, hconfig, hcons, -⟩
        cases hscript.symm.trans hconfig
        cases hfiles.symm.trans hcons
    | cons file files =>
      rw [writeFiles_exit hparser]
      constructor
      · rintro ⟨hmkdir, content, hcontent⟩
        exact ⟨config, file, files, content, hscript, hfiles, hmkdir, hcontent⟩
      · rintro ⟨config', file', files', content, hconfig, hcons, hmkdir, hcontent⟩
        cases hscript.symm.trans hconfig
        cases hfiles.symm.trans hcons
        exact ⟨hmkdir, content, hcontent⟩

end Runs

/-- For every machine, script and pattern of failing calls: `Execute` returns nil or an error exactly if
the default interface was found at registration or the script does not get to a template. -/
theorem bootstrap_returns (unmarshal : String → Except Err BootstrapConfig) (decoders : Decoders)
    (l : LocalHost) (bootstrapScript : String) (expand : Bytes → Bytes) (os : List (Option Err)) :
    (∀ msg, (executed (agentExecutor unmarshal decoders l) expand os bootstrapScript).1 ≠ .panic msg) ↔
      DefaultInterfaceFound l ∨ ¬ReachesTemplate unmarshal decoders bootstrapScript os := by
  rw [← agentTemplateParser_isSome_iff]
  cases hparser : (agentTemplateParser l).isSome with
  | true =>
    refine iff_of_true (fun msg => ?_) (.inl rfl)
    exact executed_ne_panic (execute_returns hparser bootstrapScript) _ msg
  | false =>
    rw [← not_exists, executed_panics_iff hparser]
    simp [agentExecutor]

/-- A machine whose default route goes over `eth0`. -/
def routedMachine : LocalHost where
  defaultIP := some "10.0.0.4"
  interfaces := some [⟨"lo", true, "", some [⟨"127.0.0.1", "127.0.0.1/8"⟩]⟩,
    ⟨"eth0", true, "02:42:0a:00:00:04", some [⟨"10.0.0.4", "10.0.0.4/24"⟩]⟩]
  readFile _ := .error .notExist

/-- Its parser knows the interface, and the whole script is carried out. -/
theorem bootstrap_returns_routed :
    let r := executed (agentExecutor (fun _ => .ok kubeadmConfig) ⟨.ok, .ok⟩ routedMachine) id [] ""
    agentTemplateParser routedMachine = some ⟨"eth0"⟩ ∧ r.1 = .ok () ∧ ∀ msg, r.1 ≠ .panic msg := by
  have hfound : DefaultInterfaceFound routedMachine :=
    (agentTemplateParser_isSome_iff routedMachine).1 (by decide +kernel)
  exact ⟨by decide +kernel, by decide +kernel, (bootstrap_returns _ _ _ _ _ _).2 (.inl hfound)⟩

/-- The same machine without a default route: `gateway.DiscoverInterface` fails, the agent registers
all the same and has no parser, and the first file of a script makes it panic although every call
succeeds. -/
theorem bootstrap_without_gateway :
    let l := { routedMachine with defaultIP := none }
    agentTemplateParser l = none ∧
      (executed (agentExecutor (fun _ => .ok kubeadmConfig) ⟨.ok, .ok⟩ l) id [] "").1 =
        .panic "invalid memory address: se.ParseTemplateExecutor" := by
  decide +kernel

end Byoh.Properties
