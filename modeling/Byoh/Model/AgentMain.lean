import Mathlib.Data.Finmap
import Byoh.Model.CloudInit
import Byoh.Model.HostRegistrar

/-!
# The agent process

`agent/main.go`: the `--label` flag, the template parser of the bootstrap scripts, and the loop that
renews the certificate of the agent.

* A `labelFlags` is a finite map. Go iterates over a map in any order, so `String` works on a list of
  its entries.
* The template parser is chosen from what `GetNetworkStatus` left in the registrar.
* `certificateRotation` is given the times of its polls and what the bootstrap flow returns; the
  configuration that it looks at is the one that the process read when it started.
-/

set_option autoImplicit false

namespace Byoh.Model.AgentMain

open Byoh.Foundation

/-! ## Labels -/

/-- `labelFlags`. -/
abbrev LabelFlags := Finmap fun _ : String => String

/-- An entry of a `labelFlags`. -/
abbrev LabelEntry := Sigma fun _ : String => String

/-- The entries of a map, in an order in which Go may iterate over it. -/
def IsIteration (l : LabelFlags) (entries : List LabelEntry) : Prop :=
  (entries : Multiset LabelEntry) = l.entries

/-- `key=value`. -/
def labelText (e : LabelEntry) : String := e.1 ++ "=" ++ e.2

/-- `labelFlags.String`, iterating over the entries in this order. -/
def labelsString (entries : List LabelEntry) : String := Text.join (entries.map labelText) ','

/-- Set one pair; `value` is the whole argument, for the message. -/
def setPair (value : String) (l : LabelFlags) (s : String) : LabelFlags × Option String :=
  match Text.splitPair s '=' with
  | none => (l, some ("invalid argument value. expect key=value, got " ++ value))
  | some (k, v) => (l.insert (Text.trimSpace k) (Text.trimSpace v), none)

/-- The loop of `labelFlags.Set`: empty parts are skipped, and the first part without a value ends
it. -/
def setPairs (value : String) (l : LabelFlags) : List String → LabelFlags × Option String
  | [] => (l, none)
  | s :: parts =>
      if s = "" then setPairs value l parts
      else match setPair value l s with
        | (l', none) => setPairs value l' parts
        | (l', some e) => (l', some e)

/-- `labelFlags.Set`: the map afterwards, and the error. -/
def setLabels (l : LabelFlags) (value : String) : LabelFlags × Option String :=
  if (Text.split value ',').length > 1 then setPairs value l (Text.split value ',')
  else setPair value l value

/-! ## The template parser -/

/-- `cloudinit.TemplateParser` with the template that the agent gives it. -/
structure TemplateParser where
  defaultNetworkInterfaceName : String
  deriving DecidableEq, Repr

/-- `setupTemplateParser`; the argument is `ByoHostInfo.DefaultNetworkInterfaceName`, and `none` is
the nil pointer. -/
def setupTemplateParser (defaultNetworkInterfaceName : String) : Option TemplateParser :=
  if defaultNetworkInterfaceName = "" then none else some ⟨defaultNetworkInterfaceName⟩

/-- The template parser of an agent that has registered its host. -/
def agentTemplateParser (l : HostRegistrar.LocalHost) : Option TemplateParser :=
  setupTemplateParser (HostRegistrar.getNetworkStatus l "").2

/-- The script executor of the agent. `ParseTemplate` has a value receiver, so a call on the nil
pointer panics. -/
def agentExecutor (unmarshal : String → Except Err CloudInit.BootstrapConfig)
    (decoders : CloudInit.Decoders) (l : HostRegistrar.LocalHost) : CloudInit.ScriptExecutor where
  unmarshal := unmarshal
  decoders := decoders
  parser := (agentTemplateParser l).isSome

/-! ## Certificates -/

/-- A certificate; times are in nanoseconds. -/
structure Certificate where
  notBefore : Int
  notAfter : Int
  deriving DecidableEq, Repr

/-- `config.CertData`: no PEM block of a certificate, one that does not parse, or a certificate. -/
inductive CertData where
  | noBlock
  | malformed
  | certificate (cert : Certificate)
  deriving DecidableEq, Repr

/-- `time.Time.Sub`, which keeps to the range of a duration. -/
def timeSub (t u : Int) : Int := max (-2 ^ 63) (min (2 ^ 63 - 1) (t - u))

/-- The time after which a certificate is renewed. -/
def renewAfter (cert : Certificate) : Int :=
  cert.notAfter + (timeSub cert.notAfter cert.notBefore).tdiv (-5)

/-- A poll: the time, and the certificate that the bootstrap flow brings if it is started, or `none`
if it fails. -/
structure Poll where
  now : Int
  flow : Option Certificate
  deriving DecidableEq, Repr

/-- What a poll does: nothing, a renewal with the result of the bootstrap flow, or the end of the
loop with an error. -/
inductive PollResult where
  | nothing
  | renewal (flow : Option Certificate)
  | failed
  deriving DecidableEq, Repr

/-- `certRotation`. A bootstrap flow that fails is logged. -/
def certRotation (config : CertData) (poll : Poll) : PollResult :=
  match config with
  | .noBlock => .nothing
  | .malformed => .failed
  | .certificate cert => if renewAfter cert < poll.now then .renewal poll.flow else .nothing

/-- A renewal, with the certificate that was in force before it. -/
structure Renewal where
  now : Int
  inForce : Certificate
  flow : Option Certificate
  deriving DecidableEq, Repr

/-- The renewals of `certificateRotation` at these polls. The bootstrap flow writes the new
certificate to the file of the agent; the loop goes on with the configuration it was given. -/
def certificateRotation (config : CertData) (inForce : Certificate) : List Poll → List Renewal
  | [] => []
  | poll :: polls =>
      match certRotation config poll with
      | .failed => []
      | .nothing => certificateRotation config inForce polls
      | .renewal flow =>
          ⟨poll.now, inForce, flow⟩ :: certificateRotation config (flow.getD inForce) polls

end Byoh.Model.AgentMain
