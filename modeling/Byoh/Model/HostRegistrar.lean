import Byoh.Model.System

/-!
# Registration of a host

`agent/registration/host_registrar.go`. The agent registers its host when it starts. A host that is
registered already, as after a restart, keeps everything but its network status and its platform
details; the labels of the command line are only used to create a host.

What the agent finds on its machine (`LocalHost`) is an argument.
-/

set_option autoImplicit false

namespace Byoh.Model.HostRegistrar

open Byoh.Foundation

/-! ## The machine of the agent -/

/-- An address of an interface: its IP and its text with the mask. -/
structure Address where
  ip : String
  text : String
  deriving DecidableEq, Repr

/-- `net.Interface`; `addrs` is `none` when `iface.Addrs` fails. -/
structure Interface where
  name : String
  up : Bool
  hardwareAddr : String
  addrs : Option (List Address)
  deriving DecidableEq, Repr

/-- How `os.ReadFile` can fail. -/
inductive ReadFileError where
  | notExist
  | other (text : String)
  deriving DecidableEq, Repr

/-- The text of the error. -/
def ReadFileError.text (path : String) : ReadFileError → String
  | .notExist => "open " ++ path ++ ": no such file or directory"
  | .other text => text

/-- What the registrar asks its machine for. -/
structure LocalHost where
  /-- `gateway.DiscoverInterface`. -/
  defaultIP : Option String
  /-- `net.Interfaces`. -/
  interfaces : Option (List Interface)
  /-- `os.ReadFile`. -/
  readFile : String → Except ReadFileError String
  /-- `runtime.GOARCH`. -/
  arch : String := "amd64"
  /-- `runtime.GOOS`. -/
  os : String := "linux"

/-! ## Network status -/

/-- The status of an interface whose addresses are known. -/
def networkStatus (defaultIP : String) (iface : Interface) (addrs : List Address) :
    NetworkStatus where
  connected := iface.up
  ipAddrs := addrs.map (·.text)
  macAddr := iface.hardwareAddr
  networkInterfaceName := iface.name
  isDefault := addrs.any (·.ip = defaultIP)

/-- The loop of `GetNetworkStatus`: the statuses, and the name of the default interface, which is
the last one with the default address. -/
def networkStatuses (defaultIP : String) : List Interface → String → List NetworkStatus × String
  | [], default => ([], default)
  | iface :: ifaces, default =>
      match iface.addrs with
      | none => networkStatuses defaultIP ifaces default
      | some addrs =>
          let status := networkStatus defaultIP iface addrs
          let rest := networkStatuses defaultIP ifaces
            (if status.isDefault then status.networkInterfaceName else default)
          (status :: rest.1, rest.2)

/-- `GetNetworkStatus`, with `DefaultNetworkInterfaceName` of the registrar before and after. -/
def getNetworkStatus (l : LocalHost) (defaultNetworkInterfaceName : String) :
    List NetworkStatus × String :=
  match l.defaultIP, l.interfaces with
  | some defaultIP, some ifaces => networkStatuses defaultIP ifaces defaultNetworkInterfaceName
  | _, _ => ([], defaultNetworkInterfaceName)

/-! ## Platform details -/

/-- `getOperatingSystem`: the first `PRETTY_NAME` of the release file, without its quotes. -/
def getOperatingSystem (f : String → Except ReadFileError String) : Except Err String :=
  let bytes := match f "/etc/os-release" with
    | .error .notExist => (f "/usr/lib/os-release").mapError (ReadFileError.text "/usr/lib/os-release")
    | r => r.mapError (ReadFileError.text "/etc/os-release")
  match bytes with
  | .error text => .error (.text ("error opening file : " ++ text))
  | .ok text =>
      match Text.after "PRETTY_NAME=".toList text.toList with
      | some rest => .ok (Text.trimChar (String.ofList (rest.takeWhile (· ≠ '\n'))) '\x22')
      | none => .ok "Unknown"

/-- `getHostInfo`. -/
def getHostInfo (l : LocalHost) : Except Err HostInfo :=
  match getOperatingSystem l.readFile with
  | .error e => .error (.wrap "failed to get host operating system image" e)
  | .ok distribution => .ok { osName := l.os, osImage := distribution, architecture := l.arch }

example : getOperatingSystem (fun _ => .ok "NAME=Ubuntu\nPRETTY_NAME=\"Ubuntu 20.04.6 LTS\"\n") =
    .ok "Ubuntu 20.04.6 LTS" := by decide

/-! ## Register -/

/-- `UpdateHost`. -/
def updateHost (l : LocalHost) (defaultNetworkInterfaceName : String) (byoHost : ByoHost) :
    ApiProg (Option Err) :=
  match getHostInfo l with
  | .error e => pure (some e)
  | .ok hostDetails => patchByoHost byoHost { byoHost with
      network := (getNetworkStatus l defaultNetworkInterfaceName).1
      hostDetails := hostDetails }

/-- `Register`, in an agent process that has just started. -/
def register (l : LocalHost) (req : NamespacedName) (hostLabels : Labels) :
    ApiProg (Option Err) := do
  match ← call (.getByoHost req) with
  | .ok byoHost => updateHost l "" byoHost
  | .error e =>
      if e ≠ .notFound then pure (some (.api e))
      else
        let byoHost : ByoHost := { ns := req.ns, name := req.name, labels := hostLabels }
        match ← call (.createByoHost byoHost) with
        | some e => pure (some (.api e))
        | none => updateHost l "" byoHost

end Byoh.Model.HostRegistrar

namespace Byoh.Model

open Byoh.Foundation

/-- A step of a site, or a start of the agent of the host `key`. -/
inductive AgentAction where
  | site (a : Action)
  | register (key : NamespacedName) (hostLabels : Labels) (l : HostRegistrar.LocalHost)
      (os : List Outcome)

/-- One step. -/
def Setup.actOrRegister (setup : Setup) (s : Site) : AgentAction → Site
  | .site a => setup.act s a
  | .register k hostLabels l os =>
      { s with world := (Prog.run exec os (HostRegistrar.register l k hostLabels) s.world).2 }

end Byoh.Model
