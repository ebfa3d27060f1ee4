import Byoh.Foundation.Pool
import Byoh.Foundation.ActionRun
import Byoh.Model.ByoMachineController
import Byoh.Model.K8sInstallerConfigController
import Byoh.Model.ByoHostController
import Byoh.Model.HostReconciler

/-!
# The system

The three controllers and the agents, around one API server. What users and cluster-api do to the
objects is an `EnvAction`.

Runs are taken at two grains. In `system` every reconcile is a thread, and the calls of all threads
interleave. In `Site` a reconcile is one step; the site also keeps, for each host, what the
reconciles of its agent did to the machine, so that properties of command histories can be stated.
-/

set_option autoImplicit false

namespace Byoh.Model

open Byoh.Foundation

/-! ## Threads -/

/-- A reconcile, named by its controller and its request. -/
inductive Tid where
  | byoMachine (key : NamespacedName)
  | k8sInstallerConfig (key : NamespacedName)
  | byoHost (key : NamespacedName)
  | agent (key : NamespacedName)
  deriving DecidableEq, Repr

/-- The command line options that change what the manager and the agents do. -/
structure Setup where
  skipKernelModuleCleanup : Bool := false
  agent : HostReconciler.Config := {}

/-- The program of a thread. -/
def Setup.program (setup : Setup) : Tid → ApiProg Unit
  | .byoMachine k => (ByoMachineReconciler.reconcile k).bind fun _ => .ret ()
  | .k8sInstallerConfig k =>
      (K8sInstallerConfigReconciler.reconcile setup.skipKernelModuleCleanup k).bind fun _ => .ret ()
  | .byoHost k => (ByoHostReconciler.reconcile k).bind fun _ => .ret ()
  | .agent k => (HostReconciler.reconcileReport setup.agent k).bind fun _ => .ret ()

/-! ## The environment -/

/-- What users and cluster-api do, and the deliveries of the informer. -/
inductive EnvAction where
  | createByoMachine (m : ByoMachine)
  | deleteByoMachine (key : NamespacedName)
  | pauseByoMachine (key : NamespacedName) (paused : Bool)
  | putCluster (cluster : Cluster)
  | deleteCluster (key : NamespacedName)
  | putMachine (machine : Machine)
  | deliver (key : NamespacedName)

/-- A machine as it is created: the API server takes no status and no deletion timestamp. -/
def ByoMachine.created (m : ByoMachine) : ByoMachine :=
  { m with
    deletionTimestamp := false
    hostInfo := {}
    ready := false
    conditions := fun _ => none }

/-- The machine with the paused annotation set or removed. -/
def ByoMachine.withPaused (paused : Bool) (m : ByoMachine) : ByoMachine :=
  { m with annotations :=
      if paused then m.annotations.insert .paused "" else m.annotations.delete .paused }

/-- An action of the environment; `none` when it is not possible. -/
def envStep : EnvAction → World → Option World
  | .createByoMachine m, w =>
      if (w.machines.lookup m.key).isSome then none
      else some { w with machines := w.machines.insert m.key m.created }
  | .deleteByoMachine k, w =>
      (w.machines.lookup k).map fun m => w.setMachine k { m with deletionTimestamp := true }
  | .pauseByoMachine k paused, w =>
      (w.machines.lookup k).map fun m => w.setMachine k (m.withPaused paused)
  | .putCluster c, w => some { w with clusters := w.clusters.insert ⟨c.ns, c.name⟩ c }
  | .deleteCluster k, w => some { w with clusters := w.clusters.erase k }
  | .putMachine m, w => some { w with capiMachines := w.capiMachines.insert ⟨m.ns, m.name⟩ m }
  | .deliver k, w => w.informer.map fun i => { w with informer := some (i.deliver k) }

/-- Interleaved reconciles. -/
def system (setup : Setup) : PoolSystem Call Resp Outcome World Tid EnvAction where
  prog := setup.program
  exec := exec
  env := envStep

/-! ## Reconciles as single steps -/

/-- A command that ran, with the host in the agent's memory when it started. -/
structure HostEvent where
  command : HostCommand
  byoHost : ByoHost
  succeeded : Bool

/-- The event of a call with its response. -/
def asEvent : Sigma Resp → Option HostEvent
  | ⟨.hostCommand c h, ok⟩ => some ⟨c, h, ok⟩
  | _ => none

/-- A reconcile of an agent that could read its host: the host as it was read, the commands in
order, and whether `hostCleanUp` came to its end. -/
structure AgentRun where
  before : ByoHost
  events : List HostEvent
  cleanedUp : Bool

/-- The world, with the reconciles of each agent so far. -/
structure Site where
  world : World
  runs : NamespacedName → List AgentRun := fun _ => []

/-- The record of a reconcile. The cleanup annotation is removed by the last steps of
`hostCleanUp` and by nothing else. -/
def agentRun (report : HostReconciler.Report) (calls : List (Sigma Resp)) : Option AgentRun :=
  match report.read, report.left with
  | some before, some left => some {
      before := before
      events := calls.reverse.filterMap asEvent
      cleanedUp := before.carries .hostCleanup && !left.carries .hostCleanup }
  | _, _ => none

/-- A step of a site. -/
inductive Action where
  | reconcile (t : Tid) (os : List Outcome)
  | env (a : EnvAction)

/-- One reconcile of the agent of a host. -/
def Site.agentStep (cfg : HostReconciler.Config) (k : NamespacedName) (os : List Outcome)
    (s : Site) : Site :=
  let r := Prog.run (Prog.logged exec) os (HostReconciler.reconcileReport cfg k) (s.world, [])
  { world := r.2.1
    runs := Function.update s.runs k (s.runs k ++ (agentRun r.1 r.2.2).toList) }

/-- One step; an impossible action of the environment changes nothing. -/
def Setup.act (setup : Setup) (s : Site) : Action → Site
  | .reconcile (.agent k) os => s.agentStep setup.agent k os
  | .reconcile t os => { s with world := (Prog.run exec os (setup.program t) s.world).2 }
  | .env a => { s with world := (envStep a s.world).getD s.world }

/-! ## A small management cluster

Everything in one namespace: a cluster with ready infrastructure, an installer template, machines
that reference it, and hosts that the installer supports. -/

namespace Small

def key (name : String) : NamespacedName := ⟨"default", name⟩

def host (name : String) : ByoHost :=
  { ns := "default", name := name
    hostDetails := { osName := "linux", osImage := "Ubuntu 20.04.6 LTS", architecture := "amd64" } }

def machine (name : String) : ByoMachine :=
  { ns := "default", name := name
    labels := GoMap.insert none .clusterName "prod"
    ownerReferences := [{ apiVersion := "cluster.x-k8s.io/v1beta1", kind := "Machine", name := name }]
    installerRef := some { apiVersion := groupVersion, kind := "K8sInstallerConfigTemplate"
                           ns := "default", name := "installer" } }

def capiMachine (name : String) : Machine :=
  { ns := "default", name := name, version := some "v1.26.6"
    dataSecretName := some ("bootstrap-" ++ name) }

def bootstrapSecret (name : String) : Secret :=
  { ns := "default", name := "bootstrap-" ++ name, data := GoMap.insert none "value" "#cloud-config" }

def cluster : Cluster :=
  { ns := "default", name := "prod", infrastructureRef := some { name := "prod" }
    controlPlaneEndpointHost := "10.0.0.10", infrastructureReady := true }

def template : InstallerTemplate :=
  { apiVersion := groupVersion, kind := "K8sInstallerConfigTemplate", ns := "default"
    name := "installer", template := some { bundleRepo := "registry", bundleType := "k8s" } }

/-- The cluster with these hosts and machines. -/
def world (hosts machines : List String) : World where
  hosts := hosts.foldr (fun h l => l.insert (key h) (host h)) ∅
  machines := machines.foldr (fun m l => l.insert (key m) (machine m)) ∅
  capiMachines := machines.foldr (fun m l => l.insert (key m) (capiMachine m)) ∅
  clusters := AList.insert (key "prod") cluster ∅
  byoClusters := AList.insert (key "prod") { ns := "default", name := "prod" } ∅
  installerTemplates := AList.insert
    ⟨groupVersion, "K8sInstallerConfigTemplate", "default", "installer"⟩ template ∅
  secrets := machines.foldr
    (fun m l => l.insert (bootstrapSecret m).key (bootstrapSecret m)) ∅

/-- The same with an informer, which has delivered everything so far. -/
def cached (w : World) : World := { w with informer := some ⟨w.hosts, fun _ => []⟩ }

theorem hosts_lookup {hosts machines : List String} {k : NamespacedName} {h : ByoHost}
    (hk : (world hosts machines).hosts.lookup k = some h) : ∃ name, k = key name ∧ h = host name := by
  obtain ⟨name, -, h⟩ := lookup_foldr key host hk
  exact ⟨name, h⟩

theorem machines_lookup {hosts machines : List String} {k : NamespacedName} {m : ByoMachine}
    (hk : (world hosts machines).machines.lookup k = some m) :
    ∃ name, k = key name ∧ m = machine name := by
  obtain ⟨name, -, h⟩ := lookup_foldr key machine hk
  exact ⟨name, h⟩

/-- The machines are those of the list. -/
theorem machines_mem {hosts machines : List String} (k : NamespacedName) (m : ByoMachine)
    (hm : (world hosts machines).machines.lookup k = some m) : k ∈ machines.map key := by
  obtain ⟨name, hname, rfl, -⟩ := lookup_foldr key machine hm
  exact List.mem_map_of_mem hname

/-- A reconcile in which every call succeeds. -/
def reconcile (t : Tid) : Action := .reconcile t []

/-- The start of a thread and its first `n` calls, all of which succeed. -/
def calls (t : Tid) (n : Nat) : List (Label Outcome Tid EnvAction) :=
  .start t :: List.replicate n (.call t {})

/-- The life of a machine on a host: it is attached, installed, bootstrapped, deleted and cleaned
up. -/
def life (machine host : String) : List Action :=
  [reconcile (.byoMachine (key machine)), reconcile (.k8sInstallerConfig (key machine)),
    reconcile (.byoMachine (key machine)), reconcile (.agent (key host)),
    .env (.deleteByoMachine (key machine)), reconcile (.byoMachine (key machine)),
    reconcile (.agent (key host)), reconcile (.byoHost (key host))]

end Small

end Byoh.Model
