import Byoh.Foundation.GoFunction
import Byoh.Model.Labels

/-!
# The API server, the host and the calls on them

A `Call` is one request to the API server or one action on the machine that a host agent runs on.
`World` holds the objects of the management cluster and the provider IDs of workload nodes. `exec`
answers a call; the `Outcome` is the environment's part: whether a read, a write or a command
succeeds, and which item of a listing comes first. Commands on a host leave no trace in the world;
they are read off the log of calls (`Foundation.logged`).

A failed write has no effect. A patch is a JSON merge patch of the fields in which the object in
memory differs from the object as it was read (`MergePatch.lean`), sent without a precondition on
the resource version; metadata and spec, status, and conditions are separate requests. An object
under deletion disappears with its last finalizer.

With an informer, listings of hosts come from its cache; every write queues the new version of the
host, and `Informer.deliver` takes the oldest queued version over into the cache. Without an
informer, listings are up to date.
-/

set_option autoImplicit false

namespace Byoh.Model

open Byoh.Foundation

/-! ## Hosts seen from outside -/

/-- What runs on the machine of a host. -/
inductive HostCommand where
  /-- `CmdRunner.RunCmd` of the install script. -/
  | install (script : String)
  /-- `CmdRunner.RunCmd` of the uninstall script. -/
  | uninstall (script : String)
  /-- `CmdRunner.RunCmd` of `kubeadm reset --force`, by `hostCleanUp` or after a failed bootstrap. -/
  | kubeadmReset (inCleanup : Bool)
  /-- `ScriptExecutor.Execute` of the bootstrap script. -/
  | bootstrap (script : String)
  /-- `common.RemoveGlob`. -/
  | removeGlob (path : String)
  /-- `os.Remove` of the bootstrap sentinel file. -/
  | removeSentinelFile
  /-- `network.DeleteIP`. -/
  | deleteIP (ip : String)
  deriving DecidableEq, Repr

/-! ## Calls -/

/-- The calls of the controllers and of the agent. -/
inductive Call where
  | getByoMachine (key : NamespacedName)
  | getMachine (key : NamespacedName)
  | getCluster (key : NamespacedName)
  | getByoCluster (key : NamespacedName)
  | getByoHost (key : NamespacedName)
  | createByoHost (host : ByoHost)
  | listByoHosts (selector : Selector) (ns : Option String)
  | listByoMachines (ns clusterName : String)
  | getInstallerConfig (key : InstallerKey)
  | getInstallerTemplate (key : InstallerKey)
  | createInstallerConfig (config : InstallerConfig)
  | getSecret (key : NamespacedName)
  | createSecret (secret : Secret)
  | updateSecret (secret : Secret)
  | deleteSecret (key : NamespacedName)
  | patchByoHostConditions (key : NamespacedName) (before after : ByoHost)
  | patchByoHost (key : NamespacedName) (before after : ByoHost)
  | patchByoHostStatus (key : NamespacedName) (before after : ByoHost)
  | patchByoMachineConditions (key : NamespacedName) (before after : ByoMachine)
  | patchByoMachine (key : NamespacedName) (before after : ByoMachine)
  | patchByoMachineStatus (key : NamespacedName) (before after : ByoMachine)
  | patchByoCluster (key : NamespacedName) (before after : ByoCluster)
  | patchByoClusterStatus (key : NamespacedName) (before after : ByoCluster)
  | patchInstallerConfig (key : InstallerKey) (before after : InstallerConfig)
  | patchInstallerConfigStatus (key : InstallerKey) (before after : InstallerConfig)
  | getRemoteClient (cluster : NamespacedName)
  | getNode (cluster : NamespacedName) (name : String)
  | patchNode (cluster : NamespacedName) (name : String) (before after : String)
  | randomString (n : Nat)
  | hostCommand (command : HostCommand) (byoHost : ByoHost)
  | sentinelFileExists
  | newVipConfig (ip : String)
  | parseTemplate (bundleDownloadPath script : String)

/-- The responses; `none` is the nil error of a write. -/
@[reducible] def Resp : Call → Type
  | .getByoMachine _ => Except ApiError ByoMachine
  | .getMachine _ => Except ApiError Machine
  | .getCluster _ => Except ApiError Cluster
  | .getByoCluster _ => Except ApiError ByoCluster
  | .getByoHost _ => Except ApiError ByoHost
  | .listByoHosts _ _ => Except ApiError (List ByoHost)
  | .listByoMachines _ _ => Except ApiError (List ByoMachine)
  | .getInstallerConfig _ => Except ApiError InstallerConfig
  | .getInstallerTemplate _ => Except ApiError InstallerTemplate
  | .getSecret _ => Except ApiError Secret
  | .createByoHost _ => Option ApiError
  | .createInstallerConfig _ | .createSecret _ | .updateSecret _ | .deleteSecret _ => Option ApiError
  | .patchByoHostConditions _ _ _ | .patchByoHost _ _ _ | .patchByoHostStatus _ _ _ => Option ApiError
  | .patchByoMachineConditions _ _ _ | .patchByoMachine _ _ _ | .patchByoMachineStatus _ _ _ =>
      Option ApiError
  | .patchByoCluster _ _ _ | .patchByoClusterStatus _ _ _ => Option ApiError
  | .patchInstallerConfig _ _ _ | .patchInstallerConfigStatus _ _ _ => Option ApiError
  | .getRemoteClient _ => Option ApiError
  | .getNode _ _ => Except ApiError String
  | .patchNode _ _ _ _ => Option ApiError
  | .randomString _ => String
  | .hostCommand _ _ => Bool
  | .sentinelFileExists => Bool
  | .newVipConfig _ => Bool
  | .parseTemplate _ _ => Option String

/-- The environment's part of a call. -/
structure Outcome where
  readOk : Bool := true
  writeOk : Bool := true
  commandOk : Bool := true
  pick : Nat := 0
  expanded : String := ""
  deriving DecidableEq, Repr

instance : Inhabited Outcome := ⟨{}⟩

/-! ## The world -/

abbrev HostStore := AList fun _ : NamespacedName => ByoHost

/-- The watch on hosts: the cached objects, and for each host the versions that are still to be
delivered, oldest first. -/
structure Informer where
  cache : HostStore
  queue : NamespacedName → List ByoHost

/-- Take the oldest undelivered version of a host over into the cache. -/
def Informer.deliver (i : Informer) (k : NamespacedName) : Informer :=
  match i.queue k with
  | [] => i
  | h :: rest => { cache := i.cache.insert k h, queue := Function.update i.queue k rest }

/-- Everything the controllers and the agents act on. -/
structure World where
  hosts : HostStore := ∅
  informer : Option Informer := none
  machines : AList (fun _ : NamespacedName => ByoMachine) := ∅
  capiMachines : AList (fun _ : NamespacedName => Machine) := ∅
  clusters : AList (fun _ : NamespacedName => Cluster) := ∅
  byoClusters : AList (fun _ : NamespacedName => ByoCluster) := ∅
  installerConfigs : AList (fun _ : InstallerKey => InstallerConfig) := ∅
  installerTemplates : AList (fun _ : InstallerKey => InstallerTemplate) := ∅
  secrets : AList (fun _ : NamespacedName => Secret) := ∅
  nodes : AList (fun _ : NamespacedName × String => String) := ∅

namespace World

/-- The hosts that a listing sees. -/
def hostView (w : World) : HostStore :=
  match w.informer with
  | none => w.hosts
  | some i => i.cache

/-- Write a host; an informer is told. -/
def setHost (w : World) (k : NamespacedName) (h : ByoHost) : World :=
  { w with
    hosts := w.hosts.insert k h
    informer := w.informer.map fun i =>
      { i with queue := Function.update i.queue k (i.queue k ++ [h]) } }

/-- Write a machine; under deletion it disappears with its last finalizer. -/
def setMachine (w : World) (k : NamespacedName) (m : ByoMachine) : World :=
  { w with machines :=
      if m.deletionTimestamp && m.finalizers.isEmpty then w.machines.erase k
      else w.machines.insert k m }

/-- Write a cluster; under deletion it disappears with its last finalizer. -/
def setByoCluster (w : World) (k : NamespacedName) (c : ByoCluster) : World :=
  { w with byoClusters :=
      if c.deletionTimestamp && c.finalizers.isEmpty then w.byoClusters.erase k
      else w.byoClusters.insert k c }

/-- Write an installer configuration; under deletion it disappears with its last finalizer. -/
def setInstallerConfig (w : World) (k : InstallerKey) (c : InstallerConfig) : World :=
  { w with installerConfigs :=
      if c.deletionTimestamp && c.finalizers.isEmpty then w.installerConfigs.erase k
      else w.installerConfigs.insert k c }

end World

/-! ## Merge patches of objects -/

/-- The merge patch of a reference. A sub-object is patched field by field, so a patch from one
reference to another writes only the fields in which they differ. -/
def mergeRef (before after cur : Option ObjectReference) : Option ObjectReference :=
  if before = after then cur
  else after.map fun a =>
    let b := before.getD {}
    let c := cur.getD {}
    { apiVersion := mergeField b.apiVersion a.apiVersion c.apiVersion
      kind := mergeField b.kind a.kind c.kind
      ns := mergeField b.ns a.ns c.ns
      name := mergeField b.name a.name c.name
      uid := mergeField b.uid a.uid c.uid }

/-- The merge patch of host details. -/
def mergeHostInfo (before after cur : HostInfo) : HostInfo where
  osName := mergeField before.osName after.osName cur.osName
  osImage := mergeField before.osImage after.osImage cur.osImage
  architecture := mergeField before.architecture after.architecture cur.architecture

/-- The conditions after a patch of those that changed. -/
def mergedConditions (before after cur : Conditions) : Conditions :=
  fun t => mergeField (before t) (after t) (cur t)

/-- The patch of conditions; it is refused when a condition it changes has changed on the server
in another way. -/
def mergeConditions (before after cur : Conditions) : Option Conditions :=
  if ∀ t, before t = after t ∨ cur t = before t ∨ cur t = after t then
    some (mergedConditions before after cur)
  else none

/-- The patch of metadata and spec of a host. -/
def ByoHost.merge (before after cur : ByoHost) : ByoHost :=
  { cur with
    labels := GoMap.merge before.labels after.labels cur.labels
    annotations := GoMap.merge before.annotations after.annotations cur.annotations
    bootstrapSecret := mergeRef before.bootstrapSecret after.bootstrapSecret cur.bootstrapSecret
    installationSecret :=
      mergeRef before.installationSecret after.installationSecret cur.installationSecret
    uninstallationSecret :=
      mergeRef before.uninstallationSecret after.uninstallationSecret cur.uninstallationSecret }

/-- The patch of the status of a host, without its conditions. -/
def ByoHost.mergeStatus (before after cur : ByoHost) : ByoHost :=
  { cur with
    machineRef := mergeRef before.machineRef after.machineRef cur.machineRef
    hostDetails := mergeHostInfo before.hostDetails after.hostDetails cur.hostDetails
    network := mergeField before.network after.network cur.network }

/-- The patch of metadata and spec of a machine, in the fields that reconciles change. -/
def ByoMachine.merge (before after cur : ByoMachine) : ByoMachine :=
  { cur with
    finalizers := mergeField before.finalizers after.finalizers cur.finalizers
    providerID := mergeField before.providerID after.providerID cur.providerID }

/-- The patch of the status of a machine, without its conditions. -/
def ByoMachine.mergeStatus (before after cur : ByoMachine) : ByoMachine :=
  { cur with
    hostInfo := mergeHostInfo before.hostInfo after.hostInfo cur.hostInfo
    ready := mergeField before.ready after.ready cur.ready }

/-- The patch of metadata and spec of a cluster, in the fields that reconciles change. -/
def ByoCluster.merge (before after cur : ByoCluster) : ByoCluster :=
  { cur with
    finalizers := mergeField before.finalizers after.finalizers cur.finalizers
    controlPlaneEndpointPort := mergeField before.controlPlaneEndpointPort
      after.controlPlaneEndpointPort cur.controlPlaneEndpointPort }

/-- The patch of the status of a cluster. -/
def ByoCluster.mergeStatus (before after cur : ByoCluster) : ByoCluster :=
  { cur with ready := mergeField before.ready after.ready cur.ready }

/-- The patch of metadata of an installer configuration. -/
def InstallerConfig.merge (before after cur : InstallerConfig) : InstallerConfig :=
  { cur with finalizers := mergeField before.finalizers after.finalizers cur.finalizers }

/-- The patch of the status of an installer configuration. -/
def InstallerConfig.mergeStatus (before after cur : InstallerConfig) : InstallerConfig :=
  { cur with
    ready := mergeField before.ready after.ready cur.ready
    installationSecret :=
      mergeField before.installationSecret after.installationSecret cur.installationSecret
    uninstallationSecret :=
      mergeField before.uninstallationSecret after.uninstallationSecret cur.uninstallationSecret }

/-! ## Execution -/

/-- A read of one object. -/
def readObject {α : Type} (o : Outcome) (x : Option α) : Except ApiError α :=
  if o.readOk then
    match x with
    | some a => .ok a
    | none => .error .notFound
  else .error .other

/-- A write to an object that must exist; `f` gives the new world, or refuses. -/
def writeObject {α : Type} (o : Outcome) (w : World) (x : Option α) (f : α → Except ApiError World) :
    Option ApiError × World :=
  if o.writeOk then
    match x with
    | some a =>
        match f a with
        | .ok w' => (none, w')
        | .error e => (some e, w)
    | none => (some .notFound, w)
  else (some .other, w)

/-- The creation of an object. -/
def createObject (o : Outcome) (w : World) (present : Bool) (w' : World) :
    Option ApiError × World :=
  if o.writeOk then if present then (some .alreadyExists, w) else (none, w')
  else (some .other, w)

/-- The hosts of a listing; the environment chooses the item that comes first. -/
def listHosts (w : World) (selector : Selector) (ns : Option String) (pick : Nat) : List ByoHost :=
  ((w.hostView.entries.map (·.2)).filter fun h =>
    selector.matches h.labels && ns.all (· = h.ns)).rotate pick

/-- The machines of a namespace with the label of a cluster. -/
def machinesInCluster (w : World) (ns clusterName : String) : List ByoMachine :=
  (w.machines.entries.map (·.2)).filter fun m =>
    m.ns = ns && m.labels.get .clusterName = some clusterName

/-- The characters of `util.RandomString`. -/
def charSet : List Char := "0123456789abcdefghijklmnopqrstuvwxyz".toList

/-- `n` characters of `charSet`, read off a number. -/
def randomChars : Nat → Nat → List Char
  | 0, _ => []
  | n + 1, seed =>
      charSet.getD (seed % charSet.length) '0' :: randomChars n (seed / charSet.length)

/-- The blanks inside an action of a template. -/
def isActionBlank (c : Char) : Bool := c = ' ' || c = '\t' || c = '\r' || c = '\n'

/-- The number of characters up to the end of the action, behind its left delimiter, if the action
is the field `BundleDownloadPath`. -/
def fieldLength (cs : List Char) : Option Nat :=
  let field := ".BundleDownloadPath".toList
  let start := cs.dropWhile isActionBlank
  let rest := (start.drop field.length).dropWhile isActionBlank
  if field.isPrefixOf start && "\x7d\x7d".toList.isPrefixOf rest then
    some (cs.length - rest.length + 2)
  else none

/-- `Template.Execute` of a text in which every action is the field `BundleDownloadPath`. The first
argument counts the characters of an action that are still to be skipped. -/
def expandTemplate (value : List Char) : Nat → List Char → Option (List Char)
  | _, [] => some []
  | skip + 1, _ :: cs => expandTemplate value skip cs
  | 0, c :: cs =>
      if "\x7b\x7b".toList.isPrefixOf (c :: cs) then do
        let n ← fieldLength cs.tail
        let rest ← expandTemplate value (n + 1) cs
        return value ++ rest
      else do
        let rest ← expandTemplate value 0 cs
        return c :: rest

/-- `TemplateParser.ParseTemplate`. What any other action gives is left to the environment. -/
def Outcome.parseTemplate (o : Outcome) (path script : String) : Option String :=
  if o.commandOk then
    some (((expandTemplate path.toList 0 script.toList).map String.ofList).getD o.expanded)
  else none

example : expandTemplate "/opt".toList 0 "d=\x7b\x7b .BundleDownloadPath\x7d\x7d;".toList =
    some "d=/opt;".toList := by
  decide +kernel

/-- The API server refuses to add a finalizer to an object under deletion. -/
def addsFinalizer (deleting : Bool) (old new : List String) : Bool :=
  deleting && new.any (· ∉ old)

/-- Answer a call. -/
def exec (o : Outcome) : (c : Call) → World → Resp c × World
  | .getByoMachine k, w => (readObject o (w.machines.lookup k), w)
  | .getMachine k, w => (readObject o (w.capiMachines.lookup k), w)
  | .getCluster k, w => (readObject o (w.clusters.lookup k), w)
  | .getByoCluster k, w => (readObject o (w.byoClusters.lookup k), w)
  | .getByoHost k, w => (readObject o (w.hosts.lookup k), w)
  | .createByoHost h, w =>
      createObject o w (w.hosts.lookup h.key).isSome (w.setHost h.key h)
  | .listByoHosts sel ns, w =>
      (if o.readOk then .ok (listHosts w sel ns o.pick) else .error .other, w)
  | .listByoMachines ns clusterName, w =>
      (if o.readOk then .ok (machinesInCluster w ns clusterName) else .error .other, w)
  | .getInstallerConfig k, w => (readObject o (w.installerConfigs.lookup k), w)
  | .getInstallerTemplate k, w => (readObject o (w.installerTemplates.lookup k), w)
  | .createInstallerConfig c, w =>
      createObject o w (w.installerConfigs.lookup c.key).isSome
        { w with installerConfigs := w.installerConfigs.insert c.key c }
  | .getSecret k, w => (readObject o (w.secrets.lookup k), w)
  | .createSecret s, w =>
      createObject o w (w.secrets.lookup s.key).isSome
        { w with secrets := w.secrets.insert s.key s }
  | .updateSecret s, w =>
      writeObject o w (w.secrets.lookup s.key) fun _ =>
        .ok { w with secrets := w.secrets.insert s.key s }
  | .deleteSecret k, w =>
      writeObject o w (w.secrets.lookup k) fun _ => .ok { w with secrets := w.secrets.erase k }
  | .patchByoHostConditions k before after, w =>
      writeObject o w (w.hosts.lookup k) fun cur =>
        match mergeConditions before.conditions after.conditions cur.conditions with
        | some cs => .ok (w.setHost k { cur with conditions := cs })
        | none => .error .conflict
  | .patchByoHost k before after, w =>
      writeObject o w (w.hosts.lookup k) fun cur => .ok (w.setHost k (before.merge after cur))
  | .patchByoHostStatus k before after, w =>
      writeObject o w (w.hosts.lookup k) fun cur => .ok (w.setHost k (before.mergeStatus after cur))
  | .patchByoMachineConditions k before after, w =>
      writeObject o w (w.machines.lookup k) fun cur =>
        match mergeConditions before.conditions after.conditions cur.conditions with
        | some cs => .ok (w.setMachine k { cur with conditions := cs })
        | none => .error .conflict
  | .patchByoMachine k before after, w =>
      writeObject o w (w.machines.lookup k) fun cur =>
        if addsFinalizer cur.deletionTimestamp cur.finalizers (before.merge after cur).finalizers
        then .error .other
        else .ok (w.setMachine k (before.merge after cur))
  | .patchByoMachineStatus k before after, w =>
      writeObject o w (w.machines.lookup k) fun cur =>
        .ok (w.setMachine k (before.mergeStatus after cur))
  | .patchByoCluster k before after, w =>
      writeObject o w (w.byoClusters.lookup k) fun cur =>
        if addsFinalizer cur.deletionTimestamp cur.finalizers (before.merge after cur).finalizers
        then .error .other
        else .ok (w.setByoCluster k (before.merge after cur))
  | .patchByoClusterStatus k before after, w =>
      writeObject o w (w.byoClusters.lookup k) fun cur =>
        .ok (w.setByoCluster k (before.mergeStatus after cur))
  | .patchInstallerConfig k before after, w =>
      writeObject o w (w.installerConfigs.lookup k) fun cur =>
        if addsFinalizer cur.deletionTimestamp cur.finalizers (before.merge after cur).finalizers
        then .error .other
        else .ok (w.setInstallerConfig k (before.merge after cur))
  | .patchInstallerConfigStatus k before after, w =>
      writeObject o w (w.installerConfigs.lookup k) fun cur =>
        .ok (w.setInstallerConfig k (before.mergeStatus after cur))
  | .getRemoteClient _, w => (if o.readOk then none else some .other, w)
  | .getNode c n, w => (readObject o (w.nodes.lookup (c, n)), w)
  | .patchNode c n before after, w =>
      writeObject o w (w.nodes.lookup (c, n)) fun cur =>
        .ok { w with nodes := w.nodes.insert (c, n) (mergeField before after cur) }
  | .randomString n, w => (String.ofList (randomChars n o.pick), w)
  | .hostCommand _ _, w => (o.commandOk, w)
  | .sentinelFileExists, w => (o.commandOk, w)
  | .newVipConfig _, w => (o.commandOk, w)
  | .parseTemplate path script, w => (o.parseTemplate path script, w)

/-- Programs on these calls. -/
abbrev ApiProg := Prog Call Resp

/-- The program that makes one call. -/
abbrev call (c : Call) : ApiProg (Resp c) := Prog.perform c

/-- Functions on these calls with objects `σ` in memory. -/
abbrev ApiM (σ : Type) := GoM Call Resp Err σ

end Byoh.Model
