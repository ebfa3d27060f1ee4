import Mathlib.Data.List.AList
import Byoh.Foundation.Interface
import Byoh.Foundation.Mortal
import Byoh.Model.ByoAdmissionController
import Byoh.Model.Clients

/-!
# The credentials of the agents

`agent/registration/csr.go`, and the bootstrap flow in `agent/main.go`. An agent makes a key, creates
a signing request for it, waits for the certificate and writes both to its configuration. The key is
kept in a file until then, so that an agent that is restarted goes on with the same request.

* A key stands for a key pair. Keys that are made are new.
* `keyutil.LoadOrGenerateKeyFile`, `csr.RequestCertificate` and `csr.WaitForCertificate` are those of
  client-go. Here they are any programs of the calls below (`ClientGo`); what the flow relies on is
  said with the phases of a flow.
* A watch is behind the server: an event may show any version that an object has had.
* The API server gives UIDs and keeps the specification of a request as it is; others may create,
  approve, deny, sign and delete requests.

Files are written in place, so a write that fails may leave a file that cannot be used.
-/

set_option autoImplicit false

namespace Byoh.Model.ByohCSR

open Byoh.Foundation Byoh.Model.ByoAdmissionReconciler

/-! ## Requests and certificates -/

/-- A private key, and its public key. -/
abbrev Key := Nat

/-- `pkix.Name`. -/
structure Subject where
  commonName : String
  organization : List String
  deriving DecidableEq, Repr

/-- `x509.CertificateRequest`: the subject, and the key that signed it. -/
structure CertificateRequest where
  subject : Subject
  publicKey : Key
  deriving DecidableEq, Repr

structure Certificate where
  subject : Subject
  publicKey : Key
  notAfter : Int
  deriving DecidableEq, Repr

/-- `certv1.CertificateSigningRequestSpec`. -/
structure Spec where
  request : CertificateRequest
  signerName : String
  expirationSeconds : Int
  usages : List String
  deriving DecidableEq, Repr

/-- `certv1.CertificateSigningRequest`. -/
structure SigningRequest where
  name : String
  uid : Nat
  spec : Spec
  conditions : List RequestConditionType := []
  certificate : Option Certificate := none
  deriving DecidableEq, Repr

/-- `ByohCSROrg`. -/
def byohCSROrg : String := "byoh:hosts"

/-- `ByohCSRCNFormat`. -/
def byohCSRCN (hostname : String) : String := "byoh:host:" ++ hostname

/-- `ByohCSRNameFormat`. -/
def byohCSRName (hostname : String) : String := "byoh-csr-" ++ hostname

/-- `certv1.KubeAPIServerClientSignerName`. -/
def kubeAPIServerClientSignerName : String := "kubernetes.io/kube-apiserver-client"

/-- The subject of the requests of a host. -/
def hostSubject (hostname : String) : Subject := ⟨byohCSRCN hostname, [byohCSROrg]⟩

/-- `generateCSR`. -/
def generateCSR (hostname : String) (privKey : Key) : CertificateRequest :=
  ⟨hostSubject hostname, privKey⟩

/-! ## Configurations -/

/-- `restclient.Config`, as far as it is copied. -/
structure RestConfig where
  host : String
  insecure : Bool
  caFile : String
  caData : String
  deriving DecidableEq, Repr

/-- `clientcmdapi.AuthInfo`. -/
structure AuthInfo where
  clientCertificateData : Certificate
  clientKeyData : Key
  deriving DecidableEq, Repr

/-- The kubeconfigs of the agents. -/
abbrev Kubeconfig := Clientcmd.Config AuthInfo

/-- The configuration that `writeKubeconfigFromBootstrapping` writes. -/
def kubeconfigFromBootstrapping (bootstrapClientConfig : RestConfig) (certData : Certificate)
    (keyData : Key) : Kubeconfig where
  clusters := GoMap.insert none "default-cluster" {
    server := bootstrapClientConfig.host
    insecureSkipTLSVerify := bootstrapClientConfig.insecure
    certificateAuthority := bootstrapClientConfig.caFile
    certificateAuthorityData :=
      if bootstrapClientConfig.caFile = "" then bootstrapClientConfig.caData else "" }
  authInfos := GoMap.insert none "default-auth" {
    clientCertificateData := certData
    clientKeyData := keyData }
  contexts := GoMap.insert none "default-context" {
    cluster := "default-cluster"
    authInfo := "default-auth"
    ns := "default" }
  currentContext := "default-context"

/-! ## Calls -/

/-- A file: it is not there, cannot be used, or has a value. -/
inductive File (α : Type) where
  | missing
  | corrupt
  | holds (a : α)
  deriving DecidableEq, Repr

/-- The file has a value. -/
def File.isHeld {α : Type} : File α → Bool
  | .holds _ => true
  | _ => false

/-- An event of the watch for one name. -/
inductive CertEvent where
  | object (csr : SigningRequest)
  | deleted
  | other
  | failed (e : Err)
  deriving DecidableEq, Repr

/-- The calls of the bootstrap flow. -/
inductive Call where
  | loadRESTClientConfig
  | newForConfig
  | readKey
  | makeKey
  | writeKey (key : Key)
  | signRequest
  | createCSR (name : String) (spec : Spec)
  | getCSR (name : String)
  | now
  | watch (name : String)
  | writeToFile (config : Kubeconfig)
  | removeKey

@[reducible] def Resp : Call → Type
  | .loadRESTClientConfig => Except Err RestConfig
  | .newForConfig | .writeKey _ | .signRequest | .writeToFile _ | .removeKey => Option Err
  | .readKey => Except Err (File Key)
  | .makeKey => Except Err Key
  | .createCSR _ _ => Except ApiError Nat
  | .getCSR _ => Except ApiError SigningRequest
  | .now => Int
  | .watch _ => CertEvent

abbrev CsrProg (α : Type) := Prog Call Resp α

def perform (c : Call) : CsrProg (Resp c) := Prog.perform c

/-- The functions of client-go that the flow calls. `loadOrGenerateKeyFile` returns the key, also
when it was in the file; `requestCertificate` the name and the UID of the request. The number for
`waitForCertificate` bounds the events that it sees before its time is over. -/
structure ClientGo where
  loadOrGenerateKeyFile : CsrProg (Except Err Key)
  requestCertificate : (name : String) → (spec : Spec) → (privateKey : Key) →
    CsrProg (Except Err (String × Nat))
  waitForCertificate : (reqName : String) → (reqUID : Nat) → (events : Nat) →
    CsrProg (Except Err Certificate)

/-! ## The bootstrap flow -/

/-- The specification of the request of a host. -/
def hostSpec (hostname : String) (key : Key) (expiryDuration : Int) : Spec where
  request := generateCSR hostname key
  signerName := kubeAPIServerClientSignerName
  expirationSeconds := expiryDuration
  usages := ["client auth"]

/-- `RequestBYOHClientCert`: the name and the UID of the request, and `PrivateKey`. -/
def requestBYOHClientCert (go : ClientGo) (expiryDuration : Int) (hostname : String) :
    CsrProg (Except Err (String × Nat × Key)) := do
  if hostname = "" then pure (.error (.text "hostname is not valid"))
  else
  match ← go.loadOrGenerateKeyFile with
  | .error e => pure (.error e)
  | .ok key =>
  match ← perform .signRequest with
  | some e => pure (.error (.wrap ("error generating csr " ++ hostname) e))
  | none =>
  match ← go.requestCertificate (byohCSRName hostname) (hostSpec hostname key expiryDuration)
      key with
  | .error e => pure (.error e)
  | .ok (reqName, reqUID) => pure (.ok (reqName, reqUID, key))

/-- `BootstrapKubeconfig`. A key file that cannot be removed is logged. -/
def bootstrapKubeconfig (go : ClientGo) (events : Nat) (bootstrapClientConfig : RestConfig)
    (expiryDuration : Int) (hostName : String) : CsrProg (Option Err) := do
  match ← requestBYOHClientCert go expiryDuration hostName with
  | .error e => pure (some e)
  | .ok (reqName, reqUID, privateKey) =>
  match ← go.waitForCertificate reqName reqUID events with
  | .error e => pure (some e)
  | .ok certData =>
  match ← perform (.writeToFile (kubeconfigFromBootstrapping bootstrapClientConfig certData
      privateKey)) with
  | some e => pure (some e)
  | none =>
    let _ ← perform .removeKey
    pure none

/-- `handleBootstrapFlow`. -/
def handleBootstrapFlow (go : ClientGo) (events : Nat) (certExpiryDuration : Int)
    (hostName : String) : CsrProg (Option Err) := do
  match ← perform .loadRESTClientConfig with
  | .error e => pure (some (.wrap "client config load failed" e))
  | .ok bootstrapClientConfig =>
  match ← perform .newForConfig with
  | some e => pure (some (.wrap "ByohCSR intialization failed" e))
  | none =>
  match ← bootstrapKubeconfig go events bootstrapClientConfig certExpiryDuration hostName with
  | some e => pure (some (.wrap "kubeconfig generation failed" e))
  | none => pure none

/-! ## The machines -/

/-- The API server and the files of the hosts. `versions` are all versions of all requests. -/
structure Cloud where
  csrs : AList fun _ : String => SigningRequest
  versions : List SigningRequest
  nextUID : Nat
  nextKey : Key
  keyFile : Nat → File Key
  config : Nat → File Kubeconfig

/-- What a write that fails leaves in the file. -/
inductive Damage where
  | none
  | truncated
  | complete
  deriving DecidableEq, Repr

/-- The environment's choices for one call, each of which looks at its own; `crash` says that the agent
dies after the call. -/
structure Outcome where
  crash : Bool := false
  error : Option Err := none
  bootstrapConfig : RestConfig := ⟨"", false, "", ""⟩
  fate : Fate ApiError := .answered
  damage : Damage := .none
  time : Int := 0
  event : Option CertEvent := none
  version : Nat := 0

instance : Inhabited Outcome := ⟨{}⟩

/-- Store a version of a request. -/
def Cloud.put (w : Cloud) (csr : SigningRequest) : Cloud :=
  { w with csrs := w.csrs.insert csr.name csr, versions := csr :: w.versions }

/-- Create a request; its UID is new. -/
def Cloud.create (w : Cloud) (name : String) (spec : Spec) : Except ApiError (Nat × Cloud) :=
  match w.csrs.lookup name with
  | some _ => .error .alreadyExists
  | none => .ok (w.nextUID, { w.put ⟨name, w.nextUID, spec, [], none⟩ with nextUID := w.nextUID + 1 })

/-- A file after a write. -/
def File.write {α : Type} (f : File α) (error : Option Err) (damage : Damage) (a : α) : File α :=
  match error, damage with
  | none, _ | some _, .complete => .holds a
  | some _, .truncated => .corrupt
  | some _, .none => f

/-- The event that is seen: one that the environment makes, or a version that the object has had. -/
def Cloud.event (w : Cloud) (o : Outcome) (name : String) : CertEvent :=
  match o.event with
  | some (.object _) => .other
  | some e => e
  | none =>
    match (w.versions.filter (·.name = name))[o.version]? with
    | some csr => .object csr
    | none => .other

/-- Answer a call of the agent of host `i`. -/
def exec (o : Outcome) : (c : Nat × Call) → Cloud → Resp c.2 × Cloud
  | (_, .loadRESTClientConfig), w =>
      (match o.error with | some e => .error e | none => .ok o.bootstrapConfig, w)
  | (_, .newForConfig), w => (o.error, w)
  | (i, .readKey), w => (match o.error with | some e => .error e | none => .ok (w.keyFile i), w)
  | (_, .makeKey), w =>
      match o.error with
      | some e => (.error e, w)
      | none => (.ok w.nextKey, { w with nextKey := w.nextKey + 1 })
  | (i, .writeKey key), w =>
      (o.error, { w with
        keyFile := Function.update w.keyFile i ((w.keyFile i).write o.error o.damage key) })
  | (_, .signRequest), w => (o.error, w)
  | (_, .createCSR name spec), w =>
      match o.fate, w.create name spec with
      | .refused e, _ => (.error e, w)
      | .answered, .ok (uid, w') => (.ok uid, w')
      | .lost e, .ok (_, w') => (.error e, w')
      | _, .error e => (.error e, w)
  | (_, .getCSR name), w =>
      match o.fate, w.csrs.lookup name with
      | .refused e, _ | .lost e, _ => (.error e, w)
      | .answered, some csr => (.ok csr, w)
      | .answered, none => (.error .notFound, w)
  | (_, .now), w => (o.time, w)
  | (_, .watch name), w => (w.event o name, w)
  | (i, .writeToFile config), w =>
      (o.error, { w with
        config := Function.update w.config i ((w.config i).write o.error o.damage config) })
  | (i, .removeKey), w =>
      (o.error, match o.error with
        | some _ => w
        | none => { w with keyFile := Function.update w.keyFile i .missing })

/-- What others do: create and delete requests, set the conditions of one, or issue its certificate. -/
inductive CloudAction where
  | create (name : String) (spec : Spec)
  | setConditions (name : String) (conditions : List RequestConditionType)
  | issue (name : String) (notAfter : Int)
  | delete (name : String)
  | removeConfig (i : Nat)

/-- An action of others; `none` when it is not possible. A certificate is issued for the subject and
the key of an approved request. -/
def env : CloudAction → Cloud → Option Cloud
  | .create name spec, w =>
      match w.create name spec with
      | .ok (_, w') => some w'
      | .error _ => none
  | .setConditions name conditions, w =>
      (w.csrs.lookup name).map fun csr => w.put { csr with conditions }
  | .issue name notAfter, w =>
      match w.csrs.lookup name with
      | none => none
      | some csr =>
        if RequestConditionType.approved ∈ csr.conditions ∧ csr.certificate = none then
          some (w.put { csr with
            certificate := some ⟨csr.spec.request.subject, csr.spec.request.publicKey, notAfter⟩ })
        else none
  | .delete name, w =>
      (w.csrs.lookup name).map fun _ => { w with csrs := w.csrs.erase name }
  | .removeConfig i, w => some { w with config := Function.update w.config i .missing }

/-- A bootstrap flow on host `host`, at the start of the agent or for a renewal. -/
structure Flow where
  host : Nat
  events : Nat
  expiryDuration : Int
  deriving DecidableEq, Repr

/-- The flows of all agents, on hosts with these names. -/
def flows (go : ClientGo) (hostname : Nat → String) :
    PoolSystem (Nat × Call) (fun c => Resp c.2) Outcome Cloud Flow CloudAction where
  prog f := ((handleBootstrapFlow go f.events f.expiryDuration (hostname f.host)).bind
    fun _ => .ret ()).tag f.host
  exec := exec
  env := env

/-- The same, when agents may die at any point. -/
def system (go : ClientGo) (hostname : Nat → String) :
    PoolSystem (Nat × Call) (fun c => Option (Resp c.2)) Outcome Cloud Flow CloudAction :=
  (flows go hostname).mortal Outcome.crash

end Byoh.Model.ByohCSR
