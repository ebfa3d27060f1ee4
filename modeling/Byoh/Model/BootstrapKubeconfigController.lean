import Byoh.Foundation.GoFunction
import Byoh.Foundation.Text
import Byoh.Model.Clients
import Byoh.Model.Objects

/-!
# The BootstrapKubeconfig controller

`controllers/infrastructure/bootstrapkubeconfig_controller.go` and `common/bootstraptoken/token.go`.
For a BootstrapKubeconfig without data the reconciler generates a bootstrap token, creates its Secret
in `kube-system`, and writes a kubeconfig with the token to the status of the object.

What the kubeconfig codec, base64 and the time format compute is given by the
`Reconciler`. A write whose answer is lost has taken effect all the same.
-/

set_option autoImplicit false

namespace Byoh.Model.BootstrapKubeconfigReconciler

open Byoh.Foundation

/-- `BootstrapKubeconfig`. -/
structure BootstrapKubeconfig where
  apiServer : String
  insecureSkipTLSVerify : Bool := false
  certificateAuthorityData : String
  bootstrapKubeconfigData : Option String := none
  deriving DecidableEq, Repr

/-! ## Tokens -/

/-- `[a-z0-9]`. -/
def isTokenChar (c : Char) : Bool := ('a' ≤ c && c ≤ 'z') || ('0' ≤ c && c ≤ '9')

/-- `BootstrapTokenPattern`. -/
def bootstrapTokenPattern : String := "\\A([a-z0-9]\x7b6\x7d)\\.([a-z0-9]\x7b16\x7d)\\z"

/-- `GetTokenIDSecretFromBootstrapToken`: six characters, a dot and sixteen characters. -/
def getTokenIDSecretFromBootstrapToken (tokenStr : String) : Except Err (String × String) :=
  let tokenID := tokenStr.toList.take 6
  let tokenSecret := tokenStr.toList.drop 7
  if tokenStr.toList.length = 23 ∧ tokenStr.toList.drop 6 = '.' :: tokenSecret ∧
      tokenID.all isTokenChar ∧ tokenSecret.all isTokenChar then
    .ok (String.ofList tokenID, String.ofList tokenSecret)
  else .error (.text ("the bootstrap token " ++ tokenStr ++ " was not of the form " ++
    bootstrapTokenPattern))

/-- `BootstrapTokenDescription`. -/
def bootstrapTokenDescription : String := "Token generated by cluster-api-provider-bringyourownhost"

/-- `BootstrapTokenExtraGroups`. -/
def bootstrapTokenExtraGroups : String := "system:bootstrappers:byoh"

/-- The data of a bootstrap token Secret. -/
def tokenSecretData (tokenID tokenSecret expiration : String) : GoMap String String :=
  GoMap.insert (GoMap.insert (GoMap.insert (GoMap.insert (GoMap.insert (GoMap.insert (GoMap.insert none
    "token-id" tokenID)
    "token-secret" tokenSecret)
    "expiration" expiration)
    "usage-bootstrap-signing" "true")
    "usage-bootstrap-authentication" "true")
    "description" bootstrapTokenDescription)
    "auth-extra-groups" bootstrapTokenExtraGroups

/-- `GenerateSecretFromBootstrapToken`. -/
def generateSecretFromBootstrapToken (tokenStr expiration : String) : Except Err Secret :=
  match getTokenIDSecretFromBootstrapToken tokenStr with
  | .error e => .error e
  | .ok (tokenID, tokenSecret) => .ok {
      ns := "kube-system"
      name := "bootstrap-token-" ++ tokenID
      type := "bootstrap.kubernetes.io/token"
      data := tokenSecretData tokenID tokenSecret expiration }

/-! ## Kubeconfigs -/

/-- The kubeconfigs of the controller; an `AuthInfo` is its token. -/
abbrev Config := Clientcmd.Config String

/-- `DefaultClusterName`. -/
def defaultClusterName : String := "default-cluster"

/-- `DefaultContext`. -/
def defaultContext : String := "default-context"

/-- `DefaultNamespace`. -/
def defaultNamespace : String := "default"

/-- `DefaultAuth`. -/
def defaultAuth : String := "default-auth"

/-- `GenerateBootstrapKubeconfigFromBootstrapToken`. -/
def generateBootstrapKubeconfigFromBootstrapToken (tokenStr : String)
    (bootstrapKubeconfig : BootstrapKubeconfig) : Except Err Config :=
  match getTokenIDSecretFromBootstrapToken tokenStr with
  | .error e => .error e
  | .ok (tokenID, tokenSecret) => .ok {
      clusters := GoMap.insert none defaultClusterName {
        server := bootstrapKubeconfig.apiServer
        insecureSkipTLSVerify := bootstrapKubeconfig.insecureSkipTLSVerify
        certificateAuthorityData := bootstrapKubeconfig.certificateAuthorityData }
      authInfos := GoMap.insert none defaultAuth (tokenID ++ "." ++ tokenSecret)
      contexts := GoMap.insert none defaultContext {
        cluster := defaultClusterName
        authInfo := defaultAuth
        ns := defaultNamespace }
      currentContext := defaultContext }

/-- `clientcmdlatest.Codec`. `token` is the token of a client that loads the encoded configuration,
which is the one that was encoded. -/
structure Codec where
  encode : Config → Except Err String
  token : String → Option String
  token_encode : ∀ {config data}, encode config = .ok data → token data = config.credentials

/-! ## Calls -/

/-- The calls of the reconciler. -/
inductive Call where
  | getBootstrapKubeconfig (k : NamespacedName)
  | generateBootstrapToken
  | now
  | createSecret (secret : Secret)
  | newHelper
  | patchStatus (k : NamespacedName) (data : String)

@[reducible] def Resp : Call → Type
  | .getBootstrapKubeconfig _ => Except ApiError BootstrapKubeconfig
  | .generateBootstrapToken => Except Err String
  | .now => Int
  | .createSecret _ | .patchStatus _ _ => Option ApiError
  | .newHelper => Option Err

/-- The environment's choices for one call, each of which looks at its own. The default is a random
source that fails. -/
structure Outcome where
  get : Fate ApiError := .answered
  token : Except Err String := .error (.text "entropy source failed")
  now : Int := 0
  create : Fate ApiError := .answered
  newHelper : Option Err := none
  patch : Fate ApiError := .answered

instance : Inhabited Outcome := ⟨{}⟩

/-- The API server, as far as the reconciler reads and writes it. -/
structure Store where
  kubeconfigs : AList fun _ : NamespacedName => BootstrapKubeconfig
  secrets : AList fun _ : NamespacedName => Secret

/-- Answer a write, `x` being what it makes of the store or the error of the server. -/
def write (fate : Fate ApiError) (s : Store) (x : Except ApiError Store) : Option ApiError × Store :=
  match fate, x with
  | .refused e, _ => (some e, s)
  | .answered, .ok s' => (none, s')
  | .lost e, .ok s' => (some e, s')
  | _, .error e => (some e, s)

/-- Create a Secret, which must not exist. -/
def Store.create (s : Store) (secret : Secret) : Except ApiError Store :=
  match s.secrets.lookup secret.key with
  | some _ => .error .alreadyExists
  | none => .ok { s with secrets := s.secrets.insert secret.key secret }

/-- Patch the data in the status of an object. -/
def Store.patchData (s : Store) (k : NamespacedName) (data : String) : Except ApiError Store :=
  match s.kubeconfigs.lookup k with
  | none => .error .notFound
  | some b => .ok { s with
      kubeconfigs := s.kubeconfigs.insert k { b with bootstrapKubeconfigData := some data } }

/-- Answer a call. -/
def exec (o : Outcome) : (c : Call) → Store → Resp c × Store
  | .getBootstrapKubeconfig k, s =>
      (match o.get with
        | .refused e | .lost e => .error e
        | .answered => match s.kubeconfigs.lookup k with
          | some b => .ok b
          | none => .error .notFound, s)
  | .generateBootstrapToken, s => (o.token, s)
  | .now, s => (o.now, s)
  | .createSecret secret, s => write o.create s (s.create secret)
  | .newHelper, s => (o.newHelper, s)
  | .patchStatus k data, s => write o.patch s (s.patchData k data)

/-! ## Reconcile -/

/-- The reconciler, with the library functions that it uses. -/
structure Reconciler where
  codec : Codec
  decodeBase64 : String → Except Err String
  formatTime : Int → String

abbrev ReconcileM := GoM Call Resp Err Unit

/-- Make one call. -/
def perform (c : Call) : ReconcileM (Resp c) := GoM.lift (Prog.perform c)

/-- `if err != nil { return ctrl.Result{}, err }` after an API call without a value. -/
def apiError : Option ApiError → ReconcileM Unit
  | none => pure ()
  | some e => GoM.throw (.api e)

/-- The lifetime of a token in seconds. -/
def ttl : Int := 30 * 60

/-- The kubeconfig with its CA data decoded. -/
def decodeCAData (r : Reconciler) (config : Config) : ReconcileM Config := do
  let cluster ← GoM.deref "Clusters[DefaultClusterName]" (config.clusters.get defaultClusterName)
  let decodedCAData ← GoM.ofExcept (r.decodeBase64 cluster.certificateAuthorityData)
  let cluster := { cluster with certificateAuthorityData := decodedCAData }
  pure { config with clusters := config.clusters.insert defaultClusterName cluster }

/-- The part of `Reconcile` after the Secret is created. -/
def writeData (r : Reconciler) (k : NamespacedName) (tokenStr : String)
    (bootstrapKubeconfig : BootstrapKubeconfig) : ReconcileM Unit := do
  let config ← GoM.ofExcept
    (generateBootstrapKubeconfigFromBootstrapToken tokenStr bootstrapKubeconfig)
  let config ← decodeCAData r config
  let data ← GoM.ofExcept (r.codec.encode config)
  match ← perform .newHelper with
  | some e => GoM.throw e
  | none => perform (.patchStatus k data) >>= apiError

/-- The part of `Reconcile` for an object without data. -/
def generate (r : Reconciler) (k : NamespacedName)
    (bootstrapKubeconfig : BootstrapKubeconfig) : ReconcileM Unit := do
  let tokenStr ← perform .generateBootstrapToken >>= GoM.ofExcept
  let now ← perform .now
  let secret ← GoM.ofExcept
    (generateSecretFromBootstrapToken tokenStr (r.formatTime (now + ttl)))
  perform (.createSecret secret) >>= apiError
  writeData r k tokenStr bootstrapKubeconfig

/-- `Reconcile`. -/
def reconcile (r : Reconciler) (k : NamespacedName) : ReconcileM Unit := do
  match ← perform (.getBootstrapKubeconfig k) with
  | .error e => if e = .notFound then pure () else GoM.throw (.api e)
  | .ok bootstrapKubeconfig =>
      if bootstrapKubeconfig.bootstrapKubeconfigData.isSome then pure ()
      else generate r k bootstrapKubeconfig

/-- A call of `Reconcile` in which the calls come out as `os` says: how it ends, and the store
afterwards. -/
def reconciled (r : Reconciler) (k : NamespacedName) (s : Store)
    (os : List Outcome) : Exit Err Unit × Store :=
  let result := Prog.run exec os (reconcile r k ()) s
  (result.1.1, result.2)

end Byoh.Model.BootstrapKubeconfigReconciler
