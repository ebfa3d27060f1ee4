import Byoh.Foundation.RelyGuarantee
import Byoh.Model.ByohCSR

/-!
# The phases of a bootstrap flow

Where a flow is: it looks for its key, has one, waits for the certificate of the request with a UID,
has got it, or has written it. `Next` says which calls it makes in a phase and where the answer leads;
`handleBootstrapFlow_follows` that the code makes no others.

The functions of client-go are parameters. `ClientContract` is what they have to keep to whatever the calls
answer.
-/

set_option autoImplicit false

namespace Byoh.Protocol.BootstrapFlow

open Byoh.Foundation Byoh.Model.ByohCSR
open Byoh.Model (Err ApiError)

inductive Phase where
  | opening
  | keyless
  | made (key : Key)
  | keyed (key : Key)
  | waiting (key : Key) (uid : Nat)
  | issued (key : Key) (cert : Certificate)
  | written (key : Key)
  | closed
  deriving DecidableEq

/-- The calls of a flow on a host with this name. -/
inductive Next (hostname : String) : Phase → (c : Call) → Resp c → Phase → Prop where
  | load (r : Except Err RestConfig) : Next hostname .opening .loadRESTClientConfig r .opening
  | client (r : Option Err) : Next hostname .opening .newForConfig r .opening
  | unread (e : Err) : Next hostname .opening .readKey (.error e) .closed
  | read (key : Key) : Next hostname .opening .readKey (.ok (.holds key)) (.keyed key)
  | unusable {f : File Key} (hf : ∀ key, f ≠ .holds key) : Next hostname .opening .readKey (.ok f) .keyless
  | unmade (e : Err) : Next hostname .keyless .makeKey (.error e) .closed
  | make (key : Key) : Next hostname .keyless .makeKey (.ok key) (.made key)
  | unsaved (key : Key) (e : Err) : Next hostname (.made key) (.writeKey key) (some e) .closed
  | save (key : Key) : Next hostname (.made key) (.writeKey key) none (.keyed key)
  | sign (key : Key) (r : Option Err) : Next hostname (.keyed key) .signRequest r (.keyed key)
  | create (key : Key) (d : Int) (uid : Nat) :
      Next hostname (.keyed key) (.createCSR (byohCSRName hostname) (hostSpec hostname key d)) (.ok uid)
        (.waiting key uid)
  | uncreated (key : Key) (d : Int) (e : ApiError) :
      Next hostname (.keyed key) (.createCSR (byohCSRName hostname) (hostSpec hostname key d)) (.error e)
        (.keyed key)
  | get {key : Key} {csr : SigningRequest} (hcsr : csr.spec.request = generateCSR hostname key) :
      Next hostname (.keyed key) (.getCSR (byohCSRName hostname)) (.ok csr) (.waiting key csr.uid)
  | ungot (key : Key) (r : Except ApiError SigningRequest) :
      Next hostname (.keyed key) (.getCSR (byohCSRName hostname)) r .closed
  | now (key : Key) (uid : Nat) (r : Int) : Next hostname (.waiting key uid) .now r (.waiting key uid)
  | watch (key : Key) (uid : Nat) (name : String) (r : CertEvent) :
      Next hostname (.waiting key uid) (.watch name) r (.waiting key uid)
  | issue {key : Key} {uid : Nat} {csr : SigningRequest} {cert : Certificate} (name : String)
      (huid : csr.uid = uid) (hcert : csr.certificate = some cert) :
      Next hostname (.waiting key uid) (.watch name) (.object csr) (.issued key cert)
  | unwritten (key : Key) (cert : Certificate) (b : RestConfig) (e : Err) :
      Next hostname (.issued key cert) (.writeToFile (kubeconfigFromBootstrapping b cert key)) (some e) .closed
  | write (key : Key) (cert : Certificate) (b : RestConfig) :
      Next hostname (.issued key cert) (.writeToFile (kubeconfigFromBootstrapping b cert key)) none
        (.written key)
  | remove (key : Key) (r : Option Err) : Next hostname (.written key) .removeKey r .closed

abbrev FollowsFlow (hostname : String) {α : Type} (post : α → Phase → Prop) (p : CsrProg α) (q : Phase) : Prop :=
  Prog.Follows (Next hostname) (fun _ _ => False) post p q

variable {hostname : String}

/-- After a call that may fail; it leads to `q` if not. -/
def orClosed (q : Phase) : Option Err → Phase
  | some _ => .closed
  | none => q

/-- The phase of a flow that has a result, or has failed. -/
def Ended {α : Type} (q : α → Phase) : Except Err α → Phase → Prop
  | .ok a, q' => q' = q a
  | .error _, _ => True

/-! ## The contract of client-go -/

/-- The calls of the functions of client-go, and when they return a value. -/
structure ClientContract (go : ClientGo) : Prop where
  /-- `LoadOrGenerateKeyFile` returns the key in the file, or a new one that it has written there. -/
  key : ∀ hostname, FollowsFlow hostname (Ended Phase.keyed) go.loadOrGenerateKeyFile .opening
  /-- `RequestCertificate` returns the request that it has created, or the one that is under the name
  already if it is for the same subject and the same key. -/
  request : ∀ hostname key d, FollowsFlow hostname (Ended fun r => Phase.waiting key r.2)
    (go.requestCertificate (byohCSRName hostname) (hostSpec hostname key d) key) (.keyed key)
  /-- `WaitForCertificate` returns the certificate of a version of the request with the UID. -/
  wait : ∀ hostname name key uid events, FollowsFlow hostname (Ended (Phase.issued key))
    (go.waitForCertificate name uid events) (.waiting key uid)

/-! ## The flow -/

variable {go : ClientGo}

/-- A request that is returned is the one for the key. -/
theorem requestBYOHClientCert_follows (hgo : ClientContract go) (d : Int) :
    FollowsFlow hostname (Ended fun r => Phase.waiting r.2.2 r.2.1) (requestBYOHClientCert go d hostname)
      .opening := by
  rw [requestBYOHClientCert]
  split
  · exact .ret trivial
  · refine .bind ((hgo.key hostname).mono fun r q hq => ?_)
    cases r with
    | error e => exact .ret trivial
    | ok key =>
      cases hq
      refine .perform (fun _ => .keyed key) (fun r => .sign key r) fun r => ?_
      cases r with
      | some e => exact .ret trivial
      | none =>
        refine .bind ((hgo.request hostname key d).mono fun r q hq => ?_)
        cases r with
        | error e => exact .ret trivial
        | ok r => exact .ret hq

/-- The configuration that is written is that of the certificate and of the key it was requested for. -/
theorem bootstrapKubeconfig_follows (hgo : ClientContract go) (events : Nat) (b : RestConfig) (d : Int) :
    FollowsFlow hostname (fun _ _ => True) (bootstrapKubeconfig go events b d hostname) .opening := by
  refine .bind ((requestBYOHClientCert_follows hgo d).mono fun r q hq => ?_)
  cases r with
  | error e => exact .ret trivial
  | ok r =>
    obtain ⟨name, uid, key⟩ := r
    cases hq
    refine .bind ((hgo.wait hostname name key uid events).mono fun r q hq => ?_)
    cases r with
    | error e => exact .ret trivial
    | ok cert =>
      cases hq
      refine .call (orClosed (.written key)) (fun r => ?_) fun r => ?_
      · cases r with
        | some e => exact .unwritten key cert b e
        | none => exact .write key cert b
      · cases r with
        | some e => exact .ret trivial
        | none => exact .call (fun _ => .closed) (fun r => .remove key r) fun _ => .ret trivial

/-- The calls of a bootstrap flow, in their order. -/
theorem handleBootstrapFlow_follows (hgo : ClientContract go) (events : Nat) (d : Int) :
    FollowsFlow hostname (fun _ _ => True) (handleBootstrapFlow go events d hostname) .opening := by
  refine .call (fun _ => .opening) (fun r => .load r) fun r => ?_
  cases r with
  | error e => exact .ret trivial
  | ok b =>
    refine .perform (fun _ => .opening) (fun r => .client r) fun r => ?_
    cases r with
    | some e => exact .ret trivial
    | none =>
      refine .bind ((bootstrapKubeconfig_follows hgo events b d).mono fun r q _ => ?_)
      cases r with
      | some e => exact .ret trivial
      | none => exact .ret trivial

/-- The phases of the flows of all hosts. -/
def FlowNext (hostname : Nat → String) (f : Flow) (q : Phase) (c : Nat × Call) (r : Resp c.2)
    (q' : Phase) : Prop :=
  c.1 = f.host ∧ Next (hostname f.host) q c.2 r q'

/-- The flows keep to their phases. -/
theorem flows_follow (hgo : ClientContract go) (hostname : Nat → String) (f : Flow) :
    Prog.Follows (FlowNext hostname f) (fun _ _ => False) (fun _ _ => True)
      ((flows go hostname).prog f) .opening := by
  refine Prog.Follows.tag f.host (fun q c r q' h => ⟨rfl, h⟩) ?_
  exact .bind ((handleBootstrapFlow_follows hgo f.events f.expiryDuration).mono fun _ _ _ => .ret trivial)

end Byoh.Protocol.BootstrapFlow
