import Byoh.Protocol.BootstrapFlow

/-!
# The credentials of the hosts

Any number of agents run their bootstrap flows, also several on one host; others create, approve,
deny, sign and delete signing requests at any time, also under the names that the agents use. Calls
fail, answers are lost, watches are behind, and flows are given up at any point.

* `kubeconfig_own_identity`: the configuration that an agent writes has a certificate for its own host
  name that belongs to its own key, for any functions of client-go that keep `ClientContract`.
-/

set_option autoImplicit false

namespace Byoh.Properties.Credentials

open Byoh.Foundation Byoh.Model.ByohCSR Byoh.Protocol.BootstrapFlow
open Byoh.Model (Err ApiError)

/-! ## Requests -/

/-- The configuration has a certificate for this host and the key of the certificate. -/
def OwnIdentity (hostname : String) (kc : Kubeconfig) : Prop :=
  ∃ a, kc.credentials = some a ∧ a.clientCertificateData.subject = hostSubject hostname ∧
    a.clientCertificateData.publicKey = a.clientKeyData

/-- The API server keeps the specification of a request, and its certificate is for it. -/
structure Consistent (hostname : Nat → String) (w : Cloud) : Prop where
  names : ∀ name csr, w.csrs.lookup name = some csr → csr.name = name ∧ csr ∈ w.versions
  uids : ∀ v ∈ w.versions, v.uid < w.nextUID
  specs : ∀ v ∈ w.versions, ∀ v' ∈ w.versions, v.uid = v'.uid → v.spec = v'.spec
  certs : ∀ v ∈ w.versions, ∀ cert, v.certificate = some cert →
    cert.subject = v.spec.request.subject ∧ cert.publicKey = v.spec.request.publicKey
  configs : ∀ i kc, w.config i = .holds kc → OwnIdentity (hostname i) kc

/-- New versions are of requests that were there, or of new ones. -/
structure Grows (w w' : Cloud) : Prop where
  nextUID : w.nextUID ≤ w'.nextUID
  versions : ∀ v ∈ w'.versions, (∃ u ∈ w.versions, u.uid = v.uid ∧ u.spec = v.spec) ∨ w.nextUID ≤ v.uid

variable {hostname : Nat → String} {w w' : Cloud} {csr : SigningRequest} {name : String}
  {o : Outcome} {i : Nat}

theorem Grows.of_eq (hnext : w'.nextUID = w.nextUID) (hversions : w'.versions = w.versions) :
    Grows w w' :=
  ⟨hnext.ge, fun v hv => .inl ⟨v, hversions ▸ hv, rfl, rfl⟩⟩

/-- Steps that leave requests and configurations alone. -/
theorem Consistent.of_eq (hw : Consistent hostname w) (hcsrs : w'.csrs = w.csrs)
    (hversions : w'.versions = w.versions) (hnext : w'.nextUID = w.nextUID)
    (hconfig : w'.config = w.config) : Consistent hostname w' := by
  obtain ⟨names, uids, specs, certs, configs⟩ := hw
  refine ⟨?_, ?_, ?_, ?_, ?_⟩
  · rw [hcsrs, hversions]
    exact names
  · rw [hversions, hnext]
    exact uids
  · rw [hversions]
    exact specs
  · rw [hversions]
    exact certs
  · rw [hconfig]
    exact configs

/-- The server stores a version. -/
theorem Consistent.put (hw : Consistent hostname w) (huid : csr.uid < w.nextUID)
    (hspec : ∀ v ∈ w.versions, v.uid = csr.uid → v.spec = csr.spec)
    (hcert : ∀ cert, csr.certificate = some cert →
      cert.subject = csr.spec.request.subject ∧ cert.publicKey = csr.spec.request.publicKey) :
    Consistent hostname (w.put csr) where
  names := by
    intro name csr' hlookup
    rcases lookup_insert_some hlookup with ⟨rfl, rfl⟩ | ⟨-, hlookup⟩
    · exact ⟨rfl, List.mem_cons_self⟩
    · obtain ⟨heq, hmem⟩ := hw.names name csr' hlookup
      exact ⟨heq, List.mem_cons_of_mem _ hmem⟩
  uids := by
    intro v hv
    rcases List.mem_cons.1 hv with rfl | hv
    · exact huid
    · exact hw.uids v hv
  specs := by
    intro v hv v' hv' heq
    rcases List.mem_cons.1 hv with rfl | hmem
    · rcases List.mem_cons.1 hv' with rfl | hmem'
      · rfl
      · exact (hspec v' hmem' heq.symm).symm
    · rcases List.mem_cons.1 hv' with rfl | hmem'
      · exact hspec v hmem heq
      · exact hw.specs v hmem v' hmem' heq
  certs := by
    intro v hv
    rcases List.mem_cons.1 hv with rfl | hv
    · exact hcert
    · exact hw.certs v hv
  configs := hw.configs

/-- A new version of a request that is there. -/
theorem Consistent.update (hw : Consistent hostname w) {old new : SigningRequest}
    (hold : w.csrs.lookup name = some old) (huid : new.uid = old.uid) (hspec : new.spec = old.spec)
    (hcert : ∀ cert, new.certificate = some cert →
      cert.subject = new.spec.request.subject ∧ cert.publicKey = new.spec.request.publicKey) :
    Consistent hostname (w.put new) ∧ Grows w (w.put new) := by
  have hmem : old ∈ w.versions := (hw.names name old hold).2
  refine ⟨hw.put (huid ▸ hw.uids old hmem) (fun v hv heq => ?_) hcert, le_rfl, fun v hv => .inl ?_⟩
  · rw [hspec]
    exact hw.specs v hv old hmem (heq.trans huid)
  · rcases List.mem_cons.1 hv with rfl | hv
    · exact ⟨old, hmem, huid.symm, hspec.symm⟩
    · exact ⟨v, hv, rfl, rfl⟩

/-- A request that is created. -/
theorem create_ok {spec : Spec} {uid : Nat} (h : w.create name spec = .ok (uid, w')) :
    w.csrs.lookup name = none ∧ uid = w.nextUID ∧
      w' = { w.put ⟨name, w.nextUID, spec, [], none⟩ with nextUID := w.nextUID + 1 } := by
  rw [Cloud.create] at h
  split at h
  · cases h
  · next hnone =>
    cases h
    exact ⟨hnone, rfl, rfl⟩

theorem Consistent.create (hw : Consistent hostname w) {spec : Spec} {uid : Nat}
    (h : w.create name spec = .ok (uid, w')) : Consistent hostname w' ∧ Grows w w' := by
  obtain ⟨-, -, rfl⟩ := create_ok h
  have hnew : Consistent hostname { w with nextUID := w.nextUID + 1 } :=
    ⟨hw.names, fun v hv => Nat.lt_succ_of_lt (hw.uids v hv), hw.specs, hw.certs, hw.configs⟩
  refine ⟨hnew.put (Nat.lt_succ_self _) (fun v hv heq => ?_) (fun cert h => by cases h),
    Nat.le_succ _, fun v hv => ?_⟩
  · exact absurd heq (hw.uids v hv).ne
  · rcases List.mem_cons.1 hv with rfl | hv
    · exact .inr le_rfl
    · exact .inl ⟨v, hv, rfl, rfl⟩

/-! ## Flows -/

/-- What a flow on a host with this name knows. -/
def Knows (host : String) (w : Cloud) : Option Phase → Prop
  | some (.waiting key uid) => uid < w.nextUID ∧
      ∀ v ∈ w.versions, v.uid = uid → v.spec.request = generateCSR host key
  | some (.issued key cert) => cert.subject = hostSubject host ∧ cert.publicKey = key
  | _ => True

theorem Knows.mono {host : String} {q : Option Phase} (hq : Knows host w q) (hgrows : Grows w w') :
    Knows host w' q := by
  cases q with
  | none => trivial
  | some q =>
    cases q with
    | waiting key uid =>
      refine ⟨lt_of_lt_of_le hq.1 hgrows.nextUID, fun v hv huid => ?_⟩
      rcases hgrows.versions v hv with ⟨u, hu, heq, hspec⟩ | hnew
      · rw [← hspec]
        exact hq.2 u hu (heq.trans huid)
      · exact absurd (huid ▸ hnew) (Nat.not_le.2 hq.1)
    | issued key cert => exact hq
    | _ => trivial

/-- The object that an event shows is a version. -/
theorem mem_versions_of_event (h : w.event o name = .object csr) : csr ∈ w.versions := by
  rw [Cloud.event] at h
  split at h
  · cases h
  · next hother heq =>
    subst h
    exact absurd rfl (hother csr)
  · split at h
    · next hget =>
      cases h
      exact (List.mem_filter.1 (List.mem_of_getElem? hget)).1
    · cases h

theorem ownIdentity_bootstrapping (host : String) (b : RestConfig) {cert : Certificate} {key : Key}
    (hsubject : cert.subject = hostSubject host) (hkey : cert.publicKey = key) :
    OwnIdentity host (kubeconfigFromBootstrapping b cert key) :=
  ⟨⟨cert, key⟩, rfl, hsubject, hkey⟩

/-- Writing a configuration. -/
theorem Consistent.write (hw : Consistent hostname w) {kc : Kubeconfig}
    (hkc : OwnIdentity (hostname i) kc) (error : Option Err) (damage : Damage) :
    Consistent hostname { w with
      config := Function.update w.config i ((w.config i).write error damage kc) } := by
  refine ⟨hw.names, hw.uids, hw.specs, hw.certs, fun j kc' h => ?_⟩
  by_cases hj : j = i
  · subst hj
    simp only [Function.update_self, File.write] at h
    split at h
    · cases h
      exact hkc
    · cases h
      exact hkc
    · cases h
    · exact hw.configs j kc' h
  · simp only [Function.update_of_ne hj] at h
    exact hw.configs j kc' h

/-- The calls that change requests or configurations. -/
def writesCloud : Call → Bool
  | .createCSR _ _ | .writeToFile _ => true
  | _ => false

theorem exec_keeps {c : Call} (hc : writesCloud c = false) :
    (exec o (i, c) w).2.csrs = w.csrs ∧ (exec o (i, c) w).2.versions = w.versions ∧
      (exec o (i, c) w).2.nextUID = w.nextUID ∧ (exec o (i, c) w).2.config = w.config := by
  cases c with
  | createCSR | writeToFile => cases hc
  | makeKey | removeKey =>
    simp only [exec]
    split <;> exact ⟨rfl, rfl, rfl, rfl⟩
  | getCSR =>
    simp only [exec]
    split <;> exact ⟨rfl, rfl, rfl, rfl⟩
  | _ => exact ⟨rfl, rfl, rfl, rfl⟩

/-- A request that was created, whether the answer arrives or not. -/
theorem exec_create (o : Outcome) (i : Nat) (name : String) (spec : Spec) :
    (∃ e, exec o (i, .createCSR name spec) w = (.error e, w)) ∨
      ∃ uid w', w.create name spec = .ok (uid, w') ∧
        (exec o (i, .createCSR name spec) w = (.ok uid, w') ∨
          ∃ e, exec o (i, .createCSR name spec) w = (.error e, w')) := by
  cases hcreate : w.create name spec with
  | error e =>
    refine .inl ?_
    cases hfate : o.fate with
    | answered | lost => exact ⟨e, by simp only [exec, hfate, hcreate]⟩
    | refused e' => exact ⟨e', by simp only [exec, hfate]⟩
  | ok r =>
    obtain ⟨uid, w'⟩ := r
    cases hfate : o.fate with
    | answered => exact .inr ⟨uid, w', rfl, .inl (by simp only [exec, hfate, hcreate])⟩
    | refused e => exact .inl ⟨e, by simp only [exec, hfate]⟩
    | lost e => exact .inr ⟨uid, w', rfl, .inr ⟨e, by simp only [exec, hfate, hcreate]⟩⟩

/-- A request that was read. -/
theorem exec_get (h : (exec o (i, .getCSR name) w).1 = .ok csr) :
    w.csrs.lookup name = some csr := by
  simp only [exec] at h
  split at h
  · cases h
  · cases h
  · next hlookup =>
    cases h
    exact hlookup
  · cases h

/-- One call of a flow. -/
theorem flow_call {q q' : Phase} {c : Call} (hw : Consistent hostname w)
    (hq : Knows (hostname i) w (some q)) (hnext : Next (hostname i) q c (exec o (i, c) w).1 q') :
    Consistent hostname (exec o (i, c) w).2 ∧ Grows w (exec o (i, c) w).2 ∧
      Knows (hostname i) (exec o (i, c) w).2 (some q') := by
  -- what is left to be shown is about the phase, unless the call is one of two
  have hkept (hc : writesCloud c = false) (hq' : Knows (hostname i) w (some q')) :
      Consistent hostname (exec o (i, c) w).2 ∧ Grows w (exec o (i, c) w).2 ∧
        Knows (hostname i) (exec o (i, c) w).2 (some q') := by
    obtain ⟨hcsrs, hversions, hnextUID, hconfig⟩ := exec_keeps (w := w) (o := o) (i := i) hc
    have hgrows : Grows w (exec o (i, c) w).2 := .of_eq hnextUID hversions
    exact ⟨hw.of_eq hcsrs hversions hnextUID hconfig, hgrows, hq'.mono hgrows⟩
  generalize hr : (exec o (i, c) w).1 = r at hnext
  cases hnext with
  | create key d uid =>
    rcases exec_create (w := w) o i (byohCSRName (hostname i)) (hostSpec (hostname i) key d) with
      ⟨e, he⟩ | ⟨uid', w', hcreate, he | ⟨e, he⟩⟩
    · rw [he] at hr
      cases hr
    · rw [he] at hr ⊢
      cases hr
      obtain ⟨hcons, hgrows⟩ := hw.create hcreate
      refine ⟨hcons, hgrows, ?_⟩
      obtain ⟨-, rfl, rfl⟩ := create_ok hcreate
      refine ⟨Nat.lt_succ_self _, fun v hv huid => ?_⟩
      rcases List.mem_cons.1 hv with rfl | hmem
      · rfl
      · exact absurd huid (hw.uids v hmem).ne
    · rw [he] at hr
      cases hr
  | uncreated key d e =>
    rcases exec_create (w := w) o i (byohCSRName (hostname i)) (hostSpec (hostname i) key d) with
      ⟨e, he⟩ | ⟨uid', w', hcreate, he | ⟨e, he⟩⟩
    · rw [he]
      exact ⟨hw, .of_eq rfl rfl, trivial⟩
    · rw [he] at hr
      cases hr
    · rw [he]
      obtain ⟨hcons, hgrows⟩ := hw.create hcreate
      exact ⟨hcons, hgrows, trivial⟩
  | @get key csr hcsr =>
    have hmem : csr ∈ w.versions := (hw.names _ _ (exec_get hr)).2
    refine hkept rfl ⟨hw.uids csr hmem, fun v hv huid => ?_⟩
    rw [hw.specs v hv csr hmem huid, hcsr]
  | @issue key uid csr cert name huid hcert =>
    have hmem : csr ∈ w.versions := mem_versions_of_event hr
    obtain ⟨hsubject, hkey⟩ := hw.certs csr hmem cert hcert
    rw [hq.2 csr hmem huid] at hsubject hkey
    exact hkept rfl ⟨hsubject, hkey⟩
  | unwritten key cert b e =>
    exact ⟨hw.write (ownIdentity_bootstrapping _ b hq.1 hq.2) o.error o.damage, .of_eq rfl rfl, trivial⟩
  | write key cert b =>
    exact ⟨hw.write (ownIdentity_bootstrapping _ b hq.1 hq.2) o.error o.damage, .of_eq rfl rfl, trivial⟩
  | now | watch => exact hkept rfl hq
  | _ => exact hkept rfl trivial

/-- What others do. -/
theorem env_consistent {a : CloudAction} (hw : Consistent hostname w) (h : env a w = some w') :
    Consistent hostname w' ∧ Grows w w' := by
  cases a with
  | create name spec =>
    simp only [env] at h
    split at h
    · next hcreate =>
      cases h
      exact hw.create hcreate
    · cases h
  | setConditions name conditions =>
    obtain ⟨csr, hcsr, rfl⟩ := Option.map_eq_some_iff.1 h
    exact hw.update hcsr rfl rfl (hw.certs csr (hw.names _ _ hcsr).2)
  | issue name notAfter =>
    simp only [env] at h
    split at h
    · cases h
    · next csr hcsr =>
      split at h
      · cases h
        refine hw.update hcsr rfl rfl fun cert hcert => ?_
        cases hcert
        exact ⟨rfl, rfl⟩
      · cases h
  | delete name =>
    obtain ⟨csr, hcsr, rfl⟩ := Option.map_eq_some_iff.1 h
    exact ⟨⟨forall_lookup_erase hw.names, hw.uids, hw.specs, hw.certs, hw.configs⟩, .of_eq rfl rfl⟩
  | removeConfig i =>
    cases h
    refine ⟨⟨hw.names, hw.uids, hw.specs, hw.certs, fun j kc hj => ?_⟩, .of_eq rfl rfl⟩
    by_cases hij : j = i
    · subst hij
      simp only [Function.update_self] at hj
      cases hj
    · simp only [Function.update_of_ne hij] at hj
      exact hw.configs j kc hj

/-- Flows and others keep the assertions, in any order. -/
theorem identity_relyGuarantee {go : ClientGo} (hgo : ClientContract go) (hostname : Nat → String) :
    RelyGuarantee (flows go hostname) {} (FlowNext hostname) (fun _ _ _ => False)
      (fun _ => Phase.opening) (fun _ _ => True) (fun _ _ => True) (Consistent hostname)
      (fun f w q => Knows (hostname f.host) w q) where
  follows := flows_follow hgo hostname
  symm := fun _ => trivial
  exclude := fun _ _ _ _ => trivial
  start := fun _ _ _ => trivial
  call := by
    rintro w f q o ⟨i, c⟩ q' hw hq - ⟨rfl, hnext⟩
    obtain ⟨hw', -, hq'⟩ := flow_call hw hq hnext
    exact ⟨hw', hq'⟩
  others := by
    rintro w f q o ⟨i, c⟩ q' f' q₁ hw hq - ⟨rfl, hnext⟩ - - hq₁
    obtain ⟨-, hgrows, -⟩ := flow_call hw hq hnext
    exact hq₁.mono hgrows
  silent := fun _ _ h => h.elim
  finish := fun _ _ _ => trivial
  env := by
    rintro w busy a w' hw - henv
    obtain ⟨hw', hgrows⟩ := env_consistent hw henv
    exact ⟨hw', fun _ _ hq => hq.mono hgrows⟩

/-- A cloud without requests, in which no host has files. -/
def emptyCloud : Cloud where
  csrs := ∅
  versions := []
  nextUID := 0
  nextKey := 0
  keyFile := fun _ => .missing
  config := fun _ => .missing

theorem consistent_emptyCloud : Consistent hostname emptyCloud where
  names := fun name csr h => by
    rw [emptyCloud, AList.lookup_empty] at h
    cases h
  uids := fun v hv => by cases hv
  specs := fun v hv => by cases hv
  certs := fun v hv => by cases hv
  configs := fun i kc h => by cases h

/-- In every state of every run, the configuration of a host has a certificate for the name of the
host, for the key that is next to it. -/
theorem kubeconfig_own_identity {go : ClientGo} (hgo : ClientContract go)
    {ls : List (Label Outcome Flow CloudAction)}
    {σ : Pool (Nat × Call) (fun c => Option (Resp c.2)) Cloud Flow}
    (hrun : (system go hostname).Steps {} (.init emptyCloud) ls σ) {i : Nat} {kc : Kubeconfig}
    (hkc : σ.store.config i = .holds kc) :
    ∃ a, kc.credentials = some a ∧ a.clientCertificateData.subject = hostSubject (hostname i) ∧
      a.clientCertificateData.publicKey = a.clientKeyData := by
  have hM := (identity_relyGuarantee hgo hostname).mortal Outcome.crash .closed (fun _ => trivial)
    fun _ _ _ _ => trivial
  exact (hM.holds consistent_emptyCloud (fun _ => trivial) hrun).configs i kc hkc

/-! ## A run -/

section Sample

/-- Make a key and write it to the file. -/
def generateKeyFile : CsrProg (Except Err Key) := do
  match ← perform .makeKey with
  | .error e => pure (.error e)
  | .ok key =>
  match ← perform (.writeKey key) with
  | some e => pure (.error e)
  | none => pure (.ok key)

def loadOrGenerateKeyFile : CsrProg (Except Err Key) := do
  match ← perform .readKey with
  | .error e => pure (.error e)
  | .ok (.holds key) => pure (.ok key)
  | .ok _ => generateKeyFile

def requestCertificate (name : String) (spec : Spec) (_ : Key) : CsrProg (Except Err (String × Nat)) := do
  match ← perform (.createCSR name spec) with
  | .ok uid => pure (.ok (name, uid))
  | .error e => pure (.error (.api e))

/-- The certificate that an event shows for the request with the UID. -/
def issuedTo (uid : Nat) : CertEvent → Option Certificate
  | .object csr => if csr.uid = uid then csr.certificate else none
  | _ => none

def waitForCertificate (name : String) (uid : Nat) : Nat → CsrProg (Except Err Certificate)
  | 0 => pure (.error (.text "timed out"))
  | events + 1 => do
    match issuedTo uid (← perform (.watch name)) with
    | some cert => pure (.ok cert)
    | none => waitForCertificate name uid events

/-- A client that keeps the contract, for runs that can be evaluated. -/
def sampleClient : ClientGo := ⟨loadOrGenerateKeyFile, requestCertificate, waitForCertificate⟩

variable {host : String}

/-- After the key file was read. -/
def afterRead : Except Err (File Key) → Phase
  | .error _ => .closed
  | .ok (.holds key) => .keyed key
  | .ok _ => .keyless

/-- After a key was made. -/
def afterMake : Except Err Key → Phase
  | .error _ => .closed
  | .ok key => .made key

theorem generateKeyFile_follows : FollowsFlow host (Ended Phase.keyed) generateKeyFile .keyless := by
  refine .call afterMake (fun r => ?_) fun r => ?_
  · cases r with
    | error e => exact .unmade e
    | ok key => exact .make key
  · cases r with
    | error e => exact .ret trivial
    | ok key =>
      refine .call (orClosed (.keyed key)) (fun r => ?_) fun r => ?_
      · cases r with
        | some e => exact .unsaved key e
        | none => exact .save key
      · cases r with
        | some e => exact .ret trivial
        | none => exact .ret rfl

theorem loadOrGenerateKeyFile_follows :
    FollowsFlow host (Ended Phase.keyed) loadOrGenerateKeyFile .opening := by
  refine .perform afterRead (fun r => ?_) fun r => ?_
  · rcases r with e | ⟨⟩ | ⟨⟩ | key
    · exact .unread e
    · exact .unusable fun _ h => by cases h
    · exact .unusable fun _ h => by cases h
    · exact .read key
  · rcases r with e | ⟨⟩ | ⟨⟩ | key
    · exact .ret trivial
    · exact generateKeyFile_follows
    · exact generateKeyFile_follows
    · exact .ret rfl

/-- After a request was created, or not. -/
def afterCreate (key : Key) : Except ApiError Nat → Phase
  | .ok uid => .waiting key uid
  | .error _ => .keyed key

theorem requestCertificate_follows (key : Key) (d : Int) :
    FollowsFlow host (Ended fun r => Phase.waiting key r.2)
      (requestCertificate (byohCSRName host) (hostSpec host key d) key) (.keyed key) := by
  refine .perform (afterCreate key) (fun r => ?_) fun r => ?_
  · cases r with
    | ok uid => exact .create key d uid
    | error e => exact .uncreated key d e
  · cases r with
    | ok uid => exact .ret rfl
    | error e => exact .ret trivial

theorem issuedTo_eq_some {uid : Nat} {r : CertEvent} {cert : Certificate}
    (h : issuedTo uid r = some cert) :
    ∃ csr, r = .object csr ∧ csr.uid = uid ∧ csr.certificate = some cert := by
  cases r with
  | object csr =>
    rw [issuedTo] at h
    split at h
    · next huid => exact ⟨csr, rfl, huid, h⟩
    · cases h
  | deleted | other | failed => cases h

theorem waitForCertificate_follows (name : String) (key : Key) (uid : Nat) (events : Nat) :
    FollowsFlow host (Ended (Phase.issued key)) (waitForCertificate name uid events)
      (.waiting key uid) := by
  induction events with
  | zero => exact .ret trivial
  | succ events ih =>
    refine .perform (fun r => (issuedTo uid r).elim (.waiting key uid) (.issued key)) (fun r => ?_)
      fun r => ?_
    · cases hcert : issuedTo uid r with
      | none => exact .watch key uid name r
      | some cert =>
        obtain ⟨csr, rfl, huid, hcert⟩ := issuedTo_eq_some hcert
        exact .issue name huid hcert
    · cases issuedTo uid r with
      | none => exact ih
      | some cert => exact .ret rfl

theorem sampleClient_contract : ClientContract sampleClient where
  key := fun _ => loadOrGenerateKeyFile_follows
  request := fun _ => requestCertificate_follows
  wait := fun _ => waitForCertificate_follows

end Sample

instance : DecidableRules ({} : Rules (Nat × Call) Outcome Cloud Flow CloudAction) where
  start := fun _ _ _ => inferInstanceAs (Decidable True)
  call := fun _ _ _ _ => inferInstanceAs (Decidable True)
  env := fun _ _ _ => inferInstanceAs (Decidable True)

/-- Hosts with names of different length. -/
def sampleNames (i : Nat) : String := String.ofList (List.replicate (i + 1) 'h')

/-- A flow on host 0. -/
def sampleFlow : Flow := ⟨0, 3, 3600⟩

/-- `n` calls of a flow that succeed. -/
def calls (f : Flow) (n : Nat) : List (Label Outcome Flow CloudAction) := List.replicate n (.call f {})

/-- Somebody else creates a request under the name of the host, with another key; the flow of the host
gives up. When that request is gone, the next flow gets its certificate. -/
def takenName : List (Label Outcome Flow CloudAction) :=
  let name := byohCSRName (sampleNames 0)
  .env (.create name (hostSpec (sampleNames 0) 7 3600)) :: .start sampleFlow :: calls sampleFlow 7 ++
    [.env (.setConditions name [.approved]), .env (.issue name 10), .env (.delete name),
      .start sampleFlow] ++ calls sampleFlow 5 ++
    [.env (.setConditions name [.approved]), .env (.issue name 20)] ++ calls sampleFlow 3

/-- The flow on host 0 has written its configuration. -/
theorem kubeconfig_own_identity_taken : ∃ σ kc,
    (system sampleClient sampleNames).Steps {} (.init emptyCloud) takenName σ ∧
      σ.store.config 0 = .holds kc ∧
      ∃ a, kc.credentials = some a ∧ a.clientCertificateData.subject = hostSubject (sampleNames 0) ∧
        a.clientCertificateData.publicKey = a.clientKeyData := by
  obtain ⟨σ, hrun, hconfig⟩ := (system sampleClient sampleNames).exists_steps {} takenName
    (fun σ => (σ.store.config 0).isHeld) (σ := .init emptyCloud) (by decide +kernel)
  cases hkc : σ.store.config 0 with
  | missing | corrupt =>
    rw [hkc] at hconfig
    cases hconfig
  | holds kc =>
    exact ⟨σ, kc, hrun, hkc, kubeconfig_own_identity sampleClient_contract hrun hkc⟩

end Byoh.Properties.Credentials
