import Byoh.Foundation.ActionRun
import Byoh.Model.BootstrapKubeconfigController

/-!
# Bootstrap token Secrets

Which bootstrap token Secrets the reconciles of one BootstrapKubeconfig leave in `kube-system`. The
Secret is created before the kubeconfig is encoded and before the status is patched, and every call
that finds no data generates a new token. So a call that fails in between leaves a Secret that no
kubeconfig mentions, and so does every retry.

* `Issued` is what one call does to the store when it does something, and `reconcile_effect` says so
  for calls in which nothing fails once the Secret is there.
* `token_secrets_embedded` is about all sequences of such calls.
* `token_secret_orphaned`: one failing patch, and a retry.
-/

set_option autoImplicit false

namespace Byoh.Properties

open Byoh.Foundation Byoh.Model.BootstrapKubeconfigReconciler
open Byoh.Model (ApiError Err Fate NamespacedName Secret)

/-! ## One call -/

/-- The token id and the token secret of the Secret are those of the kubeconfig in the data. -/
def Embedded (codec : Codec) (secret : Secret) (data : String) : Prop :=
  ∃ tokenID tokenSecret, secret.data.get "token-id" = some tokenID ∧
    secret.data.get "token-secret" = some tokenSecret ∧
    codec.token data = some (tokenID ++ "." ++ tokenSecret)

/-- From an object without data, a token was issued: its Secret, which did not exist, and the data of
the object. -/
def Issued (codec : Codec) (k : NamespacedName) (s s' : Store) : Prop :=
  ∃ b secret data, s.kubeconfigs.lookup k = some b ∧ b.bootstrapKubeconfigData = none ∧
    s.secrets.lookup secret.key = none ∧ Embedded codec secret data ∧
    s' = ⟨s.kubeconfigs.insert k { b with bootstrapKubeconfigData := some data },
      s.secrets.insert secret.key secret⟩

/-- The CA data of the object can be decoded, and its kubeconfig encoded. -/
def Encodable (r : Reconciler) (b : BootstrapKubeconfig) : Prop :=
  (∃ ca, r.decodeBase64 b.certificateAuthorityData = .ok ca) ∧
    ∀ config, ∃ data, r.codec.encode config = .ok data

/-- The call took effect and its caller sees an error. -/
def isLost : Fate ApiError → Bool
  | .lost _ => true
  | .answered | .refused _ => false

/-- Nothing fails once the Secret is there: the creation is answered or refused, and what comes after
it succeeds. -/
def Completes (o : Outcome) : Prop :=
  isLost o.create = false ∧ o.newHelper = none ∧ o.patch = .answered

instance (o : Outcome) : Decidable (Completes o) := inferInstanceAs (Decidable (_ ∧ _))

theorem completes_default : Completes default := by decide

/-- A token that has a Secret has a kubeconfig as well, with the same parts. -/
theorem generateSecret_ok {tokenStr expiration : String} {secret : Secret}
    (h : generateSecretFromBootstrapToken tokenStr expiration = .ok secret)
    (b : BootstrapKubeconfig) :
    ∃ tokenID tokenSecret config, secret.data.get "token-id" = some tokenID ∧
      secret.data.get "token-secret" = some tokenSecret ∧
      generateBootstrapKubeconfigFromBootstrapToken tokenStr b = .ok config ∧
      config.clusters.get defaultClusterName =
        some ⟨b.apiServer, b.insecureSkipTLSVerify, "", b.certificateAuthorityData⟩ ∧
      ∀ clusters, { config with clusters := clusters : Config }.credentials =
        some (tokenID ++ "." ++ tokenSecret) := by
  rw [generateSecretFromBootstrapToken] at h
  rw [generateBootstrapKubeconfigFromBootstrapToken]
  cases hparts : getTokenIDSecretFromBootstrapToken tokenStr with
  | error e =>
    rw [hparts] at h
    cases h
  | ok parts =>
    rw [hparts] at h
    cases h
    refine ⟨parts.1, parts.2, _, ?_, ?_, rfl, ?_, fun clusters => ?_⟩
    · simp [tokenSecretData]
    · simp [tokenSecretData]
    · simp
    · simp [Byoh.Model.Clientcmd.Config.credentials]

/-- What comes after the creation writes the data of the object, and returns nil. -/
theorem writeData_issues {r : Reconciler} {k : NamespacedName} {s : Store}
    {b : BootstrapKubeconfig} (hb : s.kubeconfigs.lookup k = some b) (henc : Encodable r b)
    {tokenStr expiration : String} {secret : Secret}
    (hsecret : generateSecretFromBootstrapToken tokenStr expiration = .ok secret) :
    GoM.Ensures exec Completes (writeData r k tokenStr b) () s fun e _ s' =>
      e = .ok () ∧ ∃ data, Embedded r.codec secret data ∧ s' = { s with
        kubeconfigs := s.kubeconfigs.insert k { b with bootstrapKubeconfigData := some data } } := by
  obtain ⟨tokenID, tokenSecret, config, hid, hsec, hconfig, hcluster, htoken⟩ :=
    generateSecret_ok hsecret b
  obtain ⟨⟨ca, hca⟩, hencode⟩ := henc
  rw [writeData, hconfig, GoM.ofExcept_ok, GoM.pure_bind, decodeCAData, hcluster, GoM.deref_some,
    GoM.pure_bind, hca, GoM.ofExcept_ok, GoM.pure_bind, GoM.pure_bind]
  obtain ⟨data, hdata⟩ := hencode { config with
    clusters := config.clusters.insert defaultClusterName
      ⟨b.apiServer, b.insecureSkipTLSVerify, "", ca⟩ }
  rw [hdata, GoM.ofExcept_ok, GoM.pure_bind]
  refine .call_bind completes_default fun o ho => ?_
  have hhelper : (exec o .newHelper s).1 = none := ho.2.1
  rw [hhelper]
  refine .call_bind completes_default fun o' ho' => ?_
  have hpatch : exec o' (.patchStatus k data) s = (none, { s with
      kubeconfigs := s.kubeconfigs.insert k { b with bootstrapKubeconfigData := some data } }) := by
    rw [exec, ho'.2.2, Store.patchData, hb]
    rfl
  change GoM.Ensures exec Completes (apiError (exec o' (.patchStatus k data) s).1) ()
    (exec o' (.patchStatus k data) s).2 _
  rw [hpatch]
  refine .pure ⟨rfl, data, ⟨tokenID, tokenSecret, hid, hsec, ?_⟩, rfl⟩
  rw [r.codec.token_encode hdata, htoken]

/-- The creation of a Secret that is answered or refused: it exists from then on, or nothing is
changed. -/
theorem createSecret_effect {o : Outcome} (ho : Completes o) (s : Store) (secret : Secret) :
    (∃ e, exec o (.createSecret secret) s = (some e, s)) ∨
      s.secrets.lookup secret.key = none ∧ exec o (.createSecret secret) s =
        (none, { s with secrets := s.secrets.insert secret.key secret }) := by
  obtain ⟨hlost, -, -⟩ := ho
  rw [exec, Store.create]
  cases hfate : o.create with
  | refused e => exact .inl ⟨e, rfl⟩
  | lost e =>
    rw [hfate] at hlost
    cases hlost
  | answered =>
    cases hsecret : s.secrets.lookup secret.key with
    | some _ => exact .inl ⟨.alreadyExists, rfl⟩
    | none => exact .inr ⟨rfl, rfl⟩

/-- The part of a call for an object without data. -/
theorem generate_effect {r : Reconciler} {k : NamespacedName} {s : Store}
    {b : BootstrapKubeconfig} (hb : s.kubeconfigs.lookup k = some b)
    (hnone : b.bootstrapKubeconfigData = none) (henc : Encodable r b) :
    GoM.Ensures exec Completes (generate r k b) () s fun e _ s' =>
      s' = s ∨ e = .ok () ∧ Issued r.codec k s s' := by
  refine .bind (.call_bind completes_default fun o _ => ?_)
  change GoM.Ensures exec Completes (GoM.ofExcept o.token) () s _
  cases o.token with
  | error e => exact .throw (.inl rfl)
  | ok tokenStr =>
    refine .pure (.call_bind completes_default fun o₁ _ => ?_)
    change GoM.Ensures exec Completes (GoM.ofExcept (generateSecretFromBootstrapToken tokenStr
      (r.formatTime (o₁.now + ttl))) >>= _) () s _
    cases hsecret : generateSecretFromBootstrapToken tokenStr (r.formatTime (o₁.now + ttl)) with
    | error e => exact .throw (.inl rfl)
    | ok secret =>
      rw [GoM.ofExcept_ok, GoM.pure_bind]
      refine .bind (.call_bind completes_default fun o₂ ho₂ => ?_)
      rcases createSecret_effect ho₂ s secret with ⟨e, hcreate⟩ | ⟨hnew, hcreate⟩
      · rw [hcreate]
        exact .throw (.inl rfl)
      · rw [hcreate]
        refine .pure ((writeData_issues (s := { s with
          secrets := s.secrets.insert secret.key secret }) hb henc hsecret).mono ?_)
        rintro e - s' ⟨rfl, data, hembedded, rfl⟩
        exact .inr ⟨rfl, b, secret, data, hb, hnone, hnew, hembedded, rfl⟩

/-- A call in which nothing fails once the Secret is there issues a token, or changes nothing. -/
theorem reconcile_effect {r : Reconciler} {k : NamespacedName} {s : Store}
    (henc : ∀ b, s.kubeconfigs.lookup k = some b → Encodable r b) :
    GoM.Ensures exec Completes (reconcile r k) () s fun e _ s' =>
      s' = s ∨ e = .ok () ∧ Issued r.codec k s s' := by
  refine .call_bind completes_default fun o _ => ?_
  have hstore : (exec o (.getBootstrapKubeconfig k) s).2 = s := rfl
  have hread : ∀ b, (exec o (.getBootstrapKubeconfig k) s).1 = .ok b →
      s.kubeconfigs.lookup k = some b := by
    intro b hb
    rw [exec] at hb
    split at hb <;> try cases hb
    split at hb
    next b' hb' =>
      cases hb
      exact hb'
    next => cases hb
  rw [hstore]
  cases hresp : (exec o (.getBootstrapKubeconfig k) s).1 with
  | error e =>
    change GoM.Ensures exec Completes (if e = .notFound then pure () else GoM.throw (Err.api e)) () s _
    split
    · exact .pure (.inl rfl)
    · exact .throw (.inl rfl)
  | ok b =>
    have hb := hread b hresp
    change GoM.Ensures exec Completes
      (if b.bootstrapKubeconfigData.isSome then pure () else generate r k b) () s _
    split
    · exact .pure (.inl rfl)
    next hnone =>
      rw [Bool.not_eq_true, Option.isSome_eq_false_iff, Option.isNone_iff_eq_none] at hnone
      exact generate_effect hb hnone (henc b hb)

/-! ## Sequences of calls -/

/-- The data in the status of the object. -/
def dataOf (k : NamespacedName) (s : Store) : Option String :=
  (s.kubeconfigs.lookup k).bind (·.bootstrapKubeconfigData)

/-- The Secret has come into the store `s` since `s₀`. -/
def CreatedSince (s₀ s : Store) (secret : Secret) : Prop :=
  ∃ key, s₀.secrets.lookup key = none ∧ s.secrets.lookup key = some secret

/-- The Secrets that came since `s₀` are embedded in the data of the object, and there is at most
one. -/
structure NoOrphan (codec : Codec) (k : NamespacedName) (s₀ s : Store) : Prop where
  embedded : ∀ secret, CreatedSince s₀ s secret → ∃ data, dataOf k s = some data ∧
    Embedded codec secret data
  unique : ∀ secret secret', CreatedSince s₀ s secret → CreatedSince s₀ s secret' →
    secret = secret'

theorem not_createdSince_self (s : Store) (secret : Secret) : ¬ CreatedSince s s secret := by
  rintro ⟨key, hnone, hsome⟩
  rw [hnone] at hsome
  cases hsome

theorem NoOrphan.refl (codec : Codec) (k : NamespacedName) (s : Store) : NoOrphan codec k s s where
  embedded secret h := absurd h (not_createdSince_self s secret)
  unique secret _ h _ := absurd h (not_createdSince_self s secret)

theorem Issued.noOrphan {codec : Codec} {k : NamespacedName} {s₀ s : Store}
    (h : Issued codec k s₀ s) : NoOrphan codec k s₀ s := by
  obtain ⟨b, secret, data, -, -, -, hembedded, rfl⟩ := h
  -- the only new key is that of the Secret
  have honly : ∀ other, CreatedSince s₀ ⟨s₀.kubeconfigs.insert k
      { b with bootstrapKubeconfigData := some data }, s₀.secrets.insert secret.key secret⟩ other →
      other = secret := by
    rintro other ⟨key, hnone, hsome⟩
    by_cases hkey : key = secret.key
    · rw [hkey, AList.lookup_insert] at hsome
      exact (Option.some.inj hsome).symm
    · rw [AList.lookup_insert_ne hkey, hnone] at hsome
      cases hsome
  refine ⟨?_, ?_⟩
  · intro other hother
    rw [honly other hother]
    exact ⟨data, by rw [dataOf, AList.lookup_insert]; rfl, hembedded⟩
  · intro other other' hother hother'
    rw [honly other hother, honly other' hother']

/-- From a store in which a token was issued, no call issues another one: the object has data. -/
theorem Issued.not_again {codec : Codec} {k : NamespacedName} {s₀ s s' : Store}
    (h : Issued codec k s₀ s) : ¬ Issued codec k s s' := by
  obtain ⟨b, secret, data, -, -, -, -, rfl⟩ := h
  rintro ⟨b', -, -, hb', hnone, -⟩
  rw [AList.lookup_insert] at hb'
  cases hb'
  cases hnone

/-- A call of `Reconcile`, as an action. -/
def reconcileCall (r : Reconciler) (k : NamespacedName) (s : Store) (os : List Outcome) : Store :=
  (reconciled r k s os).2

/-- Since `s₀`, nothing has changed or one token was issued. -/
def OneIssued (codec : Codec) (k : NamespacedName) (s₀ s : Store) : Prop :=
  s = s₀ ∨ Issued codec k s₀ s

/-- The object can be encoded after a token was issued as before. -/
theorem OneIssued.encodable {r : Reconciler} {k : NamespacedName} {s₀ s : Store}
    (h : OneIssued r.codec k s₀ s)
    (henc : ∀ b, s₀.kubeconfigs.lookup k = some b → Encodable r b) {b : BootstrapKubeconfig}
    (hb : s.kubeconfigs.lookup k = some b) : Encodable r b := by
  rcases h with rfl | ⟨b₀, secret, data, hb₀, -, -, -, rfl⟩
  · exact henc b hb
  · rw [AList.lookup_insert] at hb
    cases hb
    exact henc b₀ hb₀

theorem OneIssued.step {r : Reconciler} {k : NamespacedName} {s₀ s : Store} {os : List Outcome}
    (henc : ∀ b, s₀.kubeconfigs.lookup k = some b → Encodable r b)
    (h : OneIssued r.codec k s₀ s) (hos : ∀ o ∈ os, Completes o) :
    OneIssued r.codec k s₀ (reconcileCall r k s os) := by
  have heffect := reconcile_effect (r := r) (k := k) (s := s) (fun b hb => h.encodable henc hb) os hos
  rcases heffect with hsame | ⟨-, hissued⟩
  · rw [reconcileCall, reconciled, hsame]
    exact h
  · rcases h with rfl | h
    · exact .inr hissued
    · exact absurd hissued h.not_again

/-- In every sequence of reconciles of one object in which nothing fails once a Secret is there:
between the calls, every Secret that they created is embedded in the data of the object, there is at
most one, and a call that returns an error leaves the Secrets as they are. The reads, the random
source and the creations may fail in any pattern. -/
theorem token_secrets_embedded (r : Reconciler) (k : NamespacedName) {s₀ s : Store}
    (henc : ∀ b, s₀.kubeconfigs.lookup k = some b → Encodable r b) {calls : List (List Outcome)}
    (hrun : ActionRun (reconcileCall r k) (fun _ os => ∀ o ∈ os, Completes o) s₀ calls s) :
    NoOrphan r.codec k s₀ s ∧
      ∀ os, (∀ o ∈ os, Completes o) → (reconciled r k s os).1 ≠ .ok () →
        (reconciled r k s os).2.secrets = s.secrets := by
  have hone : OneIssued r.codec k s₀ s :=
    hrun.invariant (fun h hos => h.step henc hos) (.inl rfl)
  constructor
  · rcases hone with rfl | hissued
    · exact .refl _ _ _
    · exact hissued.noOrphan
  · intro os hos herr
    rcases reconcile_effect (r := r) (fun b hb => hone.encodable henc hb) os hos with
      hsame | ⟨hok, -⟩
    · rw [reconciled, hsame]
    · exact absurd hok herr

/-- A codec that keeps the token only, behind a character. -/
def tokenCodec : Codec where
  encode config := .ok (match config.credentials with
    | some token => String.ofList ('t' :: token.toList)
    | none => "")
  token data := match data.toList with
    | [] => none
    | _ :: token => some (String.ofList token)
  token_encode := by
    intro config data h
    cases h
    cases config.credentials with
    | none => rfl
    | some token => simp

def tokenReconciler : Reconciler := ⟨tokenCodec, .ok, fun _ => "2022-05-01T00:30:00Z"⟩

/-- One object, without data. -/
def unissued : Store where
  kubeconfigs := (∅ : AList fun _ : NamespacedName => BootstrapKubeconfig).insert
    ⟨"default", "bootstrap-kubeconfig"⟩
    { apiServer := "https://10.0.0.1:6443", certificateAuthorityData := "Q0E=" }
  secrets := ∅

/-- The first call cannot create the Secret, the second issues a token, and the third has nothing to
do. -/
def issuedOnce : List (List Outcome) :=
  [List.replicate 6 { token := .ok "aaaaaa.0123456789abcdef", create := .refused .other },
    List.replicate 6 { token := .ok "bbbbbb.0123456789abcdef" },
    List.replicate 6 { token := .ok "cccccc.0123456789abcdef" }]

theorem token_secrets_embedded_once :
    let k : NamespacedName := ⟨"default", "bootstrap-kubeconfig"⟩
    let s := issuedOnce.foldl (reconcileCall tokenReconciler k) unissued
    s.secrets.keys = [⟨"kube-system", "bootstrap-token-bbbbbb"⟩] ∧
      dataOf k s = some "tbbbbbb.0123456789abcdef" ∧
      NoOrphan tokenReconciler.codec k unissued s :=
  ⟨by decide +kernel, by decide +kernel, (token_secrets_embedded tokenReconciler _
    (fun _ _ => ⟨⟨_, rfl⟩, fun _ => ⟨_, rfl⟩⟩) (.of_allowed (by decide +kernel))).1⟩

/-- A call whose patch is refused, and its retry with a new token. -/
def patchRefused : List (List Outcome) :=
  [List.replicate 6 { token := .ok "aaaaaa.0123456789abcdef", patch := .refused .conflict },
    List.replicate 6 { token := .ok "bbbbbb.0123456789abcdef" }]

/-- The first call returns an error and leaves its Secret behind, and the retry creates a second one:
the token of the first is in no kubeconfig. -/
theorem token_secret_orphaned :
    let k : NamespacedName := ⟨"default", "bootstrap-kubeconfig"⟩
    let s := patchRefused.foldl (reconcileCall tokenReconciler k) unissued
    (patchRefused.head?.map fun os => (reconciled tokenReconciler k unissued os).1) =
        some (.err (.api .conflict)) ∧
      s.secrets.keys = [⟨"kube-system", "bootstrap-token-bbbbbb"⟩,
        ⟨"kube-system", "bootstrap-token-aaaaaa"⟩] ∧
      ¬ NoOrphan tokenReconciler.codec k unissued s := by
  intro k s
  refine ⟨by decide +kernel, by decide +kernel, fun h => ?_⟩
  have ha : ((s.secrets.lookup ⟨"kube-system", "bootstrap-token-aaaaaa"⟩).map (·.name)) =
    some "bootstrap-token-aaaaaa" := by decide +kernel
  have hb : ((s.secrets.lookup ⟨"kube-system", "bootstrap-token-bbbbbb"⟩).map (·.name)) =
    some "bootstrap-token-bbbbbb" := by decide +kernel
  obtain ⟨first, hfirst, hname⟩ := Option.map_eq_some_iff.1 ha
  obtain ⟨second, hsecond, hname'⟩ := Option.map_eq_some_iff.1 hb
  have heq := h.unique first second ⟨_, rfl, hfirst⟩ ⟨_, rfl, hsecond⟩
  rw [heq, hname'] at hname
  revert hname
  decide

end Byoh.Properties
