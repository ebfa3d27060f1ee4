import Byoh.Protocol.ControllerPhases
import Byoh.Protocol.SiteSteps

/-!
# Reconciles of the ByoHost controller as single steps

What one reconcile of a host by the manager does when nothing happens in between
(`byoHostStep_ensures`): nothing, or the uninstall secret of a host that has been cleaned up goes, and
the reference to it may go after it. The reference is never cleared while the secret is there.
-/

set_option autoImplicit false

namespace Byoh.Protocol

open Byoh.Foundation Byoh.Model Byoh.Model.ByoHostReconciler

/-- Secrets are stored under their keys. -/
def SecretsKeyed (w : World) : Prop := ∀ k s, w.secrets.lookup k = some s → s.key = k

/-- The secrets after the secret at `key` was deleted, or found missing. -/
structure SecretGone (w : World) (key : NamespacedName) (w' : World) : Prop where
  secrets : w'.secrets = w.secrets ∨ w'.secrets = w.secrets.erase key
  gone : w'.secrets.lookup key = none
  rest : w' = { w with secrets := w'.secrets }

/-- What a reconcile of the host `k` by the manager did to the world. -/
inductive ByoHostRan (k : NamespacedName) (w : World) : World → Prop
  | idle : ByoHostRan k w w
  | deleted {h : ByoHost} {ref : ObjectReference} {w₁ : World}
      (hread : w.hosts.lookup k = some h) (hstale : staleReference h = some ref)
      (hgone : SecretGone w ⟨ref.ns, ref.name⟩ w₁) : ByoHostRan k w w₁
  | cleared {h : ByoHost} {ref : ObjectReference} {w₁ : World}
      (hread : w.hosts.lookup k = some h) (hstale : staleReference h = some ref)
      (hgone : SecretGone w ⟨ref.ns, ref.name⟩ w₁) :
      ByoHostRan k w (w₁.setHost k (h.merge (clearedHost h) h))

section Ensures

variable {k : NamespacedName} {w w₁ : World} {h : ByoHost} {ref : ObjectReference}
  {ok : Outcome → Prop}

/-- The patch that clears the reference arrives, or nothing happens. -/
theorem clearReference_ensures (hdefault : ok default) (href : h.uninstallationSecret = some ref)
    (hread : w₁.hosts.lookup h.key = some h) :
    Prog.Ensures exec ok (clearReference h) w₁ fun _ w' =>
      w' = w₁ ∨ w' = w₁.setHost h.key (h.merge (clearedHost h) h) := by
  -- conditions and status are not patched
  have hconditions : decide (h.conditions ≠ (clearedHost h).conditions) = false := by
    simp [clearedHost]
  have hspec : h.changed (clearedHost h) = true := by
    simp [ByoHost.changed, clearedHost, href]
  have hstatus : h.statusChanged (clearedHost h) = false := by
    simp [ByoHost.statusChanged, clearedHost]
  simp only [clearReference, patchByoHost, hconditions, hspec, hstatus, sendIf, Bool.false_eq_true,
    if_false, if_true, Prog.bind_eq, Prog.pure_eq, Prog.ret_bind]
  refine .bind (.bind (.call hdefault fun o _ => .ret (.ret ?_)))
  rcases exec_patchByoHost o w₁ (clearedHost h).key h (clearedHost h) with
    ⟨cur, hcur, hw⟩ | ⟨e, hw, -⟩
  · obtain rfl : h = cur := Option.some.inj (hread.symm.trans hcur)
    rw [hw]
    exact .ret (.inr rfl)
  · rw [hw]
    exact .ret (.inl rfl)

/-- One reconcile of a host by the manager. -/
theorem byoHostStep_ensures (hdefault : ok default) (hkeys : WellKeyed w) (hsecrets : SecretsKeyed w)
    (k : NamespacedName) :
    Prog.Ensures exec ok (reconcile k) w fun _ w' => ByoHostRan k w w' := by
  refine .bind (.call hdefault fun o _ => .ret ?_)
  cases hr : (exec o (.getByoHost k) w).1 with
  | error e => cases e <;> exact .ret .idle
  | ok h =>
    have hread : w.hosts.lookup k = some h := readObject_ok hr
    have hkey : h.key = k := hkeys k h hread
    dsimp only
    cases hstale : staleReference h with
    | none => exact .ret .idle
    | some ref =>
      have href := (staleReference_eq_some hstale).1
      -- with the secret gone, the reference is cleared or not
      have hclear : ∀ {w₁}, SecretGone w ⟨ref.ns, ref.name⟩ w₁ →
          Prog.Ensures exec ok (clearReference h) w₁ fun _ w' => ByoHostRan k w w' := by
        intro w₁ hgone
        have hread₁ : w₁.hosts.lookup h.key = some h := by rw [hgone.rest, hkey, hread]
        refine (clearReference_ensures hdefault href hread₁).mono ?_
        rintro _ w' (rfl | rfl)
        · exact .deleted hread hstale hgone
        · rw [hkey]
          exact .cleared hread hstale hgone
      refine .bind (.call hdefault fun o' _ => .ret ?_)
      change Prog.Ensures exec ok _ w _
      cases hr' : (exec o' (.getSecret ⟨ref.ns, ref.name⟩) w).1 with
      | error e =>
        rw [show (exec o' (.getSecret ⟨ref.ns, ref.name⟩) (exec o (.getByoHost k) w).2).1 = _ from hr']
        cases e with
        | notFound => exact hclear ⟨.inl rfl, readObject_notFound hr', rfl⟩
        | _ => exact .ret .idle
      | ok secret =>
        rw [show (exec o' (.getSecret ⟨ref.ns, ref.name⟩) (exec o (.getByoHost k) w).2).1 = _ from hr']
        have hsecret : w.secrets.lookup ⟨ref.ns, ref.name⟩ = some secret := readObject_ok hr'
        dsimp only
        rw [hsecrets _ secret hsecret]
        refine .bind (.call hdefault fun o'' _ => .ret ?_)
        rcases writeObject_total o'' w (w.secrets.lookup ⟨ref.ns, ref.name⟩) (fun _ =>
          { w with secrets := w.secrets.erase ⟨ref.ns, ref.name⟩ }) with ⟨cur, -, hw⟩ | ⟨e, hw, hfail⟩
        · rw [exec, hw]
          exact hclear ⟨.inr rfl, AList.lookup_erase _ _, rfl⟩
        · rw [exec, hw]
          cases e with
          | notFound =>
            -- the secret is there, so the server does not miss it
            rw [hsecret, writeObject] at hw
            split at hw <;> cases hw
          | _ => exact .ret .idle

end Ensures

/-! ## Frame -/

section Frame

variable {k : NamespacedName} {w w' : World}

theorem ByoHostRan.machines (hran : ByoHostRan k w w') : w'.machines = w.machines := by
  cases hran with
  | idle => rfl
  | deleted _ _ hgone => rw [hgone.rest]
  | cleared _ _ hgone =>
    rw [World.setHost, hgone.rest]

theorem ByoHostRan.installerConfigs (hran : ByoHostRan k w w') :
    w'.installerConfigs = w.installerConfigs := by
  cases hran with
  | idle => rfl
  | deleted _ _ hgone => rw [hgone.rest]
  | cleared _ _ hgone =>
    rw [World.setHost, hgone.rest]

/-- The secrets after it were there before. -/
theorem ByoHostRan.secrets_subset {key : NamespacedName} (hran : ByoHostRan k w w')
    (hkey : w'.secrets.lookup key ≠ none) : w.secrets.lookup key ≠ none := by
  have hsubset : ∀ {ref : NamespacedName} {w₁ : World}, SecretGone w ref w₁ →
      w₁.secrets.lookup key ≠ none → w.secrets.lookup key ≠ none := by
    intro ref w₁ hgone hsome
    rcases hgone.secrets with heq | heq <;> rw [heq] at hsome
    · exact hsome
    · by_cases hk : key = ref
      · rw [hk, AList.lookup_erase] at hsome
        exact absurd rfl hsome
      · rwa [AList.lookup_erase_ne hk] at hsome
  cases hran with
  | idle => exact hkey
  | deleted _ _ hgone => exact hsubset hgone hkey
  | cleared _ _ hgone => exact hsubset hgone hkey

end Frame

end Byoh.Protocol
