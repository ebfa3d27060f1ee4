import Byoh.Protocol.MachineProgress

/-!
# Kinds of installer configurations

The kind of an installer configuration is derived twice from the kind of its template.
`getInstallerConfig` deletes every `Template` in the kind of the reference; `GenerateTemplate` cuts
one `Template` off the end of the kind of the template.

- `createInstallerConfig_idempotent`: when the two agree, as for `base ++ "Template"` where `base`
  does not contain `Template`, a successful `createInstallerConfig` leaves one configuration of the
  machine, `getInstallerConfig` finds it, and later calls create nothing. When they do not agree, this
  still holds in stores in which nothing is created, and only there (`OneConfig`).
- `templateInKind_not_idempotent`: for `MyTemplateConfigTemplate` they do not agree. The
  configuration is created under one kind and looked up under another, so every call after the
  first fails.

The API server stores a template under its own kind and version, so what a read under the kind of
the reference returns has that kind (`TemplatesKeyed`).
-/

set_option autoImplicit false

namespace Byoh.Properties

open Byoh.Foundation Byoh.Model Byoh.Model.ByoMachineReconciler Byoh.Protocol

/-- The key of the configuration that is generated from the template of a reference. -/
def generatedKey (m : ByoMachine) (ref : ObjectReference) : InstallerKey :=
  ⟨ref.apiVersion, Text.trimSuffix ref.kind "Template", m.ns, m.name⟩

/-- The installer configurations of a machine: those in its namespace and with its name that are of a
kind derived in one way or the other. -/
def configsOf (w : World) (m : ByoMachine) (ref : ObjectReference) : List InstallerConfig :=
  ([installerConfigKey m ref, generatedKey m ref].dedup).filterMap w.installerConfigs.lookup

/-- A template is stored under its own kind and version. -/
def TemplatesKeyed (w : World) : Prop :=
  ∀ key t, w.installerTemplates.lookup key = some t → t.apiVersion = key.apiVersion ∧ t.kind = key.kind

/-- Both ways to derive a kind give the same. -/
def KindsAgree (kind : String) : Prop :=
  Text.deleteAll kind "Template" = Text.trimSuffix kind "Template"

/-- They do for the kind of a template in whose other part `Template` does not occur. -/
theorem kindsAgree_append {base : String} (h : Text.contains base "Template" = false) :
    KindsAgree (base ++ "Template") := by
  have hpat : "Template".toList = 'T' :: "emplate".toList := rfl
  rw [KindsAgree, Text.trimSuffix_append, Text.deleteAll_append hpat (by decide) h]

section Keys

variable {w : World} {m : ByoMachine} {ref : ObjectReference} {c : InstallerConfig}

theorem key_eq_iff : installerConfigKey m ref = generatedKey m ref ↔ KindsAgree ref.kind := by
  simp only [installerConfigKey, generatedKey, KindsAgree, InstallerKey.mk.injEq, true_and, and_true]

/-- With one key there is one configuration, if it is stored. -/
theorem configsOf_of_agree (hkey : installerConfigKey m ref = generatedKey m ref)
    (h : w.installerConfigs.lookup (generatedKey m ref) = some c) : configsOf w m ref = [c] := by
  simp [configsOf, hkey, h]

/-- With two keys, the configurations are those that are stored under them. -/
theorem configsOf_of_ne (hkey : installerConfigKey m ref ≠ generatedKey m ref) :
    configsOf w m ref = (w.installerConfigs.lookup (installerConfigKey m ref)).toList ++
      (w.installerConfigs.lookup (generatedKey m ref)).toList := by
  have hdedup : [installerConfigKey m ref, generatedKey m ref].dedup =
      [installerConfigKey m ref, generatedKey m ref] := List.Nodup.dedup (by simp [hkey])
  rw [configsOf, hdedup, List.filterMap_cons, List.filterMap_cons, List.filterMap_nil]
  cases w.installerConfigs.lookup (installerConfigKey m ref) <;>
    cases w.installerConfigs.lookup (generatedKey m ref) <;> rfl

end Keys

/-- The configuration that `createInstallerConfig` would create: there is a template, the machine has a
version, and the place of the generated configuration is free. -/
structure Creates (w : World) (sc : Scope) (ref : ObjectReference) (c : InstallerConfig) : Prop where
  made : ∃ template version, w.installerTemplates.lookup ⟨ref.apiVersion, ref.kind, ref.ns, ref.name⟩ =
      some template ∧ sc.machine.version = some version ∧
    installerConfigFor sc.byoMachine ref template version = .ok c
  free : w.installerConfigs.lookup (generatedKey sc.byoMachine ref) = none

/-! ## The two functions -/

section Calls

variable {ok : Outcome → Prop} {w : World} {sc : Scope} {ref : ObjectReference} {c : InstallerConfig}

/-- The read of `getInstallerConfig`: the configuration, a notice that there is none, or another
error when the read fails. -/
theorem getInstallerConfig_reads (hdefault : ok default) {m : ByoMachine}
    (href : m.installerRef = some ref) :
    GoM.Ensures exec ok (getInstallerConfig m) sc w fun r sc' w' => sc' = sc ∧ w' = w ∧
      ((∃ c, w.installerConfigs.lookup (installerConfigKey m ref) = some c ∧ r = .ok c) ∨
        (w.installerConfigs.lookup (installerConfigKey m ref) = none ∧ r = .err (.api .notFound)) ∨
        (r = .err (.api .other) ∧ ∃ o, ok o ∧ o.readOk = false)) := by
  rw [getInstallerConfig, href]
  refine .call_bind hdefault fun o ho => ?_
  rcases readObject_exact o (w.installerConfigs.lookup (installerConfigKey m ref)) with
    ⟨c, hc, hread⟩ | ⟨hnone, hread⟩ | ⟨hread, hfails⟩
  · rw [exec, hread]
    exact .pure ⟨rfl, rfl, .inl ⟨c, hc, rfl⟩⟩
  · rw [exec, hread]
    exact .throw ⟨rfl, rfl, .inr (.inl ⟨hnone, rfl⟩)⟩
  · rw [exec, hread]
    exact .throw ⟨rfl, rfl, .inr (.inr ⟨rfl, o, ho, hfails⟩)⟩

/-- With a configuration under the key of the lookup, `createInstallerConfig` creates nothing; it
returns nil when the read succeeds. -/
theorem createInstallerConfig_found (hdefault : ok default) {c : InstallerConfig}
    (href : sc.byoMachine.installerRef = some ref)
    (hc : w.installerConfigs.lookup (installerConfigKey sc.byoMachine ref) = some c) :
    GoM.Ensures exec ok createInstallerConfig sc w fun r sc' w' => sc' = sc ∧ w' = w ∧
      (r = .ok () ∨ ∃ o, ok o ∧ o.readOk = false) := by
  refine .get_bind (.attempt_bind ((getInstallerConfig_reads hdefault href).mono ?_))
  rintro r sc' w' ⟨rfl, rfl, ⟨c', -, rfl⟩ | ⟨hnone, -⟩ | ⟨rfl, hfails⟩⟩
  · exact .pure ⟨rfl, rfl, .inl rfl⟩
  · rw [hc] at hnone
    cases hnone
  · exact .throw ⟨rfl, rfl, .inr hfails⟩

/-- A generated configuration has the kind of its template with one `Template` cut off. -/
theorem installerConfigFor_generatedKey {m : ByoMachine} {template : InstallerTemplate}
    {version : String} (htemplates : TemplatesKeyed w)
    (htemplate : w.installerTemplates.lookup ⟨ref.apiVersion, ref.kind, ref.ns, ref.name⟩ =
      some template)
    (hmade : installerConfigFor m ref template version = .ok c) : c.key = generatedKey m ref := by
  obtain ⟨happ, hkind⟩ := htemplates _ _ htemplate
  rw [installerConfigFor_key hmade, happ, hkind]
  rfl

theorem Creates.key (h : Creates w sc ref c) (htemplates : TemplatesKeyed w) :
    c.key = generatedKey sc.byoMachine ref := by
  obtain ⟨template, version, htemplate, -, hmade⟩ := h.made
  exact installerConfigFor_generatedKey htemplates htemplate hmade

/-- What a successful `createInstallerConfig` has done: found a configuration under the key of the
lookup, or found none there and created the one that the template generates. -/
theorem createInstallerConfig_cases (htemplates : TemplatesKeyed w)
    (href : sc.byoMachine.installerRef = some ref) :
    GoM.Ensures exec (fun _ => True) createInstallerConfig sc w fun r _ w' => r = .ok () →
      (w' = w ∧ ∃ c, w.installerConfigs.lookup (installerConfigKey sc.byoMachine ref) = some c) ∨
        (w.installerConfigs.lookup (installerConfigKey sc.byoMachine ref) = none ∧
          ∃ c, Creates w sc ref c ∧
            w' = { w with installerConfigs := w.installerConfigs.insert c.key c }) := by
  refine .get_bind (.attempt_bind ((getInstallerConfig_reads trivial href).mono ?_))
  rintro r sc' w' ⟨rfl, rfl, ⟨c, hc, rfl⟩ | ⟨hnone, rfl⟩ | ⟨rfl, -⟩⟩
  · exact .pure fun _ => .inl ⟨rfl, c, hc⟩
  · simp only [Err.isNotFound, href, GoM.deref_some, GoM.pure_bind]
    refine .call_bind trivial fun o _ => ?_
    cases hread : readObject o
        (w'.installerTemplates.lookup ⟨ref.apiVersion, ref.kind, ref.ns, ref.name⟩) with
    | error e =>
      rw [exec, hread]
      exact .throw fun h => by cases h
    | ok template =>
      rw [exec, hread]
      cases hversion : sc'.machine.version with
      | none => exact .ret fun h => by cases h
      | some version =>
        cases hmade : installerConfigFor sc'.byoMachine ref template version with
        | error e =>
          simp only [GoM.deref_some, GoM.pure_bind, hmade, GoM.ofExcept_error, GoM.throw_bind]
          exact .throw fun h => by cases h
        | ok config =>
          simp only [GoM.deref_some, GoM.pure_bind, hmade, GoM.ofExcept_ok]
          refine .call_bind trivial fun o _ => ?_
          cases hcreated : (exec o (.createInstallerConfig config) w').1 with
          | some e => exact .throw fun h => by cases h
          | none =>
            obtain ⟨hfree, hw⟩ := createObject_created hcreated
            rw [exec, hw]
            rw [Option.isSome_eq_false_iff, Option.isNone_iff_eq_none] at hfree
            have hkey : config.key = generatedKey sc'.byoMachine ref :=
              installerConfigFor_generatedKey htemplates (readObject_ok hread) hmade
            exact .pure fun _ => .inr ⟨hnone, config,
              ⟨⟨template, version, readObject_ok hread, hversion, hmade⟩, hkey ▸ hfree⟩, rfl⟩
  · exact .throw fun h => by cases h

/-- With nothing under the key of the lookup, the configuration is created, when the calls succeed. -/
theorem createInstallerConfig_creates (htemplates : TemplatesKeyed w)
    (href : sc.byoMachine.installerRef = some ref)
    (hnone : w.installerConfigs.lookup (installerConfigKey sc.byoMachine ref) = none)
    (hcreates : Creates w sc ref c) :
    GoM.Ensures exec Succeeds createInstallerConfig sc w fun r _ w' => r = .ok () ∧
      w' = { w with installerConfigs := w.installerConfigs.insert c.key c } := by
  obtain ⟨template, version, htemplate, hversion, hmade⟩ := hcreates.made
  have hfree : w.installerConfigs.lookup c.key = none := hcreates.key htemplates ▸ hcreates.free
  refine .get_bind (.attempt_bind ((getInstallerConfig_reads succeeds_default href).mono ?_))
  rintro r sc' w' ⟨rfl, rfl, ⟨c', hc', -⟩ | ⟨-, rfl⟩ | ⟨-, o, ho, hfails⟩⟩
  · cases hnone.symm.trans hc'
  · simp only [Err.isNotFound, href, GoM.deref_some, GoM.pure_bind]
    refine .call_bind succeeds_default fun o ho => ?_
    rw [exec, htemplate, readObject_succeeds ho]
    simp only [hversion, GoM.deref_some, GoM.pure_bind, hmade, GoM.ofExcept_ok]
    refine .call_bind succeeds_default fun o ho => ?_
    have hexec : exec o (.createInstallerConfig c) w' =
        (none, { w' with installerConfigs := w'.installerConfigs.insert c.key c }) := by
      simp [exec, createObject, ho.2, hfree]
    rw [hexec]
    exact .pure ⟨rfl, rfl⟩
  · cases ho.1.symm.trans hfails

end Calls

/-! ## Idempotence -/

/-- The call can read. -/
def Reads (o : Outcome) : Prop := o.readOk = true

theorem reads_default : Reads default := rfl

/-- The same machine with the same reference to its installer. -/
def SameInstaller (m m' : ByoMachine) : Prop := m'.key = m.key ∧ m'.installerRef = m.installerRef

/-- `c` is the one configuration of the machine of `sc`. `getInstallerConfig` finds it, and every
`createInstallerConfig` creates nothing and, when it can read the configuration, returns nil. -/
structure Settled (w : World) (sc : Scope) (ref : ObjectReference) (c : InstallerConfig) : Prop where
  only : configsOf w sc.byoMachine ref = [c]
  found : ∀ sc', SameInstaller sc.byoMachine sc'.byoMachine →
    GoM.Ensures exec Reads (getInstallerConfig sc'.byoMachine) sc' w fun r _ w' => r = .ok c ∧ w' = w
  again : ∀ sc', SameInstaller sc.byoMachine sc'.byoMachine →
    GoM.Ensures exec Reads createInstallerConfig sc' w (fun r _ w' => r = .ok () ∧ w' = w) ∧
      GoM.Ensures exec (fun _ => True) createInstallerConfig sc' w fun _ _ w' => w' = w

/-- A successful `createInstallerConfig` settles the configuration of the machine and does not touch
others. -/
def Idempotent (w : World) (sc : Scope) (ref : ObjectReference) : Prop :=
  GoM.Ensures exec (fun _ => True) createInstallerConfig sc w fun r _ w' => r = .ok () →
    (∃ c, Settled w' sc ref c) ∧ ∀ key ≠ generatedKey sc.byoMachine ref,
      w'.installerConfigs.lookup key = w.installerConfigs.lookup key

/-- The configuration is created where it is looked up; or one is stored where it is looked up and none
where it would be created; or none is stored where it is looked up and none can be created. -/
def OneConfig (w : World) (sc : Scope) (ref : ObjectReference) : Prop :=
  KindsAgree ref.kind ∨
    ((w.installerConfigs.lookup (installerConfigKey sc.byoMachine ref)).isSome ∧
      w.installerConfigs.lookup (generatedKey sc.byoMachine ref) = none) ∨
    w.installerConfigs.lookup (installerConfigKey sc.byoMachine ref) = none ∧
      ∀ c, ¬Creates w sc ref c

section Idempotence

variable {w : World} {sc : Scope} {ref : ObjectReference} {c : InstallerConfig}

/-- The only configuration is settled if it is where it is looked up. -/
theorem settled_of_found (href : sc.byoMachine.installerRef = some ref)
    (honly : configsOf w sc.byoMachine ref = [c])
    (hc : w.installerConfigs.lookup (installerConfigKey sc.byoMachine ref) = some c) :
    Settled w sc ref c := by
  have hlater : ∀ sc' : Scope, SameInstaller sc.byoMachine sc'.byoMachine →
      sc'.byoMachine.installerRef = some ref ∧
        w.installerConfigs.lookup (installerConfigKey sc'.byoMachine ref) = some c := by
    intro sc' hsame
    obtain ⟨hns, hname⟩ := NamespacedName.mk.inj hsame.1
    refine ⟨hsame.2.trans href, ?_⟩
    rw [← hc, installerConfigKey, installerConfigKey, hns, hname]
  refine ⟨honly, fun sc' hsame => ?_, fun sc' hsame => ?_⟩
  · obtain ⟨href', hc'⟩ := hlater sc' hsame
    refine (getInstallerConfig_reads reads_default href').mono ?_
    rintro r sc₂ w₂ ⟨-, rfl, ⟨c₂, hc₂, rfl⟩ | ⟨hnone, -⟩ | ⟨-, o, hread, hfails⟩⟩
    · cases hc₂.symm.trans hc'
      exact ⟨rfl, rfl⟩
    · cases hnone.symm.trans hc'
    · cases hread.symm.trans hfails
  · obtain ⟨href', hc'⟩ := hlater sc' hsame
    refine ⟨(createInstallerConfig_found reads_default href' hc').mono ?_,
      (createInstallerConfig_found trivial href' hc').mono fun _ _ _ h => h.2.1⟩
    rintro r sc₂ w₂ ⟨-, rfl, rfl | ⟨o, hread, hfails⟩⟩
    · exact ⟨rfl, rfl⟩
    · cases hread.symm.trans hfails

/-- A settled configuration is stored where it is looked up. -/
theorem Settled.stored (h : Settled w sc ref c) (href : sc.byoMachine.installerRef = some ref) :
    w.installerConfigs.lookup (installerConfigKey sc.byoMachine ref) = some c := by
  have hget := (h.found sc ⟨rfl, rfl⟩ [] (fun _ ho => by cases ho)).1
  have hreads : GoM.Ensures exec Reads (getInstallerConfig sc.byoMachine) sc w _ :=
    getInstallerConfig_reads reads_default href
  obtain ⟨-, -, ⟨c', hc', hok⟩ | ⟨-, herr⟩ | ⟨-, o, hread, hfails⟩⟩ :=
    hreads [] (fun _ ho => by cases ho)
  · cases hget.symm.trans hok
    exact hc'
  · cases hget.symm.trans herr
  · cases hread.symm.trans hfails

theorem OneConfig.idempotent (htemplates : TemplatesKeyed w)
    (href : sc.byoMachine.installerRef = some ref) (hone : OneConfig w sc ref) :
    Idempotent w sc ref := by
  refine (createInstallerConfig_cases htemplates href).mono ?_
  intro r sc₁ w' hcases hr
  rcases hcases hr with ⟨hw, c, hc⟩ | ⟨hnone, c, hcreates, hw⟩
  · subst w'
    refine ⟨⟨c, settled_of_found href ?_ hc⟩, fun _ _ => rfl⟩
    by_cases hkey : installerConfigKey sc.byoMachine ref = generatedKey sc.byoMachine ref
    · exact configsOf_of_agree hkey (hkey ▸ hc)
    · rcases hone with hagree | ⟨-, hfree⟩ | ⟨hnone, -⟩
      · exact absurd (key_eq_iff.2 hagree) hkey
      · rw [configsOf_of_ne hkey, hc, hfree]
        rfl
      · cases hnone.symm.trans hc
  · subst w'
    have hgenerated := hcreates.key htemplates
    have hkey : installerConfigKey sc.byoMachine ref = generatedKey sc.byoMachine ref := by
      rcases hone with hagree | ⟨hsome, -⟩ | ⟨-, hnot⟩
      · exact key_eq_iff.2 hagree
      · rw [hnone] at hsome
        cases hsome
      · exact absurd hcreates (hnot c)
    have hstored : (w.installerConfigs.insert c.key c).lookup (generatedKey sc.byoMachine ref) =
        some c := by
      rw [← hgenerated]
      exact AList.lookup_insert _
    refine ⟨⟨c, settled_of_found href (configsOf_of_agree hkey hstored) (hkey ▸ hstored)⟩, ?_⟩
    intro key hne
    exact AList.lookup_insert_ne (hgenerated ▸ hne)

/-- With two keys, one call that succeeds and finds its configuration afterwards has found it before. -/
theorem Idempotent.oneConfig (htemplates : TemplatesKeyed w)
    (href : sc.byoMachine.installerRef = some ref) (hidem : Idempotent w sc ref) :
    OneConfig w sc ref := by
  by_cases hagree : KindsAgree ref.kind
  · exact .inl hagree
  have hkey : installerConfigKey sc.byoMachine ref ≠ generatedKey sc.byoMachine ref :=
    fun heq => hagree (key_eq_iff.1 heq)
  -- the run in which every call succeeds
  have hrun := hidem [] (fun _ _ => trivial)
  cases hc : w.installerConfigs.lookup (installerConfigKey sc.byoMachine ref) with
  | some c =>
    refine .inr (.inl ⟨by rw [hc]; rfl, ?_⟩)
    obtain ⟨-, hw, hok | ⟨o, hread, hfails⟩⟩ :=
      createInstallerConfig_found reads_default href hc [] (fun _ h => by cases h)
    · obtain ⟨⟨c', hsettled⟩, -⟩ := hrun hok
      have honly := hsettled.only
      rw [hw, configsOf_of_ne hkey, hc] at honly
      cases hgen : w.installerConfigs.lookup (generatedKey sc.byoMachine ref) with
      | none => rfl
      | some c'' =>
        rw [hgen] at honly
        simp at honly
    · cases hread.symm.trans hfails
  | none =>
    refine .inr (.inr ⟨hc, fun c hcreates => ?_⟩)
    obtain ⟨hok, hw⟩ :=
      createInstallerConfig_creates htemplates href hc hcreates [] (fun _ h => by cases h)
    obtain ⟨⟨c', hsettled⟩, -⟩ := hrun hok
    have hstored := hsettled.stored href
    rw [hw, hcreates.key htemplates, AList.lookup_insert_ne hkey, hc] at hstored
    cases hstored

end Idempotence

/-- `createInstallerConfig` is idempotent exactly if it creates the configuration where it is looked up,
unless the store has one that is looked up and none that is created, or none can be created. -/
theorem createInstallerConfig_idempotent (w : World) (sc : Scope) (ref : ObjectReference)
    (htemplates : TemplatesKeyed w) (href : sc.byoMachine.installerRef = some ref) :
    Idempotent w sc ref ↔ OneConfig w sc ref :=
  ⟨Idempotent.oneConfig htemplates href, OneConfig.idempotent htemplates href⟩

/-! ## Two kinds -/

/-- A machine whose installer has the given kind. -/
def scopeOfKind (kind : String) : Scope where
  cluster := Small.cluster
  machine := Small.capiMachine "m1"
  byoCluster := { ns := "default", name := "prod" }
  byoMachine := { Small.machine "m1" with
    installerRef := some { apiVersion := groupVersion, kind := kind, ns := "default", name := "installer" } }

/-- A cluster with a template of the given kind. -/
def worldOfKind (kind : String) : World :=
  { installerTemplates := AList.insert ⟨groupVersion, kind, "default", "installer"⟩
      { Small.template with kind := kind } ∅ }

theorem templatesKeyed_worldOfKind (kind : String) : TemplatesKeyed (worldOfKind kind) := by
  intro key t ht
  by_cases hkey : key = ⟨groupVersion, kind, "default", "installer"⟩
  · subst hkey
    rw [worldOfKind, AList.lookup_insert] at ht
    cases ht
    exact ⟨rfl, rfl⟩
  · rw [worldOfKind, AList.lookup_insert_ne hkey] at ht
    cases ht

/-- The cluster after the first `createInstallerConfig`. -/
def createdOfKind (kind : String) : World :=
  (Prog.run exec [] (createInstallerConfig (scopeOfKind kind)) (worldOfKind kind)).2

/-- The configuration of a `K8sInstallerConfigTemplate` is created once and then found. -/
theorem createInstallerConfig_idempotent_k8s :
    ∃ c, configsOf (createdOfKind "K8sInstallerConfigTemplate")
          (scopeOfKind "K8sInstallerConfigTemplate").byoMachine
          { apiVersion := groupVersion, kind := "K8sInstallerConfigTemplate", ns := "default"
            name := "installer" } = [c] ∧
      (Prog.run exec [] (getInstallerConfig (scopeOfKind "K8sInstallerConfigTemplate").byoMachine
        (scopeOfKind "K8sInstallerConfigTemplate"))
        (createdOfKind "K8sInstallerConfigTemplate")).1.1 = .ok c ∧
      (Prog.run exec [] (createInstallerConfig (scopeOfKind "K8sInstallerConfigTemplate"))
        (createdOfKind "K8sInstallerConfigTemplate")).1.1 = .ok () := by
  have hidem := (createInstallerConfig_idempotent (worldOfKind "K8sInstallerConfigTemplate")
    (scopeOfKind "K8sInstallerConfigTemplate") _ (templatesKeyed_worldOfKind _) rfl).2
    (.inl (kindsAgree_append (show Text.contains "K8sInstallerConfig" "Template" = false by decide)))
  obtain ⟨⟨c, hsettled⟩, -⟩ := hidem [] (fun _ _ => trivial) (by decide)
  exact ⟨c, hsettled.only, (hsettled.found _ ⟨rfl, rfl⟩ [] (fun _ h => by cases h)).1,
    ((hsettled.again _ ⟨rfl, rfl⟩).1 [] (fun _ h => by cases h)).1⟩

/-- For a kind with another `Template` in it, the first `createInstallerConfig` succeeds, its
configuration is not found afterwards, and the second call fails because the configuration
exists. -/
theorem templateInKind_not_idempotent :
    (Prog.run exec [] (createInstallerConfig (scopeOfKind "MyTemplateConfigTemplate"))
        (worldOfKind "MyTemplateConfigTemplate")).1.1 = .ok () ∧
      (Prog.run exec [] (getInstallerConfig (scopeOfKind "MyTemplateConfigTemplate").byoMachine
        (scopeOfKind "MyTemplateConfigTemplate"))
        (createdOfKind "MyTemplateConfigTemplate")).1.1 = .err (.api .notFound) ∧
      (Prog.run exec [] (createInstallerConfig (scopeOfKind "MyTemplateConfigTemplate"))
        (createdOfKind "MyTemplateConfigTemplate")).1.1 = .err (.api .alreadyExists) := by
  refine ⟨by decide, rfl, by decide⟩

end Byoh.Properties
