import Byoh.Model.Onboard

/-!
# Flags before the config file

What an onboarding value should be: the flag if it was given, else the config file, else the default
(`expected`). `mergeConfigWithFlags` does not know which flags were given; it looks at the values. So
a flag that is given with its own default is taken for one that was not given, and the config file
wins (`explicit_default_overridden`). The merge is as expected exactly if no flag is given in this way
(`merge_precedence`).

The two rules of the merge are one: a value without a default has the empty one (`unlessSet_eq`).
-/

set_option autoImplicit false

namespace Byoh.Properties

open Byoh.Model.Onboard

/-- The value with which a flag was given last. -/
def lastGiven (args : List (OnboardFlag × String)) (flag : OnboardFlag) : Option String :=
  (args.reverse.find? fun arg => arg.1 = flag).map (·.2)

/-- What the value of a flag should be. -/
def expected (cfg : OnboardConfig) (args : List (OnboardFlag × String)) (flag : OnboardFlag) :
    String :=
  match lastGiven args flag with
  | some value => value
  | none => if cfg.get flag ≠ "" then cfg.get flag else declaredDefault flag

/-! ## The command line -/

theorem get_set (v : Variables) (value : String) (flag flag' : OnboardFlag) :
    (v.set value flag).get flag' = if flag = flag' then value else v.get flag' := by
  cases flag <;> cases flag' <;> rfl

theorem get_addOnboardFlags (flag : OnboardFlag) :
    addOnboardFlags.get flag = declaredDefault flag := by
  cases flag <;> rfl

/-- After parsing, a variable holds the last value given, or the default. -/
theorem get_parseFlags (args : List (OnboardFlag × String)) (flag : OnboardFlag) :
    (parseFlags args).get flag = (lastGiven args flag).getD (declaredDefault flag) := by
  induction args using List.reverseRecOn with
  | nil => exact get_addOnboardFlags flag
  | append_singleton args arg ih =>
    rw [parseFlags, List.foldl_append, List.foldl_cons, List.foldl_nil, ← parseFlags, get_set,
      lastGiven, List.reverse_append, List.reverse_singleton, List.singleton_append]
    by_cases hflag : arg.1 = flag
    · rw [if_pos hflag, List.find?_cons_of_pos (by simpa using hflag)]
      rfl
    · rw [if_neg hflag, List.find?_cons_of_neg (by simpa using hflag), ih]
      rfl

/-! ## The merge -/

theorem unlessSet_eq (value configured : String) :
    unlessSet value configured = unlessChanged "" value configured := by
  rw [unlessSet, unlessChanged]
  by_cases hvalue : value = ""
  · by_cases hconfigured : configured = ""
    · rw [if_pos hvalue, if_neg (fun h => h.2 hconfigured), hvalue, hconfigured]
    · rw [if_pos hvalue, if_pos ⟨hvalue, hconfigured⟩]
  · rw [if_neg hvalue, if_neg (fun h => hvalue h.1)]

/-- One rule for all eight values. -/
theorem get_merge (cfg : OnboardConfig) (v : Variables) (flag : OnboardFlag) :
    (mergeConfigWithFlags cfg v).get flag =
      unlessChanged (declaredDefault flag) (v.get flag) (cfg.get flag) := by
  cases flag <;> first | rfl | exact unlessSet_eq _ _

/-- No flag is given with its own default while the config file holds something else for it. -/
def NoDefaultGiven (cfg : OnboardConfig) (args : List (OnboardFlag × String)) : Prop :=
  ∀ flag, lastGiven args flag = some (declaredDefault flag) →
    cfg.get flag = "" ∨ cfg.get flag = declaredDefault flag

/-- Under this condition a value is the flag if it was given, else that of the config file if there is
one, else the default. -/
theorem NoDefaultGiven.get_merge_eq {cfg : OnboardConfig} {args : List (OnboardFlag × String)}
    (hargs : NoDefaultGiven cfg args) (flag : OnboardFlag) :
    (mergeConfigWithFlags cfg (parseFlags args)).get flag = expected cfg args flag := by
  rw [get_merge, get_parseFlags, expected, unlessChanged]
  cases hgiven : lastGiven args flag with
  | none =>
    dsimp only [Option.getD_none]
    by_cases hcfg : cfg.get flag = ""
    · rw [if_neg (fun h => h.2 hcfg), if_neg (fun h => h hcfg)]
    · rw [if_pos ⟨rfl, hcfg⟩, if_pos hcfg]
  | some value =>
    dsimp only [Option.getD_some]
    by_cases hvalue : value = declaredDefault flag
    · -- the flag was given with its default: the config file must not say otherwise
      rcases hargs flag (by rw [hgiven, hvalue]) with hcfg | hcfg
      · rw [if_neg (fun h => h.2 hcfg)]
      · rw [hcfg, hvalue, ite_self]
    · rw [if_neg (fun h => hvalue h.1)]

/-- A flag that is given with its default gets a value of the config file, if there is one. -/
theorem get_merge_of_default {cfg : OnboardConfig} {args : List (OnboardFlag × String)}
    {flag : OnboardFlag} (hgiven : lastGiven args flag = some (declaredDefault flag))
    (hcfg : cfg.get flag ≠ "") :
    (mergeConfigWithFlags cfg (parseFlags args)).get flag = cfg.get flag := by
  rw [get_merge, get_parseFlags, hgiven, Option.getD_some, unlessChanged, if_pos ⟨rfl, hcfg⟩]

/-- Every value is the flag if it was given, else that of the config file if there is one, else the
default, exactly if no flag is given with its own default against the config file. -/
theorem merge_precedence (cfg : OnboardConfig) (args : List (OnboardFlag × String)) :
    (∀ flag, (mergeConfigWithFlags cfg (parseFlags args)).get flag = expected cfg args flag) ↔
      NoDefaultGiven cfg args := by
  constructor
  · intro hall flag hgiven
    by_cases hcfg : cfg.get flag = ""
    · exact .inl hcfg
    · refine .inr ?_
      rw [← get_merge_of_default hgiven hcfg, hall flag, expected, hgiven]
  · exact NoDefaultGiven.get_merge_eq

/-- Flags and a config file that both give some of the values. -/
theorem merge_precedence_mixed :
    let cfg : OnboardConfig := { url := "a.example", domain := "corp", verbosity := "all" }
    let args := [(OnboardFlag.url, "b.example"), (.tenant, "service"), (.domain, "lab")]
    NoDefaultGiven cfg args ∧
      (mergeConfigWithFlags cfg (parseFlags args)).get .domain = "lab" ∧
      (mergeConfigWithFlags cfg (parseFlags args)).get .verbosity = "all" := by
  intro cfg args
  have hargs : NoDefaultGiven cfg args := by
    intro flag
    cases flag <;> decide
  refine ⟨hargs, ?_, ?_⟩
  · rw [(merge_precedence cfg args).2 hargs]
    decide
  · rw [(merge_precedence cfg args).2 hargs]
    decide

/-- `--domain default` against a config file with another domain. -/
theorem explicit_default_overridden :
    let cfg : OnboardConfig := { domain := "corp" }
    let args := [(OnboardFlag.domain, "default")]
    expected cfg args .domain = "default" ∧
      (mergeConfigWithFlags cfg (parseFlags args)).get .domain = "corp" := by
  decide

end Byoh.Properties
