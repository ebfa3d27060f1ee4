import Mathlib.Data.List.Induction

/-!
# The values of an onboarding

`cmd/byohctl/cmd/onboard.go`: the command line sets package variables, which start with the defaults
of the flags, and `mergeConfigWithFlags` fills them from the config file. Only the eight values that
both can give are here.
-/

set_option autoImplicit false

namespace Byoh.Model.Onboard

/-- The values that can be given by a flag and in the config file. -/
inductive OnboardFlag where
  | url
  | username
  | password
  | clientToken
  | domain
  | tenant
  | verbosity
  | region
  deriving DecidableEq, Repr

/-- The package variables. -/
structure Variables where
  fqdn : String := ""
  username : String := ""
  password : String := ""
  clientToken : String := ""
  domain : String := ""
  tenant : String := ""
  verbosity : String := ""
  regionName : String := ""
  deriving DecidableEq, Repr

/-- `OnboardConfig`. -/
structure OnboardConfig where
  url : String := ""
  username : String := ""
  password : String := ""
  clientToken : String := ""
  domain : String := ""
  tenant : String := ""
  verbosity : String := ""
  region : String := ""
  deriving DecidableEq, Repr

/-- The variable of a flag. -/
def Variables.get (v : Variables) : OnboardFlag → String
  | .url => v.fqdn
  | .username => v.username
  | .password => v.password
  | .clientToken => v.clientToken
  | .domain => v.domain
  | .tenant => v.tenant
  | .verbosity => v.verbosity
  | .region => v.regionName

/-- The value of a flag in the config file. -/
def OnboardConfig.get (cfg : OnboardConfig) : OnboardFlag → String
  | .url => cfg.url
  | .username => cfg.username
  | .password => cfg.password
  | .clientToken => cfg.clientToken
  | .domain => cfg.domain
  | .tenant => cfg.tenant
  | .verbosity => cfg.verbosity
  | .region => cfg.region

/-- The defaults of `AddOnboardFlags`. -/
def declaredDefault : OnboardFlag → String
  | .url | .username | .password | .clientToken | .region => ""
  | .domain => "default"
  | .tenant => "service"
  | .verbosity => "minimal"

/-- The variables once the flags are declared. -/
def addOnboardFlags : Variables where
  fqdn := declaredDefault .url
  username := declaredDefault .username
  password := declaredDefault .password
  clientToken := declaredDefault .clientToken
  domain := declaredDefault .domain
  tenant := declaredDefault .tenant
  verbosity := declaredDefault .verbosity
  regionName := declaredDefault .region

/-- A flag of the command line sets its variable. -/
def Variables.set (v : Variables) (value : String) : OnboardFlag → Variables
  | .url => { v with fqdn := value }
  | .username => { v with username := value }
  | .password => { v with password := value }
  | .clientToken => { v with clientToken := value }
  | .domain => { v with domain := value }
  | .tenant => { v with tenant := value }
  | .verbosity => { v with verbosity := value }
  | .region => { v with regionName := value }

/-- The variables after the command line has been parsed; `args` are its flags with their values, in
order. -/
def parseFlags (args : List (OnboardFlag × String)) : Variables :=
  args.foldl (fun v arg => v.set arg.2 arg.1) addOnboardFlags

/-- The rule for a value whose flag has no default. -/
def unlessSet (value configured : String) : String := if value = "" then configured else value

/-- The rule for a value whose flag has a default. -/
def unlessChanged (default value configured : String) : String :=
  if value = default ∧ configured ≠ "" then configured else value

/-- `mergeConfigWithFlags`. -/
def mergeConfigWithFlags (cfg : OnboardConfig) (v : Variables) : Variables where
  fqdn := unlessSet v.fqdn cfg.url
  username := unlessSet v.username cfg.username
  password := unlessSet v.password cfg.password
  clientToken := unlessSet v.clientToken cfg.clientToken
  domain := unlessChanged "default" v.domain cfg.domain
  tenant := unlessChanged "service" v.tenant cfg.tenant
  verbosity := unlessChanged "minimal" v.verbosity cfg.verbosity
  regionName := unlessSet v.regionName cfg.region

/-- The first part of `runOnboard`; `load` is `LoadOnboardConfig`. -/
def onboardValues (load : String → Except String OnboardConfig) (configFile : String)
    (args : List (OnboardFlag × String)) : Except String Variables :=
  if configFile = "" then .ok (parseFlags args)
  else match load configFile with
    | .error e => .error ("Error loading config file: " ++ e)
    | .ok cfg => .ok (mergeConfigWithFlags cfg (parseFlags args))

end Byoh.Model.Onboard
