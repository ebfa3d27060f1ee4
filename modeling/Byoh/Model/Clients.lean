import Byoh.Foundation.MergePatch

/-!
# Clients of the API server

What the command, the controllers and the agent have in common as clients: a call may be refused, or
may take effect without an answer, and the client is configured by a kubeconfig.
-/

set_option autoImplicit false

namespace Byoh.Model

open Byoh.Foundation

/-- What becomes of a call: it is answered, it is refused, or its answer is lost. -/
inductive Fate (ε : Type) where
  | answered
  | refused (e : ε)
  | lost (e : ε)
  deriving DecidableEq, Repr

namespace Fate

variable {ε : Type}

/-- The error that the caller sees. -/
def error : Fate ε → Option ε
  | .answered => none
  | .refused e | .lost e => some e

/-- The call reaches the server. -/
def applies : Fate ε → Bool
  | .refused _ => false
  | .answered | .lost _ => true

end Fate

namespace Clientcmd

/-- `clientcmdapi.Cluster`. -/
structure Cluster where
  server : String
  insecureSkipTLSVerify : Bool
  certificateAuthority : String := ""
  certificateAuthorityData : String
  deriving DecidableEq, Repr

/-- `clientcmdapi.Context`. -/
structure Context where
  cluster : String
  authInfo : String
  ns : String
  deriving DecidableEq, Repr

/-- `clientcmdapi.Config`; `α` is the part of an `AuthInfo` that is in use. -/
structure Config (α : Type) where
  clusters : GoMap String Cluster
  authInfos : GoMap String α
  contexts : GoMap String Context
  currentContext : String

/-- What a client with this configuration authenticates with. -/
def Config.credentials {α : Type} (config : Config α) : Option α :=
  (config.contexts.get config.currentContext).bind fun context =>
    config.authInfos.get context.authInfo

end Clientcmd

end Byoh.Model
