/-
  What can go wrong.

  Three families: what the backend answers, what is wrong with a configuration, and what a request
  of a client comes to.  Each has one text (`message`).
-/

namespace TunnelSession

/-- An answer of the backend that is not the one asked for. -/
inductive BackendError where
  | unavailable (detail : String)
  | rejected (detail : String)
  | validation (detail : String)
  deriving DecidableEq, Repr

namespace BackendError

/-- The text. -/
def message : BackendError → String
  | .unavailable detail => "Backend unavailable: " ++ detail
  | .rejected detail => "Operation rejected: " ++ detail
  | .validation detail => "Validation error: " ++ detail

/-- May the same call succeed later? -/
def isTransient : BackendError → Bool
  | .unavailable _ => true
  | _ => false

end BackendError

/-- Why a configuration cannot be used. -/
inductive ConfigError where
  | io (detail : String)
  | parse (detail : String)
  | unsupportedFormat (path : String)
  | invalid (detail : String)
  deriving DecidableEq, Repr

/-- The text. -/
def ConfigError.message : ConfigError → String
  | .io detail => "IO error: " ++ detail
  | .parse detail => "Parse error: " ++ detail
  | .unsupportedFormat path => "Unsupported config format: " ++ path
  | .invalid detail => "Invalid configuration: " ++ detail

/-- Why a request of a client failed. -/
inductive SessionError where
  | backend (e : BackendError)
  | config (e : ConfigError)
  /-- A connect that a later disconnect superseded. -/
  | cancelled
  deriving DecidableEq, Repr

namespace SessionError

/-- The text. -/
def message : SessionError → String
  | .backend e => e.message
  | .config e => "Configuration error: " ++ e.message
  | .cancelled => "Connect cancelled by disconnect request"

/-- Was the request superseded? -/
def isCancelled (e : SessionError) : Bool := e == .cancelled

/-- The backend's part in it. -/
def backend? : SessionError → Option BackendError
  | .backend e => some e
  | _ => none

end SessionError

end TunnelSession
