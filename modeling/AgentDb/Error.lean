import Mathlib.Tactic

/-!
# The error spine

`AppError` of `error.rs`: every fallible path of the application returns it. The payload of a
driver, I/O or serialization error is kept as its text.
-/

namespace AgentDb

/-- `AppError`. -/
inductive AppError
  | db (error : String)
  | mongo (error : String)
  | agent (message : String)
  | network (message : String)
  | safety (message : String)
  | parse (error : String)
  | keychain (error : String)
  | io (error : String)
  | serialization (error : String)
  | config (message : String)
  | notFound (message : String)
  | blocked (reason : String)
  | outcomeUnknown (message : String)
  deriving DecidableEq, Repr

/-- `AppResult`. -/
abbrev AppResult := Except AppError

/-- `AppError::kind`, the machine-readable discriminant. -/
def AppError.kind : AppError → String
  | .db _ => "db"
  | .mongo _ => "db"
  | .agent _ => "agent"
  | .network _ => "network"
  | .safety _ => "safety"
  | .parse _ => "parse"
  | .keychain _ => "keychain"
  | .io _ => "io"
  | .serialization _ => "serialization"
  | .config _ => "config"
  | .notFound _ => "notFound"
  | .blocked _ => "blocked"
  | .outcomeUnknown _ => "outcomeUnknown"

/-- The `Display` text of an error. -/
def AppError.toText : AppError → String
  | .db error => "database error: " ++ error
  | .mongo error => "database error: " ++ error
  | .agent message => "agent error: " ++ message
  | .network message => "network error: " ++ message
  | .safety message => "safety violation: " ++ message
  | .parse error => "parse error: " ++ error
  | .keychain error => "credential store error: " ++ error
  | .io error => "io error: " ++ error
  | .serialization error => "serialization error: " ++ error
  | .config message => "config error: " ++ message
  | .notFound message => "not found: " ++ message
  | .blocked reason => "blocked: " ++ reason
  | .outcomeUnknown message => "operation outcome is unknown: " ++ message

end AgentDb
