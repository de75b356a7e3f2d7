import Embargo.Client
import Embargo.Membership

/-!
# Errors

None of these crosses a lifecycle hook: the hook that meets one reports it and goes on.

* `Error` — the five kinds;
* `Error.kind` and `Error.message` — how they are named and worded.
-/

namespace Embargo

/-- What can go wrong. -/
inductive Error where
  /-- A call into the messaging client failed. -/
  | broker (operation message : String)
  /-- A consumer could not be taken over, or an argument was malformed. -/
  | validation (message : String)
  /-- A consumer was asked to subscribe after an assignment, or the other way round. -/
  | modeConflict (id : ConsumerId) (current requested : Mode)
  /-- A policy document could not be read. -/
  | policy (message : String)
  /-- The configuration makes no sense. -/
  | config (message : String)
  deriving DecidableEq, Repr, Inhabited

namespace Error

/-- The name of the kind of an error. -/
def kind : Error → String
  | .broker .. => "BrokerError"
  | .validation .. => "ValidationError"
  | .modeConflict .. => "ModeConflict"
  | .policy .. => "PolicyError"
  | .config .. => "ConfigError"

/-- An error in words. -/
def message : Error → String
  | .broker operation message => "Broker error during " ++ operation ++ ": " ++ message
  | .validation message => "Validation error: " ++ message
  | .modeConflict id current requested =>
      "Consumer " ++ id.display ++ " is in " ++ current.name ++ " mode and cannot switch to "
        ++ requested.name
  | .policy message => "Policy error: " ++ message
  | .config message => "Configuration error: " ++ message

end Error

end Embargo
