/-!
# Modes, membership states and decisions

* `Mode` — how a consumer obtains its queues;
* `Membership` — whether it takes part in consumption;
* `Decision` — what a policy wants of it;
* `Trigger` — the event after which it was evaluated.
-/

namespace Embargo

/-- How a consumer obtains its queues. -/
inductive Mode where
  /-- It names topics, and its group spreads their queues over the members. -/
  | subscribe
  /-- It is handed queues, past the group. -/
  | assign
  deriving DecidableEq, Repr, Inhabited

/-- Whether a consumer takes part in consumption. -/
inductive Membership where
  /-- A member of its group, or consuming from its queues. -/
  | active
  /-- Out of its group, which the broker has yet to confirm. -/
  | suspending
  /-- Out of its group, or with its queues paused. -/
  | suspended
  deriving DecidableEq, Repr, Inhabited

/-- What is wanted of a consumer. -/
inductive Decision where
  | suspend
  | resume
  deriving DecidableEq, Repr, Inhabited

/-- The event after which a consumer is evaluated. -/
inductive Trigger where
  | start
  | subscribe
  | unsubscribe
  | assign
  | policyUpdate
  deriving DecidableEq, Repr, Inhabited

/-- The name of a mode. -/
def Mode.name : Mode → String
  | .subscribe => "SUBSCRIBE"
  | .assign => "ASSIGN"

/-- The name of a membership state. -/
def Membership.name : Membership → String
  | .active => "ACTIVE"
  | .suspending => "SUSPENDING"
  | .suspended => "SUSPENDED"

/-- The name of a decision. -/
def Decision.name : Decision → String
  | .suspend => "SUSPEND"
  | .resume => "RESUME"

/-- The other decision. -/
def Decision.opposite : Decision → Decision
  | .suspend => .resume
  | .resume => .suspend

/-- The name of a trigger. -/
def Trigger.name : Trigger → String
  | .start => "start"
  | .subscribe => "subscribe"
  | .unsubscribe => "unsubscribe"
  | .assign => "assign"
  | .policyUpdate => "policy-update"

end Embargo
