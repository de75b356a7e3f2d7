import Embargo.Event

/-!
# The environment of a controller

The controller meets its surroundings in two ways: hooks are delivered to it, and it calls into
clients.  How clients answer is not its business, so an environment is any function from calls to
answers that may remember what has happened.  While a client is busy with a call it may deliver
hooks itself, of whatever kind.

* `LifecycleEvent`, `Hook` — what can be delivered;
* `Environment` — how clients answer, with a memory of type `ω`.
-/

namespace Embargo

/-- What a client reports about itself. -/
inductive LifecycleEvent where
  | start
  | subscribe (topic : String)
  | unsubscribe (topic : String)
  | assign (queues : List Queue)
  | shutdown
  deriving DecidableEq, Repr

/-- The name of the hook that a client reports to. -/
def LifecycleEvent.name : LifecycleEvent → String
  | .start => "start"
  | .subscribe _ => "subscribe"
  | .unsubscribe _ => "unsubscribe"
  | .assign _ => "assign"
  | .shutdown => "shutdown"

/-- What can be delivered to the controller. -/
inductive Hook where
  | lifecycle (client : Client) (event : LifecycleEvent)
  /-- A new policy, along with the lifecycle hooks. -/
  | policyUpdate (p : Policy)
  /-- A new policy, from the source of dynamic configuration. -/
  | policyDelivery (p : Policy)
  /-- A new policy, as a document. -/
  | policyDocument (text : String)

/-- The answer to a command. -/
structure Answer (ω : Type) where
  result : Except Error Unit
  /-- The hooks that were delivered before the call returned. -/
  delivered : List Hook
  memory : ω

/-- How clients answer, at a time, given the memory `ω` of what has happened. -/
structure Environment (ω : Type) where
  /-- Answers a command. -/
  command : ω → (now : Nat) → Client → Command → Answer ω
  /-- Takes a query for the members of a group: refused, or accepted, after which hooks may be
  delivered before it is answered. -/
  query : ω → (now : Nat) → Client → (topic group : String) → Except Error (List Hook) × ω
  /-- Answers a query that was accepted. -/
  members : ω → (now : Nat) → Client → (topic group : String) → List String × ω

end Embargo
