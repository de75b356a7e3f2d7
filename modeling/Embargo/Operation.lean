import Embargo.Change

/-!
# Operations on a consumer

Everything that can be done to a consumer, as data.

* `Operation` — one operation;
* `Consumer.operate` — its effect, if it has one; `Consumer.after` — the consumer after it.
-/

namespace Embargo

/-- Something that can be done to a consumer. -/
inductive Operation where
  | change (c : Change)
  | markPaused (queues : List Queue)
  | markResumed (queues : List Queue)
  | markShutDown
  | transition (state : Membership)
  deriving DecidableEq, Repr

namespace Consumer

/-- The effect of an operation; only changes can fail. -/
def operate (now : Nat) (c : Consumer) : Operation → Except Error Consumer
  | .change change => c.apply change
  | .markPaused queues => .ok (c.markPaused queues)
  | .markResumed queues => .ok (c.markResumed queues)
  | .markShutDown => .ok c.markShutDown
  | .transition state => .ok (c.transition now state)

/-- The consumer after an operation, unchanged when it fails. -/
def after (now : Nat) (c : Consumer) (op : Operation) : Consumer :=
  match c.operate now op with
  | .error _ => c
  | .ok c => c

end Consumer

end Embargo
