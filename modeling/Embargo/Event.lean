import Embargo.Notice
import Embargo.Policy

/-!
# What happens in a run

A run leaves a record of everything that could be seen of it: the calls into clients, the
evaluations of consumers, and the notices.

* `Command` — the calls that change something; they are made for a transition;
* `Call` — these, and the query for the members of a group;
* `Event` — one entry of the record, with its time and the consumer it is about.
-/

namespace Embargo

/-- A call that a transition makes into a client. -/
inductive Command where
  | persistOffsets
  | unregister (group : String)
  | register (group : String)
  | rebalance
  | pause (queues : List Queue)
  | resume (queues : List Queue)
  deriving DecidableEq, Repr

/-- A call into a client. -/
inductive Call where
  | command (c : Command)
  /-- Asks the broker who is a member of a group for a topic. -/
  | findMembers (topic group : String)
  deriving DecidableEq, Repr

/-- The operation that a command calls. -/
def Command.name : Command → String
  | .persistOffsets => "persist_offsets"
  | .unregister _ => "unregister_consumer"
  | .register _ => "register_consumer"
  | .rebalance => "rebalance"
  | .pause _ => "pause"
  | .resume _ => "resume"

namespace Call

/-- The operation that is called. -/
def name : Call → String
  | .command c => c.name
  | .findMembers .. => "find_consumer_ids"

/-- Whether the call is made in the controller's own scope: a command is, wherever it is called, and
a query is not. -/
def isScoped : Call → Bool
  | .command _ => true
  | .findMembers .. => false

end Call

/-- Who evaluates a consumer. -/
inductive HandlerName where
  | builtin
  | custom (name : String)
  deriving DecidableEq, Repr

/-- The name of a handler. -/
def HandlerName.text : HandlerName → String
  | .builtin => "builtin"
  | .custom name => name

/-- What an event consists of. -/
inductive Occurrence where
  | notice (n : Notice)
  /-- A call into a client, made for the consumer that is the `life`-th one under its identity, and
  whether it succeeded. -/
  | call (client : Client) (life : Nat) (call : Call) (ok : Bool)
  /-- The broker's answer to a query that was accepted: the members of a group for a topic. -/
  | listing (client : Client) (life : Nat) (topic group : String) (members : List String)
  /-- A handler is asked about a consumer, as it is now, under the policy in force. -/
  | evaluation (handler : HandlerName) (trigger : Trigger) (consumer : Consumer) (policy : Policy)
  deriving DecidableEq

/-- The notice that reports an occurrence: the built-in handler reports what it decides. -/
def Occurrence.notice? : Occurrence → Option Notice
  | .notice n => some n
  | .evaluation .builtin trigger c p => some (.evaluated trigger (p.decide c.topics) c.state)
  | _ => none

/-- Whether operators see an occurrence: everything but the answers to queries, of which they see
what they lead to. -/
def Occurrence.isShown : Occurrence → Bool
  | .listing .. => false
  | _ => true

/-- One entry of the record of a run. -/
structure Event where
  time : Nat
  /-- The consumer it is about, if it is about one. -/
  who : Option ConsumerId
  what : Occurrence
  deriving DecidableEq

/-- The record of a run, the latest event first. -/
abbrev Log := List Event

end Embargo
