import Embargo.Environment

/-!
# Handlers

A handler decides what happens to a consumer after every event that concerns it.  The built-in
handler decides by the policy in force.  Any other one may look at the consumer and the policy, and
at whatever it remembers, and drive the consumer as often as it likes, looking again each time.

* `Plan` — what a handler does with a consumer;
* `Handler` — the built-in one, and custom ones.
-/

namespace Embargo

/-- What a handler does with a consumer: drives it, looks at it again, and goes on. -/
inductive Plan where
  | stop
  | drive (decision : Decision) (next : Consumer → Plan)

/-- What decides about consumers; a custom handler shares the memory of the environment. -/
inductive Handler (ω : Type) where
  | builtin
  | custom (name : String) (choose : ω → Trigger → Consumer → Policy → Plan × ω)

namespace Handler

variable {ω : Type}

/-- The name of a handler. -/
def name : Handler ω → HandlerName
  | .builtin => .builtin
  | .custom n _ => .custom n

/-- What the handler does with a consumer; the built-in one drives it once, as the policy wants. -/
def plan (h : Handler ω) (memory : ω) (trigger : Trigger) (c : Consumer) (p : Policy) : Plan × ω :=
  match h with
  | .builtin => (.drive (p.decide c.topics) fun _ => .stop, memory)
  | .custom _ choose => choose memory trigger c p

/-- A custom handler that drives every consumer once. -/
def always (name : String) (decide : Consumer → Policy → Decision) : Handler ω :=
  .custom name fun memory _ c p => (.drive (decide c p) fun _ => .stop, memory)

/-- A custom handler that does nothing. -/
def idle (name : String) : Handler ω :=
  .custom name fun memory _ _ _ => (.stop, memory)

end Handler

end Embargo
