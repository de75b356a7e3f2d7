import Embargo.Client
import Embargo.Json.Read
import Embargo.Json.Write
import Embargo.Membership
import Embargo.Queue

/-!
# Wire forms

How identities, kinds, modes, states and queues are written as JSON texts, and read back.

Identities are numbers, the enumerations are their names in capitals, and a queue is an object with
the members `topic`, `broker_name` and `queue_id`.
-/

namespace Embargo

/-! ### Identities -/

/-- Writes an identity. -/
def ConsumerId.write (id : ConsumerId) : List Char :=
  Json.natural id.raw.toNat

/-- Reads an identity. -/
def ConsumerId.reader : Json.Reader ConsumerId := fun cs =>
  match Json.unsigned 64 cs with
  | .error e => .error e
  | .ok (n, r) => .ok (⟨UInt64.ofNat n⟩, r)

/-! ### Enumerations -/

/-- The name of a kind on the wire. -/
def ConsumerKind.name : ConsumerKind → String
  | .push => "PUSH"
  | .pull => "PULL"

/-- Writes a kind. -/
def ConsumerKind.write (k : ConsumerKind) : List Char := Json.quote k.name

/-- Reads a kind. -/
def ConsumerKind.reader : Json.Reader ConsumerKind :=
  Json.variant ([.push, .pull].map fun k => (ConsumerKind.name k, k))

/-- Writes a mode. -/
def Mode.write (m : Mode) : List Char := Json.quote m.name

/-- Reads a mode. -/
def Mode.reader : Json.Reader Mode :=
  Json.variant ([.subscribe, .assign].map fun m => (Mode.name m, m))

/-- Writes a membership state. -/
def Membership.write (m : Membership) : List Char := Json.quote m.name

/-- Reads a membership state. -/
def Membership.reader : Json.Reader Membership :=
  Json.variant ([.active, .suspending, .suspended].map fun m => (Membership.name m, m))

/-! ### Queues -/

namespace Queue

/-- Writes a queue. -/
def write (q : Queue) : List Char :=
  Json.object
    [("topic", Json.quote q.topic), ("broker_name", Json.quote q.broker),
     ("queue_id", Json.natural q.number.toNat)]

/-- The members of a queue. -/
def members : List (Json.Member Queue) :=
  [{ name := "topic"
     read := fun q cs =>
       match Json.string cs with
       | .error e => .error e
       | .ok (t, r) => .ok ({ q with topic := t }, r) },
   { name := "broker_name"
     read := fun q cs =>
       match Json.string cs with
       | .error e => .error e
       | .ok (b, r) => .ok ({ q with broker := b }, r) },
   { name := "queue_id"
     read := fun q cs =>
       match Json.unsigned 32 cs with
       | .error e => .error e
       | .ok (n, r) => .ok ({ q with number := UInt32.ofNat n }, r) }]

/-- Reads a queue; no member may be missing. -/
def reader : Json.Reader Queue := fun cs =>
  match Json.record "MessageQueue" members default cs with
  | .error e => .error e
  | .ok (g, r) =>
      match g.lacking? "MessageQueue" members with
      | some p => .error p
      | none => .ok (g.value, r)

end Queue

/-- The text of what was written. -/
def Json.text (cs : List Char) : String := String.ofList cs

end Embargo
