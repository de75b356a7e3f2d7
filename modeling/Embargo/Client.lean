import Std.Data.ExtTreeMap.Lemmas

/-!
# Clients and their identities

A client is a live consumer as its messaging library presents it.  The controller knows it by a
`ConsumerId`, a 64-bit word that is stable for the life of the client and that is never derived
from the names shown to operators.

* `ConsumerId` — the identity; `ConsumerId.Supply` hands out fresh ones;
* `ConsumerKind` — push clients always subscribe, pull clients choose;
* `Client` — the descriptive facts of one client.
-/

namespace Embargo

/-- The stable identity of one live consumer. -/
structure ConsumerId where
  raw : UInt64
  deriving DecidableEq, Repr, Inhabited

namespace ConsumerId

instance instOrd : Ord ConsumerId where
  compare := compareOn raw

theorem compare_def (a b : ConsumerId) : compare a b = compare a.raw b.raw := rfl

instance : Std.TransOrd ConsumerId :=
  inferInstanceAs (Std.TransCmp (compareOn raw))

instance : Std.LawfulEqOrd ConsumerId where
  eq_of_compare {a b} h := by
    rw [compare_def, Std.LawfulEqOrd.compare_eq_iff_eq] at h
    cases a; cases b; simp_all

/-- How an identity is shown to operators. -/
def display (id : ConsumerId) : String :=
  "consumer-" ++ toString id.raw.toNat

/-- The identity of the object that lives at an address: two handles have the same identity
exactly when they lead to the same object. -/
def ofAddress (address : UInt64) : ConsumerId :=
  ⟨address⟩

/-- Identities that have not been handed out yet: all from `next` on. -/
structure Supply where
  next : UInt64 := 1
  deriving DecidableEq, Repr, Inhabited

/-- A fresh identity, and the supply without it. -/
def Supply.take (s : Supply) : ConsumerId × Supply :=
  (⟨s.next⟩, ⟨s.next + 1⟩)

end ConsumerId

/-- Finite maps from identities, equal when they agree on every identity. -/
abbrev ConsumerMap (α : Type) := Std.ExtTreeMap ConsumerId α

/-- How a consumer receives its messages. -/
inductive ConsumerKind where
  /-- Messages are pushed to it: always a subscribing member of its group. -/
  | push
  /-- It pulls messages, having subscribed or having been assigned queues. -/
  | pull
  deriving DecidableEq, Repr, Inhabited

/-- A live consumer, as its messaging library presents it. -/
structure Client where
  /-- Tells this client from every other one, also from one with the same identity. -/
  handle : String
  id : ConsumerId
  /-- The name shown to operators. -/
  instanceName : String
  /-- The consumer group, if the client can name it. -/
  group? : Option String
  /-- The name under which the broker lists the client among the members of a group. -/
  clientId : String
  kind : ConsumerKind
  deriving DecidableEq, Repr, Inhabited

end Embargo
