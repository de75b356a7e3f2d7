import Std.Data.ExtTreeSet.Lemmas

/-!
# Message queues

A topic is spread over queues; a queue is one numbered part of a topic on one broker.

* `Queue` — topic, broker and number;
* `Queue.instOrd` — queues are ordered by topic, then broker, then number, texts by code point;
* `QueueSet`, `TopicSet` — finite sets that are equal when they have the same members, and that
  list their members in order.
-/

namespace Embargo

/-- One numbered part of a topic on one broker. -/
structure Queue where
  topic : String
  broker : String
  number : UInt32
  deriving DecidableEq, Repr, Inhabited

namespace Queue

/-- Topic first, then broker, then number. -/
instance instOrd : Ord Queue where
  compare := compareLex (compareOn topic) (compareLex (compareOn broker) (compareOn number))

theorem compare_def (a b : Queue) :
    compare a b =
      ((compare a.topic b.topic).then
        ((compare a.broker b.broker).then (compare a.number b.number))) := rfl

instance : Std.TransOrd Queue :=
  inferInstanceAs (Std.TransCmp
    (compareLex (compareOn topic) (compareLex (compareOn broker) (compareOn number))))

instance : Std.LawfulEqOrd Queue where
  eq_of_compare {a b} h := by
    rw [compare_def, Ordering.then_eq_eq, Ordering.then_eq_eq, Std.LawfulEqOrd.compare_eq_iff_eq,
      Std.LawfulEqOrd.compare_eq_iff_eq, Std.LawfulEqOrd.compare_eq_iff_eq] at h
    cases a; cases b; simp_all

/-- How a queue is shown to operators. -/
def display (q : Queue) : String :=
  q.topic ++ "@" ++ q.broker ++ "#" ++ toString q.number.toNat

end Queue

/-- Finite sets of queues. -/
abbrev QueueSet := Std.ExtTreeSet Queue

/-- Finite sets of topic names. -/
abbrev TopicSet := Std.ExtTreeSet String

namespace QueueSet

/-- The set of the queues of a list. -/
def ofList (qs : List Queue) : QueueSet :=
  Std.ExtTreeSet.ofList qs

/-- The topics of the queues of a set. -/
def topics (qs : QueueSet) : TopicSet :=
  Std.ExtTreeSet.ofList (qs.toList.map (·.topic))

end QueueSet

namespace TopicSet

/-- The set of the names of a list. -/
def ofList (ts : List String) : TopicSet :=
  Std.ExtTreeSet.ofList ts

/-- Whether two sets share a name. -/
def meets (a b : TopicSet) : Bool :=
  a.toList.any (b.contains ·)

end TopicSet

/-! ### Membership -/

@[simp] theorem QueueSet.mem_ofList {qs : List Queue} {q : Queue} :
    q ∈ QueueSet.ofList qs ↔ q ∈ qs := by
  simp [QueueSet.ofList, Std.ExtTreeSet.mem_ofList]

@[simp] theorem TopicSet.mem_ofList {ts : List String} {t : String} :
    t ∈ TopicSet.ofList ts ↔ t ∈ ts := by
  simp [TopicSet.ofList, Std.ExtTreeSet.mem_ofList]

@[simp] theorem QueueSet.mem_topics {qs : QueueSet} {t : String} :
    t ∈ qs.topics ↔ ∃ q ∈ qs, q.topic = t := by
  simp [QueueSet.topics, Std.ExtTreeSet.mem_ofList]

@[simp] theorem TopicSet.meets_iff {a b : TopicSet} : a.meets b = true ↔ ∃ t ∈ a, t ∈ b := by
  simp [TopicSet.meets]

end Embargo
