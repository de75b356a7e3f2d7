import Embargo.Error
import Embargo.Json.Read
import Embargo.Json.Write
import Embargo.Queue
import Embargo.Text.Blank

/-!
# Prohibition policies

An operator says which topics must not be consumed, and whether that is in force at all.

* `Policy` — the two facts;
* `Policy.normalized` — topic names without blanks at their ends, blank names dropped;
* `Policy.decide` — what the policy wants of a consumer with given topics;
* `Policy.ofDocument` and `Policy.toDocument` — its JSON text;
* `Policy.Store` — the policy in force.
-/

namespace Embargo

/-- Which topics must not be consumed. -/
structure Policy where
  /-- Whether the prohibition is in force. -/
  enabled : Bool
  topics : TopicSet
  deriving DecidableEq

namespace Policy

/-- The policy that prohibits nothing. -/
def disabled : Policy := ⟨false, ∅⟩

instance : Inhabited Policy := ⟨disabled⟩

/-- The names without blanks at their ends, in their order, blank ones dropped. -/
def cleanNames (names : List String) : List String :=
  (names.map Text.trim).filter fun t => !t.isEmpty

/-- The policy with its topic names cleaned. -/
def normalized (p : Policy) : Policy :=
  { p with topics := TopicSet.ofList (cleanNames p.topics.toList) }

/-- An enabled policy for the given names. -/
def prohibiting (names : List String) : Policy :=
  normalized ⟨true, TopicSet.ofList names⟩

/-- The policy, put in force or not. -/
def withEnabled (p : Policy) (enabled : Bool) : Policy :=
  { p with enabled }

/-- Whether a topic is prohibited now. -/
def prohibits (p : Policy) (topic : String) : Bool :=
  p.enabled && p.topics.contains topic

/-- A consumer is to be suspended when a topic of its own is prohibited. -/
def decide (p : Policy) (topics : TopicSet) : Decision :=
  if p.enabled && topics.meets p.topics then .suspend else .resume

/-! ### Documents -/

/-- The members of a policy document. -/
def members : List (Json.Member Policy) :=
  [{ name := "enabled"
     read := fun p cs =>
       match Json.boolean cs with
       | .error e => .error e
       | .ok (b, r) => .ok ({ p with enabled := b }, r) },
   { name := "prohibitedTopics"
     read := fun p cs =>
       match Json.list Json.string cs with
       | .error e => .error e
       | .ok (names, r) => .ok ({ p with topics := TopicSet.ofList names }, r) }]

/-- Reads a policy as it is written; missing members are those of the disabled policy. -/
def reader : Json.Reader Policy := fun cs =>
  match Json.record "ProhibitionPolicy" members disabled cs with
  | .error e => .error e
  | .ok (g, r) => .ok (g.value, r)

/-- The normalized policy of a document. -/
def ofDocument (text : String) : Except Error Policy :=
  match Json.parse reader text with
  | .error p => .error (.policy p.message)
  | .ok p => .ok p.normalized

/-- The characters of the document of a policy that lists its topics in the given order. -/
def documentChars (enabled : Bool) (topics : List String) : List Char :=
  Json.object
    [("enabled", Json.truth enabled), ("prohibitedTopics", Json.array (topics.map Json.quote))]

/-- The document of a policy, its topics in order. -/
def toDocument (p : Policy) : String :=
  String.ofList (documentChars p.enabled p.topics.toList)

/-! ### The policy in force -/

/-- The holder of the policy in force. -/
structure Store where
  current : Policy := disabled
  deriving DecidableEq, Inhabited

/-- Puts a policy in force; the one that was in force before. -/
def Store.replace (s : Store) (p : Policy) : Policy × Store :=
  (s.current, { current := p })

/-! ### Small facts -/

theorem decide_eq_suspend_iff {p : Policy} {topics : TopicSet} :
    p.decide topics = .suspend ↔ p.enabled = true ∧ ∃ t ∈ topics, t ∈ p.topics := by
  simp [decide]

theorem mem_normalized {p : Policy} {t : String} :
    t ∈ p.normalized.topics ↔ t ≠ "" ∧ ∃ u ∈ p.topics, Text.trim u = t := by
  simp only [normalized, cleanNames, TopicSet.mem_ofList, List.mem_filter, List.mem_map,
    Std.ExtTreeSet.mem_toList, Bool.not_eq_true', String.isEmpty_iff, ne_eq, ← Bool.not_eq_true]
  exact And.comm

@[simp] theorem normalized_enabled (p : Policy) : p.normalized.enabled = p.enabled := rfl

end Policy

end Embargo
