import Embargo.Consumer

/-!
# Changes of what a consumer consumes, and the cache for those that come too early

Some clients report subscriptions and assignments before they have started.  Such changes are kept
in a cache, in the order in which they came, and applied when the client starts.

* `Change` — one change, `Consumer.apply` — its effect;
* `Consumer.replay` — many changes, those that do not fit the mode left out;
* `Cache` — the changes that wait, by consumer: `record`, `drain`, and the two views
  `subscribedTopics?` and `assignedQueues?` of what they amount to so far.
-/

namespace Embargo

/-- A change of what a consumer consumes. -/
inductive Change where
  | subscribe (topic : String)
  | unsubscribe (topic : String)
  | assign (queues : List Queue)
  deriving DecidableEq, Repr

/-- The event after which a consumer is evaluated when the change has been applied. -/
def Change.trigger : Change → Trigger
  | .subscribe _ => .subscribe
  | .unsubscribe _ => .unsubscribe
  | .assign _ => .assign

namespace Consumer

/-- Applies a change. -/
def apply (c : Consumer) : Change → Except Error Consumer
  | .subscribe topic => c.subscribe topic
  | .unsubscribe topic => c.unsubscribe topic
  | .assign queues => c.assign queues

/-- Applies changes in their order and leaves those out that fail; what became of each. -/
def replay (c : Consumer) : List Change → Consumer × List (Except Error Unit)
  | [] => (c, [])
  | change :: rest =>
      match c.apply change with
      | .error e =>
          let (c, results) := c.replay rest
          (c, .error e :: results)
      | .ok c =>
          let (c, results) := c.replay rest
          (c, .ok () :: results)

/-- Claiming a mode that is granted fixes that mode, and touches nothing else. -/
theorem claim_eq_ok {c c' : Consumer} {m : Mode} (h : c.claim m = .ok c') :
    c' = { c with mode := some m } ∧ (c.mode = none ∨ c.mode = some m) := by
  rw [claim] at h
  cases hmode : c.mode with
  | none =>
    rw [hmode] at h
    cases h
    exact ⟨rfl, .inl rfl⟩
  | some current =>
    rw [hmode] at h
    dsimp only at h
    by_cases hm : current = m
    · subst hm
      rw [if_pos rfl] at h
      cases h
      exact ⟨by rw [← hmode], .inr rfl⟩
    · rw [if_neg hm] at h
      cases h

/-- A change touches nothing but what the consumer consumes, and its mode when that is not fixed
yet. -/
theorem apply_frame {c c' : Consumer} {change : Change} (h : c.apply change = .ok c') :
    ∃ mode topics assigned, c' = { c with mode, topics, assigned } ∧
      (c.mode = none ∨ mode = c.mode) := by
  cases change with
  | subscribe topic =>
    rw [apply, subscribe] at h
    cases hclaim : c.claim .subscribe with
    | error e => rw [hclaim] at h; cases h
    | ok c₁ =>
      rw [hclaim] at h
      cases h
      obtain ⟨rfl, hmode⟩ := claim_eq_ok hclaim
      exact ⟨_, _, _, rfl, hmode.imp_right Eq.symm⟩
  | unsubscribe topic =>
    rw [apply, unsubscribe] at h
    split at h
    · cases h
    · cases h
      exact ⟨_, _, _, rfl, .inr rfl⟩
  | assign queues =>
    rw [apply, assign] at h
    cases hclaim : c.claim .assign with
    | error e => rw [hclaim] at h; cases h
    | ok c₁ =>
      rw [hclaim] at h
      cases h
      obtain ⟨rfl, hmode⟩ := claim_eq_ok hclaim
      exact ⟨_, _, _, rfl, hmode.imp_right Eq.symm⟩

/-- A consumer that has no mode after a change had none before, and has no more topics. -/
theorem apply_modeless {c c' : Consumer} {change : Change} (h : c.apply change = .ok c')
    (hmode : c'.mode = none) : c.mode = none ∧ ∀ t ∈ c'.topics, t ∈ c.topics := by
  cases change with
  | subscribe topic =>
    rw [apply, subscribe] at h
    cases hclaim : c.claim .subscribe with
    | error e => rw [hclaim] at h; cases h
    | ok c₁ =>
      rw [hclaim] at h
      cases h
      rw [(claim_eq_ok hclaim).1] at hmode
      cases hmode
  | unsubscribe topic =>
    rw [apply, unsubscribe] at h
    split at h
    · cases h
    · cases h
      exact ⟨hmode, fun t ht => (Std.ExtTreeSet.mem_erase.1 ht).2⟩
  | assign queues =>
    rw [apply, assign] at h
    cases hclaim : c.claim .assign with
    | error e => rw [hclaim] at h; cases h
    | ok c₁ =>
      rw [hclaim] at h
      cases h
      rw [(claim_eq_ok hclaim).1] at hmode
      cases hmode

end Consumer

/-- The changes that wait for their consumers to start. -/
structure Cache where
  entries : ConsumerMap (List Change) := ∅

namespace Cache

/-- The empty cache. -/
def empty : Cache := {}

instance : Inhabited Cache := ⟨empty⟩

/-- The changes that wait for a consumer. -/
def get? (s : Cache) (id : ConsumerId) : Option (List Change) :=
  s.entries[id]?

/-- Adds a change at the end. -/
def record (s : Cache) (id : ConsumerId) (change : Change) : Cache :=
  { entries := s.entries.insert id ((s.get? id).getD [] ++ [change]) }

/-- Takes all changes of a consumer out. -/
def drain (s : Cache) (id : ConsumerId) : Option (List Change) × Cache :=
  (s.get? id, { entries := s.entries.erase id })

/-- Whether changes wait for a consumer. -/
def contains (s : Cache) (id : ConsumerId) : Bool :=
  s.entries.contains id

/-- The number of consumers that changes wait for. -/
def size (s : Cache) : Nat :=
  s.entries.size

/-- Whether no changes wait. -/
def isEmpty (s : Cache) : Bool :=
  s.entries.isEmpty

/-- The consumers that changes wait for, with their changes, in order. -/
def toList (s : Cache) : List (ConsumerId × List Change) :=
  s.entries.toList

/-- The topics after one more change; assignments do not count. -/
def topicsAfter (topics : TopicSet) : Change → TopicSet
  | .subscribe topic => topics.insert topic
  | .unsubscribe topic => topics.erase topic
  | .assign _ => topics

/-- The topics subscribed so far. -/
def subscribedTopics? (s : Cache) (id : ConsumerId) : Option TopicSet :=
  (s.get? id).map fun changes => changes.foldl topicsAfter ∅

/-- The queues of an assignment. -/
def queuesOf? : Change → Option (List Queue)
  | .assign queues => some queues
  | _ => none

/-- The latest assignment so far. -/
def assignedQueues? (s : Cache) (id : ConsumerId) : Option (List Queue) :=
  (s.get? id).bind fun changes => changes.reverse.findSome? queuesOf?

/-! ### What waits after each operation -/

@[simp] theorem get?_empty (id : ConsumerId) : empty.get? id = none := by
  simp [get?, empty]

theorem get?_record (s : Cache) (id id' : ConsumerId) (c : Change) :
    (s.record id c).get? id' =
      if id = id' then some ((s.get? id).getD [] ++ [c]) else s.get? id' := by
  simp [get?, record, Std.ExtTreeMap.getElem?_insert]

@[simp] theorem drain_fst (s : Cache) (id : ConsumerId) : (s.drain id).1 = s.get? id := rfl

theorem get?_drain (s : Cache) (id id' : ConsumerId) :
    (s.drain id).2.get? id' = if id = id' then none else s.get? id' := by
  simp [get?, drain, Std.ExtTreeMap.getElem?_erase]

end Cache

end Embargo
