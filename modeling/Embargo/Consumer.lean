import Embargo.Error
import Embargo.Queue
import Embargo.Text.Blank

/-!
# Consumers under control

A consumer is a client that has been taken over, with everything that decisions about it need: what
it consumes, whether it takes part in consumption, and which of its queues are paused.

* `Consumer.wrap` — taking a client over;
* `subscribe`, `unsubscribe`, `assign` — what it consumes; the first of them fixes its mode;
* `transition`, `markPaused`, `markResumed`, `markShutDown` — what happened to it;
* `unpaused`, `stale` — how its assignment differs from what is paused;
* `Status` — what operators see of it.
-/

namespace Embargo

/-- A client that has been taken over. -/
structure Consumer where
  client : Client
  /-- The group it is a member of. -/
  group : String
  mode : Option Mode
  /-- The topics it consumes. -/
  topics : TopicSet
  /-- The queues it was handed; none outside the mode `assign`. -/
  assigned : QueueSet
  /-- The queues that are paused in the client. -/
  paused : QueueSet
  state : Membership
  /-- How often its state has changed, its shutdown included.  The system counts in 64 bits, so what
  is said here is said of consumers that change their state less than `UInt64.size` times. -/
  epoch : Nat
  shutDown : Bool
  /-- When its state last changed. -/
  lastTransition : Option Nat
  deriving DecidableEq

namespace Consumer

/-- Its identity. -/
def id (c : Consumer) : ConsumerId := c.client.id

/-- Takes a client over.  It must name its group and have a client id.  Push clients subscribe; a
pull client has no mode before its first subscription or assignment. -/
def wrap (client : Client) : Except Error Consumer :=
  match client.group?.filter fun g => !Text.isBlankText g with
  | none => .error (.validation (client.id.display ++ " has no consumer group"))
  | some group =>
      if client.clientId.isEmpty then
        .error (.validation (client.id.display ++ " has no client id"))
      else
        .ok
          { client, group
            mode :=
              match client.kind with
              | .push => some .subscribe
              | .pull => none
            topics := ∅
            assigned := ∅
            paused := ∅
            state := .active
            epoch := 0
            shutDown := false
            lastTransition := none }

/-! ### What it consumes -/

/-- Fixes the mode, or refuses when it is fixed to the other one. -/
def claim (c : Consumer) (requested : Mode) : Except Error Consumer :=
  match c.mode with
  | none => .ok { c with mode := some requested }
  | some current =>
      if current = requested then .ok c else .error (.modeConflict c.id current requested)

/-- Adds a topic. -/
def subscribe (c : Consumer) (topic : String) : Except Error Consumer :=
  match c.claim .subscribe with
  | .error e => .error e
  | .ok c => .ok { c with topics := c.topics.insert topic }

/-- Drops a topic.  This fixes no mode. -/
def unsubscribe (c : Consumer) (topic : String) : Except Error Consumer :=
  if c.mode = some .assign then .error (.modeConflict c.id .assign .subscribe)
  else .ok { c with topics := c.topics.erase topic }

/-- Replaces the assigned queues; the topics become theirs.  State and paused queues stay as they
are: the next decision pauses what is new and resumes what is gone. -/
def assign (c : Consumer) (queues : List Queue) : Except Error Consumer :=
  match c.claim .assign with
  | .error e => .error e
  | .ok c =>
      let assigned := QueueSet.ofList queues
      .ok { c with assigned, topics := assigned.topics }

/-! ### Paused queues -/

/-- Whether it is kept from consuming. -/
def isPaused (c : Consumer) : Bool :=
  c.state = .suspended

/-- Assigned queues that the client still consumes from. -/
def unpaused (c : Consumer) : QueueSet :=
  c.assigned \ c.paused

/-- Paused queues that are no longer assigned. -/
def stale (c : Consumer) : QueueSet :=
  c.paused \ c.assigned

/-- Records that the client paused queues. -/
def markPaused (c : Consumer) (queues : List Queue) : Consumer :=
  { c with paused := c.paused.insertMany queues }

/-- Records that the client resumed queues. -/
def markResumed (c : Consumer) (queues : List Queue) : Consumer :=
  { c with paused := queues.foldl (fun s q => s.erase q) c.paused }

/-! ### State -/

/-- Moves to a state at a time. -/
def transition (c : Consumer) (now : Nat) (state : Membership) : Consumer :=
  { c with state, epoch := c.epoch + 1, lastTransition := some now }

/-- Marks it as shut down, after which the outcome of a running confirmation no longer counts. -/
def markShutDown (c : Consumer) : Consumer :=
  { c with shutDown := true, epoch := c.epoch + 1 }

/-! ### What operators see -/

/-- The names under which operators know a consumer. -/
structure Label where
  instanceName : String
  group : String
  deriving DecidableEq, Repr, Inhabited

/-- The names under which operators know it. -/
def label (c : Consumer) : Label :=
  ⟨c.client.instanceName, c.group⟩

/-- A consumer at one point of time, as operators see it. -/
structure Status where
  id : ConsumerId
  instanceName : String
  consumerGroup : String
  kind : ConsumerKind
  mode : Option Mode
  subscribedTopics : List String
  assignedQueues : List Queue
  pausedQueues : List Queue
  state : Membership
  paused : Bool
  lastTransition : Option Nat
  deriving DecidableEq

/-- It, as operators see it. -/
def status (c : Consumer) : Status where
  id := c.id
  instanceName := c.client.instanceName
  consumerGroup := c.group
  kind := c.client.kind
  mode := c.mode
  subscribedTopics := c.topics.toList
  assignedQueues := c.assigned.toList
  pausedQueues := c.paused.toList
  state := c.state
  paused := c.isPaused
  lastTransition := c.lastTransition

/-! ### A client that has just been taken over -/

/-- A client that has been taken over takes part in consumption, consumes nothing yet, and was not
handed any queues. -/
theorem wrap_eq_ok {client : Client} {c : Consumer} (h : wrap client = .ok c) :
    ∃ group mode, mode ≠ some .assign ∧
      c = { client, group, mode, topics := ∅, assigned := ∅, paused := ∅, state := .active,
            epoch := 0, shutDown := false, lastTransition := none } := by
  rw [wrap] at h
  split at h
  · cases h
  · split at h
    · cases h
    · cases h
      refine ⟨_, _, ?_, rfl⟩
      cases client.kind <;> decide

theorem client_of_wrap {client : Client} {c : Consumer} (h : wrap client = .ok c) :
    c.client = client := by
  obtain ⟨group, mode, -, rfl⟩ := wrap_eq_ok h
  rfl

/-! ### Membership in the derived sets -/

@[simp] theorem mem_unpaused {c : Consumer} {q : Queue} :
    q ∈ c.unpaused ↔ q ∈ c.assigned ∧ q ∉ c.paused := by
  simp [unpaused, Std.ExtTreeSet.mem_diff_iff]

@[simp] theorem mem_stale {c : Consumer} {q : Queue} :
    q ∈ c.stale ↔ q ∈ c.paused ∧ q ∉ c.assigned := by
  simp [stale, Std.ExtTreeSet.mem_diff_iff]

@[simp] theorem mem_paused_markPaused {c : Consumer} {qs : List Queue} {q : Queue} :
    q ∈ (c.markPaused qs).paused ↔ q ∈ c.paused ∨ q ∈ qs := by
  simp [markPaused, Std.ExtTreeSet.mem_insertMany_list]

@[simp] theorem mem_paused_markResumed {c : Consumer} {qs : List Queue} {q : Queue} :
    q ∈ (c.markResumed qs).paused ↔ q ∈ c.paused ∧ q ∉ qs := by
  simp only [markResumed]
  generalize c.paused = s
  induction qs generalizing s with
  | nil => simp
  | cons r rs ih =>
    simp only [List.foldl_cons, ih, Std.ExtTreeSet.mem_erase, ne_eq,
      Std.LawfulEqOrd.compare_eq_iff_eq, List.mem_cons]
    simp only [not_or, eq_comm, and_assoc, and_left_comm]

end Consumer

end Embargo
