import Embargo.Program

/-!
# Transitions of a consumer

What has to be called, and in which order, to suspend or to resume a consumer.  A failing call ends
the transition and leaves the consumer as it was; only rebalancing, and the release of queues that
are no longer assigned, may fail without consequences.  Every call is made in the controller's own
scope.

```text
subscribe:  active -> persist offsets -> leave the group -> rebalance -> suspending
            suspending, suspended -> rejoin the group -> rebalance -> active
assign:     pause what is assigned and not paused -> resume what is stale -> suspended
            resume all that is paused -> active
```

* `Consumer.suspend`, `Consumer.resume`, `Consumer.drive` — the transitions;
* `Consumer.rollBack` — back into the group after an exit that was not confirmed.
-/

namespace Embargo

/-- What a transition leads to. -/
structure Outcome where
  consumer : Consumer
  /-- Whether the consumer has just left its group, which has to be confirmed. -/
  leaving : Bool := false

namespace Consumer

open Program (controllerCall perform report reportFailure)

/-- Suspends a subscribing consumer. -/
def suspendSubscribed (now : Nat) (c : Consumer) : Program Outcome :=
  match c.state with
  | .suspended => do
      report (.alreadySuspended c.label)
      return { consumer := c }
  | .suspending => do
      report .alreadySuspending
      return { consumer := c }
  | .active => do
      match ← controllerCall (perform .persistOffsets) with
      | .error e =>
          report (.offsetsNotPersisted c.group e)
          return { consumer := c }
      | .ok () =>
          match ← controllerCall (perform (.unregister c.group)) with
          | .error e =>
              report (.groupNotLeft c.group e)
              return { consumer := c }
          | .ok () =>
              let rebalanced ← controllerCall (perform .rebalance)
              reportFailure (.rebalanceAfterLeavingFailed c.group) rebalanced
              report (.groupLeft c.label)
              return { consumer := c.transition now .suspending, leaving := true }

/-- Resumes queues that were paused and are no longer assigned. -/
def releaseStale (stale : List Queue) (c : Consumer) : Program Consumer :=
  if stale.isEmpty then return c
  else do
    match ← controllerCall (perform (.resume stale)) with
    | .error e =>
        report (.staleQueuesNotResumed e)
        return c
    | .ok () => return c.markResumed stale

/-- Enters the suspended state, unless it is in it. -/
def settle (now : Nat) (c : Consumer) : Consumer :=
  if c.state = .suspended then c else c.transition now .suspended

/-- What remains of a suspension once all assigned queues are paused. -/
def suspendPaused (now : Nat) (stale : List Queue) (c : Consumer) : Program Outcome := do
  let c ← c.releaseStale stale
  report (.suspended c.label)
  return { consumer := c.settle now }

/-- Suspends a consumer with assigned queues. -/
def suspendAssigned (now : Nat) (c : Consumer) : Program Outcome :=
  let unpaused := c.unpaused.toList
  let stale := c.stale.toList
  if unpaused.isEmpty && stale.isEmpty && c.isPaused then do
    report .queuesAlreadyPaused
    return { consumer := c }
  else if unpaused.isEmpty then c.suspendPaused now stale
  else do
    match ← controllerCall (perform (.pause unpaused)) with
    | .error e =>
        report (.queuesNotPaused e)
        return { consumer := c }
    | .ok () => (c.markPaused unpaused).suspendPaused now stale

/-- Withdraws a consumer from consumption. -/
def suspend (now : Nat) (c : Consumer) : Program Outcome :=
  match c.mode with
  | some .subscribe => c.suspendSubscribed now
  | some .assign => c.suspendAssigned now
  | none => do
      report .nothingToSuspend
      return { consumer := c }

/-- Resumes a subscribing consumer. -/
def resumeSubscribed (now : Nat) (c : Consumer) : Program Outcome :=
  if c.state = .active then do
    report (.alreadyActive c.label)
    return { consumer := c }
  else do
    match ← controllerCall (perform (.register c.group)) with
    | .error e =>
        report (.groupNotRejoined c.group e)
        return { consumer := c }
    | .ok () =>
        let rebalanced ← controllerCall (perform .rebalance)
        reportFailure (.rebalanceAfterRejoiningFailed c.group) rebalanced
        report (.resumed c.label)
        return { consumer := c.transition now .active }

/-- Resumes a consumer with assigned queues. -/
def resumeAssigned (now : Nat) (c : Consumer) : Program Outcome :=
  let paused := c.paused.toList
  if paused.isEmpty then
    if c.isPaused then do
      report (.resumed c.label)
      return { consumer := c.transition now .active }
    else do
      report .noQueuesPaused
      return { consumer := c }
  else do
    match ← controllerCall (perform (.resume paused)) with
    | .error e =>
        report (.queuesNotResumed e)
        return { consumer := c }
    | .ok () =>
        report (.resumed c.label)
        return { consumer := (c.markResumed paused).transition now .active }

/-- Returns a consumer to consumption. -/
def resume (now : Nat) (c : Consumer) : Program Outcome :=
  match c.mode with
  | some .subscribe => c.resumeSubscribed now
  | some .assign => c.resumeAssigned now
  | none => do
      report .nothingToResume
      return { consumer := c }

/-- Drives a consumer to what was decided. -/
def drive (now : Nat) (decision : Decision) (c : Consumer) : Program Outcome :=
  match decision with
  | .suspend => c.suspend now
  | .resume => c.resume now

/-- Rejoins the group after an exit that was not confirmed.  A consumer that cannot rejoin stays
out of its group, and counts as suspended. -/
def rollBack (now : Nat) (c : Consumer) : Program Consumer := do
  match ← controllerCall (perform (.register c.group)) with
  | .error e =>
      report (.rollbackFailed c.group e)
      return c.transition now .suspended
  | .ok () =>
      let rebalanced ← controllerCall (perform .rebalance)
      reportFailure .rebalanceAfterRollbackFailed rebalanced
      report (.rolledBack c.label)
      return c.transition now .active

end Consumer

end Embargo
