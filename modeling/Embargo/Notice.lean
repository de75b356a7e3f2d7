import Embargo.Consumer

/-!
# Notices to operators

Everything that happens to a consumer is reported.  A notice says what happened; its level, its
wording and its fields follow from that.

* `Notice` — what can be reported, by cause;
* `Notice.level`, `Notice.text`, `Notice.fields` — how it is shown.
-/

namespace Embargo

/-- How much a notice matters. -/
inductive Level where
  | trace
  | debug
  | info
  | warn
  | error
  deriving DecidableEq, Repr

/-- The name of a level. -/
def Level.name : Level → String
  | .trace => "TRACE"
  | .debug => "DEBUG"
  | .info => "INFO"
  | .warn => "WARN"
  | .error => "ERROR"

/-- The value of a field of a notice. -/
inductive FieldValue where
  | text (s : String)
  | number (n : Nat)
  | flag (b : Bool)
  deriving DecidableEq, Repr

/-- What can be reported. -/
inductive Notice where
  -- configuration
  | configRefused (error : Error)
  -- lifecycle
  | hookSkipped (hook : String)
  | notWrapped (instanceName : String) (error : Error)
  | startedTwice
  | started (label : Consumer.Label)
  | topicMissing (hook : String)
  | queueTopicMissing
  | changeAfterShutdown (trigger : Trigger)
  | changeRefused (trigger : Trigger) (error : Error)
  | changeCached (trigger : Trigger)
  | cachedChangeDropped (error : Error)
  | removed (label : Consumer.Label)
  | unknownShutdown
  -- policies
  | policyUpdated (enabled : Bool)
  | sweepStarted (consumers : Nat)
  | sweepPassedOver
  | evaluated (trigger : Trigger) (decision : Decision) (state : Membership)
  -- suspension
  | nothingToSuspend
  | alreadySuspended (label : Consumer.Label)
  | alreadySuspending
  | offsetsNotPersisted (group : String) (error : Error)
  | groupNotLeft (group : String) (error : Error)
  | rebalanceAfterLeavingFailed (group : String) (error : Error)
  | groupLeft (label : Consumer.Label)
  | queuesAlreadyPaused
  | queuesNotPaused (error : Error)
  | staleQueuesNotResumed (error : Error)
  | suspended (label : Consumer.Label)
  -- resumption
  | nothingToResume
  | alreadyActive (label : Consumer.Label)
  | groupNotRejoined (group : String) (error : Error)
  | rebalanceAfterRejoiningFailed (group : String) (error : Error)
  | noQueuesPaused
  | queuesNotResumed (error : Error)
  | resumed (label : Consumer.Label)
  -- confirmation
  | queryFailed (topic : String) (error : Error)
  | stillListed (clientId group : String) (attempt : Nat)
  | confirmationDiscarded
  | confirmationTimedOut (label : Consumer.Label) (retries : Nat)
  | rollbackFailed (group : String) (error : Error)
  | rebalanceAfterRollbackFailed (error : Error)
  | rolledBack (label : Consumer.Label)
  deriving DecidableEq

namespace Notice

/-- How much it matters. -/
def level : Notice → Level
  | .hookSkipped _ => .trace
  | .started _ | .removed _ | .policyUpdated _ | .groupLeft _ | .suspended _ | .resumed _
  | .rolledBack _ => .info
  | .configRefused _ | .changeRefused .. | .cachedChangeDropped _ | .offsetsNotPersisted ..
  | .groupNotLeft .. | .rebalanceAfterLeavingFailed .. | .queuesNotPaused _
  | .staleQueuesNotResumed _ | .groupNotRejoined .. | .rebalanceAfterRejoiningFailed ..
  | .queuesNotResumed _ | .rebalanceAfterRollbackFailed _ => .warn
  | .notWrapped .. | .confirmationTimedOut .. | .rollbackFailed .. => .error
  | _ => .debug

/-- What it says. -/
def text : Notice → String
  | .configRefused _ => "Invalid prohibition controller configuration, using defaults"
  | .hookSkipped hook => "Skipping " ++ hook ++ " hook triggered by the controller"
  | .notWrapped .. => "Fail to cache consumer"
  | .startedTwice => "Consumer started twice, re-evaluating registered instance"
  | .started _ => "Success to cache consumer"
  | .topicMissing hook => "Ignoring " ++ hook ++ " without a topic"
  | .queueTopicMissing => "Ignoring assign with a queue lacking a topic"
  | .changeAfterShutdown _ => "Ignoring event for a shut down consumer"
  | .changeRefused .. => "Ignoring lifecycle event"
  | .changeCached _ => "Consumer not started yet, cached event"
  | .cachedChangeDropped _ => "Dropping cached lifecycle event"
  | .removed _ => "Success to remove consumer"
  | .unknownShutdown => "Shutdown of unknown consumer"
  | .policyUpdated _ => "Prohibition policy updated"
  | .sweepStarted _ => "Re-evaluating registered consumers"
  | .sweepPassedOver => "Skipping consumer shut down during policy sweep"
  | .evaluated .. => "Evaluated consumer against prohibition policy"
  | .nothingToSuspend =>
      "Consumer has neither subscribed nor been assigned queues, nothing to suspend"
  | .alreadySuspended _ => "Consumer has prohibited consumption"
  | .alreadySuspending => "Consumer is already leaving its group, awaiting confirmation"
  | .offsetsNotPersisted .. => "Failed to persist offsets, consumption not prohibited"
  | .groupNotLeft .. => "Failed to leave consumer group, consumption not prohibited"
  | .rebalanceAfterLeavingFailed .. =>
      "Rebalance after leaving group failed, queues are released on broker timeout"
  | .groupLeft _ => "Consumer left its group, confirming exit"
  | .queuesAlreadyPaused => "Assigned queues are already paused"
  | .queuesNotPaused _ => "Failed to pause assigned queues, consumption not prohibited"
  | .staleQueuesNotResumed _ => "Failed to resume queues no longer assigned"
  | .suspended _ => "Success to prohibit consumption"
  | .nothingToResume =>
      "Consumer has neither subscribed nor been assigned queues, nothing to resume"
  | .alreadyActive _ => "Consumer has opened consumption"
  | .groupNotRejoined .. => "Failed to rejoin consumer group, consumption stays prohibited"
  | .rebalanceAfterRejoiningFailed .. => "Rebalance after rejoining group failed"
  | .noQueuesPaused => "Assigned queues are not paused"
  | .queuesNotResumed _ => "Failed to resume paused queues, consumption stays prohibited"
  | .resumed _ => "Success to open consumption"
  | .queryFailed .. => "Failed to query group members"
  | .stillListed .. => "Consumer still listed in group"
  | .confirmationDiscarded => "Consumer changed while confirming group exit, discarding result"
  | .confirmationTimedOut .. =>
      "Consumer exiting the consumer group timed out, failed to prohibit consumption. Please deliver the configuration again"
  | .rollbackFailed .. => "Failed to re-register consumer after confirmation timeout"
  | .rebalanceAfterRollbackFailed _ => "Rebalance after re-registering failed"
  | .rolledBack _ => "Consumer rejoined its group after failed suspension"

/-- The fields that show an error. -/
def errorField (e : Error) : List (String × FieldValue) :=
  [("error", .text e.message)]

/-- The fields that show a group and an error. -/
def groupFields (group : String) (e : Error) : List (String × FieldValue) :=
  [("group", .text group), ("error", .text e.message)]

/-- The fields that show the names of a consumer. -/
def labelFields (l : Consumer.Label) : List (String × FieldValue) :=
  [("instance", .text l.instanceName), ("group", .text l.group)]

/-- Its fields. -/
def fields : Notice → List (String × FieldValue)
  | .configRefused e => errorField e
  | .notWrapped name e => [("instance", .text name), ("error", .text e.message)]
  | .started l | .removed l | .alreadySuspended l | .groupLeft l | .suspended l
  | .alreadyActive l | .resumed l | .rolledBack l => labelFields l
  | .changeAfterShutdown t | .changeCached t => [("trigger", .text t.name)]
  | .changeRefused t e => [("trigger", .text t.name), ("error", .text e.message)]
  | .cachedChangeDropped e | .queuesNotPaused e | .staleQueuesNotResumed e | .queuesNotResumed e
  | .rebalanceAfterRollbackFailed e => errorField e
  | .policyUpdated enabled => [("enabled", .flag enabled)]
  | .sweepStarted n => [("consumers", .number n)]
  | .evaluated t d s =>
      [("trigger", .text t.name), ("decision", .text d.name), ("state", .text s.name)]
  | .offsetsNotPersisted g e | .groupNotLeft g e | .rebalanceAfterLeavingFailed g e
  | .groupNotRejoined g e | .rebalanceAfterRejoiningFailed g e | .rollbackFailed g e =>
      groupFields g e
  | .queryFailed topic e => [("topic", .text topic), ("error", .text e.message)]
  | .stillListed clientId group attempt =>
      [("client_id", .text clientId), ("group", .text group), ("attempt", .number attempt)]
  | .confirmationTimedOut l retries => labelFields l ++ [("retries", .number retries)]
  | _ => []

end Notice

end Embargo
