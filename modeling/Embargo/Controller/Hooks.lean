import Embargo.Controller.Evaluation

/-!
# Hooks

What the controller does when something is delivered to it, in a task.

* `startWith`, `shutdownIn` — a client comes and goes;
* `changeWith` — a client changes what it consumes: applied when it is registered, cached when not;
* `lifecycleWith` — what a client reports, topic names without blanks at their ends;
* `updatePolicyWith`, `updatePolicyDocumentWith` — a new policy, and a sweep over all consumers;
* `deliverWith` — any hook.

How decisions are carried out is left open in all of them.  `entrance` closes the circle: hooks from
inside calls take effect in their task, where decisions are carried out by calls from inside which
other hooks get in.

* `drive`, `evaluate`, `start`, `change`, … — the same outside of all calls;
* `receive` — any hook, with a record of what was received.
-/

namespace Embargo.Controller

variable {ω : Type}

/-! ### Coming and going -/

/-- Applies changes that were cached to the registered consumer; those that do not fit are
reported. -/
def replay (id : ConsumerId) (changes : List Change) (s : State ω) : State ω :=
  match s.consumer? id with
  | none => s
  | some c =>
      let (c, results) := c.replay changes
      results.foldl
        (fun s r =>
          match r with
          | .error e => s.report id (.cachedChangeDropped e)
          | .ok () => s)
        (s.put id c)

/-- Takes the cached changes of a consumer out. -/
def drain (id : ConsumerId) (s : State ω) : Option (List Change) × State ω :=
  let (changes, cache) := s.cache.drain id
  (changes, { s with cache })

/-- A client has started: it is taken over and registered, the changes that waited for it are
applied, and it is evaluated.  One that is registered already is only evaluated again. -/
def startWith (k : Controller ω) (drive : Drive ω) (task : Task) (client : Client) :
    State ω → State ω :=
  task.guarded LifecycleEvent.start.name fun s =>
    match Consumer.wrap client with
    | .error e => s.report client.id (.notWrapped client.instanceName e)
    | .ok c =>
        match s.registry.register client.id c with
        | (some _, _) =>
            task.locking client.id (k.evaluateWith drive .start client.id)
              (s.report client.id .startedTwice)
        | (none, registry) =>
            let (changes, s) := drain client.id { s with registry }
            let s := replay client.id (changes.getD []) s
            k.evaluateWith drive .start client.id (s.report client.id (.started c.label))

/-- A consumer is removed: what waits for it is dropped, and it is marked.  The consumer that was
removed, if there was one. -/
def remove (task : Task) (id : ConsumerId) (s : State ω) : Option Consumer × State ω :=
  let (_, s) := drain id s
  match s.registry.remove id with
  | (none, _) => (none, s.report id .unknownShutdown)
  | (some c, registry) =>
      (some c.markShutDown,
        task.locking id
          (fun s => { s with departed := s.departedWith id c }.report id (.removed c.label))
          { s with registry })

/-- A client is shut down, and its consumer removed. -/
def shutdownIn (task : Task) (client : Client) : State ω → State ω :=
  task.guarded LifecycleEvent.shutdown.name fun s => (remove task client.id s).2

/-! ### Changes of what a consumer consumes -/

/-- A rival of a hook registers the consumer, unless somebody else was faster. -/
def letIn (s : State ω) (rival : Rival) : State ω :=
  match Consumer.wrap rival.client with
  | .error _ => s
  | .ok c =>
      let s := { s with registry := (s.registry.register rival.client.id c).2 }
      if rival.drains then (drain rival.client.id s).2 else s

/-- The rivals that wait for a consumer come in, one after the other, and wait no longer. -/
def letRivalsIn (id : ConsumerId) (s : State ω) : State ω :=
  let (due, rest) := s.rivals.partition fun rival => rival.client.id = id
  due.foldl letIn { s with rivals := rest }

/-- A change is applied to the registered consumer, which is then evaluated.  Without a registered
consumer it is cached; should the consumer have been registered in the meantime, what is cached is
applied now. -/
def changeWith (k : Controller ω) (drive : Drive ω) (task : Task) (id : ConsumerId) (c : Change)
    (s : State ω) : State ω :=
  match s.consumer? id with
  | some consumer =>
      task.locking id (fun s =>
        if consumer.shutDown then s.report id (.changeAfterShutdown c.trigger)
        else
          match consumer.apply c with
          | .error e => s.report id (.changeRefused c.trigger e)
          | .ok consumer => k.evaluateWith drive c.trigger id (s.put id consumer)) s
  | none =>
      let s := { s with cache := s.cache.record id c }
      let s := letRivalsIn id (s.report id (.changeCached c.trigger))
      match s.consumer? id with
      | none => s
      | some _ =>
          task.locking id (fun s =>
            match drain id s with
            | (none, s) => s
            | (some changes, s) => k.evaluateWith drive c.trigger id (replay id changes s)) s

/-- What a client reports.  Reports without a topic are ignored. -/
def lifecycleWith (k : Controller ω) (drive : Drive ω) (task : Task) (client : Client)
    (e : LifecycleEvent) : State ω → State ω :=
  match e with
  | .start => k.startWith drive task client
  | .subscribe topic =>
      task.guarded e.name fun s =>
        if Text.isBlankText topic then s.report client.id (.topicMissing e.name)
        else k.changeWith drive task client.id (.subscribe (Text.trim topic)) s
  | .unsubscribe topic =>
      task.guarded e.name fun s =>
        if Text.isBlankText topic then s.report client.id (.topicMissing e.name)
        else k.changeWith drive task client.id (.unsubscribe (Text.trim topic)) s
  | .assign queues =>
      task.guarded e.name fun s =>
        if queues.any fun q => Text.isBlankText q.topic then s.report client.id .queueTopicMissing
        else k.changeWith drive task client.id (.assign queues) s
  | .shutdown => shutdownIn task client

/-! ### Policies -/

/-- Evaluates a consumer in a sweep, unless it is shut down. -/
def revisitWith (k : Controller ω) (drive : Drive ω) (task : Task) (s : State ω)
    (id : ConsumerId) : State ω :=
  task.locking id (fun s =>
    match s.consumer? id with
    | none => s
    | some c =>
        if c.shutDown then s.report id .sweepPassedOver
        else k.evaluateWith drive .policyUpdate id s) s

/-- Evaluates consumers one after the other.  One that the task holds keeps it for ever, but not
from the others. -/
def sweepWith (k : Controller ω) (drive : Drive ω) (task : Task) (ids : List ConsumerId)
    (s : State ω) : State ω :=
  ids.foldl (k.revisitWith drive task) s

/-- Puts a policy in force. -/
def install (p : Policy) (s : State ω) : State ω :=
  let p := p.normalized
  let s := s.happen none (.notice (.policyUpdated p.enabled))
  { s with policy := (s.policy.replace p).2 }

/-- A new policy: it is put in force, and every registered consumer is evaluated.  This hook is not
guarded. -/
def updatePolicyWith (k : Controller ω) (drive : Drive ω) (task : Task) (p : Policy)
    (s : State ω) : State ω :=
  let s := install p s
  let s := s.happen none (.notice (.sweepStarted s.registry.size))
  k.sweepWith drive task (k.sweepOrder s.sweeps s.registry.ids) { s with sweeps := s.sweeps + 1 }

/-- A new policy as a document; one that cannot be read changes nothing. -/
def updatePolicyDocumentWith (k : Controller ω) (drive : Drive ω) (task : Task) (text : String)
    (s : State ω) : Except Error Unit × State ω :=
  match Policy.ofDocument text with
  | .error e => (.error e, s)
  | .ok p => (.ok (), k.updatePolicyWith drive task p s)

/-! ### Any hook -/

/-- What is delivered in a task takes effect. -/
def deliverWith (k : Controller ω) (drive : Drive ω) (task : Task) (s : State ω) : Hook → State ω
  | .lifecycle client e => k.lifecycleWith drive task client e s
  | .policyUpdate p => k.updatePolicyWith drive task p s
  | .policyDelivery p => k.updatePolicyWith drive task p s
  | .policyDocument text => (k.updatePolicyDocumentWith drive task text s).2

/-- How hooks get in from inside calls, as long as these are no deeper inside each other than so
many. -/
def entrance (k : Controller ω) : (depth : Nat) → Entrance ω
  | 0, _, s, _ => { s with stuck := true }
  | depth + 1, task, s, h => k.deliverWith (k.driveIn (entrance k depth) task) task s h

/-! ### Outside of all calls -/

/-- How deep calls can be inside each other: each of them holds another consumer. -/
def depth (s : State ω) : Nat :=
  s.registry.size + 1

/-- Carries out a decision on the registered consumer. -/
def drive (k : Controller ω) (d : Decision) (id : ConsumerId) (s : State ω) : State ω :=
  k.driveIn (k.entrance (depth s)) .outside d id s

/-- Follows a plan for the registered consumer. -/
def follow (k : Controller ω) (id : ConsumerId) (plan : Plan) (s : State ω) : State ω :=
  followWith k.drive id plan s

/-- Asks the handler about the registered consumer and does what it wants. -/
def evaluate (k : Controller ω) (trigger : Trigger) (id : ConsumerId) (s : State ω) : State ω :=
  k.evaluateWith k.drive trigger id s

/-- A client has started. -/
def start (k : Controller ω) (client : Client) (s : State ω) : State ω :=
  k.startWith k.drive .outside client s

/-- A client is shut down.  The consumer that was removed, if there was one. -/
def shutdown (client : Client) (s : State ω) : Option Consumer × State ω :=
  remove .outside client.id s

/-- A consumer changes what it consumes. -/
def change (k : Controller ω) (id : ConsumerId) (c : Change) (s : State ω) : State ω :=
  k.changeWith k.drive .outside id c s

/-- What a client reports. -/
def lifecycle (k : Controller ω) (client : Client) (e : LifecycleEvent) (s : State ω) : State ω :=
  k.lifecycleWith k.drive .outside client e s

/-- Evaluates a consumer in a sweep. -/
def revisit (k : Controller ω) (s : State ω) (id : ConsumerId) : State ω :=
  k.revisitWith k.drive .outside s id

/-- Evaluates consumers one after the other. -/
def sweep (k : Controller ω) (ids : List ConsumerId) (s : State ω) : State ω :=
  k.sweepWith k.drive .outside ids s

/-- A new policy. -/
def updatePolicy (k : Controller ω) (p : Policy) (s : State ω) : State ω :=
  k.updatePolicyWith k.drive .outside p s

/-- A new policy as a document. -/
def updatePolicyDocument (k : Controller ω) (text : String) (s : State ω) :
    Except Error Unit × State ω :=
  k.updatePolicyDocumentWith k.drive .outside text s

/-- What is delivered takes effect. -/
def deliver (k : Controller ω) (s : State ω) (h : Hook) : State ω :=
  k.deliverWith k.drive .outside s h

/-- A hook is received, from inside the query of a confirmation or from nowhere in particular, and
takes effect.  A query is not called in the controller's own scope, nor does it hold a consumer. -/
def receive (k : Controller ω) (within : Option Confirmation) (s : State ω) (h : Hook) : State ω :=
  k.deliver { s with received := .hook h within :: s.received } h

/-! ### What is done outside of all calls -/

theorem follow_stop (k : Controller ω) (id : ConsumerId) (s : State ω) :
    k.follow id .stop s = s := rfl

theorem follow_drive (k : Controller ω) (id : ConsumerId) (d : Decision) (next : Consumer → Plan)
    (s : State ω) : k.follow id (.drive d next) s =
      match (k.drive d id s).consumer? id with
      | none => k.drive d id s
      | some c => k.follow id (next c) (k.drive d id s) := by
  rw [follow, followWith]
  rfl

theorem evaluate_outside (k : Controller ω) (trigger : Trigger) (id : ConsumerId) (s : State ω) :
    k.evaluate trigger id s =
      match s.consumer? id with
      | none => s
      | some c =>
          let (plan, s) := k.consult trigger id c s
          k.follow id plan s := rfl

theorem start_outside (k : Controller ω) (client : Client) (s : State ω) :
    k.start client s =
      match Consumer.wrap client with
      | .error e => s.report client.id (.notWrapped client.instanceName e)
      | .ok c =>
          match s.registry.register client.id c with
          | (some _, _) => k.evaluate .start client.id (s.report client.id .startedTwice)
          | (none, registry) =>
              let (changes, s) := drain client.id { s with registry }
              let s := replay client.id (changes.getD []) s
              k.evaluate .start client.id (s.report client.id (.started c.label)) := rfl

theorem shutdown_outside (client : Client) (s : State ω) :
    shutdown client s =
      let (_, s) := drain client.id s
      match s.registry.remove client.id with
      | (none, _) => (none, s.report client.id .unknownShutdown)
      | (some c, registry) =>
          (some c.markShutDown,
            { s with registry, departed := s.departedWith client.id c }.report client.id
              (.removed c.label)) := rfl

theorem change_outside (k : Controller ω) (id : ConsumerId) (c : Change) (s : State ω) :
    k.change id c s =
      match s.consumer? id with
      | some consumer =>
          if consumer.shutDown then s.report id (.changeAfterShutdown c.trigger)
          else
            match consumer.apply c with
            | .error e => s.report id (.changeRefused c.trigger e)
            | .ok consumer => k.evaluate c.trigger id (s.put id consumer)
      | none =>
          let s := { s with cache := s.cache.record id c }
          let s := letRivalsIn id (s.report id (.changeCached c.trigger))
          match s.consumer? id with
          | none => s
          | some _ =>
              match drain id s with
              | (none, s) => s
              | (some changes, s) => k.evaluate c.trigger id (replay id changes s) := rfl

theorem lifecycle_start (k : Controller ω) (client : Client) (s : State ω) :
    k.lifecycle client .start s = k.start client s := rfl

theorem lifecycle_subscribe (k : Controller ω) (client : Client) (topic : String) (s : State ω) :
    k.lifecycle client (.subscribe topic) s =
      if Text.isBlankText topic then
        s.report client.id (.topicMissing (LifecycleEvent.subscribe topic).name)
      else k.change client.id (.subscribe (Text.trim topic)) s := by
  rw [lifecycle, lifecycleWith, Task.guarded_outside]
  rfl

theorem lifecycle_unsubscribe (k : Controller ω) (client : Client) (topic : String)
    (s : State ω) :
    k.lifecycle client (.unsubscribe topic) s =
      if Text.isBlankText topic then
        s.report client.id (.topicMissing (LifecycleEvent.unsubscribe topic).name)
      else k.change client.id (.unsubscribe (Text.trim topic)) s := by
  rw [lifecycle, lifecycleWith, Task.guarded_outside]
  rfl

theorem lifecycle_assign (k : Controller ω) (client : Client) (queues : List Queue)
    (s : State ω) :
    k.lifecycle client (.assign queues) s =
      if queues.any fun q => Text.isBlankText q.topic then s.report client.id .queueTopicMissing
      else k.change client.id (.assign queues) s := by
  rw [lifecycle, lifecycleWith, Task.guarded_outside]
  rfl

theorem lifecycle_shutdown (k : Controller ω) (client : Client) (s : State ω) :
    k.lifecycle client .shutdown s = (shutdown client s).2 := rfl

theorem revisit_outside (k : Controller ω) (s : State ω) (id : ConsumerId) :
    k.revisit s id =
      match s.consumer? id with
      | none => s
      | some c =>
          if c.shutDown then s.report id .sweepPassedOver else k.evaluate .policyUpdate id s := rfl

theorem updatePolicy_outside (k : Controller ω) (p : Policy) (s : State ω) :
    k.updatePolicy p s =
      let s := install p s
      let s := s.happen none (.notice (.sweepStarted s.registry.size))
      k.sweep (k.sweepOrder s.sweeps s.registry.ids) { s with sweeps := s.sweeps + 1 } := rfl

theorem updatePolicyDocument_outside (k : Controller ω) (text : String) (s : State ω) :
    k.updatePolicyDocument text s =
      match Policy.ofDocument text with
      | .error e => (.error e, s)
      | .ok p => (.ok (), k.updatePolicy p s) := rfl

theorem deliver_lifecycle (k : Controller ω) (s : State ω) (client : Client) (e : LifecycleEvent) :
    k.deliver s (.lifecycle client e) = k.lifecycle client e s := rfl

theorem deliver_policyDocument (k : Controller ω) (s : State ω) (text : String) :
    k.deliver s (.policyDocument text) = (k.updatePolicyDocument text s).2 := rfl

end Embargo.Controller
