import Embargo.Controller.Task
import Embargo.Transition

/-!
# Evaluating consumers

* `Controller.driveIn` — carries out a decision on the registered consumer, in a task;
* `Controller.consult` — asks the handler about a consumer, which is put on record;
* `Controller.evaluateWith` — asks the handler and follows its plan.

How decisions are carried out is left open in the latter: that depends on the task.
-/

namespace Embargo

/-- How decisions are carried out. -/
abbrev Drive (ω : Type) := Decision → ConsumerId → State ω → State ω

namespace Controller

variable {ω : Type}

/-- Carries out a decision on the registered consumer, and starts a confirmation when the consumer
has left its group. -/
def driveIn (k : Controller ω) (enter : Entrance ω) (task : Task) (d : Decision) (id : ConsumerId)
    (s : State ω) : State ω :=
  match s.consumer? id with
  | none => s
  | some c =>
      let life := s.life id
      let (o, s) :=
        (c.drive s.now d).execute enter k.environment (task.holding id) ⟨c.client, life⟩ s
      { s with
        registry := s.registry.replace id o.consumer
        confirmations :=
          if o.leaving then
            s.confirmations ++ [Confirmation.start k.config s.now life o.consumer]
          else s.confirmations }

/-- Follows a plan for the registered consumer. -/
def followWith (drive : Drive ω) (id : ConsumerId) : Plan → State ω → State ω
  | .stop, s => s
  | .drive d next, s =>
      let s := drive d id s
      match s.consumer? id with
      | none => s
      | some c => followWith drive id (next c) s

/-- Asks the handler about a consumer, under the policy in force.  The question goes on record. -/
def consult (k : Controller ω) (trigger : Trigger) (id : ConsumerId) (c : Consumer) (s : State ω) :
    Plan × State ω :=
  let p := s.policy.current
  let s := s.happen (some id) (.evaluation k.handler.name trigger c p)
  let (plan, memory) := k.handler.plan s.memory trigger c p
  (plan, { s with memory })

/-- Asks the handler about the registered consumer and does what it wants. -/
def evaluateWith (k : Controller ω) (drive : Drive ω) (trigger : Trigger) (id : ConsumerId)
    (s : State ω) : State ω :=
  match s.consumer? id with
  | none => s
  | some c =>
      let (plan, s) := k.consult trigger id c s
      followWith drive id plan s

end Controller

end Embargo
