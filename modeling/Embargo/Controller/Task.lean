import Embargo.Controller.State

/-!
# Tasks and re-entry

While the controller calls into a client, the client may deliver hooks: they are dealt with in the
same task, inside the call.  The task holds the consumer that the call is made for, and it may be in
the controller's own scope, which call sites ask for and which lasts as long as the call.

* `Task` — what a task is in the middle of;
* `Task.guarded` — the head of a hook: in the controller's own scope it is skipped;
* `Task.locking` — taking hold of a consumer, which a task that holds it already waits for in vain;
* `Entrance`, `reenter` — how hooks get in from inside calls;
* `Program.execute` — a program in a task: its calls are made, and their hooks let in.
-/

namespace Embargo

variable {ω : Type}

/-- What a task is in the middle of. -/
structure Task where
  /-- Whether it is in the controller's own scope. -/
  own : Bool := false
  /-- Whose call it is inside of, if it is inside one. -/
  caller : Option ConsumerId := none
  /-- The consumers that it holds. -/
  holds : List ConsumerId := []

namespace Task

/-- A task that has just begun. -/
def outside : Task := {}

/-- The task once it has taken hold of a consumer. -/
def holding (task : Task) (id : ConsumerId) : Task :=
  { task with holds := id :: task.holds }

/-- The task inside a call.  In the controller's own scope it stays until the call is over. -/
def calling (task : Task) (own : Bool) (id : ConsumerId) : Task :=
  { task with own := own || task.own, caller := some id }

/-- A hook is skipped, which is said of the consumer whose call it comes from. -/
def skip (task : Task) (hook : String) (s : State ω) : State ω :=
  s.happen task.caller (.notice (.hookSkipped hook))

/-- A hook, which takes effect outside the controller's own scope only. -/
def guarded (task : Task) (hook : String) (effect : State ω → State ω) (s : State ω) : State ω :=
  if task.own then task.skip hook s else effect s

/-- Takes hold of a consumer.  One that the task holds already it waits for, in vain. -/
def locking (task : Task) (id : ConsumerId) (effect : State ω → State ω) (s : State ω) : State ω :=
  if task.holds.contains id then { s with stuck := true } else effect s

@[simp] theorem guarded_outside (hook : String) (effect : State ω → State ω) (s : State ω) :
    outside.guarded hook effect s = effect s := rfl

@[simp] theorem locking_outside (id : ConsumerId) (effect : State ω → State ω) (s : State ω) :
    outside.locking id effect s = effect s := rfl

end Task

/-- How hooks get in from inside the calls of a task. -/
abbrev Entrance (ω : Type) := Task → State ω → Hook → State ω

/-- A hook gets in.  When it never comes back, nor does the call that it is inside of: all that it
leaves behind is that the state is stuck. -/
def reenter (enter : Entrance ω) (task : Task) (s : State ω) (h : Hook) : State ω :=
  let s' := enter task { s with stuck := false } h
  if s'.stuck then { s with stuck := true } else { s' with stuck := s.stuck }

/-- Carries out a program in a task, for a consumer. -/
def Program.execute {α : Type} (enter : Entrance ω) (env : Environment ω) (task : Task)
    (u : Subject) : Program α → State ω → α × State ω
  | .done a, s => (a, s)
  | .note n rest, s => rest.execute enter env task u (s.report u.client.id n)
  | .call own c next, s =>
      let answer := env.command s.memory s.now u.client c
      let s := { s with memory := answer.memory }.happen (some u.client.id)
        (.call u.client u.life (.command c) answer.result.isOk)
      let s := answer.delivered.foldl (reenter enter (task.calling own u.client.id)) s
      (next answer.result).execute enter env task u s

end Embargo
