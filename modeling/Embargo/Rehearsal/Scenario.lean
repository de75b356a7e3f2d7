import Embargo.Controller.Run
import Embargo.Operation
import Embargo.Rehearsal.Script

/-!
# Scenarios

A scenario is a controller with scripted clients and a list of steps: hooks are delivered, time
passes, operators ask or interfere, clients are told how to behave.

* `Step` — one step, `Result` — what it answers;
* `Scenario.run` — the steps in their order, each with what could be seen of it.
-/

namespace Embargo.Rehearsal

/-- How a client is told to behave. -/
inductive Direction where
  | fail (operation message : String) (times : Option Nat)
  | heal (operation : String)
  | sticky (on : Bool)
  | stickyTopic (topic : String) (on : Bool)
  | members (topic : String) (lists : List (List String))
  | reenter (operation : String) (hooks : List Hook)

/-- A step of a scenario. -/
inductive Step where
  | input (i : Input)
  | handlerName
  | config
  | isPaused (id : ConsumerId)
  /-- An operator changes what is known of a consumer. -/
  | operate (id : ConsumerId) (op : Operation)
  /-- A change is cached directly. -/
  | record (id : ConsumerId) (c : Change)
  /-- The next change that is cached for the consumer meets a rival. -/
  | race (r : Rival)
  | direct (handle : String) (d : Direction)

/-- What a step answers. -/
inductive Result where
  | nothing
  | outcome (r : Except Error Unit)
  | removed (c : Option Consumer)
  | flag (b : Option Bool)
  | name (s : String)
  | config (c : Config)
  | epoch (n : Nat)
  | unregistered

/-- A part after a direction. -/
def Part.follow (p : Part) : Direction → Part
  | .fail operation message times =>
      { p with failures := p.failures.insert operation ⟨message, times⟩ }
  | .heal operation => { p with failures := p.failures.erase operation }
  | .sticky on => { p with sticky := on }
  | .stickyTopic topic on =>
      { p with
        stickyTopics := if on then p.stickyTopics.insert topic else p.stickyTopics.erase topic }
  | .members topic lists => { p with members := p.members.insert topic lists }
  | .reenter operation hooks => { p with reentered := p.reentered.insert operation hooks }

/-- What an operation answers: a change whether it was accepted, a transition the new epoch. -/
def operationResult (op : Operation) (r : Except Error Consumer) : Result :=
  match op, r with
  | .change _, .ok _ => .outcome (.ok ())
  | .change _, .error e => .outcome (.error e)
  | .transition _, .ok c => .epoch c.epoch
  | _, _ => .nothing

/-- What an input answers: a shutdown the consumer that was removed, a document whether it could be
read, and an operator's drive whether there was a consumer to drive. -/
def inputResult (s : State Script) : Input → Result
  | .hook (.lifecycle client .shutdown) => .removed (Controller.shutdown client s).1
  | .hook (.policyDocument text) => .outcome ((Policy.ofDocument text).map fun _ => ())
  | .drive id _ => if s.registry.contains id then .nothing else .unregistered
  | _ => .nothing

/-- What a step answers. -/
def Step.result (k : Controller Script) (s : State Script) : Step → Result
  | .input i => inputResult s i
  | .handlerName => .name k.handler.name.text
  | .config => .config k.config
  | .isPaused id => .flag (s.isPaused? id)
  | .operate id op =>
      match s.consumer? id with
      | none => .unregistered
      | some c => operationResult op (c.operate s.now op)
  | _ => .nothing

/-- More polls than any rehearsal takes. -/
def patience : Nat := 1000000

/-- The state after a step, before the confirmations that are due take their steps. -/
def Step.take (k : Controller Script) (s : State Script) : Step → Option (State Script)
  | .input i => k.take patience s i
  | .operate id op => some (s.modify id fun c => c.after s.now op)
  | .record id c => some { s with cache := s.cache.record id c }
  | .race r => some { s with rivals := s.rivals ++ [r] }
  | .direct handle d =>
      some { s with memory := s.memory.withPart handle ((s.memory.part handle).follow d) }
  | _ => some s

/-- What could be seen of a step. -/
structure Report where
  result : Result
  events : List Event
  state : State Script

/-- The order of identities in which what is about nobody comes first. -/
def byConsumer (a b : Option ConsumerId) : Bool :=
  match a, b with
  | none, _ => true
  | some _, none => false
  | some a, some b => a.raw ≤ b.raw

/-- The shown events that one record adds to an earlier one, those about one consumer together, in
their order. -/
def newEvents (before after : Log) : List Event :=
  let fresh := (after.take (after.length - before.length)).reverse
  (fresh.filter fun e => e.what.isShown).mergeSort fun a b => byConsumer a.who b.who

/-- A step, and everything that is due after it, if that comes to an end. -/
def Step.run (k : Controller Script) (s : State Script) (step : Step) : Option Report :=
  (((step.take k s).bind (k.settle patience)).filter fun after => !after.stuck).map fun after =>
    { result := step.result k s, events := newEvents s.log after.log, state := after }

/-- Steps in their order, up to one that does not come to an end. -/
def runSteps (k : Controller Script) : State Script → List Step → List Report
  | _, [] => []
  | s, step :: steps =>
      match step.run k s with
      | none => []
      | some r => r :: runSteps k r.state steps

/-- A controller with scripted clients, and what happens to it. -/
structure Scenario where
  config : Config := {}
  policy : Policy := .disabled
  handler : Handler Script := .builtin
  steps : List Step

/-- The controller of a scenario. -/
def Scenario.controller (x : Scenario) : Controller Script :=
  { config := x.config, handler := x.handler, environment := Script.environment }

/-- The steps of a scenario, each with what could be seen of it. -/
def Scenario.run (x : Scenario) : List Report :=
  runSteps x.controller (.initial x.policy {}) x.steps

/-- The handlers that a rehearsal knows by name: the built-in one, one that suspends and one that
resumes every consumer, one that does the opposite of what the policy wants, and ones that only
watch. -/
def handlerNamed (name : String) : Handler Script :=
  if name = "builtin" then .builtin
  else if name = "always_suspend" then .always name fun _ _ => .suspend
  else if name = "always_resume" then .always name fun _ _ => .resume
  else if name = "inverted" then .always name fun c p => (p.decide c.topics).opposite
  else .idle name

end Embargo.Rehearsal
