import Embargo.Change
import Embargo.Confirmation
import Embargo.Handler
import Embargo.Program
import Embargo.Registry

/-!
# The controller and its state

* `Controller` — what stays: configuration, handler, environment;
* `Delivery` — what reaches the controller from outside;
* `State` — what moves: the time, the policy in force, the consumers, registered and removed, the
  changes that wait for their consumers, the running confirmations, the memory of the environment,
  what has reached the controller, and the record of the run;
* `State.slot?` — a consumer in the place where it was registered, which it keeps;
* `State.status`, `State.isPaused?` — what operators may ask for.

A client may deliver a hook from inside a call that has to wait for the very consumer that the call
is made for.  Then neither comes to an end.  Such a state is stuck, and nothing else that it says is
about the system: it goes on as if that hook had been passed over.
-/

namespace Embargo

/-- What stays the same through a run. -/
structure Controller (ω : Type) where
  config : Config := {}
  handler : Handler ω := .builtin
  environment : Environment ω
  /-- The order in which a sweep visits the registered consumers, which may be another one for
  every sweep.  Consumers are visited by identity unless it is given. -/
  sweepOrder : Nat → List ConsumerId → List ConsumerId := fun _ ids => ids
  /-- A sweep visits every registered consumer, and each of them once. -/
  sweepOrder_perm : ∀ n ids, (sweepOrder n ids).Perm ids := by exact fun _ _ => .refl _

/-- Somebody else who registers a consumer as soon as a change of it has been cached. -/
structure Rival where
  client : Client
  /-- Whether the cached changes are taken away at the same time. -/
  drains : Bool
  deriving DecidableEq, Repr

/-- What reaches the controller from outside. -/
inductive Delivery where
  /-- A hook, and the confirmation from inside whose query it was delivered, if it was. -/
  | hook (h : Hook) (within : Option Confirmation)
  /-- An operator drives a consumer past the handler. -/
  | order (id : ConsumerId) (d : Decision)

/-- A consumer that has been removed.  It is marked, so that whoever still has hold of it can
tell. -/
structure Departed where
  consumer : Consumer
  shutDown : consumer.shutDown = true

/-- A consumer departs. -/
def Consumer.depart (c : Consumer) : Departed :=
  { consumer := c.markShutDown, shutDown := rfl }

/-- What moves in a run. -/
structure State (ω : Type) where
  /-- Milliseconds since the beginning. -/
  now : Nat := 0
  policy : Policy.Store := {}
  /-- How many sweeps have been made. -/
  sweeps : Nat := 0
  registry : Registry Consumer := {}
  cache : Cache := {}
  confirmations : List Confirmation := []
  /-- The consumers that have been removed under each identity, in their order. -/
  departed : ConsumerMap (List Departed) := ∅
  /-- Who registers consumers behind the back of a hook, those that came first in front. -/
  rivals : List Rival := []
  memory : ω
  /-- What has reached the controller, the latest first. -/
  received : List Delivery := []
  /-- Whether a hook waits for a consumer that its own caller holds. -/
  stuck : Bool := false
  log : Log := []

namespace State

variable {ω : Type}

/-- The state at the beginning. -/
def initial (policy : Policy) (memory : ω) : State ω :=
  { policy := { current := policy.normalized }, memory }

/-- The registered consumer of an identity. -/
def consumer? (s : State ω) (id : ConsumerId) : Option Consumer :=
  s.registry.lookup id

/-- The consumers that have been removed under an identity. -/
def departedOf (s : State ω) (id : ConsumerId) : List Departed :=
  s.departed.getD id []

/-- The consumers that have been removed, and one more. -/
def departedWith (s : State ω) (id : ConsumerId) (c : Consumer) : ConsumerMap (List Departed) :=
  s.departed.insert id (s.departedOf id ++ [c.depart])

/-- The how-many-eth consumer under an identity the registered one is. -/
def life (s : State ω) (id : ConsumerId) : Nat :=
  (s.departedOf id).length

/-- The how-many-eth consumer under an identity, whether it is registered still or has been
removed. -/
def slot? (s : State ω) (id : ConsumerId) (life : Nat) : Option Consumer :=
  match (s.departedOf id)[life]? with
  | some d => some d.consumer
  | none => if life = s.life id then s.consumer? id else none

/-- Adds an event to the record. -/
def happen (s : State ω) (who : Option ConsumerId) (what : Occurrence) : State ω :=
  { s with log := { time := s.now, who, what } :: s.log }

/-- Reports something about a consumer. -/
def report (s : State ω) (id : ConsumerId) (n : Notice) : State ω :=
  s.happen (some id) (.notice n)

/-- Puts a consumer in the place of the registered one. -/
def put (s : State ω) (id : ConsumerId) (c : Consumer) : State ω :=
  { s with registry := s.registry.replace id c }

/-- What a change of the registered consumer leads to, if there is one. -/
def modify (s : State ω) (id : ConsumerId) (f : Consumer → Consumer) : State ω :=
  match s.consumer? id with
  | none => s
  | some c => s.put id (f c)

/-! ### What operators may ask for -/

/-- Every registered consumer, by identity. -/
def status (s : State ω) : List Consumer.Status :=
  s.registry.toList.map fun r => r.2.status

/-- Whether a consumer is kept from consuming, if it is registered. -/
def isPaused? (s : State ω) (id : ConsumerId) : Option Bool :=
  (s.consumer? id).map Consumer.isPaused

/-- The number of running confirmations. -/
def pendingConfirmations (s : State ω) : Nat :=
  s.confirmations.length

/-- The record of the run, the earliest event first. -/
def history (s : State ω) : List Event :=
  s.log.reverse

/-! ### Small facts -/

@[simp] theorem consumer?_happen (s : State ω) (who : Option ConsumerId) (what : Occurrence)
    (id : ConsumerId) : (s.happen who what).consumer? id = s.consumer? id := rfl

@[simp] theorem consumer?_report (s : State ω) (id id' : ConsumerId) (n : Notice) :
    (s.report id n).consumer? id' = s.consumer? id' := rfl

theorem consumer?_put (s : State ω) (id id' : ConsumerId) (c : Consumer) :
    (s.put id c).consumer? id' = if id = id' then some c else s.consumer? id' :=
  Registry.lookup_replace s.registry id id' c

/-- Who departs leaves its place to the next one under its identity. -/
theorem length_departedWith (s : State ω) (i id : ConsumerId) (c : Consumer) :
    ((s.departedWith i c).getD id []).length = if i = id then s.life i + 1 else s.life id := by
  rw [departedWith, Std.ExtTreeMap.getD_insert]
  simp only [Std.LawfulEqOrd.compare_eq_iff_eq]
  split
  · exact List.length_append
  · rfl

@[simp] theorem history_happen (s : State ω) (who : Option ConsumerId) (what : Occurrence) :
    (s.happen who what).history = s.history ++ [{ time := s.now, who, what }] := by
  simp [history, happen]

end State

end Embargo
