import Embargo.Controller.Hooks

/-!
# Confirmations in time

Time moves from one waiting confirmation to the next.

* `ask` — asks the broker for the members of a group; hooks that are delivered in the meantime take
  effect;
* `isGone` — whether a consumer is no longer listed for any of its topics;
* `conclude` — what a confirmation that is over leads to: suspension, or the way back;
* `proceed` — one step of a confirmation;
* `runUntil` — all steps up to a limit; `advance` and `wait` — letting time pass.

Clients that keep starting confirmations while they are asked for members can keep the clock at
work for ever; then time does not pass, and there is no state after it.
-/

namespace Embargo.Controller

variable {ω : Type}

/-- The consumer that a confirmation is about, unless the confirmation is superseded: by the removal
of the consumer, which is marked then, or by another transition of it. -/
def subject? (t : Confirmation) (s : State ω) : Option Consumer :=
  (s.slot? t.id t.life).filter fun c => !c.shutDown && c.epoch = t.epoch

/-- Asks for the members of a group. -/
def ask (k : Controller ω) (t : Confirmation) (topic : String) (s : State ω) :
    Except Error (List String) × State ω :=
  let call := fun ok => Occurrence.call t.client t.life (.findMembers topic t.group) ok
  match k.environment.query s.memory s.now t.client topic t.group with
  | (.error e, memory) => (.error e, { s with memory }.happen (some t.id) (call false))
  | (.ok hooks, memory) =>
      let s := { s with memory }.happen (some t.id) (call true)
      let s := hooks.foldl (k.receive (some t)) s
      let (members, memory) := k.environment.members s.memory s.now t.client topic t.group
      (.ok members,
        { s with memory }.happen (some t.id) (.listing t.client t.life topic t.group members))

/-- Whether the consumer is no longer listed for any of the topics.  A query that fails tells
nothing, so the consumer counts as listed. -/
def isGone (k : Controller ω) (t : Confirmation) : List String → State ω → Bool × State ω
  | [], s => (true, s)
  | topic :: topics, s =>
      match k.ask t topic s with
      | (.error e, s) => (false, s.report t.id (.queryFailed topic e))
      | (.ok members, s) =>
          if t.client.clientId ∈ members then (false, s) else isGone k t topics s

/-- The end of a confirmation: suspension if the consumer is gone, and otherwise the way back into
its group. -/
def conclude (k : Controller ω) (t : Confirmation) (gone : Bool) (s : State ω) : State ω :=
  match subject? t s with
  | none => s.report t.id .confirmationDiscarded
  | some c =>
      if gone then
        (s.put t.id (c.transition s.now .suspended)).report t.id (.suspended c.label)
      else
        let s := s.report t.id (.confirmationTimedOut c.label k.config.maxRetries.toNat)
        let (c, s) := (c.rollBack s.now).execute (k.entrance (depth s)) k.environment
          (Task.outside.holding t.id) ⟨t.client, t.life⟩ s
        { s with registry := s.registry.replace t.id c }

/-- One step of a confirmation, which has been taken out of those that wait.  When it goes on it
waits behind those that were waiting, but before those that have been started in the meantime. -/
def proceed (k : Controller ω) (t : Confirmation) (s : State ω) : State ω :=
  if k.config.maxRetries.toNat ≤ t.attempts then k.conclude t false s
  else
    match subject? t s with
    | none => s.report t.id .confirmationDiscarded
    | some c =>
        let place := s.confirmations.length
        match k.isGone t c.topics.toList s with
        | (true, s) => k.conclude t true s
        | (false, s) =>
            let t := t.again k.config s.now
            let s := s.report t.id (.stillListed t.client.clientId t.group t.attempts)
            if k.config.maxRetries.toNat ≤ t.attempts then k.conclude t false s
            else { s with confirmations := s.confirmations.insertIdx place t }

/-- A confirmation is due and takes its step; time has moved on to it. -/
def goOn (k : Controller ω) (t : Confirmation) (waiting : List Confirmation) (s : State ω) :
    State ω :=
  k.proceed t { s with confirmations := waiting, now := max s.now t.due }

/-- Makes the steps that are due, up to the limit, the earliest first; none unless that comes to
an end within so many steps. -/
def runUntil (k : Controller ω) (limit : Option Nat) : (fuel : Nat) → State ω → Option (State ω)
  | 0, s =>
      match Confirmation.takeNext limit s.confirmations with
      | none => some s
      | some _ => none
  | fuel + 1, s =>
      match Confirmation.takeNext limit s.confirmations with
      | none => some s
      | some (t, waiting) => runUntil k limit fuel (k.goOn t waiting s)

/-- The steps that may be left: those of the confirmations that wait, and so many of confirmations
that clients start while they are asked for members. -/
def budget (k : Controller ω) (patience : Nat) (s : State ω) : Nat :=
  Confirmation.pollsOf k.config s.confirmations + patience

/-- Lets time pass. -/
def advance (k : Controller ω) (patience ms : Nat) (s : State ω) : Option (State ω) :=
  let limit := s.now + ms
  (k.runUntil (some limit) (k.budget patience s) s).map fun s => { s with now := max s.now limit }

/-- Lets time pass until no confirmation is running. -/
def wait (k : Controller ω) (patience : Nat) (s : State ω) : Option (State ω) :=
  k.runUntil none (k.budget patience s) s

/-- Makes the steps that are due now. -/
def settle (k : Controller ω) (patience : Nat) (s : State ω) : Option (State ω) :=
  k.advance patience 0 s

/-- **A confirmation that goes on is about a registered consumer**: one that has been removed is
marked. -/
theorem subject?_eq (t : Confirmation) (s : State ω) :
    subject? t s = (s.consumer? t.id).filter fun c =>
      t.life = s.life t.id && !c.shutDown && c.epoch = t.epoch := by
  rw [subject?, State.slot?]
  cases hslot : (s.departedOf t.id)[t.life]? with
  | some d =>
    have hlt : t.life < s.life t.id := (List.getElem?_eq_some_iff.1 hslot).1
    cases s.consumer? t.id <;> simp [Option.filter, d.shutDown, Nat.ne_of_lt hlt]
  | none =>
    by_cases hlife : t.life = s.life t.id
    · simp [hlife]
    · simp [hlife]

end Embargo.Controller
