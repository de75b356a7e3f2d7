import Embargo.Controller.Clock

/-!
# Runs

A run is a list of inputs, one after the other: something is delivered, an operator drives a
consumer past the handler, or time passes.  After every input the confirmations that are due take
their steps.  A run ends at an input that the controller never comes to the end of: then there is no
state after it, or a stuck one.

* `Input` — what a run consists of;
* `Controller.react` — the state after one input, `Controller.run` — after many;
* `Controller.Reachable` — the states of all runs that start with a given policy and memory.
-/

namespace Embargo

/-- What a run consists of. -/
inductive Input where
  | hook (h : Hook)
  /-- An operator drives a consumer past the handler. -/
  | drive (id : ConsumerId) (d : Decision)
  /-- So many milliseconds pass. -/
  | pass (ms : Nat)
  /-- Time passes until no confirmation is running. -/
  | wait

namespace Controller

variable {ω : Type}

/-- The effect of an input, before the confirmations that are due take their steps. -/
def take (k : Controller ω) (patience : Nat) (s : State ω) : Input → Option (State ω)
  | .hook h => some (k.receive none s h)
  | .drive id d => some (k.drive d id { s with received := .order id d :: s.received })
  | .pass ms => k.advance patience ms s
  | .wait => k.wait patience s

/-- The state after an input. -/
def react (k : Controller ω) (patience : Nat) (s : State ω) (i : Input) : Option (State ω) :=
  (k.take patience s i).bind (k.settle patience)

/-- The state after an input, unless it is stuck. -/
def next (k : Controller ω) (patience : Nat) (s : State ω) (i : Input) : Option (State ω) :=
  (k.react patience s i).filter fun s => !s.stuck

/-- The state after inputs in their order. -/
def run (k : Controller ω) (patience : Nat) (s : State ω) (inputs : List Input) :
    Option (State ω) :=
  inputs.foldlM (k.next patience) s

/-- The states that runs lead to, if one is patient enough. -/
inductive Reachable (k : Controller ω) (policy : Policy) (memory : ω) : State ω → Prop where
  | start : Reachable k policy memory (.initial policy memory)
  | step {s s' : State ω} (patience : Nat) (i : Input) :
      Reachable k policy memory s → k.next patience s i = some s' → Reachable k policy memory s'

theorem next_eq_some {k : Controller ω} {patience : Nat} {s s' : State ω} {i : Input} :
    k.next patience s i = some s' ↔ k.react patience s i = some s' ∧ s'.stuck = false := by
  rw [next, Option.filter_eq_some_iff, Bool.not_eq_true']

/-- Runs do not get stuck. -/
theorem Reachable.not_stuck {k : Controller ω} {policy : Policy} {memory : ω} {s : State ω}
    (h : k.Reachable policy memory s) : s.stuck = false := by
  cases h with
  | start => rfl
  | step _ _ _ hnext => exact (next_eq_some.1 hnext).2

theorem run_nil (k : Controller ω) (patience : Nat) (s : State ω) : k.run patience s [] = some s :=
  rfl

theorem run_cons (k : Controller ω) (patience : Nat) (s : State ω) (i : Input) (is : List Input) :
    k.run patience s (i :: is) = (k.next patience s i).bind fun s' => k.run patience s' is := by
  simp [run]

theorem run_append (k : Controller ω) (patience : Nat) (s : State ω) (is js : List Input) :
    k.run patience s (is ++ js) =
      (k.run patience s is).bind fun s' => k.run patience s' js := by
  simp [run]

/-- What a run leads to from a reachable state is reachable. -/
theorem Reachable.run {k : Controller ω} {policy : Policy} {memory : ω} {patience : Nat}
    {s s' : State ω} {inputs : List Input} (h : Reachable k policy memory s)
    (hrun : k.run patience s inputs = some s') : Reachable k policy memory s' := by
  induction inputs generalizing s with
  | nil =>
    rw [run_nil, Option.some.injEq] at hrun
    exact hrun ▸ h
  | cons i inputs ih =>
    rw [run_cons, Option.bind_eq_some_iff] at hrun
    obtain ⟨s₁, h₁, h₂⟩ := hrun
    exact ih (.step patience i h h₁) h₂

end Controller

end Embargo
