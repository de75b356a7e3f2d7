import Embargo.Proofs.Mirroring

/-!
# One run in the words of another

Nothing that the controller does depends on its record, or on the list of what it has received.  So
when two controllers differ only in how commands are told, one run of the second tells what a run of
the first does, in other words: the record is another one, and everything else is the same.

* `State.retold` — a state with its record in other words;
* `Program.RunsRetold` — a program does in one environment what it does in another, in other words;
* `Controller.Retells` — when one controller does what another one does, in other words;
* `Retells.mirrors` — then it gets the same answers, in the sense of `Controller.Mirrors`;
* `deliver_retold` — so a delivery does the same, whatever has been received before it;
* `advance_retold` — and what time brings is told in other words;
* `run_retold` — **every run is retold**, and comes to an end exactly when the retold one does.
-/

namespace Embargo

variable {ω : Type}

/-- The record in other words: every event is told again by `g`, or left out. -/
abbrev Log.retold (g : Event → Option Event) (log : Log) : Log :=
  log.filterMap g

/-- A state with its record in other words, and another list of what has been received. -/
def State.retold (g : Event → Option Event) (r : List Delivery → List Delivery) (s : State ω) :
    State ω :=
  { s with received := r s.received, log := s.log.retold g }

/-- The result of a program with its record in other words. -/
def Program.retold {α : Type} (g : Event → Option Event) (x : α × ω × Log) : α × ω × Log :=
  (x.1, x.2.1, x.2.2.retold g)

/-- What a program does in one environment it does in another one, in other words. -/
def Program.RunsRetold {α : Type} (g : Event → Option Event) (env env' : Environment ω) (now : Nat)
    (u : Subject) (p : Program α) : Prop :=
  ∀ memory log, p.waits env' now u memory = p.waits env now u memory ∧
    p.run env' now u memory (log.retold g) = Program.retold g (p.run env now u memory log)

namespace Controller

/-- A controller does what another one does, in other words: it differs in how its clients answer
commands, and in this so little that transitions lead to the same. -/
structure Retells (g : Event → Option Event) (k k' : Controller ω) : Prop where
  config : k'.config = k.config
  handler : k'.handler = k.handler
  sweepOrder : k'.sweepOrder = k.sweepOrder
  query : k'.environment.query = k.environment.query
  members : k'.environment.members = k.environment.members
  /-- Only what transitions put on record is told in other words. -/
  keeps : ∀ e : Event, e.what.isTransitional = false → g e = some e
  drive : ∀ (now : Nat) (u : Program.Subject) (d : Decision) (c : Consumer),
    (c.drive now d).RunsRetold g k.environment k'.environment now u
  rollBack : ∀ (now : Nat) (u : Program.Subject) (c : Consumer),
    (c.rollBack now).RunsRetold g k.environment k'.environment now u

variable {g : Event → Option Event} {k k' : Controller ω} {r : List Delivery → List Delivery}

/-- What is received comes on top of what has been received before, in any words. -/
def OnTop (r : List Delivery → List Delivery) : Prop :=
  ∀ d ds, r (d :: ds) = d :: r ds

theorem onTop_id : OnTop id := fun _ _ => rfl

namespace Retells

/-- What is told in other words is alike. -/
def likeness (h : Retells g k k') (r : List Delivery → List Delivery) : Likeness ω ω where
  memory := fun memory memory' => memory' = memory
  received := fun ds ds' => ds' = r ds
  log := fun l l' => l' = l.retold g
  keeps := by
    intro l l' e he hl
    rw [hl, Log.retold, Log.retold, List.filterMap_cons, h.keeps e he]

theorem likeness_onTop (h : Retells g k k') (hr : OnTop r) : (h.likeness r).OnTop := by
  intro d ds ds' hds
  show d :: ds' = r (d :: ds)
  rw [hr, show ds' = r ds from hds]

/-- States that are alike are the same in other words. -/
theorem states_iff (h : Retells g k k') {s s' : State ω} :
    (h.likeness r).States s s' ↔ s' = s.retold g r := by
  constructor
  · rintro ⟨m, ds, l, rfl, rfl, rfl, rfl⟩
    rfl
  · rintro rfl
    exact ⟨_, _, _, rfl, rfl, rfl, rfl⟩

/-- Who tells in other words gets the same answers. -/
theorem mirrors (h : Retells g k k') (r : List Delivery → List Delivery) :
    Mirrors (h.likeness r) k k' where
  config := h.config
  sweepOrder := h.sweepOrder
  name := congrArg Handler.name h.handler
  plan := by
    rintro m _ rfl trigger c p
    rw [h.handler]
    exact ⟨rfl, rfl⟩
  query := by
    rintro m _ rfl now client topic group
    rw [h.query]
    exact ⟨rfl, rfl⟩
  members := by
    rintro m _ rfl now client topic group
    rw [h.members]
    exact ⟨rfl, rfl⟩
  drive := by
    rintro now u d c _ m l _ rfl rfl
    obtain ⟨hwaits, hrun⟩ := h.drive now u d c m l
    exact ⟨hwaits, hrun ▸ ⟨rfl, rfl, rfl⟩⟩
  rollBack := by
    rintro now u c _ m l _ rfl rfl
    obtain ⟨hwaits, hrun⟩ := h.rollBack now u c m l
    exact ⟨hwaits, hrun ▸ ⟨rfl, rfl, rfl⟩⟩

/-- What comes of a state in other words comes of it in the same words. -/
theorem eq_map (h : Retells g k k') {o o' : Option (State ω)}
    (hrel : Option.Rel (h.likeness r).States o o') : o' = o.map (State.retold g r) := by
  cases hrel with
  | none => rfl
  | some hs => exact congrArg some (h.states_iff.1 hs)

end Retells

/-- **A delivery does the same in other words**, whatever has been received before it. -/
theorem deliver_retold (h : Retells g k k') (s : State ω) (hook : Hook) :
    k'.deliver (s.retold g r) hook = (k.deliver s hook).retold g r :=
  h.states_iff.1 (deliver_mirrored (h.mirrors r) hook (h.states_iff.2 rfl))

theorem advance_retold (h : Retells g k k') (hr : OnTop r) (patience ms : Nat) (s : State ω) :
    k'.advance patience ms (s.retold g r) = (k.advance patience ms s).map (State.retold g r) :=
  h.eq_map (advance_mirrored (h.mirrors r) (h.likeness_onTop hr) patience ms (h.states_iff.2 rfl))

/-- **Every run is retold**, and comes to an end exactly when the one that retells it does. -/
theorem run_retold (h : Retells g k k') (hr : OnTop r) (patience : Nat) (inputs : List Input)
    (s : State ω) : k'.run patience (s.retold g r) inputs =
      (k.run patience s inputs).map (State.retold g r) :=
  h.eq_map (run_mirrored (h.mirrors r) (h.likeness_onTop hr) patience inputs (h.states_iff.2 rfl))

end Controller

end Embargo
