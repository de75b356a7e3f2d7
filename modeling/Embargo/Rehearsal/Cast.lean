import Embargo.Rehearsal.Scenario

/-!
# A cast of two

The smallest rehearsals have one client each: one comes, subscribes and is suspended, and another
one is handed queues that are paused.

* `newcomer`, `worker` — the clients, `stage` — a controller with the default configuration;
* `entrance` — the newcomer starts and subscribes;
* `overture` — it reports what it consumes before it starts;
* `entrance_suspends` — under a policy that prohibits its topic it leaves its group at once;
* `shift` — the worker starts and is handed queues, and then others;
* `shift_pauses` — under a policy that prohibits their topic exactly the latter are paused.
-/

namespace Embargo.Rehearsal

/-- A client that has just been started. -/
def newcomer : Client :=
  { handle := "c"
    id := ⟨7⟩
    instanceName := "worker-1"
    group? := some "g"
    clientId := "10.0.0.1@1"
    kind := .push }

/-- The controller of a scenario that leaves everything as it is by default. -/
def stage : Controller Script :=
  Scenario.controller { steps := [] }

/-- The newcomer starts and subscribes to a topic. -/
def entrance : List Input :=
  [.hook (.lifecycle newcomer .start), .hook (.lifecycle newcomer (.subscribe "t"))]

/-- The newcomer subscribes and is handed a queue, which does not fit, before it starts. -/
def overture : List Input :=
  [.hook (.lifecycle newcomer (.subscribe " t ")),
    .hook (.lifecycle newcomer (.assign [⟨"t", "b", 0⟩])), .hook (.lifecycle newcomer .start)]

/-- A newcomer that subscribes to a prohibited topic leaves its group, which is to be confirmed. -/
theorem entrance_suspends :
    ∃ s c, stage.run 0 (.initial (.prohibiting ["t"]) {}) entrance = some s ∧
      s.consumer? newcomer.id = some c ∧ c.state = .suspending ∧ c.mode = some .subscribe := by
  have hrun : ((stage.run 0 (.initial (.prohibiting ["t"]) {}) entrance).bind fun s =>
      (s.consumer? newcomer.id).map fun c => (c.state, c.mode)) =
        some (.suspending, some .subscribe) := by
    decide +kernel
  obtain ⟨s, hs, hc⟩ := Option.bind_eq_some_iff.1 hrun
  obtain ⟨c, hreg, hboth⟩ := Option.map_eq_some_iff.1 hc
  exact ⟨s, c, hs, hreg, congrArg Prod.fst hboth, congrArg Prod.snd hboth⟩

/-- A client that is handed queues. -/
def worker : Client :=
  { handle := "w"
    id := ⟨8⟩
    instanceName := "worker-2"
    group? := some "g"
    clientId := "10.0.0.2@1"
    kind := .pull }

/-- The worker starts and is handed two queues, one of which it has to give away for a third one. -/
def shift : List Input :=
  [.hook (.lifecycle worker .start),
    .hook (.lifecycle worker (.assign [⟨"t", "b", 0⟩, ⟨"t", "b", 1⟩])),
    .hook (.lifecycle worker (.assign [⟨"t", "b", 1⟩, ⟨"t", "b", 2⟩]))]

/-- A worker that is handed queues of a prohibited topic has them paused. -/
theorem shift_pauses :
    ∃ s c, stage.run 0 (.initial (.prohibiting ["t"]) {}) shift = some s ∧
      s.consumer? worker.id = some c ∧ c.mode = some .assign ∧ c.state = .suspended ∧
      c.paused.toList = [⟨"t", "b", 1⟩, ⟨"t", "b", 2⟩] := by
  have hrun : ((stage.run 0 (.initial (.prohibiting ["t"]) {}) shift).bind fun s =>
      (s.consumer? worker.id).map fun c => (c.mode, c.state, c.paused.toList)) =
        some (some .assign, .suspended, [⟨"t", "b", 1⟩, ⟨"t", "b", 2⟩]) := by
    decide +kernel
  obtain ⟨s, hs, hc⟩ := Option.bind_eq_some_iff.1 hrun
  obtain ⟨c, hreg, hall⟩ := Option.map_eq_some_iff.1 hc
  obtain ⟨hmode, hrest⟩ := Prod.mk.inj hall
  obtain ⟨hstate, hpaused⟩ := Prod.mk.inj hrest
  exact ⟨s, c, hs, hreg, hmode, hstate, hpaused⟩

end Embargo.Rehearsal
