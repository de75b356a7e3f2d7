import Embargo.Proofs.Regular
import Embargo.Proofs.Retelling
import Embargo.Proofs.Moves
import Embargo.Rehearsal.Cast

/-!
# Hooks from inside calls

A client that is called may deliver hooks before the call returns.  Commands are made in the
controller's own scope, and for a consumer that the task holds: from inside a command all reports
are skipped, and the run is the one of clients that keep quiet.  Policies are not: they are put in
force, and wait for the consumer whose command they come from, in vain.  Queries are made outside of
the scope, and hooks from inside them take effect as if they had come from anywhere else.

* `Controller.delivering`, `Controller.hushed` — the controller whose clients report what they like
  while they carry out commands, or keep quiet;
* `State.quiet` — a state whose record says nothing of skipped hooks;
* `Program.run_hushed` — a program that reports no skipped hooks itself does the same for clients
  that keep quiet;
* `Controller.hushed_retells` — and so does the whole controller, if its commands return;
* `Controller.receive_from_inside` — what comes from inside a query is dealt with like all else;
* `Controller.reentry_without_effect` — **no run is different for reports from inside commands**;
* `Controller.Interruption` — what becomes of a hook from inside a command;
* `Program.Withstands` — a program to which nothing else is done from inside its commands;
* `Controller.reentry_by_call` — **transitions and ways back are such programs**, unlike queries.
-/

namespace Embargo

variable {ω : Type}

/-! ### Clients that keep quiet -/

/-- What clients report while they carry out commands, about whichever clients. -/
abbrev Deliveries (ω : Type) :=
  ω → (now : Nat) → Client → Command → List (Client × LifecycleEvent)

/-- Clients that answer as they did before, and report this while they carry out commands. -/
def Environment.delivering (env : Environment ω) (hooks : Deliveries ω) : Environment ω :=
  { env with
    command := fun memory now client c =>
      { env.command memory now client c with
        delivered := (hooks memory now client c).map fun r => .lifecycle r.1 r.2 } }

/-- Clients that only report while they carry out commands bring no policies. -/
theorem Environment.delivering_prompt (env : Environment ω) (hooks : Deliveries ω) :
    (env.delivering hooks).Prompt := by
  intro memory now client c h hh
  obtain ⟨r, -, rfl⟩ := List.mem_map.1 hh
  rfl

/-- Clients that answer as they did before, and keep quiet while they carry out commands. -/
def Environment.hushed (env : Environment ω) : Environment ω :=
  env.delivering fun _ _ _ _ => []

/-- The controller whose clients report this while they carry out commands. -/
def Controller.delivering (k : Controller ω) (hooks : Deliveries ω) : Controller ω :=
  { k with environment := k.environment.delivering hooks }

/-- The controller whose clients keep quiet while they carry out commands. -/
def Controller.hushed (k : Controller ω) : Controller ω :=
  { k with environment := k.environment.hushed }

/-- Whether an occurrence is a hook that was skipped. -/
def Occurrence.isSkip : Occurrence → Bool
  | .notice (.hookSkipped _) => true
  | _ => false

/-- The state, with nothing said of skipped hooks. -/
def State.quiet (s : State ω) : State ω :=
  { s with log := s.log.filter fun e => !e.what.isSkip }

/-- To say nothing of skipped hooks is to tell the record in other words. -/
def Event.unlessSkip : Event → Option Event :=
  Option.guard fun e => !e.what.isSkip

theorem State.quiet_eq_retold (s : State ω) : s.quiet = s.retold Event.unlessSkip id := by
  rw [State.quiet, State.retold, Log.retold, Event.unlessSkip, List.filterMap_eq_filter]
  rfl

@[simp] theorem State.quiet_initial (policy : Policy) (memory : ω) :
    (State.initial policy memory).quiet = State.initial policy memory := rfl

/-! ### Programs that report no skipped hooks -/

namespace Program

variable {α β : Type}

/-- A program does not report skipped hooks by itself. -/
def SkipsNothing : Program α → Prop
  | .done _ => True
  | .note n rest => (Occurrence.notice n).isSkip = false ∧ rest.SkipsNothing
  | .call _ _ next => ∀ r, (next r).SkipsNothing

theorem SkipsNothing.bind {p : Program α} {f : α → Program β} (hp : p.SkipsNothing)
    (hf : ∀ a, (f a).SkipsNothing) : (p.bind f).SkipsNothing := by
  induction p with
  | done a => exact hf a
  | note n rest ih => exact ⟨hp.1, ih hp.2⟩
  | call own c next ih => exact fun r => ih r (hp r)

theorem skipsNothing_reportFailure {n : Error → Notice}
    (hn : ∀ e, (Occurrence.notice (n e)).isSkip = false) (r : Except Error Unit) :
    (reportFailure n r).SkipsNothing := by
  cases r with
  | error e => exact ⟨hn e, trivial⟩
  | ok => trivial

theorem isSkip_eq_false {n : Notice} (hn : ∀ hook, n ≠ .hookSkipped hook) :
    (Occurrence.notice n).isSkip = false := by
  cases n with
  | hookSkipped hook => exact absurd rfl (hn hook)
  | _ => rfl

/-- Regular programs report no skipped hooks. -/
theorem Regular.skipsNothing {p : Program α} (h : p.Regular) : p.SkipsNothing := by
  induction h with
  | done a => trivial
  | note hn _ ih => exact ⟨isSkip_eq_false hn, ih⟩
  | call _ _ ih => exact ih
  | rebalance hn _ ih =>
    intro r
    refine (skipsNothing_reportFailure ?_ r).bind fun _ => ih
    intro e
    refine isSkip_eq_false ?_
    intro hook hhook
    have hfailure := hn e
    rw [hhook] at hfailure
    cases hfailure

/-- **For clients that keep quiet a program does the same.** -/
theorem run_hushed (env : Environment ω) (now : Nat) (u : Subject) (p : Program α)
    (hp : p.SkipsNothing) : ∀ (memory : ω) (log : Log),
      p.run env.hushed now u memory (log.retold Event.unlessSkip) =
        Program.retold Event.unlessSkip (p.run env now u memory log) := by
  induction p with
  | done a => exact fun memory log => rfl
  | note n rest ih =>
    intro memory log
    have hkeep : Event.unlessSkip { time := now, who := some u.client.id, what := .notice n } =
        some { time := now, who := some u.client.id, what := .notice n } := by
      refine Option.guard_eq_some_iff.2 ⟨rfl, ?_⟩
      rw [hp.1]
      rfl
    have hrest := ih hp.2 memory
      ({ time := now, who := some u.client.id, what := .notice n } :: log)
    rw [Log.retold, List.filterMap_cons, hkeep] at hrest
    exact hrest
  | call own c next ih =>
    intro memory log
    let answer := env.command memory now u.client c
    have hrest := ih answer.result (hp answer.result) answer.memory
      ((commandEvents now u c answer.result.isOk answer.delivered).reverse ++ log)
    rw [Log.retold, List.filterMap_append, filterMap_commandEvents fun _ _ _ => rfl] at hrest
    exact hrest

/-- When commands return, clients that keep quiet make no difference to a regular program. -/
theorem Regular.runsRetold {env : Environment ω} (henv : env.Prompt) {p : Program α}
    (hp : p.Regular) (now : Nat) (u : Subject) :
    p.RunsRetold Event.unlessSkip env env.hushed now u := by
  intro memory log
  refine ⟨?_, run_hushed env now u p hp.skipsNothing memory log⟩
  rw [waits_of_prompt henv]
  exact waits_of_prompt (env.delivering_prompt _) now u p memory

end Program

namespace Controller

/-- **The controller whose clients keep quiet does the same**, if commands return, and says nothing
of skipped hooks. -/
theorem hushed_retells {k : Controller ω} (henv : k.environment.Prompt) :
    Retells Event.unlessSkip k k.hushed where
  config := rfl
  handler := rfl
  sweepOrder := rfl
  query := rfl
  members := rfl
  keeps := fun e he => Option.guard_eq_some_iff.2 ⟨rfl, by
    rcases e with ⟨time, who, what⟩
    revert he
    cases what with
    | notice n => cases n <;> simp [Occurrence.isTransitional, Occurrence.isSkip]
    | _ => exact fun _ => rfl⟩
  drive := fun now u d c => (c.drive_regular now d).runsRetold henv now u
  rollBack := fun now u c => (c.rollBack_regular now).runsRetold henv now u

variable {k : Controller ω} {s : State ω}

/-! ### Queries -/

/-- Every controller does what it does. -/
theorem Retells.refl (k : Controller ω) : Retells some k k where
  config := rfl
  handler := rfl
  sweepOrder := rfl
  query := rfl
  members := rfl
  keeps := fun _ _ => rfl
  drive := fun now u d c memory log => by
    simp only [Program.retold, Log.retold, List.filterMap_some, and_self]
  rollBack := fun now u c memory log => by
    simp only [Program.retold, Log.retold, List.filterMap_some, and_self]

/-- Nothing depends on what has been received before. -/
theorem deliver_received (k : Controller ω) (s : State ω) (received : List Delivery) (h : Hook) :
    k.deliver { s with received } h = { k.deliver s h with received } := by
  have hretold := deliver_retold (r := fun _ => received) (Retells.refl k) s h
  simp only [State.retold, Log.retold, List.filterMap_some] at hretold
  exact hretold

/-- What comes from inside a query is dealt with like what comes from outside. -/
theorem receive_from_inside (k : Controller ω) (within : Option Confirmation)
    (received : List Delivery) (s : State ω) (h : Hook) :
    k.receive within { s with received } h =
      { k.receive none s h with received := .hook h within :: received } := by
  show k.deliver { s with received := .hook h within :: received } h =
    { k.deliver { s with received := .hook h none :: s.received } h with
      received := .hook h within :: received }
  rw [deliver_received, deliver_received k s (.hook h none :: s.received)]

theorem receiveAll_from_inside (k : Controller ω) (within : Option Confirmation)
    (hooks : List Hook) : ∀ (s : State ω) (received : List Delivery),
      hooks.foldl (k.receive within) { s with received } =
        { hooks.foldl (k.receive none) s with
          received := (hooks.map fun h => .hook h within).reverse ++ received } := by
  induction hooks with
  | nil => exact fun s received => rfl
  | cons h hooks ih =>
    intro s received
    rw [List.foldl_cons, List.foldl_cons, receive_from_inside, ih, List.map_cons,
      List.reverse_cons, List.append_assoc]
    rfl

/-! ### Reports -/

/-- **No run is any different for what clients report from inside commands**, whenever they do so,
about whichever clients and however often.  The run of clients that give the same answers and keep
quiet comes to an end just so, and all that it leaves out are the notices of skipped hooks, of which
there are none in it.  What comes from anywhere else, after any run, is not skipped: it is dealt
with as the table says, also from inside a query. -/
theorem reentry_without_effect (k : Controller ω) (hooks : Deliveries ω) (policy : Policy)
    (memory : ω) (patience : Nat) (inputs : List Input) :
    k.hushed.run patience (.initial policy memory) inputs =
        ((k.delivering hooks).run patience (.initial policy memory) inputs).map State.quiet ∧
      (∀ s, k.hushed.run patience (.initial policy memory) inputs = some s →
        ∀ e ∈ s.log, e.what.isSkip = false) ∧
      ∀ s, (k.delivering hooks).run patience (.initial policy memory) inputs = some s →
        ∀ within h, (k.delivering hooks).Treatment
          { s with received := .hook h within :: s.received } h
          ((k.delivering hooks).receive within s h) := by
  have hretells : Retells Event.unlessSkip (k.delivering hooks) k.hushed :=
    hushed_retells (k.environment.delivering_prompt hooks)
  have hrun : k.hushed.run patience (.initial policy memory) inputs =
      ((k.delivering hooks).run patience (.initial policy memory) inputs).map State.quiet := by
    rw [← State.quiet_initial, State.quiet_eq_retold, run_retold hretells onTop_id]
    exact congrArg₂ Option.map (funext fun s => s.quiet_eq_retold.symm) rfl
  refine ⟨hrun, fun s hs e he => ?_, fun s hs within h => ?_⟩
  · rw [hrun, Option.map_eq_some_iff] at hs
    obtain ⟨s', -, rfl⟩ := hs
    simpa using (List.mem_filter.1 he).2
  · exact receive_treated _ within h (Reachable.start.run hs).inOrder.tidy

/-- The newcomer unsubscribes and starts again whenever it is asked to persist its offsets, and
shuts down when it has to rebalance. -/
def restless : Deliveries Rehearsal.Script := fun _ _ _ c =>
  match c with
  | .persistOffsets => [(Rehearsal.newcomer, .unsubscribe "t"), (Rehearsal.newcomer, .start)]
  | .rebalance => [(Rehearsal.newcomer, .shutdown)]
  | _ => []

/-- For all its reports the newcomer leaves its group as it does without them. -/
theorem reentry_without_effect_of_restless :
    ∃ s, (Rehearsal.stage.delivering restless).run 0
        (.initial (.prohibiting ["t"]) ({} : Rehearsal.Script)) Rehearsal.entrance = some s ∧
      (s.log.filter fun e => e.what.isSkip).length = 3 ∧
      Rehearsal.stage.hushed.run 0 (.initial (.prohibiting ["t"]) ({} : Rehearsal.Script))
        Rehearsal.entrance = some s.quiet ∧
      ∀ within h, (Rehearsal.stage.delivering restless).Treatment
        { s with received := .hook h within :: s.received } h
        ((Rehearsal.stage.delivering restless).receive within s h) := by
  have hrun : ((Rehearsal.stage.delivering restless).run 0
      (.initial (.prohibiting ["t"]) ({} : Rehearsal.Script)) Rehearsal.entrance).map
        (fun s => (s.log.filter fun e => e.what.isSkip).length) = some 3 := by
    decide +kernel
  obtain ⟨s, hs, hskips⟩ := Option.map_eq_some_iff.1 hrun
  obtain ⟨hquiet, -, htreated⟩ :=
    reentry_without_effect Rehearsal.stage restless (.prohibiting ["t"]) {} 0 Rehearsal.entrance
  exact ⟨s, hs, hskips, hquiet.trans (congrArg (Option.map State.quiet) hs), htreated s hs⟩

/-! ### Any hook -/

/-- What becomes of a hook from inside a command that is made for a consumer. -/
inductive Interruption (id : ConsumerId) (s : State ω) : Hook → State ω → Prop where
  /-- A report is skipped.  A notice is all that remains of it. -/
  | skipped (client : Client) (e : LifecycleEvent) :
      Interruption id s (.lifecycle client e) (s.report id (.hookSkipped e.name))
  /-- A policy is put in force, and then waits in vain. -/
  | waiting {h : Hook} {p : Policy} {s' : State ω} (hpolicy : h.policy? = some p)
      (hforce : s'.policy.current = p.normalized) (hstuck : s'.stuck = true) :
      Interruption id s h s'
  /-- A document that cannot be read changes nothing. -/
  | unreadable {h : Hook} (hpolicy : h.policy? = none) (hreport : h.report? = none) :
      Interruption id s h s

/-- What becomes of a hook in the controller's own scope, in a task that holds a registered
consumer. -/
theorem entrance_interruption (k : Controller ω) (depth : Nat) {task : Task} {id id' : ConsumerId}
    (hheld : id ∈ task.holds) (hreg : (s.consumer? id).isSome) (h : Hook) :
    Interruption id' s h (k.entrance (depth + 1) (task.calling true id') s h) := by
  cases hpolicy : h.policy? with
  | some p =>
    refine .waiting hpolicy ?_ ?_
    · exact k.deliverWith_installs (k.driveIn_policy depth _) _ s hpolicy
    · have hheld' : id ∈ (task.calling true id').holds := hheld
      exact k.deliverWith_waits (k.driveIn_sticks (k.entrance depth) _) hreg hheld'
        (Option.isSome_of_eq_some hpolicy)
  | none =>
    cases h with
    | lifecycle client e =>
      rw [entrance, k.deliverWith_own _ rfl]
      exact .skipped client e
    | policyUpdate p => cases hpolicy
    | policyDelivery p => cases hpolicy
    | policyDocument text =>
      rw [entrance, k.deliverWith_unreadable _ _ s hpolicy rfl]
      exact .unreadable hpolicy rfl

end Controller

open Controller in
/-- A program withstands what is delivered from inside its commands, when it is carried out for a
consumer.  Every hook that is let in finds all as it was, but what clients remember and what is on
record, and is skipped unless it brings a policy.  A policy never comes back, and nor does the
program. -/
def Program.Withstands {α : Type} (k : Controller ω) (depth : Nat) (task : Task)
    (u : Program.Subject) (s : State ω) (p : Program α) : Prop :=
  ∀ inside found h, p.LetsIn (k.entrance depth) k.environment task u s inside found h →
    s.Unmoved found ∧
      Interruption u.client.id found h (k.entrance depth inside found h) ∧
      (h.policy?.isSome → (p.execute (k.entrance depth) k.environment task u s).2.stuck = true)

open Controller in
/-- Programs that make each call in its scope withstand what is delivered from inside it. -/
theorem Program.Scoped.withstands {α : Type} {p : Program α} (hp : p.Scoped) (k : Controller ω)
    (depth : Nat) {task : Task} {id : ConsumerId} (hheld : id ∈ task.holds) (u : Program.Subject)
    {s : State ω} (hreg : (s.consumer? id).isSome) : p.Withstands k (depth + 1) task u s := by
  intro inside found h hlet
  obtain ⟨rfl, hfound⟩ := hlet.own hheld hp hreg
  have hreg' : (found.consumer? id).isSome := by
    rw [hfound.consumer?_eq]
    exact hreg
  refine ⟨hfound, entrance_interruption k depth hheld hreg' h, fun hpolicy => hlet.sticks ?_⟩
  rw [Program.reenter_command depth hheld hreg', hpolicy]
  exact Bool.or_true _

namespace Controller

/-- **What hooks do that are delivered from inside a call**, however deep calls are inside each
other.  Transitions and ways back of a registered consumer withstand all hooks from inside their
commands.  Queries do not: what comes from inside them, one after the other, is dealt with as the
table says. -/
theorem reentry_by_call (k : Controller ω) (depth : Nat) (task : Task) (u : Program.Subject)
    {id : ConsumerId} {c : Consumer} (hs : s.Tidy) (hreg : s.consumer? id = some c) :
    (∀ d, (c.drive s.now d).Withstands k (depth + 1) (task.holding id) u s) ∧
      (c.rollBack s.now).Withstands k (depth + 1) (task.holding id) u s ∧
      ∀ (t : Confirmation) topic before h after memory found,
        k.environment.query s.memory s.now t.client topic t.group =
            (.ok (before ++ h :: after), memory) →
          before.foldl (k.receive (some t)) (accepted t topic memory s) = found →
            k.Treatment { found with received := .hook h (some t) :: found.received } h
              (k.receive (some t) found h) := by
  have hreg' := Option.isSome_of_eq_some hreg
  refine ⟨fun d => ?_, ?_, ?_⟩
  · exact (c.drive_regular s.now d).scoped.withstands k depth (task.mem_holding id) u hreg'
  · exact (c.rollBack_regular s.now).scoped.withstands k depth (task.mem_holding id) u hreg'
  · rintro t topic before h after memory found - rfl
    have hkept := (Kept.tidy k).keptBy.toKeptDuring
    have hasked : (accepted t topic memory s).Tidy := hs.of_eq rfl rfl
    exact receive_treated k (some t) h (hkept.receiveAll (some t) before hasked hasked).2

/-- A script in which the newcomer subscribes once more while it is asked for members, of whom there
are none, and lifts the prohibition while it rejoins its group. -/
def meddling : Rehearsal.Script :=
  Rehearsal.Script.withPart {} Rehearsal.newcomer.handle
    { members := Std.ExtTreeMap.insert ∅ "t" [[]]
      reentered := (Std.ExtTreeMap.insert ∅ "find_consumer_ids"
        [.lifecycle Rehearsal.newcomer (.subscribe "u")]).insert "register_consumer"
        [.policyUpdate .disabled] }

/-- The newcomer has left its group.  What it subscribes to while it is asked for members is dealt
with, and no way back that it lifts the prohibition from comes to an end. -/
theorem reentry_by_call_of_meddling :
    ∃ s c t h h' memory inside found,
      Rehearsal.stage.run 0 (.initial (.prohibiting ["t"]) meddling) Rehearsal.entrance = some s ∧
      s.consumer? Rehearsal.newcomer.id = some c ∧ t ∈ s.confirmations ∧
      Rehearsal.stage.environment.query s.memory s.now t.client "t" t.group = (.ok [h], memory) ∧
      Rehearsal.stage.Treatment
        { accepted t "t" memory s with received := .hook h (some t) :: s.received } h
        (Rehearsal.stage.receive (some t) (accepted t "t" memory s) h) ∧
      (c.rollBack s.now).LetsIn (Rehearsal.stage.entrance (depth s)) Rehearsal.stage.environment
        (Task.outside.holding Rehearsal.newcomer.id) ⟨Rehearsal.newcomer, 0⟩ s inside found h' ∧
      h'.policy?.isSome ∧
      ((c.rollBack s.now).execute (Rehearsal.stage.entrance (depth s)) Rehearsal.stage.environment
        (Task.outside.holding Rehearsal.newcomer.id) ⟨Rehearsal.newcomer, 0⟩ s).2.stuck = true := by
  have hrun : ((Rehearsal.stage.run 0 (.initial (.prohibiting ["t"]) meddling)
      Rehearsal.entrance).bind fun s => (s.consumer? Rehearsal.newcomer.id).bind fun c =>
        s.confirmations.head?.map fun t =>
          ((Rehearsal.stage.environment.query s.memory s.now t.client "t" t.group).1.toOption.map
              List.length,
            (Rehearsal.stage.environment.command s.memory s.now Rehearsal.newcomer
              (.register c.group)).delivered.map fun h => h.policy?.isSome)) =
      some (some 1, [true]) := by
    decide +kernel
  obtain ⟨s, hs, hrest⟩ := Option.bind_eq_some_iff.1 hrun
  obtain ⟨c, hreg, hrest⟩ := Option.bind_eq_some_iff.1 hrest
  obtain ⟨t, ht, hboth⟩ := Option.map_eq_some_iff.1 hrest
  obtain ⟨hasked, hlifted⟩ := Prod.mk.inj hboth
  obtain ⟨h', hdelivered, hpolicy⟩ := List.map_eq_singleton_iff.1 hlifted
  obtain ⟨hooks, hok, hlength⟩ := Option.map_eq_some_iff.1 hasked
  obtain ⟨h, rfl⟩ := List.length_eq_one_iff.1 hlength
  rcases hquery : Rehearsal.stage.environment.query s.memory s.now t.client "t" t.group with
    ⟨result, memory⟩
  rw [hquery] at hok
  cases result with
  | error e => cases hok
  | ok hooks =>
    cases hok
    obtain ⟨-, hback, hmembers⟩ := reentry_by_call Rehearsal.stage s.registry.size .outside
      ⟨Rehearsal.newcomer, 0⟩ (Reachable.start.run hs).inOrder.tidy hreg
    have hfirst : (Rehearsal.stage.environment.command s.memory s.now Rehearsal.newcomer
        (.register c.group)).delivered = [] ++ h' :: [] := hdelivered
    obtain ⟨inside, found, hlet⟩ : ∃ inside found, (c.rollBack s.now).LetsIn
        (Rehearsal.stage.entrance (depth s)) Rehearsal.stage.environment
        (Task.outside.holding Rehearsal.newcomer.id) ⟨Rehearsal.newcomer, 0⟩ s inside found h' :=
      ⟨_, _, .here hfirst⟩
    exact ⟨s, c, t, h, h', memory, inside, found, hs, hreg, List.mem_of_mem_head? ht, hquery,
      hmembers t "t" [] h [] memory _ hquery rfl, hlet, hpolicy, (hback _ _ h' hlet).2.2 hpolicy⟩

/-- **A query is not a command**: what the newcomer subscribes to while it is asked for members it
is subscribed to afterwards, although nothing has come from outside. -/
theorem exists_reentry_from_query :
    ∃ s s' c, Rehearsal.stage.run 0 (.initial (.prohibiting ["t"]) meddling)
        Rehearsal.entrance = some s ∧
      Rehearsal.stage.run 0 s [.pass 1000] = some s' ∧
      (s.consumer? Rehearsal.newcomer.id).map (fun c => c.topics.toList) = some ["t"] ∧
      s'.consumer? Rehearsal.newcomer.id = some c ∧ c.topics.toList = ["t", "u"] := by
  have hrun : ((Rehearsal.stage.run 0 (.initial (.prohibiting ["t"]) meddling)
      Rehearsal.entrance).bind fun s => (Rehearsal.stage.run 0 s [.pass 1000]).map fun s' =>
        ((s.consumer? Rehearsal.newcomer.id).map fun c => c.topics.toList,
          (s'.consumer? Rehearsal.newcomer.id).map fun c => c.topics.toList)) =
      some (some ["t"], some ["t", "u"]) := by
    decide +kernel
  obtain ⟨s, hs, hrest⟩ := Option.bind_eq_some_iff.1 hrun
  obtain ⟨s', hs', htopics⟩ := Option.map_eq_some_iff.1 hrest
  obtain ⟨hbefore, hafter⟩ := Prod.mk.inj htopics
  obtain ⟨c, hreg, hc⟩ := Option.map_eq_some_iff.1 hafter
  exact ⟨s, s', c, hs, hs', hbefore, hreg, hc⟩

end Controller

end Embargo
