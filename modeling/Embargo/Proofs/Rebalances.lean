import Embargo.Proofs.Mirroring
import Embargo.Proofs.Regular
import Embargo.Rehearsal.Cast

/-!
# Rebalances

Whether a client succeeds in rebalancing is nobody's business but its own: a failure is reported,
and that is all.  So two runs in which clients give the same answers, but for how rebalances end,
are the same, and their records differ in what they say of the rebalances themselves.

* `Environment.SameButRebalances` — clients that give the same answers, but for how rebalances end,
  and bring policies from inside the same commands;
* `Event.plain` — an event, with nothing said of how rebalances end;
* `Program.Regular.run` — regular programs do the same for such clients;
* `Controller.SameButRebalances.mirrors` — and so do whole controllers;
* `Rehearsal.Script.sameButRebalances` — scripts that differ in how rebalances are told to end;
* `State.Twins` — two states that only differ in what is on record of how rebalances ended;
* `Controller.rebalances_immaterial` — **how rebalances end is immaterial**.
-/

namespace Embargo

variable {ω ω' : Type}

/-! ### The same answers -/

/-- Clients of two environments give the same answers, but for how rebalances end.  `R` tells which
memories they answer from. -/
structure Environment.SameButRebalances (R : ω → ω' → Prop) (env : Environment ω)
    (env' : Environment ω') : Prop where
  /-- Also how a rebalance ends makes no difference to later answers. -/
  memory : ∀ {m m'}, R m m' → ∀ now client c,
    R (env.command m now client c).memory (env'.command m' now client c).memory
  result : ∀ {m m'}, R m m' → ∀ now client c, c ≠ .rebalance →
    (env'.command m' now client c).result = (env.command m now client c).result
  /-- Policies are brought from inside the same commands. -/
  policies : ∀ {m m'}, R m m' → ∀ now client c,
    (env'.command m' now client c).delivered.any (fun h => h.policy?.isSome) =
      (env.command m now client c).delivered.any fun h => h.policy?.isSome
  query : ∀ {m m'}, R m m' → ∀ now client topic group,
    Agree R (env.query m now client topic group) (env'.query m' now client topic group)
  members : ∀ {m m'}, R m m' → ∀ now client topic group,
    Agree R (env.members m now client topic group) (env'.members m' now client topic group)

/-- Two controllers with such clients; their handlers decide in the same way. -/
structure Controller.SameButRebalances (R : ω → ω' → Prop) (k : Controller ω)
    (k' : Controller ω') : Prop where
  config : k'.config = k.config
  sweepOrder : k'.sweepOrder = k.sweepOrder
  name : k'.handler.name = k.handler.name
  plan : ∀ {m m'}, R m m' → ∀ trigger c p,
    Agree R (k.handler.plan m trigger c p) (k'.handler.plan m' trigger c p)
  environment : k.environment.SameButRebalances R k'.environment

/-! ### What is on record otherwise -/

/-- An event, with nothing said of how rebalances end, or of the hooks that are skipped while
commands are carried out. -/
def Event.plain (e : Event) : Option Event :=
  match e.what with
  | .call client life (.command .rebalance) _ =>
      some { e with what := .call client life (.command .rebalance) true }
  | .notice (.hookSkipped _) => none
  | .notice n => if n.isRebalanceFailure then none else some e
  | _ => some e

/-- The record, with nothing said of how rebalances end. -/
abbrev Log.plain (l : Log) : Log :=
  l.filterMap Event.plain

theorem Log.plain_append (l₁ l₂ : Log) : (l₁ ++ l₂).plain = l₁.plain ++ l₂.plain :=
  List.filterMap_append

/-- Whatever happens, records that are the same otherwise stay so. -/
theorem Log.plain_cons {l l' : Log} (h : l'.plain = l.plain) (e : Event) :
    Log.plain (e :: l') = Log.plain (e :: l) := by
  simp only [Log.plain] at h ⊢
  rw [List.filterMap_cons, List.filterMap_cons, h]

/-- The call that an event is about: when it was made, on which client and in which of its lives,
and what was called. -/
def Event.placed? (e : Event) : Option (Nat × Client × Nat × Call) :=
  match e.what with
  | .call client life call _ => some (e.time, client, life, call)
  | _ => none

/-- The calls that have been made, the earliest first. -/
def Log.placed (l : Log) : List (Nat × Client × Nat × Call) :=
  (l.filterMap Event.placed?).reverse

theorem Event.placed?_plain (e : Event) : e.plain.bind Event.placed? = e.placed? := by
  rcases e with ⟨time, who, what⟩
  cases what with
  | notice n => cases n <;> rfl
  | call client life call ok =>
    cases call with
    | command c => cases c <;> rfl
    | findMembers topic group => rfl
  | listing => rfl
  | evaluation => rfl

/-- To say nothing of how rebalances end leaves no call out. -/
theorem Log.placed_plain (l : Log) : l.plain.placed = l.placed := by
  have hevent : (fun e : Event => e.plain.bind Event.placed?) = Event.placed? := by
    funext e
    exact e.placed?_plain
  rw [placed, placed, List.filterMap_filterMap, hevent]

/-- Failures to rebalance are left out. -/
theorem Event.plain_failure {time : Nat} {who : Option ConsumerId} {n : Notice}
    (h : n.isRebalanceFailure = true) : Event.plain { time, who, what := .notice n } = none := by
  cases n with
  | rebalanceAfterLeavingFailed => rfl
  | rebalanceAfterRejoiningFailed => rfl
  | rebalanceAfterRollbackFailed => rfl
  | _ => cases h

/-- Two runs are alike that only differ in what they say of how rebalances end. -/
def plainly (R : ω → ω' → Prop) : Likeness ω ω' where
  memory := R
  received := fun ds ds' => ds' = ds
  log := fun l l' => l'.plain = l.plain
  keeps := by
    intro l l' e _ hl
    exact Log.plain_cons hl e

/-! ### Regular programs -/

namespace Program

variable {α : Type} {R : ω → ω' → Prop} {env : Environment ω} {env' : Environment ω'}

/-- Of a command the call is what remains. -/
theorem plain_commandEvents (now : Nat) (s : Subject) (c : Command) (ok : Bool)
    (delivered : List Hook) :
    Log.plain (commandEvents now s c ok delivered).reverse =
      (Event.plain { time := now
                     who := some s.client.id
                     what := .call s.client s.life (.command c) ok }).toList :=
  filterMap_commandEvents (fun _ _ _ => rfl) now s c ok delivered

/-- Nothing that is reported of a rebalance remains. -/
theorem run_reportFailure {n : Error → Notice} (hn : ∀ e, (n e).isRebalanceFailure = true)
    (r : Except Error Unit) (rest : Program α) (env : Environment ω) (now : Nat) (s : Subject) :
    ∃ reported : Log, reported.plain = [] ∧ ∀ memory log,
      ((reportFailure n r).bind fun _ => rest).run env now s memory log =
        rest.run env now s memory (reported ++ log) := by
  cases r with
  | ok =>
    refine ⟨[], rfl, ?_⟩
    intro memory log
    rfl
  | error e =>
    refine ⟨[{ time := now, who := some s.client.id, what := .notice (n e) }], ?_, ?_⟩
    · rw [Log.plain, List.filterMap_cons, Event.plain_failure (hn e), List.filterMap_nil]
    · intro memory log
      rfl

/-- Nor does what is reported make the rest wait. -/
theorem waits_reportFailure (n : Error → Notice) (r : Except Error Unit) (rest : Program α)
    (env : Environment ω) (now : Nat) (s : Subject) (memory : ω) :
    ((reportFailure n r).bind fun _ => rest).waits env now s memory =
      rest.waits env now s memory := by
  cases r <;> rfl

/-- Regular programs wait for clients that give the same answers in the same cases. -/
theorem Regular.waits_eq {p : Program α} (h : p.Regular) (henv : env.SameButRebalances R env')
    (now : Nat) (s : Subject) : ∀ {m m'}, R m m' →
      p.waits env' now s m' = p.waits env now s m := by
  induction h with
  | done a =>
    intro m m' hm
    rfl
  | note _ _ ih =>
    intro m m' hm
    exact ih hm
  | @call c next hc _ ih =>
    intro m m' hm
    rw [Program.waits, Program.waits, henv.policies hm, henv.result hm now s.client c hc]
    exact congrArg _ (ih _ (henv.memory hm now s.client c))
  | rebalance _ _ ih =>
    intro m m' hm
    rw [Program.waits, Program.waits, henv.policies hm]
    refine congrArg _ ?_
    rw [waits_reportFailure, waits_reportFailure]
    exact ih (henv.memory hm now s.client .rebalance)

/-- **Regular programs do the same for clients that give the same answers**, but for how rebalances
end. -/
theorem Regular.run {p : Program α} (h : p.Regular) (henv : env.SameButRebalances R env')
    (now : Nat) (s : Subject) : ∀ {m m' l l'}, R m m' → Log.plain l' = Log.plain l →
      (plainly R).Results (p.run env now s m l) (p.run env' now s m' l') := by
  induction h with
  | done a =>
    intro m m' l l' hm hl
    exact ⟨rfl, hm, hl⟩
  | note hn _ ih =>
    intro m m' l l' hm hl
    exact ih hm (Log.plain_cons hl _)
  | @call c next hc _ ih =>
    intro m m' l l' hm hl
    rw [Program.run, Program.run, henv.result hm now s.client c hc]
    refine ih _ (henv.memory hm now s.client c) ?_
    rw [Log.plain_append, Log.plain_append, hl, plain_commandEvents, plain_commandEvents]
  | @rebalance n rest hn _ ih =>
    intro m m' l l' hm hl
    rw [Program.run, Program.run]
    generalize (env.command m now s.client .rebalance).result = r
    generalize (env'.command m' now s.client .rebalance).result = r'
    -- whatever is reported of either of them, the rest is run from the same record otherwise
    obtain ⟨reported, hnil, hrun⟩ := run_reportFailure hn r rest env now s
    obtain ⟨reported', hnil', hrun'⟩ := run_reportFailure hn r' rest env' now s
    rw [hrun, hrun']
    refine ih (henv.memory hm now s.client .rebalance) ?_
    simp only [Log.plain_append]
    rw [hnil, hnil', hl, plain_commandEvents, plain_commandEvents]
    rfl

end Program

/-! ### Scripts that differ in how rebalances end -/

namespace Rehearsal

/-- A client brings no policies while it rebalances. -/
def Part.Prompt (p : Part) : Prop :=
  ∀ h ∈ p.hooks Command.rebalance.name, h.policy? = none

/-- Two parts are the same, but for what they say of how rebalances end.  They bring no policies
meanwhile, which a rebalance that fails would not do. -/
def Part.SameButRebalances (p p' : Part) : Prop :=
  p.Prompt ∧ ∃ failures, p' = { p with failures } ∧ ∀ operation,
    operation ≠ Command.rebalance.name → failures[operation]? = p.failures[operation]?

/-- Two scripts are the same, but for what they say of rebalances. -/
def Script.SameButRebalances (s s' : Script) : Prop :=
  ∀ handle, (s.part handle).SameButRebalances (s'.part handle)

namespace Part.SameButRebalances

variable {p p' : Part}

theorem refl (hp : p.Prompt) : p.SameButRebalances p :=
  ⟨hp, p.failures, rfl, fun _ _ => rfl⟩

theorem symm (h : p.SameButRebalances p') : p'.SameButRebalances p := by
  obtain ⟨hp, failures, rfl, hfailures⟩ := h
  refine ⟨hp, p.failures, rfl, ?_⟩
  intro operation hop
  exact (hfailures operation hop).symm

theorem trans {p'' : Part} (h : p.SameButRebalances p') (h' : p'.SameButRebalances p'') :
    p.SameButRebalances p'' := by
  obtain ⟨hp, failures, rfl, hfailures⟩ := h
  obtain ⟨-, failures', rfl, hfailures'⟩ := h'
  refine ⟨hp, failures', rfl, ?_⟩
  intro operation hop
  exact (hfailures' operation hop).trans (hfailures operation hop)

/-- To attempt a rebalance, however it ends, changes nothing but what is said of rebalances. -/
theorem attempt_rebalance (hp : p.Prompt) :
    p.SameButRebalances (p.attempt Command.rebalance.name).2 := by
  rw [Part.attempt]
  rcases p.failures[Command.rebalance.name]? with _ | ⟨message, _ | _ | n⟩
  · exact refl hp
  · exact refl hp
  · exact refl hp
  · refine ⟨hp, _, rfl, ?_⟩
    intro operation hop
    rw [Std.ExtTreeMap.getElem?_insert, if_neg]
    simpa using hop.symm

/-- Whatever else is attempted ends in the same way. -/
theorem attempt (h : p.SameButRebalances p') {operation : String}
    (hop : operation ≠ Command.rebalance.name) :
    (p'.attempt operation).1 = (p.attempt operation).1 ∧
      (p.attempt operation).2.SameButRebalances (p'.attempt operation).2 := by
  obtain ⟨hp, failures, rfl, hfailures⟩ := h
  rw [Part.attempt, Part.attempt, hfailures operation hop]
  rcases p.failures[operation]? with _ | ⟨message, _ | _ | n⟩
  · exact ⟨rfl, hp, failures, rfl, hfailures⟩
  · exact ⟨rfl, hp, failures, rfl, hfailures⟩
  · exact ⟨rfl, hp, failures, rfl, hfailures⟩
  · refine ⟨rfl, hp, failures.insert operation ⟨message, some n⟩, rfl, ?_⟩
    intro other hother
    simp only [Std.ExtTreeMap.getElem?_insert, hfailures other hother]

theorem hooks (h : p.SameButRebalances p') (operation : String) :
    p'.hooks operation = p.hooks operation := by
  obtain ⟨-, failures, rfl, -⟩ := h
  rfl

theorem effect (h : p.SameButRebalances p') (c : Command) :
    (p.effect c).SameButRebalances (p'.effect c) := by
  obtain ⟨hp, failures, rfl, hfailures⟩ := h
  cases c <;> exact ⟨hp, failures, rfl, hfailures⟩

theorem list (h : p.SameButRebalances p') (clientId topic : String) :
    (p'.list clientId topic).1 = (p.list clientId topic).1 ∧
      (p.list clientId topic).2.SameButRebalances (p'.list clientId topic).2 := by
  obtain ⟨hp, failures, rfl, hfailures⟩ := h
  rw [Part.list, Part.list]
  rcases p.members[topic]? with _ | _ | ⟨l, _ | ⟨l', ls⟩⟩
  · dsimp only
    split <;> exact ⟨rfl, hp, failures, rfl, hfailures⟩
  · exact ⟨rfl, hp, failures, rfl, hfailures⟩
  · exact ⟨rfl, hp, failures, rfl, hfailures⟩
  · exact ⟨rfl, hp, failures, rfl, hfailures⟩

end Part.SameButRebalances

namespace Script

variable {s s' : Script} {p p' : Part}

theorem part_withPart (s : Script) (handle handle' : String) (p : Part) :
    (s.withPart handle p).part handle' = if handle = handle' then p else s.part handle' := by
  simp only [part, withPart, Std.ExtTreeMap.getD_insert, Std.LawfulEqOrd.compare_eq_iff_eq]

/-- Scripts in which one part is replaced. -/
theorem SameButRebalances.withPart (h : s.SameButRebalances s') (hp : p.SameButRebalances p')
    (handle : String) : (s.withPart handle p).SameButRebalances (s'.withPart handle p') := by
  intro handle'
  rw [part_withPart, part_withPart]
  split
  · exact hp
  · exact h handle'

/-- What becomes of a script when a rebalance is attempted. -/
theorem memory_rebalance (s : Script) (now : Nat) (client : Client) :
    (environment.command s now client .rebalance).memory =
      s.withPart client.handle ((s.part client.handle).attempt Command.rebalance.name).2 := by
  simp only [environment]
  rcases (s.part client.handle).attempt Command.rebalance.name with ⟨_ | e, p⟩ <;> rfl

/-- Any other command ends in the same way, and brings the same hooks with it. -/
theorem SameButRebalances.command (h : s.SameButRebalances s') (now : Nat) (client : Client)
    {c : Command} (hc : c ≠ .rebalance) :
    (environment.command s' now client c).result = (environment.command s now client c).result ∧
      (environment.command s' now client c).delivered =
        (environment.command s now client c).delivered ∧
      (environment.command s now client c).memory.SameButRebalances
        (environment.command s' now client c).memory := by
  have hname : c.name ≠ Command.rebalance.name := by
    cases c <;> simp [Command.name] at hc ⊢
  obtain ⟨hsame, hafter⟩ := (h client.handle).attempt hname
  simp only [environment]
  generalize (s.part client.handle).attempt c.name = x at hsame hafter ⊢
  generalize (s'.part client.handle).attempt c.name = x' at hsame hafter ⊢
  rcases x with ⟨failed, p⟩
  rcases x' with ⟨failed', p'⟩
  obtain rfl : failed' = failed := hsame
  cases failed' with
  | none => exact ⟨rfl, hafter.hooks _, h.withPart (hafter.effect c) client.handle⟩
  | some e => exact ⟨rfl, rfl, h.withPart hafter client.handle⟩

/-- While it rebalances a client brings no policies, however that ends. -/
theorem policies_rebalance {client : Client} (hp : (s.part client.handle).Prompt) (now : Nat) :
    (environment.command s now client .rebalance).delivered.any (fun h => h.policy?.isSome) =
      false := by
  have hafter := Part.SameButRebalances.attempt_rebalance hp
  rw [List.any_eq_false]
  intro h hh
  simp only [environment] at hh
  rcases hattempt : (s.part client.handle).attempt Command.rebalance.name with ⟨_ | e, p⟩
  · rw [hattempt] at hh hafter
    rw [hp h (hafter.hooks _ ▸ hh)]
    exact Bool.false_ne_true
  · rw [hattempt] at hh
    cases hh

/-- **Clients whose scripts differ in how rebalances end give the same answers otherwise.** -/
theorem sameButRebalances :
    environment.SameButRebalances SameButRebalances environment where
  memory := by
    intro s s' h now client c
    by_cases hc : c = .rebalance
    · subst hc
      rw [memory_rebalance, memory_rebalance]
      refine h.withPart ?_ client.handle
      have hboth := h client.handle
      exact (Part.SameButRebalances.attempt_rebalance hboth.1).symm.trans
        (hboth.trans (.attempt_rebalance hboth.symm.1))
    · exact (h.command now client hc).2.2
  result := by
    intro s s' h now client c hc
    exact (h.command now client hc).1
  policies := by
    intro s s' h now client c
    by_cases hc : c = .rebalance
    · subst hc
      rw [policies_rebalance (h client.handle).1, policies_rebalance (h client.handle).symm.1]
    · rw [(h.command now client hc).2.1]
  query := by
    intro s s' h now client topic group
    have hname : (Call.findMembers topic group).name ≠ Command.rebalance.name := by
      simp [Call.name, Command.name]
    obtain ⟨hsame, hafter⟩ := (h client.handle).attempt hname
    simp only [environment]
    generalize (s.part client.handle).attempt _ = x at hsame hafter ⊢
    generalize (s'.part client.handle).attempt _ = x' at hsame hafter ⊢
    rcases x with ⟨failed, p⟩
    rcases x' with ⟨failed', p'⟩
    obtain rfl : failed' = failed := hsame
    cases failed' with
    | none => exact ⟨congrArg Except.ok (hafter.hooks _), h.withPart hafter client.handle⟩
    | some e => exact ⟨rfl, h.withPart hafter client.handle⟩
  members := by
    intro s s' h now client topic group
    obtain ⟨hsame, hafter⟩ := (h client.handle).list client.clientId topic
    exact ⟨hsame, h.withPart hafter client.handle⟩

end Script

end Rehearsal

/-! ### Whole runs -/

/-- Two states only differ in what is on record of how rebalances ended, and in memories that answer
alike. -/
structure State.Twins (R : ω → ω' → Prop) (s : State ω) (s' : State ω') : Prop where
  now : s'.now = s.now
  policy : s'.policy = s.policy
  registry : s'.registry = s.registry
  cache : s'.cache = s.cache
  confirmations : s'.confirmations = s.confirmations
  departed : s'.departed = s.departed
  memory : R s.memory s'.memory
  received : s'.received = s.received
  /-- The same calls have been made, with the same arguments and at the same times. -/
  calls : s'.log.placed = s.log.placed
  log : s'.log.plain = s.log.plain

theorem State.Twins.of_states {R : ω → ω' → Prop} {s : State ω} {s' : State ω'}
    (hs : (plainly R).States s s') : s.Twins R s' := by
  obtain ⟨m, r, l, hm, hr, hl, rfl⟩ := hs
  have hplain : l.plain = s.log.plain := hl
  refine ⟨rfl, rfl, rfl, rfl, rfl, rfl, hm, hr, ?_, hplain⟩
  rw [State.log_recast, ← Log.placed_plain, hplain, Log.placed_plain]

namespace Controller

variable {R : ω → ω' → Prop} {k : Controller ω} {k' : Controller ω'} {memory : ω} {memory' : ω'}

/-- Controllers whose clients give the same answers, but for how rebalances end, do the same. -/
theorem SameButRebalances.mirrors (h : k.SameButRebalances R k') : Mirrors (plainly R) k k' where
  config := h.config
  sweepOrder := h.sweepOrder
  name := h.name
  plan := h.plan
  query := h.environment.query
  members := h.environment.members
  drive := by
    intro now u d c m m' l l' hm hl
    have hregular := c.drive_regular now d
    exact ⟨hregular.waits_eq h.environment now u hm, hregular.run h.environment now u hm hl⟩
  rollBack := by
    intro now u c m m' l l' hm hl
    have hregular := c.rollBack_regular now
    exact ⟨hregular.waits_eq h.environment now u hm, hregular.run h.environment now u hm hl⟩

/-- **How rebalances end is immaterial.**  Two controllers of the same configuration, with the same
handler and with clients that give the same answers, receive the same inputs.  However many of the
rebalances succeed in one run and fail in the other, after every input either neither of them has
come to an end, or they are in the same state, and have made the same calls at the same times: all
that differs is what is on record of the rebalances. -/
theorem rebalances_immaterial (h : k.SameButRebalances R k') (hm : R memory memory')
    (policy : Policy) (patience : Nat) (inputs : List Input) :
    Option.Rel (State.Twins R) (k.run patience (.initial policy memory) inputs)
      (k'.run patience (.initial policy memory') inputs) := by
  have htop : (plainly R).OnTop := by
    intro d ds ds' hds
    exact congrArg (d :: ·) hds
  have hinitial : (plainly R).States (.initial policy memory) (.initial policy memory') :=
    ⟨memory', [], [], hm, rfl, rfl, rfl⟩
  refine rel_imp (run_mirrored h.mirrors htop patience inputs hinitial) ?_
  intro s s' hs
  exact State.Twins.of_states hs

/-- A script in which the newcomer does not succeed in its first rebalance. -/
def clumsy : Rehearsal.Script :=
  Rehearsal.Script.withPart {} Rehearsal.newcomer.handle
    { failures := Std.ExtTreeMap.insert ∅ Command.rebalance.name ⟨"no broker", some 1⟩ }

/-- The newcomer leaves its group and comes back when nothing is prohibited any more, rebalancing
both times.  It does so whether or not the first rebalance succeeds, and when it does not, this is
all that is on record besides. -/
theorem rebalances_immaterial_of_newcomer :
    ∃ s s', Rehearsal.stage.run 0 (.initial (.prohibiting ["t"]) ({} : Rehearsal.Script))
        (Rehearsal.entrance ++ [.hook (.policyUpdate .disabled)]) = some s ∧
      Rehearsal.stage.run 0 (.initial (.prohibiting ["t"]) clumsy)
        (Rehearsal.entrance ++ [.hook (.policyUpdate .disabled)]) = some s' ∧
      s.log.placed.length = 5 ∧ s'.log.length = s.log.length + 1 ∧
      s.Twins Rehearsal.Script.SameButRebalances s' := by
  have hsame : Rehearsal.Script.SameButRebalances {} clumsy := by
    intro handle
    have hprompt : (({} : Rehearsal.Script).part handle).Prompt := by
      intro h hh
      cases hh
    rw [clumsy, Rehearsal.Script.part_withPart]
    split
    · refine ⟨hprompt, _, rfl, ?_⟩
      intro operation hop
      rw [Std.ExtTreeMap.getElem?_insert, if_neg]
      · rfl
      · simpa using hop.symm
    · exact .refl hprompt
  have hstage : Rehearsal.stage.SameButRebalances Rehearsal.Script.SameButRebalances
      Rehearsal.stage :=
    { config := rfl
      sweepOrder := rfl
      name := rfl
      plan := fun hm _ _ _ => ⟨rfl, hm⟩
      environment := Rehearsal.Script.sameButRebalances }
  have hrun : ((Rehearsal.stage.run 0 (.initial (.prohibiting ["t"]) ({} : Rehearsal.Script))
      (Rehearsal.entrance ++ [.hook (.policyUpdate .disabled)])).bind fun s =>
        (Rehearsal.stage.run 0 (.initial (.prohibiting ["t"]) clumsy)
          (Rehearsal.entrance ++ [.hook (.policyUpdate .disabled)])).map fun s' =>
            (s.log.placed.length, s.log.length, s'.log.length)) = some (5, 14, 15) := by
    decide +kernel
  obtain ⟨s, hs, hrest⟩ := Option.bind_eq_some_iff.1 hrun
  obtain ⟨s', hs', hlengths⟩ := Option.map_eq_some_iff.1 hrest
  have htwins := rebalances_immaterial hstage hsame (.prohibiting ["t"]) 0
    (Rehearsal.entrance ++ [.hook (.policyUpdate .disabled)])
  rw [hs, hs'] at htwins
  simp only [Prod.mk.injEq] at hlengths
  obtain ⟨hplaced, hlength, hlength'⟩ := hlengths
  cases htwins with
  | some htwins => exact ⟨s, s', hs, hs', hplaced, by omega, htwins⟩

end Controller

end Embargo
