import Embargo.Controller.Run
import Embargo.Proofs.Regular

/-!
# Commands are made in the controller's own scope

Whatever clients deliver from inside a command, it is delivered in the controller's own scope, and
in a task that holds the consumer which the command is made for.  So what clients report is skipped,
and a policy is put in force and waits for that consumer, in vain.  This holds however deep calls
are inside each other, and it makes transitions simple: what is delivered in the meantime is put on
record, or the state is stuck.

* `Hook.policy?`, `Hook.report?` — what a hook brings;
* `Environment.Prompt` — clients whose commands return;
* `Keeps`, `Controller.sweepWith_keeps` — what sweeps keep if decisions do;
* `Controller.deliverWith_own` — **in the controller's own scope every report is skipped**;
* `Controller.deliverWith_waits` — **a policy waits for a consumer that its task holds**;
* `Controller.deliverWith_installs` — **which does not keep it from being put in force**;
* `Program.run`, `Program.waits` — what a program does when it runs like that;
* `Program.execute_eq` — **programs that make each call in its scope run like that**, at any depth;
* `Program.LetsIn`, `LetsIn.own` — the hooks that are let in meanwhile, **all of them in the
  controller's own scope**;
* `Controller.drive_eq_run`, `Controller.conclude_eq_run` — transitions and ways back run like that.
-/

namespace Embargo

variable {ω : Type}

/-! ### What hooks bring -/

namespace Hook

/-- The policy that a hook brings. -/
def policy? : Hook → Option Policy
  | .policyUpdate p => some p
  | .policyDelivery p => some p
  | .policyDocument text => (Policy.ofDocument text).toOption
  | .lifecycle .. => none

/-- The report of a client that a hook brings. -/
def report? : Hook → Option LifecycleEvent
  | .lifecycle _ e => some e
  | _ => none

end Hook

/-- Clients bring no policies while they carry out commands, so all commands return. -/
def Environment.Prompt (env : Environment ω) : Prop :=
  ∀ memory now client c, ∀ h ∈ (env.command memory now client c).delivered, h.policy? = none

/-- A task holds what it has taken hold of. -/
theorem Task.mem_holding (task : Task) (id : ConsumerId) : id ∈ (task.holding id).holds :=
  List.mem_cons_self

/-! ### Properties that are kept -/

/-- A property of states is kept. -/
def Keeps (P : State ω → Prop) (f : State ω → State ω) : Prop :=
  ∀ s, P s → P (f s)

theorem Keeps.foldl {P : State ω → Prop} {α : Type} {f : State ω → α → State ω}
    (hf : ∀ a, Keeps P fun s => f s a) (as : List α) : Keeps P fun s => as.foldl f s := by
  induction as with
  | nil => exact fun s hs => hs
  | cons a as ih => exact fun s hs => ih _ (hf a s hs)

/-- A property does not depend on memories or on the record, and no state loses it by getting
stuck. -/
def Lasts (P : State ω → Prop) : Prop :=
  ∀ {s : State ω} (memory : ω) (stuck : Bool) (log : Log), (s.stuck = true → stuck = true) → P s →
    P { s with memory, stuck, log }

/-- A stuck state stays stuck. -/
abbrev Sticks (f : State ω → State ω) : Prop :=
  Keeps (fun s => s.stuck = true) f

theorem lasts_stuck : Lasts fun s : State ω => s.stuck = true :=
  fun _ _ _ hstuck hs => hstuck hs

theorem lasts_policy (store : Policy.Store) : Lasts fun s : State ω => s.policy = store :=
  fun _ _ _ _ hs => hs

namespace Controller

variable {P : State ω → Prop} {drive : Drive ω}

theorem followWith_keeps (hdrive : ∀ d id, Keeps P (drive d id)) (id : ConsumerId) (plan : Plan) :
    Keeps P (followWith drive id plan) := by
  induction plan with
  | stop => exact fun s hs => hs
  | drive d next ih =>
    intro s hs
    have hdriven := hdrive d id s hs
    rw [followWith]
    cases (drive d id s).consumer? id with
    | none => exact hdriven
    | some c => exact ih c _ hdriven

/-- A property is kept by all that sweeps are made of, but decisions. -/
structure KeptAside (k : Controller ω) (P : State ω → Prop) : Prop where
  consult : ∀ trigger id c, Keeps P fun s => (k.consult trigger id c s).2
  report : ∀ id n, Keeps P fun s => s.report id n
  wait : Keeps P fun s => { s with stuck := true }

theorem keptAside_of_lasts (k : Controller ω) (hP : Lasts P) : k.KeptAside P where
  consult := fun _ _ _ s hs => hP (s := s) _ s.stuck _ (fun h => h) hs
  report := fun _ _ s hs => hP s.memory s.stuck _ (fun h => h) hs
  wait := fun s hs => hP s.memory true s.log (fun _ => rfl) hs

variable {k : Controller ω} (hP : k.KeptAside P) (hdrive : ∀ d id, Keeps P (drive d id))
include hP hdrive

theorem evaluateWith_keeps (trigger : Trigger) (id : ConsumerId) :
    Keeps P (k.evaluateWith drive trigger id) := by
  intro s hs
  rw [evaluateWith]
  cases s.consumer? id with
  | none => exact hs
  | some c => exact followWith_keeps hdrive id _ _ (hP.consult trigger id c s hs)

theorem revisitWith_keeps (task : Task) (id : ConsumerId) :
    Keeps P fun s => k.revisitWith drive task s id := by
  intro s hs
  dsimp only [revisitWith, Task.locking]
  split
  · exact hP.wait s hs
  split
  · exact hs
  split
  · exact hP.report id _ s hs
  · exact evaluateWith_keeps hP hdrive _ _ s hs

/-- A sweep keeps what decisions keep. -/
theorem sweepWith_keeps (task : Task) (ids : List ConsumerId) :
    Keeps P (k.sweepWith drive task ids) :=
  Keeps.foldl (revisitWith_keeps hP hdrive task) ids

end Controller

/-! ### Tasks that are stuck -/

theorem reenter_sticks (enter : Entrance ω) (task : Task) (h : Hook) :
    Sticks fun s => reenter enter task s h := by
  intro s hs
  dsimp only [reenter]
  split
  · rfl
  · exact hs

theorem Program.execute_sticks {α : Type} (enter : Entrance ω) (env : Environment ω) (task : Task)
    (u : Subject) (p : Program α) : Sticks fun s => (p.execute enter env task u s).2 := by
  induction p with
  | done a => exact fun s hs => hs
  | note n rest ih => exact fun s hs => ih _ hs
  | call own c next ih =>
    exact fun s hs => ih _ _ (Keeps.foldl (reenter_sticks enter _) _ _ hs)

namespace Controller

theorem driveIn_sticks (k : Controller ω) (enter : Entrance ω) (task : Task) (d : Decision)
    (id : ConsumerId) : Sticks (k.driveIn enter task d id) := by
  intro s hs
  rw [driveIn]
  cases s.consumer? id with
  | none => exact hs
  | some c => exact Program.execute_sticks enter k.environment (task.holding id) _ _ s hs

variable {drive : Drive ω}

/-- **A sweep waits for a consumer that its task holds.** -/
theorem sweepWith_waits (k : Controller ω) (hdrive : ∀ d id, Sticks (drive d id)) {task : Task}
    {ids : List ConsumerId} {id : ConsumerId} (hid : id ∈ ids) (hheld : id ∈ task.holds)
    (s : State ω) : (k.sweepWith drive task ids s).stuck = true := by
  obtain ⟨before, after, rfl⟩ := List.append_of_mem hid
  rw [sweepWith, List.foldl_append, List.foldl_cons]
  refine sweepWith_keeps (k.keptAside_of_lasts lasts_stuck) hdrive task after _ ?_
  rw [revisitWith, Task.locking, if_pos (List.contains_iff_mem.2 hheld)]

/-! ### Hooks from inside a task -/

/-- **In the controller's own scope every report is skipped.** -/
theorem deliverWith_own (k : Controller ω) (drive : Drive ω) {task : Task} (hown : task.own = true)
    (s : State ω) (client : Client) (e : LifecycleEvent) :
    k.deliverWith drive task s (.lifecycle client e) = task.skip e.name s := by
  cases e <;> exact if_pos hown

/-- Whichever way a policy comes, the same is done. -/
theorem deliverWith_of_policy (k : Controller ω) (drive : Drive ω) (task : Task) (s : State ω)
    {h : Hook} {p : Policy} (hpolicy : h.policy? = some p) :
    k.deliverWith drive task s h = k.updatePolicyWith drive task p s := by
  cases h with
  | lifecycle client e => cases hpolicy
  | policyUpdate q => cases hpolicy; rfl
  | policyDelivery q => cases hpolicy; rfl
  | policyDocument text =>
    rw [deliverWith, updatePolicyDocumentWith]
    cases hread : Policy.ofDocument text with
    | error e => rw [Hook.policy?, hread] at hpolicy; cases hpolicy
    | ok q => rw [Hook.policy?, hread] at hpolicy; cases hpolicy; rfl

/-- **A policy waits for a consumer that its task holds**, whatever the scope. -/
theorem deliverWith_waits (k : Controller ω) (hdrive : ∀ d id, Sticks (drive d id)) {task : Task}
    {s : State ω} {id : ConsumerId} (hreg : (s.consumer? id).isSome) (hheld : id ∈ task.holds)
    {h : Hook} (hpolicy : h.policy?.isSome) : (k.deliverWith drive task s h).stuck = true := by
  obtain ⟨p, hp⟩ := Option.isSome_iff_exists.1 hpolicy
  rw [deliverWith_of_policy k drive task s hp]
  have hvisited : id ∈ k.sweepOrder s.sweeps s.registry.ids :=
    (k.sweepOrder_perm _ _).mem_iff.2 (Registry.mem_ids.2 hreg)
  exact k.sweepWith_waits hdrive hvisited hheld _

/-- **A policy is put in force**, when decisions leave the one in force alone. -/
theorem deliverWith_installs (k : Controller ω)
    (hdrive : ∀ store d id, Keeps (fun s => s.policy = store) (drive d id)) (task : Task)
    (s : State ω) {h : Hook} {p : Policy} (hpolicy : h.policy? = some p) :
    (k.deliverWith drive task s h).policy.current = p.normalized := by
  rw [deliverWith_of_policy k drive task s hpolicy]
  exact congrArg Policy.Store.current
    (sweepWith_keeps (k.keptAside_of_lasts (lasts_policy _)) (hdrive _) task _ _ rfl)

/-- A document that cannot be read changes nothing. -/
theorem deliverWith_unreadable (k : Controller ω) (drive : Drive ω) (task : Task) (s : State ω)
    {h : Hook} (hpolicy : h.policy? = none) (hreport : h.report? = none) :
    k.deliverWith drive task s h = s := by
  cases h with
  | lifecycle client e => cases hreport
  | policyUpdate p => cases hpolicy
  | policyDelivery p => cases hpolicy
  | policyDocument text =>
    rw [deliverWith, updatePolicyDocumentWith]
    cases hread : Policy.ofDocument text with
    | error e => rfl
    | ok p => rw [Hook.policy?, hread] at hpolicy; cases hpolicy

end Controller

/-! ### What is left of the hooks from inside a command -/

namespace State

/-- Nothing differs but what clients remember, what is on record, and whether the state is
stuck. -/
def Unmoved (s s' : State ω) : Prop :=
  ∃ memory stuck log, s' = { s with memory, stuck, log }

namespace Unmoved

variable {s s' s'' : State ω}

theorem refl (s : State ω) : s.Unmoved s :=
  ⟨s.memory, s.stuck, s.log, rfl⟩

theorem trans (h : s.Unmoved s') (h' : s'.Unmoved s'') : s.Unmoved s'' := by
  obtain ⟨_, _, _, rfl⟩ := h
  obtain ⟨memory, stuck, log, rfl⟩ := h'
  exact ⟨memory, stuck, log, rfl⟩

theorem consumer?_eq (h : s.Unmoved s') (id : ConsumerId) : s'.consumer? id = s.consumer? id := by
  obtain ⟨_, _, _, rfl⟩ := h
  rfl

theorem report (s : State ω) (id : ConsumerId) (n : Notice) : s.Unmoved (s.report id n) :=
  ⟨s.memory, s.stuck, _, rfl⟩

end Unmoved

end State

namespace Program

variable {α : Type}

/-- What a hook leaves on record that is skipped. -/
def skipEvent? (now : Nat) (u : Subject) (h : Hook) : Option Event :=
  h.report?.map fun e =>
    { time := now, who := some u.client.id, what := .notice (.hookSkipped e.name) }

/-- The events of one command: the call, and a notice for every hook that is skipped because it was
delivered from inside it. -/
def commandEvents (now : Nat) (u : Subject) (c : Command) (ok : Bool) (delivered : List Hook) :
    List Event :=
  { time := now, who := some u.client.id, what := .call u.client u.life (.command c) ok } ::
    delivered.filterMap (skipEvent? now u)

/-- Hooks that are skipped leave notices on record. -/
theorem eq_of_mem_skipped {now : Nat} {u : Subject} {delivered : List Hook} {e : Event}
    (he : e ∈ delivered.filterMap (skipEvent? now u)) :
    ∃ hook, e = { time := now, who := some u.client.id, what := .notice (.hookSkipped hook) } := by
  obtain ⟨h, -, hskip⟩ := List.mem_filterMap.1 he
  obtain ⟨report, -, rfl⟩ := Option.map_eq_some_iff.1 hskip
  exact ⟨report.name, rfl⟩

/-- Where skipped hooks are left out, the call is what remains of a command. -/
theorem filterMap_commandEvents {g : Event → Option Event}
    (hg : ∀ (time : Nat) (who : Option ConsumerId) (hook : String),
      g { time, who, what := .notice (.hookSkipped hook) } = none)
    (now : Nat) (u : Subject) (c : Command) (ok : Bool) (delivered : List Hook) :
    (commandEvents now u c ok delivered).reverse.filterMap g =
      (g { time := now
           who := some u.client.id
           what := .call u.client u.life (.command c) ok }).toList := by
  have hskipped : (delivered.filterMap (skipEvent? now u)).filterMap g = [] := by
    rw [List.filterMap_eq_nil_iff]
    intro e he
    obtain ⟨hook, rfl⟩ := eq_of_mem_skipped he
    exact hg now _ hook
  rw [commandEvents, List.filterMap_reverse, List.filterMap_cons, hskipped]
  split <;> rename_i hcall <;> simp [hcall]

/-- What a program comes to when reports from inside its commands are skipped: its result, the
memory of the environment, and the record. -/
def run (env : Environment ω) (now : Nat) (u : Subject) : Program α → ω → Log → α × ω × Log
  | .done a, memory, log => (a, memory, log)
  | .note n rest, memory, log =>
      rest.run env now u memory ({ time := now, who := some u.client.id, what := .notice n } :: log)
  | .call _ c next, memory, log =>
      let answer := env.command memory now u.client c
      (next answer.result).run env now u answer.memory
        ((commandEvents now u c answer.result.isOk answer.delivered).reverse ++ log)

/-- Whether a policy is delivered from inside a command of a program. -/
def waits (env : Environment ω) (now : Nat) (u : Subject) : Program α → ω → Bool
  | .done _, _ => false
  | .note _ rest, memory => rest.waits env now u memory
  | .call _ c next, memory =>
      let answer := env.command memory now u.client c
      answer.delivered.any (fun h => h.policy?.isSome) ||
        (next answer.result).waits env now u answer.memory

/-- With prompt clients nothing waits. -/
theorem waits_of_prompt {env : Environment ω} (henv : env.Prompt) (now : Nat) (u : Subject)
    (p : Program α) : ∀ memory, p.waits env now u memory = false := by
  induction p with
  | done a => exact fun memory => rfl
  | note n rest ih => exact ih
  | call own c next ih =>
    intro memory
    rw [waits, Bool.or_eq_false_iff, List.any_eq_false]
    refine ⟨fun h hh => ?_, ih _ _⟩
    rw [henv memory now u.client c h hh]
    exact Bool.false_ne_true

variable {k : Controller ω} {task : Task} {u : Subject} {id : ConsumerId} {s : State ω}

open Controller in
/-- A hook from inside a command leaves a notice that it was skipped, or waits. -/
theorem reenter_command (depth : Nat) (hheld : id ∈ task.holds) (hreg : (s.consumer? id).isSome)
    (h : Hook) :
    reenter (k.entrance (depth + 1)) (task.calling true u.client.id) s h =
      { s with
        stuck := s.stuck || h.policy?.isSome
        log := (skipEvent? s.now u h).toList ++ s.log } := by
  have hheld' : id ∈ (task.calling true u.client.id).holds := hheld
  cases hpolicy : h.policy? with
  | some p =>
    have hwaits : (k.entrance (depth + 1) (task.calling true u.client.id)
        { s with stuck := false } h).stuck = true :=
      deliverWith_waits k (k.driveIn_sticks (k.entrance depth) _)
        (s := { s with stuck := false }) hreg hheld' (Option.isSome_of_eq_some hpolicy)
    rw [reenter, if_pos hwaits, Option.isSome_some, Bool.or_true]
    cases h with
    | lifecycle client e => cases hpolicy
    | _ => rfl
  | none =>
    rw [Option.isSome_none, Bool.or_false]
    cases h with
    | lifecycle client e =>
      rw [reenter, Controller.entrance, Controller.deliverWith_own k _ rfl]
      rfl
    | policyUpdate p => cases hpolicy
    | policyDelivery p => cases hpolicy
    | policyDocument text =>
      rw [reenter, Controller.entrance, Controller.deliverWith_unreadable k _ _ _ hpolicy rfl]
      rfl

/-- So do several. -/
theorem foldl_reenter_command (depth : Nat) (hheld : id ∈ task.holds) (hooks : List Hook) :
    ∀ {s : State ω}, (s.consumer? id).isSome →
      hooks.foldl (reenter (k.entrance (depth + 1)) (task.calling true u.client.id)) s =
        { s with
          stuck := s.stuck || hooks.any fun h => h.policy?.isSome
          log := (hooks.filterMap (skipEvent? s.now u)).reverse ++ s.log } := by
  induction hooks with
  | nil =>
    intro s _
    rw [List.foldl_nil, List.any_nil, Bool.or_false]
    rfl
  | cons h hooks ih =>
    intro s hreg
    rw [List.foldl_cons, reenter_command depth hheld hreg h, ih, List.any_cons, ← Bool.or_assoc,
      List.filterMap_cons]
    · cases skipEvent? s.now u h with
      | none => rfl
      | some e => rw [List.reverse_cons, List.append_assoc]; rfl
    · exact hreg

/-- The state when a client has begun to carry out a command, before it delivers any hooks. -/
def called (env : Environment ω) (u : Subject) (c : Command) (s : State ω) : State ω :=
  let answer := env.command s.memory s.now u.client c
  { s with memory := answer.memory }.happen (some u.client.id)
    (.call u.client u.life (.command c) answer.result.isOk)

theorem called_unmoved (env : Environment ω) (u : Subject) (c : Command) (s : State ω) :
    s.Unmoved (called env u c s) :=
  ⟨_, s.stuck, _, rfl⟩

/-- A command is made, its hooks are let in, and then the program goes on. -/
theorem execute_call (enter : Entrance ω) (env : Environment ω) (task : Task) (u : Subject)
    (own : Bool) (c : Command) (next : Except Error Unit → Program α) (s : State ω) :
    (call own c next).execute enter env task u s =
      (next (env.command s.memory s.now u.client c).result).execute enter env task u
        ((env.command s.memory s.now u.client c).delivered.foldl
          (reenter enter (task.calling own u.client.id)) (called env u c s)) := rfl

/-- **A program that makes each call in its scope skips the reports from inside its commands**, in
whatever task it runs, and however deep calls are inside each other. -/
theorem execute_eq (depth : Nat) (hheld : id ∈ task.holds) {p : Program α} (hp : p.Scoped) :
    ∀ {s : State ω}, (s.consumer? id).isSome →
      p.execute (k.entrance (depth + 1)) k.environment task u s =
        ((p.run k.environment s.now u s.memory s.log).1,
          { s with
            memory := (p.run k.environment s.now u s.memory s.log).2.1
            stuck := s.stuck || p.waits k.environment s.now u s.memory
            log := (p.run k.environment s.now u s.memory s.log).2.2 }) := by
  induction p with
  | done a =>
    intro s _
    rw [waits, Bool.or_false]
    rfl
  | note n rest ih => exact fun hreg => ih hp hreg
  | call own c next ih =>
    intro s hreg
    obtain ⟨hown, hnext⟩ := hp
    obtain rfl : own = true := hown
    rw [execute_call, foldl_reenter_command depth hheld, ih _ (hnext _), run, waits, commandEvents,
      List.reverse_cons, List.append_assoc, ← Bool.or_assoc]
    · rfl
    · exact hreg
    · exact hreg

/-! ### What a hook finds from inside a command -/

/-- A hook that is let in leaves all as it is but the record, at any depth. -/
theorem reenter_unmoved (depth : Nat) (hheld : id ∈ task.holds) (hreg : (s.consumer? id).isSome)
    (h : Hook) :
    s.Unmoved (reenter (k.entrance depth) (task.calling true u.client.id) s h) := by
  cases depth with
  | zero => exact ⟨s.memory, true, s.log, rfl⟩
  | succ depth => exact ⟨s.memory, _, _, reenter_command depth hheld hreg h⟩

theorem foldl_reenter_unmoved (depth : Nat) (hheld : id ∈ task.holds) (hooks : List Hook) :
    ∀ {s : State ω}, (s.consumer? id).isSome →
      s.Unmoved (hooks.foldl (reenter (k.entrance depth) (task.calling true u.client.id)) s) := by
  induction hooks with
  | nil => exact fun _ => .refl _
  | cons h hooks ih =>
    intro s hreg
    have hfirst := reenter_unmoved (k := k) (u := u) depth hheld hreg h
    exact hfirst.trans (ih (hfirst.consumer?_eq id ▸ hreg))

/-- So does a command, with all that is delivered from inside it, but for what the client
remembers. -/
theorem command_unmoved (depth : Nat) (hheld : id ∈ task.holds) (hreg : (s.consumer? id).isSome)
    (c : Command) (hooks : List Hook) :
    s.Unmoved (hooks.foldl (reenter (k.entrance depth) (task.calling true u.client.id))
      (called k.environment u c s)) :=
  (called_unmoved ..).trans (foldl_reenter_unmoved depth hheld hooks hreg)

/-- A program that makes each call in its scope leaves all as it is but memories and the record, at
any depth. -/
theorem execute_unmoved (depth : Nat) (hheld : id ∈ task.holds) {p : Program α} (hp : p.Scoped) :
    ∀ {s : State ω}, (s.consumer? id).isSome →
      s.Unmoved (p.execute (k.entrance depth) k.environment task u s).2 := by
  induction p with
  | done a => exact fun _ => .refl _
  | note n rest ih => exact fun hreg => (State.Unmoved.report ..).trans (ih hp hreg)
  | call own c next ih =>
    intro s hreg
    obtain ⟨hown, hnext⟩ := hp
    obtain rfl : own = true := hown
    rw [execute_call]
    have hcalled := command_unmoved (k := k) (u := u) depth hheld hreg c
    refine (hcalled _).trans (ih _ (hnext _) ?_)
    rw [(hcalled _).consumer?_eq]
    exact hreg

/-- The hooks that are let in while a program is carried out: the task that one is let in, and the
state that it finds. -/
inductive LetsIn (enter : Entrance ω) (env : Environment ω) (task : Task) (u : Subject) :
    Program α → State ω → Task → State ω → Hook → Prop where
  | note {n : Notice} {rest : Program α} {s found : State ω} {inside : Task} {h : Hook}
      (hrest : LetsIn enter env task u rest (s.report u.client.id n) inside found h) :
      LetsIn enter env task u (.note n rest) s inside found h
  /-- It is delivered from inside a command, after others. -/
  | here {own : Bool} {c : Command} {next : Except Error Unit → Program α} {s : State ω}
      {before after : List Hook} {h : Hook}
      (hdelivered : (env.command s.memory s.now u.client c).delivered = before ++ h :: after) :
      LetsIn enter env task u (.call own c next) s (task.calling own u.client.id)
        (before.foldl (reenter enter (task.calling own u.client.id)) (called env u c s)) h
  | later {own : Bool} {c : Command} {next : Except Error Unit → Program α} {s found : State ω}
      {inside : Task} {h : Hook}
      (hrest : LetsIn enter env task u (next (env.command s.memory s.now u.client c).result)
        ((env.command s.memory s.now u.client c).delivered.foldl
          (reenter enter (task.calling own u.client.id)) (called env u c s)) inside found h) :
      LetsIn enter env task u (.call own c next) s inside found h

/-- **Every hook is let in in the controller's own scope**, while a program is carried out that
makes each call in its scope; and it finds all as it was but memories and the record. -/
theorem LetsIn.own {depth : Nat} {p : Program α} {inside : Task} {found : State ω} {h : Hook}
    (hlet : LetsIn (k.entrance depth) k.environment task u p s inside found h)
    (hheld : id ∈ task.holds) (hp : p.Scoped) (hreg : (s.consumer? id).isSome) :
    inside = task.calling true u.client.id ∧ s.Unmoved found := by
  induction hlet with
  | note _ ih =>
    obtain ⟨hinside, hfound⟩ := ih hp hreg
    exact ⟨hinside, (State.Unmoved.report ..).trans hfound⟩
  | @here own c next s before after h _ =>
    obtain ⟨hown, -⟩ := hp
    obtain rfl : own = true := hown
    exact ⟨rfl, command_unmoved depth hheld hreg c before⟩
  | @later own c next s found inside h _ ih =>
    obtain ⟨hown, hnext⟩ := hp
    obtain rfl : own = true := hown
    have hcalled := command_unmoved (k := k) (u := u) depth hheld hreg c
    obtain ⟨hinside, hfound⟩ := ih (hnext _) (by rw [(hcalled _).consumer?_eq]; exact hreg)
    exact ⟨hinside, (hcalled _).trans hfound⟩

/-- When a hook that is let in waits in vain, so does the program. -/
theorem LetsIn.sticks {enter : Entrance ω} {env : Environment ω} {p : Program α} {inside : Task}
    {found : State ω} {h : Hook} (hlet : LetsIn enter env task u p s inside found h)
    (hstuck : (reenter enter inside found h).stuck = true) :
    (p.execute enter env task u s).2.stuck = true := by
  induction hlet with
  | note _ ih => exact ih hstuck
  | here hdelivered =>
    rw [execute_call, hdelivered, List.foldl_append, List.foldl_cons]
    refine execute_sticks enter env task u _ _ (Keeps.foldl (reenter_sticks enter _) _ _ ?_)
    exact hstuck
  | later _ ih =>
    rw [execute_call]
    exact ih hstuck

end Program

namespace Controller

/-! ### Transitions and ways back -/

/-- **A decision is carried out by a program that skips reports**, whatever the task, and however
deep it is inside calls. -/
theorem driveIn_eq_run (k : Controller ω) (depth : Nat) (task : Task) (d : Decision)
    (id : ConsumerId) (s : State ω) :
    k.driveIn (k.entrance (depth + 1)) task d id s =
      match s.consumer? id with
      | none => s
      | some c =>
          let subject : Program.Subject := ⟨c.client, s.life id⟩
          let (o, memory, log) := (c.drive s.now d).run k.environment s.now subject s.memory s.log
          { s with
            registry := s.registry.replace id o.consumer
            confirmations :=
              if o.leaving then
                s.confirmations ++ [Confirmation.start k.config s.now (s.life id) o.consumer]
              else s.confirmations
            memory
            stuck := s.stuck || (c.drive s.now d).waits k.environment s.now subject s.memory
            log } := by
  rw [driveIn]
  cases hreg : s.consumer? id with
  | none => rfl
  | some c =>
    dsimp only
    rw [Program.execute_eq depth (task.mem_holding id) (c.drive_regular _ d).scoped
      (Option.isSome_of_eq_some hreg)]

/-- A decision leaves the policy in force alone, whatever is delivered from inside its calls. -/
theorem driveIn_policy (k : Controller ω) (depth : Nat) (task : Task) (store : Policy.Store)
    (d : Decision) (id : ConsumerId) :
    Keeps (fun s => s.policy = store) (k.driveIn (k.entrance depth) task d id) := by
  intro s hs
  rw [driveIn]
  cases hreg : s.consumer? id with
  | none => exact hs
  | some c =>
    obtain ⟨memory, stuck, log, hmoved⟩ := Program.execute_unmoved (k := k)
      (u := ⟨c.client, s.life id⟩) depth (task.mem_holding id) (c.drive_regular s.now d).scoped
      (Option.isSome_of_eq_some hreg)
    show (Program.execute _ _ _ _ _ s).2.policy = store
    rw [hmoved]
    exact hs

/-- Outside of all calls, too. -/
theorem drive_eq_run (k : Controller ω) (d : Decision) (id : ConsumerId) (s : State ω) :
    k.drive d id s =
      match s.consumer? id with
      | none => s
      | some c =>
          let subject : Program.Subject := ⟨c.client, s.life id⟩
          let (o, memory, log) := (c.drive s.now d).run k.environment s.now subject s.memory s.log
          { s with
            registry := s.registry.replace id o.consumer
            confirmations :=
              if o.leaving then
                s.confirmations ++ [Confirmation.start k.config s.now (s.life id) o.consumer]
              else s.confirmations
            memory
            stuck := s.stuck || (c.drive s.now d).waits k.environment s.now subject s.memory
            log } :=
  driveIn_eq_run k s.registry.size .outside d id s

/-- **A way back is a program that skips reports as well.** -/
theorem conclude_eq_run (k : Controller ω) (t : Confirmation) (gone : Bool) (s : State ω) :
    k.conclude t gone s =
      match subject? t s with
      | none => s.report t.id .confirmationDiscarded
      | some c =>
          if gone then
            (s.put t.id (c.transition s.now .suspended)).report t.id (.suspended c.label)
          else
            let s := s.report t.id (.confirmationTimedOut c.label k.config.maxRetries.toNat)
            let subject : Program.Subject := ⟨t.client, t.life⟩
            let back := c.rollBack s.now
            let (c, memory, log) := back.run k.environment s.now subject s.memory s.log
            { s with
              registry := s.registry.replace t.id c
              memory
              stuck := s.stuck || back.waits k.environment s.now subject s.memory
              log } := by
  rw [conclude]
  cases hlive : subject? t s with
  | none => rfl
  | some c =>
    rw [subject?_eq, Option.filter_eq_some_iff] at hlive
    cases gone with
    | true => rfl
    | false =>
      dsimp only [depth]
      rw [if_neg Bool.false_ne_true, if_neg Bool.false_ne_true,
        Program.execute_eq _ (Task.outside.mem_holding t.id) (c.rollBack_regular _).scoped]
      exact Option.isSome_of_eq_some hlive.1

end Controller

end Embargo
