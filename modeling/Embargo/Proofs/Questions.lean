import Embargo.Proofs.Consultations

/-!
# The record tells what handlers are asked

Each evaluation on record is a question that the handler has been asked, with the consumer and the
policy that are on record, and the handler is asked nothing besides.  A handler that takes down what
it is asked tells so: at any time it has taken down exactly what the record has.

* `Question`, `Log.questions` — what a handler gets to see, and what it has seen by the record;
* `Handler.noting` — a handler that takes down what it is asked;
* `Controller.TakesNotes` — a controller whose handler does, while clients leave its notes alone;
* `Controller.Reachable.questions_eq` — **what has been taken down is what is on record**.
-/

namespace Embargo

variable {ω : Type}

/-- What a handler gets to see. -/
structure Question where
  trigger : Trigger
  consumer : Consumer
  policy : Policy

/-- The question that an event is. -/
def Event.question? (e : Event) : Option Question :=
  match e.what with
  | .evaluation _ trigger c policy => some ⟨trigger, c, policy⟩
  | _ => none

/-- What a handler has been asked by the record, the latest question first. -/
def Log.questions (log : Log) : List Question :=
  log.filterMap Event.question?

/-- What is no evaluation asks nothing. -/
theorem Log.questions_append {l m : Log}
    (h : ∀ e ∈ l, ∀ handler trigger c p, e.what ≠ .evaluation handler trigger c p) :
    questions (l ++ m) = questions m := by
  have hnone : l.filterMap Event.question? = [] := by
    rw [List.filterMap_eq_nil_iff]
    intro e he
    rcases e with ⟨time, who, what⟩
    cases what with
    | evaluation handler trigger c p => exact absurd rfl (h _ he handler trigger c p)
    | _ => rfl
  rw [questions, List.filterMap_append, hnone]
  rfl

/-- A handler that takes down what it is asked, and decides as another one does. -/
def Handler.noting (name : String) (h : Handler ω) : Handler (ω × List Question) :=
  .custom name fun memory trigger c p =>
    ((h.plan memory.1 trigger c p).1,
      ((h.plan memory.1 trigger c p).2, ⟨trigger, c, p⟩ :: memory.2))

/-- Clients that do not know of any notes. -/
def Environment.besideNotes (env : Environment ω) : Environment (ω × List Question) where
  command := fun memory now client c =>
    let answer := env.command memory.1 now client c
    { result := answer.result
      delivered := answer.delivered
      memory := (answer.memory, memory.2) }
  query := fun memory now client topic group =>
    let (accepted, own) := env.query memory.1 now client topic group
    (accepted, (own, memory.2))
  members := fun memory now client topic group =>
    let (members, own) := env.members memory.1 now client topic group
    (members, (own, memory.2))

namespace Controller

/-- The handler takes down what it is asked, and clients leave its notes alone. -/
structure TakesNotes (k : Controller ω) (notes : ω → List Question) : Prop where
  plan : ∀ memory trigger c p,
    notes (k.handler.plan memory trigger c p).2 = ⟨trigger, c, p⟩ :: notes memory
  command : ∀ memory now client c,
    notes (k.environment.command memory now client c).memory = notes memory
  query : ∀ memory now client topic group,
    notes (k.environment.query memory now client topic group).2 = notes memory
  members : ∀ memory now client topic group,
    notes (k.environment.members memory now client topic group).2 = notes memory

/-- A controller whose handler decides as it did before, and takes down what it is asked. -/
def noting (k : Controller ω) (name : String) : Controller (ω × List Question) where
  config := k.config
  handler := k.handler.noting name
  environment := k.environment.besideNotes
  sweepOrder := k.sweepOrder
  sweepOrder_perm := k.sweepOrder_perm

theorem noting_takesNotes (k : Controller ω) (name : String) :
    (k.noting name).TakesNotes Prod.snd where
  plan := fun _ _ _ _ => rfl
  command := fun _ _ _ _ => rfl
  query := fun _ _ _ _ _ => rfl
  members := fun _ _ _ _ _ => rfl

variable {k : Controller ω} {notes : ω → List Question} {s s' : State ω}

/-- What has been taken down is what is on record. -/
def Documented (notes : ω → List Question) (s : State ω) : Prop :=
  s.log.questions = notes s.memory

/-- What asks nothing leaves the notes as they are. -/
theorem Documented.of_log (hs : Documented notes s) (new : Log) (hlog : s'.log = new ++ s.log)
    (hnew : ∀ e ∈ new, ∀ handler trigger c p, e.what ≠ .evaluation handler trigger c p)
    (hmemory : notes s'.memory = notes s.memory) : Documented notes s' := by
  rw [Documented, hlog, Log.questions_append hnew, hmemory]
  exact hs

theorem Documented.of_noted (hs : Documented notes s) (h : s.Noted s') : Documented notes s' := by
  obtain ⟨new, rfl, hnew⟩ := h
  refine hs.of_log new rfl (fun e he handler trigger c p hwhat => ?_) rfl
  obtain ⟨n, hn⟩ := hnew e he
  rw [hwhat] at hn
  cases hn

/-! ### Asking -/

/-- To ask is to be taken down. -/
theorem consult_documented (hk : k.TakesNotes notes) (trigger : Trigger) (id : ConsumerId)
    (c : Consumer) : Keeps (Documented notes) fun s => (k.consult trigger id c s).2 := by
  intro s hs
  have htaken := hk.plan s.memory trigger c s.policy.current
  exact (congrArg (⟨trigger, c, s.policy.current⟩ :: ·) hs).trans htaken.symm

theorem keptAside_documented (hk : k.TakesNotes notes) : k.KeptAside (Documented notes) where
  consult := consult_documented hk
  report := fun id n s hs => hs.of_noted (s.report_noted id n)
  wait := fun _ hs => hs

/-! ### Transitions -/

/-- A program leaves the notes alone. -/
theorem notes_run (hk : k.TakesNotes notes) {α : Type} (now : Nat) (u : Program.Subject)
    (p : Program α) : ∀ memory log,
      notes (p.run k.environment now u memory log).2.1 = notes memory := by
  induction p with
  | done a => exact fun memory log => rfl
  | note n rest ih => exact fun memory log => ih memory _
  | call own c next ih =>
    exact fun memory log => (ih _ _ _).trans (hk.command memory now u.client c)

/-- What a program puts on record asks nothing. -/
theorem questions_run {α : Type} (env : Environment ω) (now : Nat) (u : Program.Subject)
    (p : Program α) (memory : ω) (log : Log) :
    Log.questions (p.run env now u memory log).2.2 = log.questions := by
  obtain ⟨tr, new, -, hrun, hnew⟩ := Program.run_log env now u p memory log
  rw [hrun]
  refine Log.questions_append fun e he handler trigger c policy hwhat => ?_
  rcases hnew e he with ⟨n, hn⟩ | ⟨command, ok, -, hcall⟩
  · rw [hwhat] at hn
    cases hn
  · rw [hwhat] at hcall
    cases hcall

theorem drive_documented (hk : k.TakesNotes notes) (d : Decision) (id : ConsumerId) :
    Keeps (Documented notes) (k.drive d id) := by
  intro s hs
  rw [drive_eq_run]
  cases s.consumer? id with
  | none => exact hs
  | some c => exact ((questions_run ..).trans hs).trans (notes_run hk ..).symm

theorem evaluate_documented (hk : k.TakesNotes notes) (trigger : Trigger) (id : ConsumerId) :
    Keeps (Documented notes) (k.evaluate trigger id) :=
  evaluateWith_keeps (keptAside_documented hk) (drive_documented hk) trigger id

theorem conclude_documented (hk : k.TakesNotes notes) (t : Confirmation) (gone : Bool) :
    Keeps (Documented notes) (k.conclude t gone) := by
  intro s hs
  rw [conclude_eq_run]
  cases subject? t s with
  | none => exact hs.of_noted (s.report_noted ..)
  | some c =>
    dsimp only
    split
    · have hput : Documented notes (s.put t.id (c.transition s.now .suspended)) := hs
      exact hput.of_noted (State.report_noted ..)
    · have hreported := hs.of_noted (s.report_noted t.id
        (.confirmationTimedOut c.label k.config.maxRetries.toNat))
      exact ((questions_run ..).trans hreported).trans (notes_run hk ..).symm

/-! ### Hooks -/

theorem updatePolicy_documented (hk : k.TakesNotes notes) (p : Policy) :
    Keeps (Documented notes) (k.updatePolicy p) := by
  intro s hs
  rw [updatePolicy_outside]
  exact sweepWith_keeps (keptAside_documented hk) (drive_documented hk) .outside _ _ hs

/-- **Whatever becomes of a hook, what it leads to is taken down.** -/
theorem Treatment.documented (hk : k.TakesNotes notes) {h : Hook}
    (htreated : k.Treatment s h s') (hs : Documented notes s) : Documented notes s' := by
  have hreported : ∀ id n, Documented notes (s.report id n) :=
    fun id n => hs.of_noted (s.report_noted id n)
  cases htreated with
  | rejected hwrap => exact hreported _ _
  | restarted hwrap hreg => exact evaluate_documented hk _ _ _ (hreported _ _)
  | @enrolled client fresh hwrap hfree =>
    have htaken : Documented notes (takeIn client.id (caughtUp client.id fresh s) s) := hs
    exact evaluate_documented hk _ _ _ (htaken.of_noted (enrol_noted client fresh s))
  | unusable => exact hreported _ _
  | refused => exact hreported _ _
  | @revised client e change c c' hchange hreg happly =>
    have hput : Documented notes (s.put client.id c') := hs
    exact evaluate_documented hk _ _ _ hput
  | cached => exact hreported _ _
  | unknown => exact hreported _ _
  | dismissed => exact hreported _ _
  | unreadable => exact hs
  | swept => exact updatePolicy_documented hk _ s hs

/-! ### All runs -/

/-- What everything keeps: what has been taken down is what is on record. -/
theorem documented_kept (hk : k.TakesNotes notes) : k.Kept (Documented notes) where
  receive := fun within h hs hP =>
    (receive_treated k within h hs).documented hk hP
  order := fun id d _ hP => drive_documented hk d id _ hP
  utter := fun {s t what} memory hutters hP => by
    cases hutters with
    | notice n => exact hP
    | asked topic ok => exact hP.trans (hk.query ..).symm
    | answered topic members => exact hP.trans (hk.members ..).symm
  conclude := fun {s t c} gone _ _ _ hP => conclude_documented hk t gone s hP
  elsewhere := fun _ _ hP => hP

variable {policy : Policy} {memory : ω}

/-- **What a handler has been asked is what is on record**: every evaluation, with the consumer and
the policy that are on record, one after the other, and nothing else. -/
theorem Reachable.questions_eq (hk : k.TakesNotes notes) (h : k.Reachable policy memory s)
    (hempty : notes memory = []) : s.log.questions = notes s.memory :=
  (documented_kept hk).reachable h hempty.symm

/-- The newcomer is asked about twice. -/
example : ((Rehearsal.stage.noting "noting").run 0 (.initial (.prohibiting ["t"]) ({}, []))
    Rehearsal.entrance).map (fun s => s.memory.2.map Question.trigger) =
      some [.subscribe, .start] := by
  decide +kernel

end Controller

end Embargo
