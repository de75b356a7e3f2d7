import Embargo.Proofs.Scope

/-!
# Two runs side by side

What the controller does depends on its environment and its handler only by what they answer, and
neither on its record nor on what it has received.  So two controllers may have different memories:
as long as they get the same answers out of them, they do the same.

* `Occurrence.isTransitional` — what only transitions put on record;
* `Likeness` — in how far memories, what has been received, and records are alike;
* `Likeness.States` — two states that are the same but for these, which are alike;
* `Likeness.Runs` — a program comes to the same in two environments;
* `Controller.Mirrors` — when one controller gets the same answers as another one does;
* `drive_mirrored`, `evaluate_mirrored`, … — one lemma for each function of the controller: from
  like states two such controllers come to like states;
* `run_mirrored` — **and so do whole runs**, one of which comes to an end exactly when the other
  does.
-/

namespace Embargo

variable {ω ω' : Type}

/-- What only transitions put on record: commands, the hooks that are skipped in the meantime, and
failures to rebalance. -/
def Occurrence.isTransitional : Occurrence → Bool
  | .call _ _ (.command _) _ => true
  | .notice (.hookSkipped _) => true
  | .notice (.rebalanceAfterLeavingFailed ..) => true
  | .notice (.rebalanceAfterRejoiningFailed ..) => true
  | .notice (.rebalanceAfterRollbackFailed _) => true
  | _ => false

/-- A state with another memory, another list of what has been received, and another record. -/
def State.recast (s : State ω) (memory : ω') (received : List Delivery) (log : Log) : State ω' where
  now := s.now
  policy := s.policy
  sweeps := s.sweeps
  registry := s.registry
  cache := s.cache
  confirmations := s.confirmations
  departed := s.departed
  rivals := s.rivals
  memory := memory
  received := received
  stuck := s.stuck
  log := log

namespace State

variable (s : State ω) (memory : ω') (received : List Delivery) (log : Log)

@[simp] theorem now_recast : (s.recast memory received log).now = s.now := rfl

@[simp] theorem registry_recast : (s.recast memory received log).registry = s.registry := rfl

@[simp] theorem confirmations_recast :
    (s.recast memory received log).confirmations = s.confirmations := rfl

@[simp] theorem rivals_recast : (s.recast memory received log).rivals = s.rivals := rfl

@[simp] theorem stuck_recast : (s.recast memory received log).stuck = s.stuck := rfl

@[simp] theorem memory_recast : (s.recast memory received log).memory = memory := rfl

@[simp] theorem log_recast : (s.recast memory received log).log = log := rfl

@[simp] theorem consumer?_recast (id : ConsumerId) :
    (s.recast memory received log).consumer? id = s.consumer? id := rfl

@[simp] theorem life_recast (id : ConsumerId) :
    (s.recast memory received log).life id = s.life id := rfl

end State

/-- Two answers are the same, and the memories after them alike. -/
def Agree {α : Type} (R : ω → ω' → Prop) (x : α × ω) (x' : α × ω') : Prop :=
  x'.1 = x.1 ∧ R x.2 x'.2

/-- In how far two runs are alike. -/
structure Likeness (ω ω' : Type) where
  memory : ω → ω' → Prop
  received : List Delivery → List Delivery → Prop
  log : Log → Log → Prop
  /-- Records may only differ in what transitions put on them. -/
  keeps : ∀ {l l' : Log} {e : Event}, e.what.isTransitional = false → log l l' →
    log (e :: l) (e :: l')

namespace Likeness

/-- Two states are the same but for what is alike. -/
def States (L : Likeness ω ω') (s : State ω) (s' : State ω') : Prop :=
  ∃ memory received log, L.memory s.memory memory ∧ L.received s.received received ∧
    L.log s.log log ∧ s' = s.recast memory received log

/-- Two programs have come to the same, and what is left of their runs is alike. -/
def Results {α : Type} (L : Likeness ω ω') (x : α × ω × Log) (x' : α × ω' × Log) : Prop :=
  x'.1 = x.1 ∧ L.memory x.2.1 x'.2.1 ∧ L.log x.2.2 x'.2.2

/-- A program comes to the same in two environments, and waits in both of them or in neither. -/
def Runs {α : Type} (L : Likeness ω ω') (env : Environment ω) (env' : Environment ω') (now : Nat)
    (u : Program.Subject) (p : Program α) : Prop :=
  ∀ {m m' l l'}, L.memory m m' → L.log l l' → p.waits env' now u m' = p.waits env now u m ∧
    L.Results (p.run env now u m l) (p.run env' now u m' l')

/-- What is received on top of what is alike leaves it alike. -/
def OnTop (L : Likeness ω ω') : Prop :=
  ∀ d ds ds', L.received ds ds' → L.received (d :: ds) (d :: ds')

namespace States

variable {L : Likeness ω ω'} {s : State ω} {s' : State ω'}

theorem now_eq (hs : L.States s s') : s'.now = s.now := by
  obtain ⟨m, r, l, -, -, -, rfl⟩ := hs
  exact State.now_recast s m r l

theorem consumer?_eq (hs : L.States s s') (id : ConsumerId) :
    s'.consumer? id = s.consumer? id := by
  obtain ⟨m, r, l, -, -, -, rfl⟩ := hs
  exact State.consumer?_recast s m r l id

theorem confirmations_eq (hs : L.States s s') : s'.confirmations = s.confirmations := by
  obtain ⟨m, r, l, -, -, -, rfl⟩ := hs
  exact State.confirmations_recast s m r l

theorem stuck_eq (hs : L.States s s') : s'.stuck = s.stuck := by
  obtain ⟨m, r, l, -, -, -, rfl⟩ := hs
  exact State.stuck_recast s m r l

theorem subject?_eq (hs : L.States s s') (t : Confirmation) :
    Controller.subject? t s' = Controller.subject? t s := by
  obtain ⟨m, r, l, -, -, -, rfl⟩ := hs
  rfl

end States

end Likeness

/-- What goes on with related results comes to related results. -/
theorem rel_bind {α α' β β' : Type} {R : α → α' → Prop} {S : β → β' → Prop} {o : Option α}
    {o' : Option α'} {f : α → Option β} {f' : α' → Option β'} (h : Option.Rel R o o')
    (hf : ∀ a a', R a a' → Option.Rel S (f a) (f' a')) :
    Option.Rel S (o.bind f) (o'.bind f') := by
  cases h with
  | none => exact .none
  | some hr => exact hf _ _ hr

theorem rel_imp {α α' : Type} {R S : α → α' → Prop} {o : Option α} {o' : Option α'}
    (h : Option.Rel R o o') (hRS : ∀ a a', R a a' → S a a') : Option.Rel S o o' := by
  cases h with
  | none => exact .none
  | some hr => exact .some (hRS _ _ hr)

namespace Controller

/-- A controller gets the same answers as another one, as long as they are alike. -/
structure Mirrors (L : Likeness ω ω') (k : Controller ω) (k' : Controller ω') : Prop where
  config : k'.config = k.config
  sweepOrder : k'.sweepOrder = k.sweepOrder
  name : k'.handler.name = k.handler.name
  plan : ∀ {m m'}, L.memory m m' → ∀ trigger c p,
    Agree L.memory (k.handler.plan m trigger c p) (k'.handler.plan m' trigger c p)
  query : ∀ {m m'}, L.memory m m' → ∀ now client topic group,
    Agree L.memory (k.environment.query m now client topic group)
      (k'.environment.query m' now client topic group)
  members : ∀ {m m'}, L.memory m m' → ∀ now client topic group,
    Agree L.memory (k.environment.members m now client topic group)
      (k'.environment.members m' now client topic group)
  drive : ∀ (now : Nat) (u : Program.Subject) (d : Decision) (c : Consumer),
    L.Runs k.environment k'.environment now u (c.drive now d)
  rollBack : ∀ (now : Nat) (u : Program.Subject) (c : Consumer),
    L.Runs k.environment k'.environment now u (c.rollBack now)

variable {L : Likeness ω ω'} {k : Controller ω} {k' : Controller ω'} {s : State ω} {s' : State ω'}

/-! ### Reports -/

theorem happen_mirrored (hs : L.States s s') (who : Option ConsumerId) (what : Occurrence)
    (hwhat : what.isTransitional = false) : L.States (s.happen who what) (s'.happen who what) := by
  obtain ⟨m, r, l, hm, hr, hl, rfl⟩ := hs
  exact ⟨m, r, { time := s.now, who, what } :: l, hm, hr, L.keeps hwhat hl, rfl⟩

theorem report_mirrored (hs : L.States s s') (id : ConsumerId) (n : Notice)
    (hn : (Occurrence.notice n).isTransitional = false) :
    L.States (s.report id n) (s'.report id n) :=
  happen_mirrored hs (some id) (.notice n) hn

/-! ### Transitions and evaluations -/

theorem drive_mirrored (h : Mirrors L k k') (d : Decision) (id : ConsumerId)
    (hs : L.States s s') : L.States (k.drive d id s) (k'.drive d id s') := by
  obtain ⟨m, r, l, hm, hr, hl, rfl⟩ := hs
  rw [drive_eq_run, drive_eq_run, State.consumer?_recast]
  cases s.consumer? id with
  | none => exact ⟨m, r, l, hm, hr, hl, rfl⟩
  | some c =>
    obtain ⟨hwaits, hsame, hm', hl'⟩ := h.drive s.now ⟨c.client, s.life id⟩ d c hm hl
    refine ⟨_, r, _, hm', hr, hl', ?_⟩
    simp only [State.now_recast, State.life_recast, State.memory_recast, State.stuck_recast,
      State.log_recast, hsame, hwaits, h.config]
    rfl

theorem follow_mirrored (h : Mirrors L k k') (id : ConsumerId) (plan : Plan) :
    ∀ {s : State ω} {s' : State ω'}, L.States s s' →
      L.States (k.follow id plan s) (k'.follow id plan s') := by
  induction plan with
  | stop =>
    intro s s' hs
    exact hs
  | drive d next ih =>
    intro s s' hs
    have hdriven := drive_mirrored h d id hs
    rw [follow_drive, follow_drive, hdriven.consumer?_eq]
    cases (k.drive d id s).consumer? id with
    | none => exact hdriven
    | some c => exact ih c hdriven

theorem evaluate_mirrored (h : Mirrors L k k') (trigger : Trigger) (id : ConsumerId)
    (hs : L.States s s') : L.States (k.evaluate trigger id s) (k'.evaluate trigger id s') := by
  obtain ⟨m, r, l, hm, hr, hl, rfl⟩ := hs
  rw [evaluate_outside, evaluate_outside, State.consumer?_recast]
  cases s.consumer? id with
  | none => exact ⟨m, r, l, hm, hr, hl, rfl⟩
  | some c =>
    obtain ⟨hplan, hm'⟩ := h.plan hm trigger c s.policy.current
    show L.States (k.follow id _ _)
      (k'.follow id (k'.handler.plan m trigger c s.policy.current).1 _)
    rw [hplan, h.name]
    refine follow_mirrored h id _ ⟨_, r, _, hm', hr, ?_, rfl⟩
    exact L.keeps (show Occurrence.isTransitional (.evaluation ..) = false from rfl) hl

/-! ### Coming and going -/

theorem replay_mirrored (id : ConsumerId) (changes : List Change) (hs : L.States s s') :
    L.States (replay id changes s) (replay id changes s') := by
  obtain ⟨m, r, l, hm, hr, hl, rfl⟩ := hs
  rw [replay, replay, State.consumer?_recast]
  cases s.consumer? id with
  | none => exact ⟨m, r, l, hm, hr, hl, rfl⟩
  | some c =>
    refine List.foldl_rel ⟨m, r, l, hm, hr, hl, rfl⟩ ?_
    intro result _ s₁ s₁' hs₁
    cases result with
    | ok => exact hs₁
    | error e => exact report_mirrored hs₁ id _ rfl

theorem start_mirrored (h : Mirrors L k k') (client : Client) (hs : L.States s s') :
    L.States (k.start client s) (k'.start client s') := by
  rw [start_outside, start_outside]
  cases Consumer.wrap client with
  | error e => exact report_mirrored hs client.id _ rfl
  | ok c =>
    obtain ⟨m, r, l, hm, hr, hl, rfl⟩ := hs
    rw [State.registry_recast]
    dsimp only
    rcases s.registry.register client.id c with ⟨present, registry⟩
    cases present with
    | some present =>
      refine evaluate_mirrored h .start client.id (report_mirrored ?_ client.id _ rfl)
      exact ⟨m, r, l, hm, hr, hl, rfl⟩
    | none =>
      refine evaluate_mirrored h .start client.id (report_mirrored ?_ client.id _ rfl)
      exact replay_mirrored client.id _ ⟨m, r, l, hm, hr, hl, rfl⟩

theorem shutdown_mirrored (client : Client) (hs : L.States s s') :
    L.States (shutdown client s).2 (shutdown client s').2 := by
  obtain ⟨m, r, l, hm, hr, hl, rfl⟩ := hs
  rw [shutdown_outside, shutdown_outside]
  dsimp only [drain, State.registry_recast]
  rcases s.registry.remove client.id with ⟨present, registry⟩
  cases present with
  | none =>
    refine report_mirrored ?_ client.id _ rfl
    exact ⟨m, r, l, hm, hr, hl, rfl⟩
  | some c =>
    refine report_mirrored ?_ client.id _ rfl
    exact ⟨m, r, l, hm, hr, hl, rfl⟩

/-! ### Changes of what a consumer consumes -/

theorem letIn_mirrored (rival : Rival) (hs : L.States s s') :
    L.States (letIn s rival) (letIn s' rival) := by
  rw [letIn, letIn]
  cases Consumer.wrap rival.client with
  | error e => exact hs
  | ok c =>
    obtain ⟨m, r, l, hm, hr, hl, rfl⟩ := hs
    dsimp only
    split <;> exact ⟨m, r, l, hm, hr, hl, rfl⟩

theorem letRivalsIn_mirrored (id : ConsumerId) (hs : L.States s s') :
    L.States (letRivalsIn id s) (letRivalsIn id s') := by
  obtain ⟨m, r, l, hm, hr, hl, rfl⟩ := hs
  rw [letRivalsIn, letRivalsIn, State.rivals_recast]
  refine List.foldl_rel ⟨m, r, l, hm, hr, hl, rfl⟩ ?_
  intro rival _ s₁ s₁' hs₁
  exact letIn_mirrored rival hs₁

theorem change_mirrored (h : Mirrors L k k') (id : ConsumerId) (c : Change)
    (hs : L.States s s') : L.States (k.change id c s) (k'.change id c s') := by
  rw [change_outside, change_outside, hs.consumer?_eq]
  cases s.consumer? id with
  | some consumer =>
    dsimp only
    split
    · exact report_mirrored hs id _ rfl
    · cases consumer.apply c with
      | error e => exact report_mirrored hs id _ rfl
      | ok consumer =>
        obtain ⟨m, r, l, hm, hr, hl, rfl⟩ := hs
        exact evaluate_mirrored h c.trigger id ⟨m, r, l, hm, hr, hl, rfl⟩
  | none =>
    dsimp only
    have hcached : L.States { s with cache := s.cache.record id c }
        { s' with cache := s'.cache.record id c } := by
      obtain ⟨m, r, l, hm, hr, hl, rfl⟩ := hs
      exact ⟨m, r, l, hm, hr, hl, rfl⟩
    have hcame := letRivalsIn_mirrored id (report_mirrored hcached id (.changeCached c.trigger) rfl)
    generalize letRivalsIn id (State.report { s with cache := s.cache.record id c } id
      (.changeCached c.trigger)) = s₁ at hcame ⊢
    generalize letRivalsIn id (State.report { s' with cache := s'.cache.record id c } id
      (.changeCached c.trigger)) = s₁' at hcame ⊢
    obtain ⟨m, r, l, hm, hr, hl, rfl⟩ := hcame
    rw [State.consumer?_recast]
    cases s₁.consumer? id with
    | none => exact ⟨m, r, l, hm, hr, hl, rfl⟩
    | some present =>
      have hdrain : drain id (s₁.recast m r l) =
        ((drain id s₁).1, (drain id s₁).2.recast m r l) := rfl
      rw [hdrain]
      have hm' : L.memory (drain id s₁).2.memory m := hm
      have hr' : L.received (drain id s₁).2.received r := hr
      have hl' : L.log (drain id s₁).2.log l := hl
      generalize drain id s₁ = drained at hm' hr' hl' ⊢
      rcases drained with ⟨changes, s₂⟩
      cases changes with
      | none => exact ⟨m, r, l, hm', hr', hl', rfl⟩
      | some changes =>
        refine evaluate_mirrored h c.trigger id (replay_mirrored id changes ?_)
        exact ⟨m, r, l, hm', hr', hl', rfl⟩

theorem lifecycle_mirrored (h : Mirrors L k k') (client : Client) (e : LifecycleEvent)
    (hs : L.States s s') : L.States (k.lifecycle client e s) (k'.lifecycle client e s') := by
  cases e with
  | start => exact start_mirrored h client hs
  | shutdown => exact shutdown_mirrored client hs
  | subscribe topic =>
    rw [lifecycle_subscribe, lifecycle_subscribe]
    split
    · exact report_mirrored hs client.id _ rfl
    · exact change_mirrored h client.id _ hs
  | unsubscribe topic =>
    rw [lifecycle_unsubscribe, lifecycle_unsubscribe]
    split
    · exact report_mirrored hs client.id _ rfl
    · exact change_mirrored h client.id _ hs
  | assign queues =>
    rw [lifecycle_assign, lifecycle_assign]
    split
    · exact report_mirrored hs client.id _ rfl
    · exact change_mirrored h client.id _ hs

/-! ### Policies -/

theorem revisit_mirrored (h : Mirrors L k k') (id : ConsumerId) (hs : L.States s s') :
    L.States (k.revisit s id) (k'.revisit s' id) := by
  rw [revisit_outside, revisit_outside, hs.consumer?_eq]
  cases s.consumer? id with
  | none => exact hs
  | some c =>
    dsimp only
    split
    · exact report_mirrored hs id _ rfl
    · exact evaluate_mirrored h .policyUpdate id hs

theorem sweep_mirrored (h : Mirrors L k k') (ids : List ConsumerId) (hs : L.States s s') :
    L.States (k.sweep ids s) (k'.sweep ids s') := by
  refine List.foldl_rel hs ?_
  intro id _ s₁ s₁' hs₁
  exact revisit_mirrored h id hs₁

theorem install_mirrored (p : Policy) (hs : L.States s s') :
    L.States (install p s) (install p s') := by
  have hreported := happen_mirrored hs none (.notice (.policyUpdated p.normalized.enabled)) rfl
  rw [install, install]
  obtain ⟨m, r, l, hm, hr, hl, heq⟩ := hreported
  rw [heq]
  exact ⟨m, r, l, hm, hr, hl, rfl⟩

theorem updatePolicy_mirrored (h : Mirrors L k k') (p : Policy) (hs : L.States s s') :
    L.States (k.updatePolicy p s) (k'.updatePolicy p s') := by
  have hinstalled := install_mirrored p hs
  rw [updatePolicy_outside, updatePolicy_outside, h.sweepOrder]
  generalize install p s = s₁ at hinstalled ⊢
  generalize install p s' = s₁' at hinstalled ⊢
  obtain ⟨m, r, l, hm, hr, hl, rfl⟩ := hinstalled
  refine sweep_mirrored h _ ⟨m, r, _, hm, hr, ?_, rfl⟩
  exact L.keeps (show Occurrence.isTransitional (.notice (.sweepStarted _)) = false from rfl) hl

theorem updatePolicyDocument_mirrored (h : Mirrors L k k') (text : String) (hs : L.States s s') :
    L.States (k.updatePolicyDocument text s).2 (k'.updatePolicyDocument text s').2 := by
  rw [updatePolicyDocument_outside, updatePolicyDocument_outside]
  cases Policy.ofDocument text with
  | error e => exact hs
  | ok p => exact updatePolicy_mirrored h p hs

/-! ### Any hook -/

/-- **Whatever is delivered to like states, like states come of it.** -/
theorem deliver_mirrored (h : Mirrors L k k') (hook : Hook) (hs : L.States s s') :
    L.States (k.deliver s hook) (k'.deliver s' hook) := by
  cases hook with
  | lifecycle client e => exact lifecycle_mirrored h client e hs
  | policyUpdate p => exact updatePolicy_mirrored h p hs
  | policyDelivery p => exact updatePolicy_mirrored h p hs
  | policyDocument text => exact updatePolicyDocument_mirrored h text hs

theorem received_mirrored (htop : L.OnTop) (d : Delivery) (hs : L.States s s') :
    L.States { s with received := d :: s.received } { s' with received := d :: s'.received } := by
  obtain ⟨m, r, l, hm, hr, hl, rfl⟩ := hs
  exact ⟨m, d :: r, l, hm, htop d _ _ hr, hl, rfl⟩

theorem receive_mirrored (h : Mirrors L k k') (htop : L.OnTop) (within : Option Confirmation)
    (hook : Hook) (hs : L.States s s') :
    L.States (k.receive within s hook) (k'.receive within s' hook) :=
  deliver_mirrored h hook (received_mirrored htop (.hook hook within) hs)

/-! ### Confirmations -/

/-- A query has been accepted. -/
def accepted (t : Confirmation) (topic : String) (memory : ω) (s : State ω) : State ω :=
  { s with memory }.happen (some t.id) (.call t.client t.life (.findMembers topic t.group) true)

/-- A query that has been accepted is answered. -/
def answered (k : Controller ω) (t : Confirmation) (topic : String) (s : State ω) :
    Except Error (List String) × State ω :=
  let answer := k.environment.members s.memory s.now t.client topic t.group
  (.ok answer.1,
    { s with memory := answer.2 }.happen (some t.id)
      (.listing t.client t.life topic t.group answer.1))

theorem ask_of_refused {t : Confirmation} {topic : String} {s : State ω} {e : Error} {memory : ω}
    (hquery : k.environment.query s.memory s.now t.client topic t.group = (.error e, memory)) :
    k.ask t topic s = (.error e, { s with memory }.happen (some t.id)
      (.call t.client t.life (.findMembers topic t.group) false)) := by
  rw [ask, hquery]

/-- While a query is answered, hooks are received one after the other. -/
theorem ask_of_accepted {t : Confirmation} {topic : String} {s : State ω} {hooks : List Hook}
    {memory : ω}
    (hquery : k.environment.query s.memory s.now t.client topic t.group = (.ok hooks, memory)) :
    k.ask t topic s =
      k.answered t topic (hooks.foldl (k.receive (some t)) (accepted t topic memory s)) := by
  rw [ask, hquery]
  rfl

theorem ask_mirrored (h : Mirrors L k k') (htop : L.OnTop) (t : Confirmation) (topic : String)
    (hs : L.States s s') :
    (k'.ask t topic s').1 = (k.ask t topic s).1 ∧
      L.States (k.ask t topic s).2 (k'.ask t topic s').2 := by
  obtain ⟨m, r, l, hm, hr, hl, rfl⟩ := hs
  obtain ⟨hsame, hm₁⟩ := h.query hm s.now t.client topic t.group
  rcases hquery : k.environment.query s.memory s.now t.client topic t.group with ⟨result, memory⟩
  rcases hquery' : k'.environment.query m s.now t.client topic t.group with ⟨result', memory'⟩
  rw [hquery, hquery'] at hsame hm₁
  obtain rfl : result' = result := hsame
  cases result' with
  | error e =>
    rw [ask_of_refused hquery, ask_of_refused (s := s.recast m r l) hquery']
    refine ⟨rfl, happen_mirrored ?_ (some t.id) _ rfl⟩
    exact ⟨memory', r, l, hm₁, hr, hl, rfl⟩
  | ok hooks =>
    rw [ask_of_accepted hquery, ask_of_accepted (s := s.recast m r l) hquery']
    have hasked : L.States (accepted t topic memory s)
        (accepted t topic memory' (s.recast m r l)) := by
      refine happen_mirrored ?_ (some t.id) _ rfl
      exact ⟨memory', r, l, hm₁, hr, hl, rfl⟩
    have hreceived : L.States (hooks.foldl (k.receive (some t)) (accepted t topic memory s))
        (hooks.foldl (k'.receive (some t)) (accepted t topic memory' (s.recast m r l))) := by
      refine List.foldl_rel hasked ?_
      intro hook _ s₁ s₁' hs₁
      exact receive_mirrored h htop (some t) hook hs₁
    generalize hooks.foldl (k.receive (some t)) _ = s₁ at hreceived ⊢
    generalize hooks.foldl (k'.receive (some t)) _ = s₁' at hreceived ⊢
    obtain ⟨m₁, r₁, l₁, hm₂, hr₁, hl₁, rfl⟩ := hreceived
    obtain ⟨hmembers, hm₃⟩ := h.members hm₂ s₁.now t.client topic t.group
    rw [answered, answered]
    simp only [State.memory_recast, State.now_recast, hmembers, true_and]
    refine happen_mirrored ?_ (some t.id) _ rfl
    exact ⟨_, r₁, l₁, hm₃, hr₁, hl₁, rfl⟩

theorem isGone_mirrored (h : Mirrors L k k') (htop : L.OnTop) (t : Confirmation)
    (topics : List String) : ∀ {s : State ω} {s' : State ω'}, L.States s s' →
      (k'.isGone t topics s').1 = (k.isGone t topics s).1 ∧
        L.States (k.isGone t topics s).2 (k'.isGone t topics s').2 := by
  induction topics with
  | nil =>
    intro s s' hs
    exact ⟨rfl, hs⟩
  | cons topic topics ih =>
    intro s s' hs
    obtain ⟨hsame, hasked⟩ := ask_mirrored h htop t topic hs
    rw [isGone, isGone]
    generalize k.ask t topic s = x at hsame hasked ⊢
    generalize k'.ask t topic s' = x' at hsame hasked ⊢
    rcases x with ⟨result, s₁⟩
    rcases x' with ⟨result', s₁'⟩
    obtain rfl : result' = result := hsame
    cases result' with
    | error e => exact ⟨rfl, report_mirrored hasked t.id _ rfl⟩
    | ok members =>
      dsimp only
      split
      · exact ⟨rfl, hasked⟩
      · exact ih hasked

theorem conclude_mirrored (h : Mirrors L k k') (t : Confirmation) (gone : Bool)
    (hs : L.States s s') : L.States (k.conclude t gone s) (k'.conclude t gone s') := by
  rw [conclude_eq_run, conclude_eq_run, hs.subject?_eq t, h.config]
  cases subject? t s with
  | none => exact report_mirrored hs t.id _ rfl
  | some c =>
    dsimp only
    split
    · obtain ⟨m, r, l, hm, hr, hl, rfl⟩ := hs
      refine report_mirrored ?_ t.id _ rfl
      exact ⟨m, r, l, hm, hr, hl, rfl⟩
    · have hreported := report_mirrored hs t.id
        (.confirmationTimedOut c.label k.config.maxRetries.toNat) rfl
      generalize s.report t.id _ = s₁ at hreported ⊢
      generalize s'.report t.id _ = s₁' at hreported ⊢
      obtain ⟨m, r, l, hm, hr, hl, rfl⟩ := hreported
      obtain ⟨hwaits, hsame, hm', hl'⟩ := h.rollBack s₁.now ⟨t.client, t.life⟩ c hm hl
      refine ⟨_, r, _, hm', hr, hl', ?_⟩
      simp only [State.now_recast, State.memory_recast, State.stuck_recast, State.log_recast, hsame,
        hwaits]
      rfl

theorem proceed_mirrored (h : Mirrors L k k') (htop : L.OnTop) (t : Confirmation)
    (hs : L.States s s') : L.States (k.proceed t s) (k'.proceed t s') := by
  rw [proceed, proceed, h.config, hs.subject?_eq t]
  split
  · exact conclude_mirrored h t false hs
  cases subject? t s with
  | none => exact report_mirrored hs t.id _ rfl
  | some c =>
    dsimp only
    obtain ⟨hsame, hasked⟩ := isGone_mirrored h htop t c.topics.toList hs
    rw [hs.confirmations_eq]
    generalize k.isGone t c.topics.toList s = x at hsame hasked ⊢
    generalize k'.isGone t c.topics.toList s' = x' at hsame hasked ⊢
    rcases x with ⟨gone, s₁⟩
    rcases x' with ⟨gone', s₁'⟩
    obtain rfl : gone' = gone := hsame
    cases gone' with
    | true => exact conclude_mirrored h t true hasked
    | false =>
      dsimp only
      rw [hasked.now_eq]
      have hreported := report_mirrored hasked (t.again k.config s₁.now).id
        (.stillListed (t.again k.config s₁.now).client.clientId (t.again k.config s₁.now).group
          (t.again k.config s₁.now).attempts) rfl
      split
      · exact conclude_mirrored h _ false hreported
      · generalize s₁.report _ _ = s₂ at hreported ⊢
        generalize s₁'.report _ _ = s₂' at hreported ⊢
        obtain ⟨m, r, l, hm, hr, hl, rfl⟩ := hreported
        exact ⟨m, r, l, hm, hr, hl, rfl⟩

/-! ### Time and runs -/

theorem goOn_mirrored (h : Mirrors L k k') (htop : L.OnTop) (t : Confirmation)
    (waiting : List Confirmation) (hs : L.States s s') :
    L.States (k.goOn t waiting s) (k'.goOn t waiting s') := by
  obtain ⟨m, r, l, hm, hr, hl, rfl⟩ := hs
  refine proceed_mirrored h htop t ?_
  exact ⟨m, r, l, hm, hr, hl, rfl⟩

theorem runUntil_mirrored (h : Mirrors L k k') (htop : L.OnTop) (limit : Option Nat)
    (fuel : Nat) : ∀ {s : State ω} {s' : State ω'}, L.States s s' →
      Option.Rel L.States (k.runUntil limit fuel s) (k'.runUntil limit fuel s') := by
  induction fuel with
  | zero =>
    intro s s' hs
    rw [runUntil, runUntil, hs.confirmations_eq]
    cases Confirmation.takeNext limit s.confirmations with
    | none => exact .some hs
    | some next => exact .none
  | succ fuel ih =>
    intro s s' hs
    rw [runUntil, runUntil, hs.confirmations_eq]
    cases Confirmation.takeNext limit s.confirmations with
    | none => exact .some hs
    | some next => exact ih (goOn_mirrored h htop next.1 next.2 hs)

theorem budget_mirrored (h : Mirrors L k k') (patience : Nat) (hs : L.States s s') :
    k'.budget patience s' = k.budget patience s := by
  rw [budget, budget, h.config, hs.confirmations_eq]

theorem advance_mirrored (h : Mirrors L k k') (htop : L.OnTop) (patience ms : Nat)
    (hs : L.States s s') :
    Option.Rel L.States (k.advance patience ms s) (k'.advance patience ms s') := by
  rw [advance, advance, budget_mirrored h patience hs, hs.now_eq]
  rw [Option.map_eq_bind, Option.map_eq_bind]
  refine rel_bind (runUntil_mirrored h htop (some (s.now + ms)) (k.budget patience s) hs) ?_
  intro s₁ s₁' hs₁
  obtain ⟨m, r, l, hm, hr, hl, rfl⟩ := hs₁
  exact .some ⟨m, r, l, hm, hr, hl, rfl⟩

theorem take_mirrored (h : Mirrors L k k') (htop : L.OnTop) (patience : Nat) (i : Input)
    (hs : L.States s s') : Option.Rel L.States (k.take patience s i) (k'.take patience s' i) := by
  cases i with
  | hook hook => exact .some (receive_mirrored h htop none hook hs)
  | drive id d => exact .some (drive_mirrored h d id (received_mirrored htop (.order id d) hs))
  | pass ms => exact advance_mirrored h htop patience ms hs
  | wait =>
    rw [take, take, wait, wait, budget_mirrored h patience hs]
    exact runUntil_mirrored h htop none _ hs

theorem react_mirrored (h : Mirrors L k k') (htop : L.OnTop) (patience : Nat) (i : Input)
    (hs : L.States s s') : Option.Rel L.States (k.react patience s i) (k'.react patience s' i) := by
  rw [react, react]
  refine rel_bind (take_mirrored h htop patience i hs) ?_
  intro s₁ s₁' hs₁
  exact advance_mirrored h htop patience 0 hs₁

/-- Like states are stuck both, or neither is. -/
theorem next_mirrored (h : Mirrors L k k') (htop : L.OnTop) (patience : Nat) (i : Input)
    (hs : L.States s s') : Option.Rel L.States (k.next patience s i) (k'.next patience s' i) := by
  have hreacted := react_mirrored h htop patience i hs
  rw [next, next]
  generalize k.react patience s i = o at hreacted ⊢
  generalize k'.react patience s' i = o' at hreacted ⊢
  cases hreacted with
  | none => exact .none
  | some hs₁ =>
    rw [Option.filter_some, Option.filter_some, hs₁.stuck_eq]
    split
    · exact .some hs₁
    · exact .none

/-- **Runs from like states come to like states**, or neither of them comes to an end. -/
theorem run_mirrored (h : Mirrors L k k') (htop : L.OnTop) (patience : Nat)
    (inputs : List Input) : ∀ {s : State ω} {s' : State ω'}, L.States s s' →
      Option.Rel L.States (k.run patience s inputs) (k'.run patience s' inputs) := by
  induction inputs with
  | nil =>
    intro s s' hs
    exact .some hs
  | cons i inputs ih =>
    intro s s' hs
    rw [run_cons, run_cons]
    refine rel_bind (next_mirrored h htop patience i hs) ?_
    intro s₁ s₁' hs₁
    exact ih hs₁

end Controller

end Embargo
