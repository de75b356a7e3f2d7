import Embargo.Proofs.Handoff

/-!
# What handlers are asked

A handler is asked about a consumer after every event that concerns it, and about all consumers when
there is a new policy.  What it is asked is a matter of what has been received, and of nothing else:
neither what it has decided before nor how calls are answered makes a difference.

* `Consultation` — a question to a handler: about which consumer, after what, under which policy;
* `Log.consultations` — what has been asked, by the record;
* `Delivery.policyInForce` — the policy that has been received last;
* `Delivery.Asks` — what has to be asked on account of a delivery, by what was received before it;
* `Asked` — a history of deliveries, each of which has led to exactly the questions it had to;
* `State.Silent` — between two states nothing has been asked;
* `evaluate_consultations`, `sweep_consultations` — to evaluate is to ask once, to sweep is to ask
  once about each consumer;
* `Controller.Reachable.asked_exactly` — **what has been asked is what had to be asked**.
-/

namespace Embargo

variable {ω : Type}

/-! ### Questions to handlers -/

/-- A question to a handler. -/
structure Consultation where
  handler : HandlerName
  /-- The identity that it is about. -/
  who : Option ConsumerId
  trigger : Trigger
  /-- The consumer that it is about, as if it had never been driven. -/
  consumer : Consumer
  policy : Policy

/-- The question that an event is. -/
def Event.consultation? (e : Event) : Option Consultation :=
  match e.what with
  | .evaluation handler trigger c policy => some ⟨handler, e.who, trigger, c.pristine, policy⟩
  | _ => none

/-- What has been asked, the latest question first. -/
def Log.consultations (log : Log) : List Consultation :=
  log.filterMap Event.consultation?

namespace Delivery

/-- The policy that a delivery brings. -/
def policy? : Delivery → Option Policy
  | .hook h _ => h.policy?
  | .order .. => none

/-- The policy that has been received last, or the one from the beginning, without blanks. -/
def policyInForce (policy : Policy) (received : List Delivery) : Policy :=
  ((received.findSome? policy?).getD policy).normalized

/-- What has to be asked on account of a delivery, given what has been received before it. -/
inductive Asks (handler : HandlerName) (policy : Policy) (received : List Delivery) :
    Delivery → Consultation → Prop where
  /-- A client starts, and what has waited for it is applied. -/
  | enrolled {client : Client} {fresh : Consumer} (within : Option Confirmation)
      (hwrap : Consumer.wrap client = .ok fresh)
      (hfree : (reports client.id received).registered? = none) :
      Asks handler policy received (.hook (.lifecycle client .start) within)
        ⟨handler, some client.id, .start,
          (reports client.id received).changes.foldl Consumer.accept fresh,
          policyInForce policy received⟩
  /-- A client starts whose consumer is registered already. -/
  | restarted {client : Client} {fresh c : Consumer} (within : Option Confirmation)
      (hwrap : Consumer.wrap client = .ok fresh)
      (hreg : (reports client.id received).registered? = some c) :
      Asks handler policy received (.hook (.lifecycle client .start) within)
        ⟨handler, some client.id, .start, c, policyInForce policy received⟩
  /-- A registered consumer accepts a change. -/
  | revised {client : Client} {e : LifecycleEvent} {change : Change} {c c' : Consumer}
      (within : Option Confirmation) (hchange : e.change? = some change)
      (hreg : (reports client.id received).registered? = some c)
      (happly : c.apply change = .ok c') :
      Asks handler policy received (.hook (.lifecycle client e) within)
        ⟨handler, some client.id, change.trigger, c', policyInForce policy received⟩
  /-- There is a new policy for a registered consumer. -/
  | swept {h : Hook} {p : Policy} {id : ConsumerId} {c : Consumer} (within : Option Confirmation)
      (hpolicy : h.policy? = some p) (hreg : (reports id received).registered? = some c) :
      Asks handler policy received (.hook h within)
        ⟨handler, some id, .policyUpdate, c, p.normalized⟩

theorem policyInForce_cons_of_none (policy : Policy) {d : Delivery} (received : List Delivery)
    (h : d.policy? = none) :
    policyInForce policy (d :: received) = policyInForce policy received := by
  rw [policyInForce, List.findSome?_cons, h]
  rfl

theorem policyInForce_cons_of_some (policy : Policy) {d : Delivery} {p : Policy}
    (received : List Delivery) (h : d.policy? = some p) :
    policyInForce policy (d :: received) = p.normalized := by
  rw [policyInForce, List.findSome?_cons, h]
  rfl

variable {handler : HandlerName} {policy : Policy} {received : List Delivery} {client : Client}
  {e : LifecycleEvent} {within : Option Confirmation}

/-- Of all that a client reports, only a start with a consumer and a change that is accepted ask
anything. -/
theorem not_asks_of_idle (hstart : e = .start → (Consumer.wrap client).toOption = none)
    (hchange : ∀ change c, e.change? = some change →
      (reports client.id received).registered? = some c → (c.apply change).toOption = none)
    (q : Consultation) :
    ¬Asks handler policy received (.hook (.lifecycle client e) within) q := by
  intro h
  cases h with
  | enrolled _ hwrap hfree =>
    have hnone := hstart rfl
    rw [hwrap] at hnone
    cases hnone
  | restarted _ hwrap hreg =>
    have hnone := hstart rfl
    rw [hwrap] at hnone
    cases hnone
  | revised _ hbrings hreg happly =>
    have hnone := hchange _ _ hbrings hreg
    rw [happly] at hnone
    cases hnone
  | swept _ hpolicy hreg => cases hpolicy

theorem asks_enrolled {fresh : Consumer} (hwrap : Consumer.wrap client = .ok fresh)
    (hfree : (reports client.id received).registered? = none) (q : Consultation) :
    Asks handler policy received (.hook (.lifecycle client .start) within) q ↔
      q = ⟨handler, some client.id, .start,
        (reports client.id received).changes.foldl Consumer.accept fresh,
        policyInForce policy received⟩ := by
  refine ⟨fun h => ?_, fun h => h ▸ .enrolled within hwrap hfree⟩
  cases h with
  | enrolled _ hwrap' _ =>
    cases hwrap.symm.trans hwrap'
    rfl
  | restarted _ _ hreg => cases hfree.symm.trans hreg
  | revised _ hbrings _ _ => cases hbrings
  | swept _ hpolicy _ => cases hpolicy

theorem asks_restarted {fresh c : Consumer} (hwrap : Consumer.wrap client = .ok fresh)
    (hreg : (reports client.id received).registered? = some c) (q : Consultation) :
    Asks handler policy received (.hook (.lifecycle client .start) within) q ↔
      q = ⟨handler, some client.id, .start, c, policyInForce policy received⟩ := by
  refine ⟨fun h => ?_, fun h => h ▸ .restarted within hwrap hreg⟩
  cases h with
  | enrolled _ _ hfree => cases hfree.symm.trans hreg
  | restarted _ _ hreg' =>
    cases hreg.symm.trans hreg'
    rfl
  | revised _ hbrings _ _ => cases hbrings
  | swept _ hpolicy _ => cases hpolicy

theorem asks_revised {change : Change} {c c' : Consumer} (hchange : e.change? = some change)
    (hreg : (reports client.id received).registered? = some c) (happly : c.apply change = .ok c')
    (q : Consultation) :
    Asks handler policy received (.hook (.lifecycle client e) within) q ↔
      q = ⟨handler, some client.id, change.trigger, c', policyInForce policy received⟩ := by
  refine ⟨fun h => ?_, fun h => h ▸ .revised within hchange hreg happly⟩
  cases h with
  | enrolled _ _ _ => cases hchange
  | restarted _ _ _ => cases hchange
  | revised _ hchange' hreg' happly' =>
    cases hchange.symm.trans hchange'
    cases hreg.symm.trans hreg'
    cases happly.symm.trans happly'
    rfl
  | swept _ hpolicy _ => cases hpolicy

/-- A new policy asks about registered consumers only. -/
theorem asks_swept {h : Hook} {p : Policy} (hpolicy : h.policy? = some p) {q : Consultation}
    (hq : Asks handler policy received (.hook h within) q) :
    ∃ id c, (reports id received).registered? = some c ∧
      q = ⟨handler, some id, .policyUpdate, c, p.normalized⟩ := by
  cases hq with
  | swept _ hpolicy' hreg =>
    cases hpolicy.symm.trans hpolicy'
    exact ⟨_, _, hreg, rfl⟩
  | _ => cases hpolicy

end Delivery

/-- As long as no start has made a consumer, all changes wait. -/
theorem Reports.getD_waiting? {reports : Reports} (hfresh : reports.fresh? = none) :
    reports.waiting?.getD [] = reports.changes := by
  rw [waiting?, hfresh]
  by_cases hempty : reports.changes = [] <;> simp [hempty]

/-- How far a consumer takes part does not matter for whether it accepts a change. -/
theorem Consumer.apply_pristine (c : Consumer) (change : Change) :
    c.pristine.apply change = (c.apply change).map Consumer.pristine := by
  rcases c with ⟨client, group, mode, topics, assigned, paused, state, epoch, shutDown, last⟩
  rcases mode with _ | (_ | _) <;> cases change <;> rfl

/-- Each delivery has led to exactly the questions that it had to lead to, one after the other in an
order of its own: of deliveries and questions, the latest first. -/
inductive Asked (handler : HandlerName) (policy : Policy) :
    List Delivery → List Consultation → Prop where
  | nil : Asked handler policy [] []
  | cons {received : List Delivery} {earlier questions : List Consultation} (d : Delivery)
      (hearlier : Asked handler policy received earlier) (hnodup : questions.Nodup)
      (hexact : ∀ q, q ∈ questions ↔ d.Asks handler policy received q) :
      Asked handler policy (d :: received) (questions ++ earlier)

/-- A delivery that asks nothing. -/
theorem Asked.cons_of_none {handler : HandlerName} {policy : Policy} {received : List Delivery}
    {earlier : List Consultation} {d : Delivery} (h : Asked handler policy received earlier)
    (hnone : ∀ q, ¬d.Asks handler policy received q) :
    Asked handler policy (d :: received) earlier :=
  .cons d h .nil fun q => ⟨fun hq => absurd hq List.not_mem_nil, fun hq => absurd hq (hnone q)⟩

/-- A delivery that asks one thing. -/
theorem Asked.cons_of_one {handler : HandlerName} {policy : Policy} {received : List Delivery}
    {earlier : List Consultation} {d : Delivery} {q : Consultation}
    (h : Asked handler policy received earlier)
    (hone : ∀ q', d.Asks handler policy received q' ↔ q' = q) :
    Asked handler policy (d :: received) (q :: earlier) :=
  .cons d h (List.nodup_singleton q) fun q' => by rw [hone, List.mem_singleton]

/-! ### Between questions -/

namespace Log

theorem consultations_append (l m : Log) :
    consultations (l ++ m) = consultations l ++ consultations m :=
  List.filterMap_append

/-- Whatever is no evaluation is no question. -/
theorem consultations_eq_nil {l : Log}
    (h : ∀ e ∈ l, ∀ handler trigger c p, e.what ≠ .evaluation handler trigger c p) :
    consultations l = [] := by
  rw [consultations, List.filterMap_eq_nil_iff]
  intro e he
  rcases e with ⟨time, who, what⟩
  cases what with
  | evaluation handler trigger c p => exact absurd rfl (h _ he handler trigger c p)
  | _ => rfl

end Log

namespace State

variable {s s' s'' : State ω}

/-- Between two states nothing has been asked, and the policy has stayed the same. -/
structure Silent (s s' : State ω) : Prop where
  policy : s'.policy = s.policy
  consultations : s'.log.consultations = s.log.consultations

theorem Silent.refl (s : State ω) : s.Silent s :=
  ⟨rfl, rfl⟩

theorem Silent.trans (h : s.Silent s') (h' : s'.Silent s'') : s.Silent s'' :=
  ⟨h'.policy.trans h.policy, h'.consultations.trans h.consultations⟩

/-- What is put on record but evaluations. -/
theorem Silent.of_log (new : Log) (hpolicy : s'.policy = s.policy) (hlog : s'.log = new ++ s.log)
    (hnew : ∀ e ∈ new, ∀ handler trigger c p, e.what ≠ .evaluation handler trigger c p) :
    s.Silent s' :=
  ⟨hpolicy, by rw [hlog, Log.consultations_append, Log.consultations_eq_nil hnew, List.nil_append]⟩

theorem Noted.silent (h : s.Noted s') : s.Silent s' := by
  obtain ⟨new, rfl, hnew⟩ := h
  refine .of_log new rfl rfl fun e he handler trigger c p hwhat => ?_
  obtain ⟨n, hn⟩ := hnew e he
  rw [hwhat] at hn
  cases hn

/-- One notice is put on record, whatever else becomes of the state. -/
theorem Silent.of_notice {time : Nat} {who : Option ConsumerId} {n : Notice}
    (hpolicy : s'.policy = s.policy) (hlog : s'.log = ⟨time, who, .notice n⟩ :: s.log) :
    s.Silent s' := by
  refine .of_log [_] hpolicy hlog fun e he handler trigger c p hwhat => ?_
  rw [List.mem_singleton.1 he] at hwhat
  cases hwhat

theorem report_silent (s : State ω) (id : ConsumerId) (n : Notice) : s.Silent (s.report id n) :=
  .of_notice rfl rfl

/-- The question about a registered consumer. -/
def question? (s : State ω) (handler : HandlerName) (trigger : Trigger) (id : ConsumerId) :
    Option Consultation :=
  (s.consumer? id).map fun c => ⟨handler, some id, trigger, c.pristine, s.policy.current⟩

/-- What is asked does not depend on how far consumers take part. -/
theorem question?_eq (htended : s.Tended s') (hsame : s'.policy = s.policy)
    (handler : HandlerName) (trigger : Trigger) (id : ConsumerId) :
    s'.question? handler trigger id = s.question? handler trigger id := by
  have hmap := congrArg
    (Option.map fun c => Consultation.mk handler (some id) trigger c s.policy.current)
    (htended.consumers id)
  rw [Option.map_map, Option.map_map] at hmap
  rw [question?, question?, hsame]
  exact hmap

end State

namespace Controller

variable {k : Controller ω} {s s' : State ω}

/-- What a program puts on record are no questions. -/
theorem silent_of_run {α : Type} {subject : Program.Subject} {p : Program α} {now : Nat}
    {log : Log} (hpolicy : s'.policy = s.policy) (hbefore : log.consultations = s.log.consultations)
    (hlog : s'.log = (p.run k.environment now subject s.memory log).2.2) : s.Silent s' := by
  obtain ⟨tr, new, -, hrun, hnew⟩ := Program.run_log k.environment now subject p s.memory log
  refine ⟨hpolicy, ?_⟩
  rw [hlog, hrun, Log.consultations_append, Log.consultations_eq_nil, List.nil_append, hbefore]
  intro e he handler trigger c policy hwhat
  rcases hnew e he with ⟨n, hn⟩ | ⟨command, ok, -, hcall⟩
  · rw [hwhat] at hn
    cases hn
  · rw [hwhat] at hcall
    cases hcall

theorem drive_silent (k : Controller ω) (d : Decision) (id : ConsumerId) (s : State ω) :
    s.Silent (k.drive d id s) := by
  rw [drive_eq_run]
  cases s.consumer? id with
  | none => exact .refl s
  | some c => exact silent_of_run (k := k) rfl rfl rfl

theorem follow_silent (k : Controller ω) (id : ConsumerId) (plan : Plan) :
    ∀ s : State ω, s.Silent (k.follow id plan s) := by
  induction plan with
  | stop => exact fun s => .refl s
  | drive d next ih =>
    intro s
    have hdrive := drive_silent k d id s
    rw [follow_drive]
    cases (k.drive d id s).consumer? id with
    | none => exact hdrive
    | some c => exact hdrive.trans (ih c _)

theorem conclude_silent (k : Controller ω) (t : Confirmation) (gone : Bool) (s : State ω) :
    s.Silent (k.conclude t gone s) := by
  rw [conclude_eq_run]
  cases subject? t s with
  | none => exact s.report_silent t.id .confirmationDiscarded
  | some c =>
    dsimp only
    split
    · have hput : s.Silent (s.put t.id (c.transition s.now .suspended)) := ⟨rfl, rfl⟩
      exact hput.trans (State.report_silent _ _ _)
    · exact silent_of_run (k := k) rfl (s.report_silent t.id _).consultations rfl

/-! ### Asking -/

/-- **To evaluate is to ask once.** -/
theorem evaluate_consultations (k : Controller ω) (trigger : Trigger) (id : ConsumerId)
    (s : State ω) :
    (k.evaluate trigger id s).policy = s.policy ∧
      (k.evaluate trigger id s).log.consultations =
        (s.question? k.handler.name trigger id).toList ++ s.log.consultations := by
  rw [evaluate_outside, State.question?]
  cases s.consumer? id with
  | none => exact ⟨rfl, rfl⟩
  | some c =>
    have hfollow := follow_silent k id (k.handler.plan s.memory trigger c s.policy.current).1
      { s.happen (some id) (.evaluation k.handler.name trigger c s.policy.current) with
        memory := (k.handler.plan s.memory trigger c s.policy.current).2 }
    exact ⟨hfollow.policy, hfollow.consultations⟩

/-- **To sweep is to ask once about each consumer.** -/
theorem sweep_consultations (k : Controller ω) (ids : List ConsumerId) :
    ∀ {s : State ω}, s.Tidy → (k.sweep ids s).policy = s.policy ∧
      (k.sweep ids s).log.consultations =
        (ids.filterMap (s.question? k.handler.name .policyUpdate)).reverse ++
          s.log.consultations := by
  induction ids with
  | nil => exact fun hs => ⟨rfl, rfl⟩
  | cons id ids ih =>
    intro s hs
    have htended := revisit_tended k id hs
    -- nobody who is registered is shut down
    have hrevisit : (k.revisit s id).policy = s.policy ∧ (k.revisit s id).log.consultations =
        (s.question? k.handler.name .policyUpdate id).toList ++ s.log.consultations := by
      rw [revisit_outside]
      cases hreg : s.consumer? id with
      | none =>
        rw [State.question?, hreg]
        exact ⟨rfl, rfl⟩
      | some c =>
        dsimp only
        rw [hs.running id c hreg, if_neg Bool.false_ne_true]
        exact evaluate_consultations k .policyUpdate id s
    obtain ⟨hpolicy, hasked⟩ := ih (htended.tidy hs)
    refine ⟨hpolicy.trans hrevisit.1, ?_⟩
    rw [show k.sweep (id :: ids) s = k.sweep ids (k.revisit s id) from rfl, hasked, hrevisit.2,
      funext fun i => State.question?_eq htended hrevisit.1 k.handler.name .policyUpdate i,
      List.filterMap_cons]
    cases s.question? k.handler.name .policyUpdate id with
    | none => rfl
    | some q => simp

/-! ### What has to be asked -/

/-- A state holds what has been received before comes to. -/
structure Informed (policy : Policy) (received : List Delivery) (s : State ω) : Prop where
  registered : ∀ id, (s.consumer? id).map Consumer.pristine =
    (Delivery.reports id received).registered?
  waiting : ∀ id, s.cache.get? id = (Delivery.reports id received).waiting?
  inForce : s.policy.current = Delivery.policyInForce policy received

variable {policy : Policy} {received : List Delivery} {h : Hook} {within : Option Confirmation}
  {client : Client} {e : LifecycleEvent}

/-- All that had to be asked has been asked, under the policy that was received last. -/
structure Consulted (k : Controller ω) (policy : Policy) (received : List Delivery) (s : State ω) :
    Prop where
  inForce : s.policy.current = Delivery.policyInForce policy received
  asked : Asked k.handler.name policy received s.log.consultations

/-- What a client reports leads to no question. -/
theorem consulted_of_silent (hinformed : Informed policy received s)
    (hasked : Asked k.handler.name policy received s.log.consultations) (hsilent : s.Silent s')
    (hnone : ∀ q, ¬Delivery.Asks k.handler.name policy received
      (.hook (.lifecycle client e) within) q) :
    k.Consulted policy (.hook (.lifecycle client e) within :: received) s' where
  inForce := by
    rw [Delivery.policyInForce_cons_of_none _ _ rfl, hsilent.policy]
    exact hinformed.inForce
  asked := hsilent.consultations ▸ hasked.cons_of_none hnone

/-- What a client reports leads to one question. -/
theorem consulted_of_evaluate (hinformed : Informed policy received s)
    (hasked : Asked k.handler.name policy received s.log.consultations) {s₁ : State ω}
    (hsilent : s.Silent s₁) {trigger : Trigger} {c : Consumer}
    (hreg : (s₁.consumer? client.id).map Consumer.pristine = some c)
    (hone : ∀ q, Delivery.Asks k.handler.name policy received
        (.hook (.lifecycle client e) within) q ↔
      q = ⟨k.handler.name, some client.id, trigger, c, Delivery.policyInForce policy received⟩) :
    k.Consulted policy (.hook (.lifecycle client e) within :: received)
      (k.evaluate trigger client.id s₁) := by
  obtain ⟨hpolicy, hconsultations⟩ := evaluate_consultations k trigger client.id s₁
  have hcurrent : s₁.policy.current = Delivery.policyInForce policy received := by
    rw [hsilent.policy]
    exact hinformed.inForce
  refine ⟨?_, ?_⟩
  · rw [Delivery.policyInForce_cons_of_none _ _ rfl, hpolicy, hcurrent]
  · obtain ⟨c₁, hc₁, rfl⟩ := Option.map_eq_some_iff.1 hreg
    rw [hconsultations, State.question?, hc₁, hcurrent, hsilent.consultations]
    exact hasked.cons_of_one hone

/-- A new policy leads to one question about each registered consumer. -/
theorem consulted_of_sweep (hs : s.Tidy) (hinformed : Informed policy received s)
    (hasked : Asked k.handler.name policy received s.log.consultations) {p : Policy}
    (hpolicy : h.policy? = some p) :
    k.Consulted policy (.hook h within :: received) (k.updatePolicy p s) := by
  -- the state in which the sweep begins
  obtain ⟨s₁, hs₁⟩ : ∃ s₁, s₁ = { (install p s).happen none
    (.notice (.sweepStarted (install p s).registry.size)) with sweeps := s.sweeps + 1 } := ⟨_, rfl⟩
  have htidy : s₁.Tidy := hs₁ ▸ hs.of_eq rfl rfl
  have hcurrent : s₁.policy.current = p.normalized := by rw [hs₁]; rfl
  have hconsultations : s₁.log.consultations = s.log.consultations := by rw [hs₁]; rfl
  have hconsumer : s₁.consumer? = s.consumer? := by rw [hs₁]; rfl
  have hswept : k.updatePolicy p s = k.sweep (k.sweepOrder s.sweeps s.registry.ids) s₁ := by
    rw [hs₁]
    rfl
  obtain ⟨hpolicy', hasked'⟩ :=
    sweep_consultations k (k.sweepOrder s.sweeps s.registry.ids) htidy
  have hperm := k.sweepOrder_perm s.sweeps s.registry.ids
  rw [hswept]
  refine ⟨?_, ?_⟩
  · rw [hpolicy', hcurrent]
    exact (Delivery.policyInForce_cons_of_some (d := .hook h within) policy received hpolicy).symm
  rw [hasked', hconsultations]
  refine .cons _ hasked (List.nodup_reverse.2 ?_) fun q => ?_
  · refine (hperm.nodup_iff.2 (Registry.nodup_ids _)).filterMap fun i j q hi hj => ?_
    obtain ⟨c, -, rfl⟩ := Option.map_eq_some_iff.1 hi
    obtain ⟨c', -, heq⟩ := Option.map_eq_some_iff.1 hj
    exact Option.some.inj (congrArg Consultation.who heq).symm
  · rw [List.mem_reverse, List.mem_filterMap]
    constructor
    · rintro ⟨id, -, hq⟩
      obtain ⟨c, hreg, rfl⟩ := Option.map_eq_some_iff.1 hq
      rw [hcurrent]
      refine .swept within hpolicy ?_
      rw [← hinformed.registered id, ← hconsumer, hreg, Option.map_some]
    · intro hq
      obtain ⟨id, c, hreg, rfl⟩ := Delivery.asks_swept hpolicy hq
      rw [← hinformed.registered id, ← hconsumer, Option.map_eq_some_iff] at hreg
      obtain ⟨c₁, hreg₁, rfl⟩ := hreg
      refine ⟨id, hperm.mem_iff.2 (Registry.mem_ids.2 ?_), ?_⟩
      · exact Option.isSome_of_eq_some ((congrFun hconsumer id).symm.trans hreg₁)
      · rw [State.question?, hreg₁, hcurrent]
        rfl

/-- **Whatever becomes of a hook, what it has to lead to is asked.** -/
theorem Treatment.consulted (htreated : k.Treatment s h s') (hs : s.Tidy)
    (hinformed : Informed policy received s)
    (hasked : Asked k.handler.name policy received s.log.consultations) :
    k.Consulted policy (.hook h within :: received) s' := by
  have hregistered : ∀ {id : ConsumerId} {c : Consumer}, s.consumer? id = some c →
      (Delivery.reports id received).registered? = some c.pristine := fun {id c} hreg => by
    rw [← hinformed.registered id, hreg, Option.map_some]
  have hunregistered : ∀ {id : ConsumerId}, s.consumer? id = none →
      (Delivery.reports id received).registered? = none := fun {id} hfree => by
    rw [← hinformed.registered id, hfree, Option.map_none]
  cases htreated with
  | rejected hwrap =>
    refine consulted_of_silent hinformed hasked (s.report_silent _ _)
      (Delivery.not_asks_of_idle (fun _ => by rw [hwrap]; rfl) fun change c hbrings => ?_)
    cases hbrings
  | restarted hwrap hreg =>
    exact consulted_of_evaluate hinformed hasked (s.report_silent _ _)
      (congrArg (Option.map Consumer.pristine) hreg)
      (Delivery.asks_restarted hwrap (hregistered hreg))
  | @enrolled client fresh hwrap hfree =>
    have hnoted := enrol_noted client fresh s
    have htaken : s.Silent (takeIn client.id (caughtUp client.id fresh s) s) := ⟨rfl, rfl⟩
    refine consulted_of_evaluate hinformed hasked (htaken.trans hnoted.silent) ?_
      (Delivery.asks_enrolled hwrap (hunregistered hfree))
    have hfresh : (Delivery.reports client.id received).fresh? = none := by
      have hnone := hunregistered hfree
      rwa [Reports.registered?, Option.map_eq_none_iff] at hnone
    have hconsumer : (enrol client fresh s).consumer? client.id =
        some (caughtUp client.id fresh s) := by
      obtain ⟨new, heq, -⟩ := hnoted
      rw [heq]
      exact (consumer?_takeIn ..).trans (if_pos rfl)
    show ((enrol client fresh s).consumer? client.id).map Consumer.pristine = _
    rw [hconsumer, caughtUp, hinformed.waiting, Reports.getD_waiting? hfresh,
      Consumer.replay_eq_foldl, Option.map_some, Consumer.pristine_foldl_accept,
      Consumer.pristine_of_wrap hwrap]
  | unusable hstart hshutdown hchange =>
    refine consulted_of_silent hinformed hasked (s.report_silent _ _)
      (Delivery.not_asks_of_idle (fun h => absurd h hstart) fun change c hbrings => ?_)
    cases hchange.symm.trans hbrings
  | refused hchange hreg happly =>
    refine consulted_of_silent hinformed hasked (s.report_silent _ _)
      (Delivery.not_asks_of_idle (fun h => ?_) fun change c hbrings hreg' => ?_)
    · rw [h] at hchange
      cases hchange
    · cases hchange.symm.trans hbrings
      cases (hregistered hreg).symm.trans hreg'
      rw [Consumer.apply_pristine, happly]
      rfl
  | @revised client _ _ _ c' hchange hreg happly =>
    have hput : s.Silent (s.put client.id c') := ⟨rfl, rfl⟩
    refine consulted_of_evaluate hinformed hasked hput
      (congrArg (Option.map Consumer.pristine) (consumer?_put_self s client.id c'))
      (Delivery.asks_revised hchange (hregistered hreg) ?_)
    rw [Consumer.apply_pristine, happly]
    rfl
  | cached hchange hfree =>
    refine consulted_of_silent hinformed hasked (.of_notice rfl rfl)
      (Delivery.not_asks_of_idle (fun h => ?_) fun change c hbrings hreg' => ?_)
    · rw [h] at hchange
      cases hchange
    · cases (hunregistered hfree).symm.trans hreg'
  | unknown hfree =>
    refine consulted_of_silent hinformed hasked (.of_notice rfl rfl)
      (Delivery.not_asks_of_idle (fun h => by cases h) fun change c hbrings => ?_)
    cases hbrings
  | dismissed hreg =>
    refine consulted_of_silent hinformed hasked (.of_notice rfl rfl)
      (Delivery.not_asks_of_idle (fun h => by cases h) fun change c hbrings => ?_)
    cases hbrings
  | @unreadable text error hdoc =>
    have hnone : Hook.policy? (.policyDocument text) = none := by
      rw [Hook.policy?, hdoc]
      rfl
    refine ⟨?_, hasked.cons_of_none fun q hq => ?_⟩
    · exact hinformed.inForce.trans
        (Delivery.policyInForce_cons_of_none (d := .hook (.policyDocument text) within) policy
          received hnone).symm
    · cases hq with
      | swept _ hpolicy hreg => cases hnone.symm.trans hpolicy
  | swept hpolicy => exact consulted_of_sweep hs hinformed hasked hpolicy

/-! ### All runs -/

/-- What everything keeps: all that had to be asked has been asked. -/
theorem consulted_kept (k : Controller ω) (policy : Policy) :
    k.Kept fun s => (∀ id, s.Handed id) ∧ k.Consulted policy s.received s where
  receive := fun {s} within h hs hP => by
    refine ⟨fun id => (handed_kept k id).receive within h hs (hP.1 id), ?_⟩
    have hreceived : (k.receive within s h).received = .hook h within :: s.received :=
      (receive_effects (f := none) k within h hs.keyed default).received_eq
    rw [hreceived]
    exact (receive_treated k within h hs).consulted (hs.of_eq rfl rfl)
      ⟨fun id => (hP.1 id).registered, fun id => (hP.1 id).waiting, hP.2.inForce⟩ hP.2.asked
  order := fun {s} id d hs hP => by
    refine ⟨fun id' => (handed_kept k id').order id d hs (hP.1 id'), ?_⟩
    have hsilent := drive_silent k d id { s with received := .order id d :: s.received }
    have htended := drive_tended k id d
      (s := { s with received := .order id d :: s.received }) hs.keyed
    rw [htended.received]
    refine ⟨?_, hsilent.consultations ▸ hP.2.asked.cons_of_none fun q hq => by cases hq⟩
    rw [hsilent.policy]
    exact hP.2.inForce
  utter := fun {s t what} memory hutters hP => by
    refine ⟨fun id => (handed_kept k id).utter memory hutters (hP.1 id), hP.2.inForce, ?_⟩
    cases hutters <;> exact hP.2.asked
  conclude := fun {s t c} gone hs hlive hmode hP => by
    refine ⟨fun id => (handed_kept k id).conclude gone hs hlive hmode (hP.1 id), ?_⟩
    have hsilent := conclude_silent k t gone s
    rw [(conclude_tended k t gone s).received]
    exact ⟨hsilent.policy ▸ hP.2.inForce, hsilent.consultations ▸ hP.2.asked⟩
  elsewhere := fun confirmations now hP =>
    ⟨fun id => (handed_kept k id).elsewhere confirmations now (hP.1 id), hP.2.inForce, hP.2.asked⟩

variable {memory : ω}

/-- **What has been asked is what had to be asked.**  Every delivery has led to exactly the
questions that it had to lead to, whatever the handler has decided and however calls have been
answered: a start to one question about the consumer that it makes or finds, a change to one about
the consumer that accepts it, a new policy to one about each registered consumer, and nothing else
to any.  Each is about the consumer as the delivery has left it, under the policy that was received
last. -/
theorem Reachable.asked_exactly (h : k.Reachable policy memory s) :
    Asked k.handler.name policy s.received s.log.consultations ∧
      s.policy.current = Delivery.policyInForce policy s.received := by
  have hconsulted := ((consulted_kept k policy).reachable h
    ⟨fun id => Reachable.handed (k := k) .start id, rfl, .nil⟩).2
  exact ⟨hconsulted.asked, hconsulted.inForce⟩

/-- The newcomer that has reported what it consumes before it starts, one that is not fit for use
included, and subscribes once more when there is a new policy: three questions, the latest first. -/
theorem Reachable.asked_exactly_of_newcomer :
    ∃ s, Rehearsal.stage.run 0 (.initial (.prohibiting ["t"]) {})
        (Rehearsal.overture ++ [.hook (.policyUpdate (.prohibiting [" u "])),
          .hook (.lifecycle Rehearsal.newcomer (.subscribe "u"))]) = some s ∧
      s.log.consultations.map (fun q => (q.trigger, q.consumer.topics.toList)) =
        [(.subscribe, ["t", "u"]), (.policyUpdate, ["t"]), (.start, ["t"])] ∧
      Asked .builtin (.prohibiting ["t"]) s.received s.log.consultations ∧
      s.policy.current = Delivery.policyInForce (.prohibiting ["t"]) s.received := by
  have hrun : (Rehearsal.stage.run 0 (.initial (.prohibiting ["t"]) {})
      (Rehearsal.overture ++ [.hook (.policyUpdate (.prohibiting [" u "])),
        .hook (.lifecycle Rehearsal.newcomer (.subscribe "u"))])).map (fun s =>
        s.log.consultations.map fun q => (q.trigger, q.consumer.topics.toList)) =
      some [(.subscribe, ["t", "u"]), (.policyUpdate, ["t"]), (.start, ["t"])] := by
    decide +kernel
  obtain ⟨s, hs, hquestions⟩ := Option.map_eq_some_iff.1 hrun
  have hreachable : Rehearsal.stage.Reachable (.prohibiting ["t"]) {} s := Reachable.start.run hs
  exact ⟨s, hs, hquestions, hreachable.asked_exactly⟩

end Controller

end Embargo
