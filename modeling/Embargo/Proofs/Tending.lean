import Embargo.Proofs.Standing

/-!
# What tending consumers leaves alone

To evaluate a consumer, to drive it and to confirm that it has left its group is to decide how far
it takes part in consumption.  None of this touches who a consumer is and what it consumes, the
changes that wait for it, or what has been received.

* `Consumer.pristine` — a consumer as if it had never been driven;
* `Event.Faithful` — an event that shows assigned queues as they are: a handler is asked about the
  consumer as it is registered, and nothing is paused that is not assigned;
* `State.Tended` — between two states consumers have been tended, and nothing else has happened;
* `State.Noted` — not even that, but for notices;
* `Controller.drive_tended`, `evaluate_tended`, `updatePolicy_tended`, `conclude_tended`, … — one
  lemma for each function that tends consumers;
* `State.Tidy` — what every function relies on, and what tending keeps.
-/

namespace Embargo

variable {ω : Type}

/-! ### What a program puts on record -/

/-- A run puts notices on record and the commands that lead to its result, all of them for the
client that it runs for. -/
theorem Program.run_log {α : Type} (env : Environment ω) (now : Nat) (s : Subject)
    (p : Program α) : ∀ (memory : ω) (log : Log), ∃ (tr : Trace) (new : Log),
      p.Yields tr (p.run env now s memory log).1 ∧
        (p.run env now s memory log).2.2 = new ++ log ∧
        ∀ e ∈ new, (∃ n, e.what = .notice n) ∨
          ∃ c ok, (c, ok) ∈ tr ∧ e.what = .call s.client s.life (.command c) ok := by
  induction p with
  | done a => exact fun memory log => ⟨[], [], .done a, rfl, fun e he => by cases he⟩
  | note n rest ih =>
    intro memory log
    obtain ⟨tr, new, hyields, hlog, hnew⟩ :=
      ih memory ({ time := now, who := some s.client.id, what := .notice n } :: log)
    refine ⟨tr, new ++ [_], .note hyields, hlog.trans (List.append_cons ..), fun e he => ?_⟩
    rcases List.mem_append.1 he with he | he
    · exact hnew e he
    · exact .inl ⟨n, by rw [List.mem_singleton.1 he]⟩
  | call own c next ih =>
    intro memory log
    obtain ⟨tr, new, hyields, hlog, hnew⟩ := ih (env.command memory now s.client c).result
      (env.command memory now s.client c).memory
      ((commandEvents now s c (env.command memory now s.client c).result.isOk
        (env.command memory now s.client c).delivered).reverse ++ log)
    refine ⟨_, new ++ _, .call _ hyields, hlog.trans (List.append_assoc ..).symm, fun e he => ?_⟩
    rcases List.mem_append.1 he with he | he
    · refine (hnew e he).imp_right fun ⟨c', ok, hmem, hwhat⟩ => ⟨c', ok, ?_, hwhat⟩
      exact List.mem_cons_of_mem _ hmem
    · rcases List.mem_cons.1 (List.mem_reverse.1 he) with rfl | hskipped
      · exact .inr ⟨c, _, List.mem_cons_self, rfl⟩
      · obtain ⟨hook, rfl⟩ := eq_of_mem_skipped hskipped
        exact .inl ⟨_, rfl⟩

namespace Consumer

/-- A consumer as if it had never been driven: what is left is who it is and what it consumes. -/
def pristine (c : Consumer) : Consumer :=
  { c with paused := ∅, state := .active, epoch := 0, lastTransition := none }

theorem Transit.pristine_eq {now : Nat} {c : Consumer} {d : Decision} {tr : Trace} {o : Outcome}
    (h : c.Transit now d tr o) : o.consumer.pristine = c.pristine := by
  obtain ⟨paused, state, epoch, last, hframe⟩ := h.frame
  rw [hframe]
  rfl

/-- What is paused are the assigned queues that are not paused. -/
theorem Transit.pause_eq {now : Nat} {c : Consumer} {d : Decision} {tr : Trace} {o : Outcome}
    (h : c.Transit now d tr o) {queues : List Queue} {ok : Bool}
    (hmem : (Command.pause queues, ok) ∈ tr) : queues = c.unpaused.toList := by
  cases h with
  | pauseFailed hmode hunpaused => exact (by simpa using hmem : _ ∧ _).1
  | paused ok hmode =>
    rw [forQueues, forQueues] at hmem
    split at hmem <;> split at hmem <;> simp at hmem
    all_goals exact hmem.1
  | resumed hmode =>
    rw [forQueues] at hmem
    split at hmem <;> simp at hmem
  | _ => simp at hmem

theorem rollBack_pristine_eq {now : Nat} {c c' : Consumer} {tr : Trace}
    (h : (c.rollBack now).Yields tr c') : c'.pristine = c.pristine := by
  rcases rollBack_yields h with ⟨-, rfl⟩ | ⟨ok, -, rfl⟩ <;> rfl

/-- No queues are paused on the way back. -/
theorem rollBack_pause_not_mem {now : Nat} {c c' : Consumer} {tr : Trace}
    (h : (c.rollBack now).Yields tr c') (queues : List Queue) (ok : Bool) :
    (Command.pause queues, ok) ∉ tr := by
  rcases rollBack_yields h with ⟨rfl, -⟩ | ⟨ok', rfl, -⟩ <;> simp

end Consumer

/-! ### Tended states -/

/-- An event that shows assigned queues as they are. -/
def Event.Faithful (assigned? : ConsumerId → Option QueueSet) (e : Event) : Prop :=
  match e.what with
  | .evaluation _ _ c _ => ∀ id, e.who = some id → assigned? id = some c.assigned
  | .call client _ (.command (.pause queues)) _ =>
      ∃ assigned, assigned? client.id = some assigned ∧ ∀ q ∈ queues, q ∈ assigned
  | _ => True

namespace State

variable {s s' s'' : State ω}

/-- The queues assigned to the registered consumer of an identity. -/
def assigned? (s : State ω) (id : ConsumerId) : Option QueueSet :=
  (s.consumer? id).map Consumer.assigned

/-- Between two states consumers have been tended, and nothing else has happened. -/
structure Tended (s s' : State ω) : Prop where
  cache : s'.cache = s.cache
  rivals : s'.rivals = s.rivals
  received : s'.received = s.received
  consumers : ∀ id, (s'.consumer? id).map Consumer.pristine = (s.consumer? id).map Consumer.pristine
  log : ∃ new, s'.log = new ++ s.log ∧ ∀ e ∈ new, e.Faithful s.assigned?

theorem Tended.refl (s : State ω) : s.Tended s :=
  ⟨rfl, rfl, rfl, fun _ => rfl, [], rfl, fun e he => by cases he⟩

/-- Tending touches no assignment. -/
theorem Tended.assigned?_eq (h : s.Tended s') : s'.assigned? = s.assigned? := by
  funext id
  have hassigned := congrArg (Option.map Consumer.assigned) (h.consumers id)
  rw [Option.map_map, Option.map_map] at hassigned
  exact hassigned

theorem Tended.trans (h : s.Tended s') (h' : s'.Tended s'') : s.Tended s'' := by
  obtain ⟨new, hlog, hnew⟩ := h.log
  obtain ⟨newer, hlog', hnewer⟩ := h'.log
  refine ⟨h'.cache.trans h.cache, h'.rivals.trans h.rivals, h'.received.trans h.received,
    fun id => (h'.consumers id).trans (h.consumers id), newer ++ new, ?_, fun e he => ?_⟩
  · rw [hlog', hlog, List.append_assoc]
  · rcases List.mem_append.1 he with he | he
    · exact h.assigned?_eq ▸ hnewer e he
    · exact hnew e he

/-- What is registered has been registered before, and differs in how far it takes part only. -/
theorem Tended.consumer? (h : s.Tended s') {id : ConsumerId} {c' : Consumer}
    (hreg : s'.consumer? id = some c') :
    ∃ c, s.consumer? id = some c ∧ c'.pristine = c.pristine := by
  have hmap := h.consumers id
  rw [hreg, Option.map_some, eq_comm, Option.map_eq_some_iff] at hmap
  obtain ⟨c, hc, heq⟩ := hmap
  exact ⟨c, hc, heq.symm⟩

/-- Tending registers nobody. -/
theorem Tended.consumer?_eq_none (h : s.Tended s') {id : ConsumerId}
    (hfree : s.consumer? id = none) : s'.consumer? id = none := by
  rw [← Option.map_eq_none_iff (f := Consumer.pristine), h.consumers id, hfree]
  rfl

/-- What every function relies on: consumers are registered under the identities of their clients,
none of them has been shut down, and nobody else registers any. -/
structure Tidy (s : State ω) : Prop where
  keyed : s.Keyed
  running : ∀ id c, s.consumer? id = some c → c.shutDown = false
  unrivalled : s.rivals = []

/-- All of this is about the registry and the rivals. -/
theorem Tidy.of_eq (hs : s.Tidy) (hregistry : s'.registry = s.registry)
    (hrivals : s'.rivals = s.rivals) : s'.Tidy := by
  have hconsumer : s'.consumer? = s.consumer? := by
    funext id
    rw [State.consumer?, hregistry, State.consumer?]
  refine ⟨fun id c hreg => ?_, fun id c hreg => ?_, hrivals.trans hs.unrivalled⟩
  · exact hs.keyed id c (hconsumer ▸ hreg)
  · exact hs.running id c (hconsumer ▸ hreg)

theorem Tended.tidy (h : s.Tended s') (hs : s.Tidy) : s'.Tidy where
  keyed := fun id c' hreg => by
    obtain ⟨c, hc, heq⟩ := h.consumer? hreg
    exact (congrArg (fun x => x.client.id) heq).trans (hs.keyed id c hc)
  running := fun id c' hreg => by
    obtain ⟨c, hc, heq⟩ := h.consumer? hreg
    exact (congrArg Consumer.shutDown heq).trans (hs.running id c hc)
  unrivalled := h.rivals.trans hs.unrivalled

theorem happen_tended (s : State ω) (who : Option ConsumerId) (what : Occurrence)
    (hfaithful : Event.Faithful s.assigned? { time := s.now, who, what }) :
    s.Tended (s.happen who what) :=
  ⟨rfl, rfl, rfl, fun _ => rfl, [_], rfl, fun _ he => List.mem_singleton.1 he ▸ hfaithful⟩

/-- Between two states notices have been put on record, and nothing else has happened. -/
def Noted (s s' : State ω) : Prop :=
  ∃ new, s' = { s with log := new ++ s.log } ∧ ∀ e ∈ new, ∃ n, e.what = .notice n

theorem Noted.refl (s : State ω) : s.Noted s :=
  ⟨[], rfl, fun e he => by cases he⟩

theorem Noted.trans (h : s.Noted s') (h' : s'.Noted s'') : s.Noted s'' := by
  obtain ⟨new, rfl, hnew⟩ := h
  obtain ⟨newer, rfl, hnewer⟩ := h'
  refine ⟨newer ++ new, by rw [List.append_assoc], fun e he => ?_⟩
  exact (List.mem_append.1 he).elim (hnewer e) (hnew e)

theorem report_noted (s : State ω) (id : ConsumerId) (n : Notice) : s.Noted (s.report id n) :=
  ⟨[_], rfl, fun _ he => ⟨n, by rw [List.mem_singleton.1 he]⟩⟩

theorem Noted.tended (h : s.Noted s') : s.Tended s' := by
  obtain ⟨new, rfl, hnew⟩ := h
  refine ⟨rfl, rfl, rfl, fun _ => rfl, new, rfl, fun e he => ?_⟩
  obtain ⟨n, hwhat⟩ := hnew e he
  rw [Event.Faithful, hwhat]
  trivial

theorem report_tended (s : State ω) (id : ConsumerId) (n : Notice) : s.Tended (s.report id n) :=
  happen_tended s (some id) (.notice n) trivial

/-- A consumer may be driven without anything being said about it. -/
theorem put_tended {i : ConsumerId} {c c' : Consumer} (hreg : s.consumer? i = some c)
    (hpristine : c'.pristine = c.pristine) : s.Tended (s.put i c') := by
  refine ⟨rfl, rfl, rfl, fun id => ?_, [], rfl, fun e he => by cases he⟩
  rw [consumer?_put]
  by_cases hid : i = id
  · rw [if_pos hid, ← hid, hreg, Option.map_some, hpristine]
    rfl
  · rw [if_neg hid]

/-- A consumer that is replaced by what a program makes of it. -/
theorem tended_of_run {i : ConsumerId} {c c' : Consumer} {subject : Program.Subject} {tr : Trace}
    {new : Log} (hreg : s.consumer? i = some c) (hpristine : c'.pristine = c.pristine)
    (hregistry : s'.registry = s.registry.replace i c') (hcache : s'.cache = s.cache)
    (hrivals : s'.rivals = s.rivals) (hreceived : s'.received = s.received)
    (hlog : s'.log = new ++ s.log)
    (hnew : ∀ e ∈ new, (∃ n, e.what = .notice n) ∨
      ∃ c ok, (c, ok) ∈ tr ∧ e.what = .call subject.client subject.life (.command c) ok)
    (hpause : ∀ queues ok, (Command.pause queues, ok) ∈ tr →
      ∃ assigned, s.assigned? subject.client.id = some assigned ∧ ∀ q ∈ queues, q ∈ assigned) :
    s.Tended s' := by
  refine ⟨hcache, hrivals, hreceived, fun id => ?_, new, hlog, fun e he => ?_⟩
  · rw [State.consumer?, hregistry]
    exact (put_tended hreg hpristine).consumers id
  · rcases hnew e he with ⟨n, hwhat⟩ | ⟨command, ok, hmem, hwhat⟩
    · rw [Event.Faithful, hwhat]
      trivial
    · rw [Event.Faithful, hwhat]
      cases command with
      | pause queues => exact hpause queues ok hmem
      | _ => trivial

end State

/-! ### Functions that tend consumers -/

namespace Controller

variable {k : Controller ω} {s : State ω}

theorem drive_tended (k : Controller ω) (i : ConsumerId) (d : Decision) (hkeyed : s.Keyed) :
    s.Tended (k.drive d i s) := by
  cases hc : s.consumer? i with
  | none =>
    rw [drive_eq_run, hc]
    exact .refl s
  | some c =>
    obtain ⟨tr, new, hyields, hlog, hnew⟩ := Program.run_log k.environment s.now
      ⟨c.client, s.life i⟩ (c.drive s.now d) s.memory s.log
    have htransit := Consumer.transit_of_yields hyields
    rw [drive_eq_run, hc]
    refine State.tended_of_run hc htransit.pristine_eq rfl rfl rfl rfl hlog hnew
      fun queues ok hmem => ⟨c.assigned, ?_, fun q hq => ?_⟩
    · rw [State.assigned?, hkeyed i c hc, hc]
      rfl
    · rw [htransit.pause_eq hmem, Std.ExtTreeSet.mem_toList] at hq
      exact (Consumer.mem_unpaused.1 hq).1

theorem follow_tended (k : Controller ω) (i : ConsumerId) (plan : Plan) :
    ∀ {s : State ω}, s.Tidy → s.Tended (k.follow i plan s) := by
  induction plan with
  | stop => exact fun {s} _ => .refl s
  | drive d next ih =>
    intro s hs
    have hdrive := drive_tended k i d hs.keyed
    rw [follow_drive]
    cases (k.drive d i s).consumer? i with
    | none => exact hdrive
    | some c => exact hdrive.trans (ih c (hdrive.tidy hs))

/-- What an evaluation does once the handler has been asked. -/
theorem plan_tended (k : Controller ω) (i : ConsumerId) (plan : Plan) (memory : ω) (hs : s.Tidy) :
    s.Tended (k.follow i plan { s with memory }) :=
  have hfollow := follow_tended k i plan (s := { s with memory })
    (hs.of_eq rfl rfl)
  ⟨hfollow.cache, hfollow.rivals, hfollow.received, hfollow.consumers, hfollow.log⟩

theorem evaluate_tended (k : Controller ω) (trigger : Trigger) (i : ConsumerId) (hs : s.Tidy) :
    s.Tended (k.evaluate trigger i s) := by
  rw [evaluate_outside]
  cases hc : s.consumer? i with
  | none => exact .refl s
  | some c =>
    have hasked := s.happen_tended (some i)
      (.evaluation k.handler.name trigger c s.policy.current) fun id hid => by
        cases hid
        rw [State.assigned?, hc]
        rfl
    exact hasked.trans (plan_tended k i _ _ (hasked.tidy hs))

theorem revisit_tended (k : Controller ω) (i : ConsumerId) (hs : s.Tidy) :
    s.Tended (k.revisit s i) := by
  rw [revisit_outside]
  split
  · exact .refl s
  · split
    · exact s.report_tended i .sweepPassedOver
    · exact evaluate_tended k _ i hs

theorem sweep_tended (k : Controller ω) (ids : List ConsumerId) :
    ∀ {s : State ω}, s.Tidy → s.Tended (k.sweep ids s) := by
  induction ids with
  | nil => exact fun {s} _ => .refl s
  | cons i is ih =>
    intro s hs
    have hfirst := revisit_tended k i hs
    exact hfirst.trans (ih (hfirst.tidy hs))

theorem updatePolicy_tended (k : Controller ω) (p : Policy) (hs : s.Tidy) :
    s.Tended (k.updatePolicy p s) := by
  have hinstalled : s.Tended (install p s) := by
    have h := s.happen_tended none (.notice (.policyUpdated p.normalized.enabled)) trivial
    exact ⟨h.cache, h.rivals, h.received, h.consumers, h.log⟩
  have hstarted := (install p s).happen_tended none
    (.notice (.sweepStarted (install p s).registry.size)) trivial
  have hcounted : (install p s).Tended
      { (install p s).happen none (.notice (.sweepStarted (install p s).registry.size)) with
        sweeps := (install p s).sweeps + 1 } :=
    ⟨hstarted.cache, hstarted.rivals, hstarted.received, hstarted.consumers, hstarted.log⟩
  have hbefore := hinstalled.trans hcounted
  exact hbefore.trans (sweep_tended k _ (hbefore.tidy hs))

theorem conclude_tended (k : Controller ω) (t : Confirmation) (gone : Bool) (s : State ω) :
    s.Tended (k.conclude t gone s) := by
  rw [conclude_eq_run]
  cases hlive : subject? t s with
  | none => exact s.report_tended t.id .confirmationDiscarded
  | some c =>
    have hreg := consumer?_of_subject? hlive
    dsimp only
    split
    · have hput : s.Tended (s.put t.id (c.transition s.now .suspended)) := s.put_tended hreg rfl
      exact hput.trans (State.report_tended _ _ _)
    · have hreported := s.report_tended t.id
        (.confirmationTimedOut c.label k.config.maxRetries.toNat)
      obtain ⟨tr, new, hyields, hlog, hnew⟩ := Program.run_log k.environment s.now
        ⟨t.client, t.life⟩ (c.rollBack s.now) s.memory
        (s.report t.id (.confirmationTimedOut c.label k.config.maxRetries.toNat)).log
      refine hreported.trans (State.tended_of_run hreg (Consumer.rollBack_pristine_eq hyields) rfl
        rfl rfl rfl hlog hnew fun queues ok hmem => ?_)
      exact absurd hmem (Consumer.rollBack_pause_not_mem hyields queues ok)

end Controller

end Embargo
