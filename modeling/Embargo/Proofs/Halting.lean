import Embargo.Proofs.Bookkeeping

/-!
# Paused consumers, and what they consume

Operators ask whether a consumer is paused, and the state of the consumer answers.  A consumer that
was handed queues and counts as paused does not consume: all of its queues are paused in its client.
There is one exception.  Once it is suspended it may be handed other queues, and the call that was
to pause or to resume them may fail; then it counts as paused all the same, until it is evaluated
once more.

* `Consumer.Slipped` — the call that was to pause or to resume queues has failed last;
* `Consumer.Halted`, `Consumer.Transit.halted` — nothing assigned is consumed, or the consumer has
  slipped; every transition leads there;
* `State.Halted`, `Controller.halted_kept` — **the invariant**, under the built-in handler;
* `Controller.Reachable.paused_consumes_nothing` — the same, told of the calls on record;
* `Controller.exists_paused_consuming` — the exception is needed.
-/

namespace Embargo

/-! ### What transitions lead to -/

theorem Trace.commands_calls (tr : Trace) : Calls.commands tr.calls = tr := by
  induction tr with
  | nil => rfl
  | cons x tr ih => exact congrArg (x :: ·) ih

namespace Consumer

variable {now : Nat} {c : Consumer} {d : Decision} {tr commands : Trace} {o : Outcome}

/-- The call that was to pause or to resume queues of a consumer has been the last one, and has
failed. -/
def Slipped (c : Consumer) (commands : Trace) : Prop :=
  commands.getLast? = some (.pause c.unpaused.toList, false) ∨
    commands.getLast? = some (.resume c.paused.toList, false)

/-- A consumer that was handed queues and counts as paused consumes none of them, or has slipped. -/
def Halted (c : Consumer) (commands : Trace) : Prop :=
  c.mode = some .assign → c.isPaused = true → c.unpaused = ∅ ∨ c.Slipped commands

theorem halted_of_mode (hmode : c.mode ≠ some .assign) : c.Halted commands :=
  fun hassign => absurd hassign hmode

theorem halted_of_state (hstate : c.state ≠ .suspended) : c.Halted commands :=
  fun _ hpaused => absurd (of_decide_eq_true hpaused) hstate

/-- Once all assigned queues are paused none is left that is consumed, stale ones or not. -/
theorem unpaused_released (c : Consumer) (ok : Bool) :
    ((c.markPaused c.unpaused.toList).released c.stale.toList ok).unpaused = ∅ := by
  have hpaused : ∀ q ∈ c.assigned,
      q ∈ ((c.markPaused c.unpaused.toList).released c.stale.toList ok).paused := by
    intro q hq
    have hmarked : q ∈ (c.markPaused c.unpaused.toList).paused := by
      rw [mem_paused_markPaused, Std.ExtTreeSet.mem_toList, mem_unpaused]
      tauto
    cases ok with
    | false => exact hmarked
    | true =>
      refine mem_paused_markResumed.2 ⟨hmarked, fun hstale => ?_⟩
      exact (mem_stale.1 (Std.ExtTreeSet.mem_toList.1 hstale)).2 hq
  obtain ⟨paused, hreleased⟩ := released_eq (c.markPaused c.unpaused.toList) c.stale.toList ok
  refine Std.ExtTreeSet.ext_mem fun q => ?_
  rw [mem_unpaused]
  refine ⟨fun ⟨hassigned, hfree⟩ => absurd (hpaused q ?_) hfree, fun h => ?_⟩
  · rw [hreleased] at hassigned
    exact hassigned
  · exact absurd h Std.ExtTreeSet.not_mem_empty

/-- **Whatever a consumer has been before, a transition leaves it halted.** -/
theorem Transit.halted (htransit : c.Transit now d tr o) (commands : Trace) :
    o.consumer.Halted (commands ++ tr) := by
  cases htransit with
  | modeless hmode => exact halted_of_mode (by simp [hmode])
  | alreadyOut hmode => exact halted_of_mode (by simp [hmode])
  | flushFailed hmode => exact halted_of_mode (by simp [hmode])
  | leaveFailed hmode => exact halted_of_mode (by simp [hmode])
  | left ok hmode => exact halted_of_state Membership.noConfusion
  | alreadyIn hmode => exact halted_of_mode (by simp [hmode])
  | rejoinFailed hmode => exact halted_of_mode (by simp [hmode])
  | rejoined ok hmode => exact halted_of_state Membership.noConfusion
  | alreadyPaused hmode hunpaused hstale hstate =>
    exact fun _ _ => .inl (Std.ExtTreeSet.toList_eq_nil_iff.1 hunpaused)
  | pauseFailed hmode hunpaused =>
    exact fun _ _ => .inr (.inl List.getLast?_concat)
  | paused ok hmode =>
    obtain ⟨epoch, last, hsettle⟩ :=
      settle_eq now ((c.markPaused c.unpaused.toList).released c.stale.toList ok)
    refine fun _ _ => .inl ?_
    rw [hsettle]
    exact unpaused_released c ok
  | nothingPaused hmode hpaused hstate => exact halted_of_state hstate
  | resumeFailed hmode hpaused =>
    exact fun _ _ => .inr (.inr List.getLast?_concat)
  | resumed hmode => exact halted_of_state Membership.noConfusion

end Consumer

/-! ### The invariant -/

variable {ω : Type}

/-- All registered consumers are halted. -/
def State.Halted (s : State ω) : Prop :=
  ∀ id c, s.consumer? id = some c → c.Halted (Log.calls id (s.life id) s.log).commands

namespace Controller

variable {k : Controller ω} {s s' : State ω} {id : ConsumerId} {c : Consumer}

/-- A consumer is as halted as its view says. -/
theorem halted_of_view_eq (hview : Moment.view (s', none) id = Moment.view (s, none) id)
    (hs : s.Halted) (hreg : s'.consumer? id = some c) :
    c.Halted (Log.calls id (s'.life id) s'.log).commands := by
  have hsame : Log.calls id (s'.life id) s'.log = Log.calls id (s.life id) s.log := by
    rw [← Log.calls_about s'.log, ← Log.calls_about s.log]
    exact congrArg₂ (Log.calls id) (congrArg View.life hview) (congrArg View.record hview)
  rw [hsame]
  exact hs id c ((congrArg View.consumer hview).symm.trans hreg)

/-- Whoever has made a transition is halted. -/
theorem halted_of_driven {v : View} {c₀ : Consumer} {d : Decision} {tr : Trace} {o : Outcome}
    (hid : c₀.client.id = id) (htransit : c₀.Transit v.now d tr o)
    (hview : Moment.view (s, none) id = v.driven k.config c₀ tr o)
    (hreg : s.consumer? id = some c) : c.Halted (Log.calls id (s.life id) s.log).commands := by
  have hconsumer : s.consumer? id = some o.consumer := congrArg View.consumer hview
  obtain rfl : o.consumer = c := Option.some.inj (hconsumer.symm.trans hreg)
  have hlife : s.life id = v.life := congrArg View.life hview
  have hrecord : Log.about id s.log =
      Program.Subject.entries ⟨c₀.client, v.life⟩ v.now tr ++ v.record :=
    congrArg View.record hview
  rw [← Log.calls_about, hrecord, hlife, View.calls_entries_of_id_eq _ hid,
    Calls.commands_append, Trace.commands_calls]
  exact htransit.halted _

/-- Whoever has been evaluated is halted. -/
theorem halted_of_evaluated {v : View} (hkeyed : ∀ c, v.consumer = some c → c.client.id = id)
    (hevaluated : v.Evaluated k.config (Moment.view (s, none) id))
    (hreg : s.consumer? id = some c) : c.Halted (Log.calls id (s.life id) s.log).commands := by
  obtain ⟨c₀, tr, o, hreg₀, htransit, hview⟩ := hevaluated
  exact halted_of_driven (hkeyed c₀ hreg₀) htransit hview hreg

theorem evaluate_halted (hbuiltin : k.handler = .builtin) (trigger : Trigger) (hs : s.Tidy)
    (hreg : (k.evaluate trigger id s).consumer? id = some c) :
    c.Halted (Log.calls id ((k.evaluate trigger id s).life id)
      (k.evaluate trigger id s).log).commands := by
  cases hreg₀ : s.consumer? id with
  | none => cases ((evaluate_tended k trigger id hs).consumer?_eq_none hreg₀).symm.trans hreg
  | some c₀ =>
    exact halted_of_evaluated (fun c₁ hc₁ => hs.keyed id c₁ hc₁)
      (evaluate_evaluated hbuiltin hs.keyed hreg₀ trigger none) hreg

/-- Whatever becomes of a hook, the consumers that it is about are halted afterwards. -/
theorem Treatment.halted (hbuiltin : k.handler = .builtin) {h : Hook}
    {within : Option Confirmation} (htreated : k.Treatment s h s') (hs : s.Tidy) (hh : s.Halted)
    (habout : (Delivery.hook h within).concerns id) (hreg : s'.consumer? id = some c) :
    c.Halted (Log.calls id (s'.life id) s'.log).commands := by
  have hnoted : ∀ (s₁ : State ω) {n : Notice} {i : ConsumerId},
      (∀ id, Moment.view (s₁, none) id = Moment.view (s, none) id) → s' = s₁.report i n →
      c.Halted (Log.calls id (s'.life id) s'.log).commands := by
    rintro s₁ n i hview rfl
    exact halted_of_view_eq ((view_happen rfl s₁ none id).trans (hview id)) hh hreg
  cases htreated with
  | rejected hwrap => exact hnoted s (fun _ => rfl) rfl
  | @restarted client fresh c₀ hwrap hreg₀ =>
    cases habout
    exact evaluate_halted hbuiltin _ ((s.report_tended _ _).tidy hs) hreg
  | enrolled hwrap hfree =>
    cases habout
    exact evaluate_halted hbuiltin _ (enrol_tidy hwrap hs) hreg
  | unusable hstart hshutdown hchange => exact hnoted s (fun _ => rfl) rfl
  | refused hchange hreg₀ happly => exact hnoted s (fun _ => rfl) rfl
  | revised hchange hreg₀ happly =>
    cases habout
    exact evaluate_halted hbuiltin _ (put_tidy hs hreg₀ happly) hreg
  | @cached client e change hchange hfree =>
    exact hnoted { s with cache := s.cache.record client.id change } (fun _ => rfl) rfl
  | @unknown client hfree =>
    exact hnoted { s with cache := (s.cache.drain client.id).2 } (fun _ => rfl) rfl
  | dismissed hreg₀ =>
    cases habout
    rw [consumer?_dismiss, if_pos rfl] at hreg
    cases hreg
  | unreadable hdoc => exact hh id c hreg
  | @swept _ p hpolicy =>
    cases hreg₀ : s.consumer? id with
    | none => cases ((updatePolicy_tended k p hs).consumer?_eq_none hreg₀).symm.trans hreg
    | some c₀ =>
      exact halted_of_evaluated (fun c₁ hc₁ => hs.keyed id c₁ hc₁)
        (updatePolicy_evaluated hbuiltin hs.keyed hreg₀ (hs.running id c₀ hreg₀) p none) hreg

theorem receive_halted (hbuiltin : k.handler = .builtin) (within : Option Confirmation) (h : Hook)
    (hs : s.Tidy) (hh : s.Halted) : (k.receive within s h).Halted := by
  intro id c hreg
  have hs₀ : State.Tidy { s with received := .hook h within :: s.received } :=
    hs.of_eq rfl rfl
  by_cases habout : (Delivery.hook h within).concerns id
  · exact (receive_treated k within h hs).halted hbuiltin hs₀ hh habout hreg
  · exact halted_of_view_eq ((deliver_acts k h within none _).view_eq hs₀.keyed habout)
      (s := { s with received := .hook h within :: s.received }) hh hreg

theorem drive_halted (k : Controller ω) (i : ConsumerId) (d : Decision) (hkeyed : s.Keyed)
    (hh : s.Halted) : (k.drive d i s).Halted := by
  intro id c hreg
  by_cases hid : id = i
  · subst hid
    cases hreg₀ : s.consumer? id with
    | none =>
      rw [drive_eq_run, hreg₀] at hreg ⊢
      exact hh id c hreg
    | some c₀ =>
      obtain ⟨tr, o, htransit, hview⟩ := drive_view k d hkeyed hreg₀ none
      exact halted_of_driven (hkeyed id c₀ hreg₀) htransit hview hreg
  · exact halted_of_view_eq (drive_view_of_ne k d hkeyed hid none) hh hreg

/-- The end of a confirmation cannot be seen from anybody else. -/
theorem conclude_view_of_ne (k : Controller ω) (t : Confirmation) (gone : Bool) (s : State ω)
    (hid : id ≠ t.id) :
    Moment.view (k.conclude t gone s, none) id = Moment.view (s, none) id := by
  rw [conclude_eq_run]
  cases hlive : subject? t s with
  | none => exact view_happen rfl s none id
  | some c =>
    dsimp only
    split
    · refine (view_happen rfl _ none id).trans (View.ext rfl rfl rfl rfl ?_ rfl rfl rfl)
      exact (State.consumer?_put ..).trans (if_neg fun h => hid h.symm)
    · obtain ⟨tr, -, habout⟩ := Program.run_yields k.environment s.now ⟨t.client, t.life⟩
        (c.rollBack s.now) s.memory
        (s.report t.id (.confirmationTimedOut c.label k.config.maxRetries.toNat)).log
      refine View.ext rfl rfl rfl rfl ?_ rfl rfl ?_
      · exact (consumer?_replace ..).trans (if_neg fun h => hid h.symm)
      · refine (habout id).trans ?_
        rw [if_neg fun h => hid h.symm, List.nil_append]
        exact Log.about_cons_of_none id s.log rfl

/-- Everything keeps all consumers halted, under the built-in handler. -/
theorem halted_kept (hbuiltin : k.handler = .builtin) : k.Kept State.Halted where
  receive := fun within h hs hh => receive_halted hbuiltin within h hs hh
  order := fun {s} id d hs hh =>
    drive_halted k id d (s := { s with received := .order id d :: s.received }) hs.keyed hh
  utter := fun {s t what} memory hutters hh id c hreg => by
    have hcommands : (Log.calls id (s.life id)
        ({ time := s.now, who := some t.id, what } :: s.log)).commands =
        (Log.calls id (s.life id) s.log).commands := by
      rw [Log.calls_cons, Calls.commands_append]
      cases hutters with
      | asked topic ok =>
        rw [Event.call?]
        dsimp only
        split <;> exact List.append_nil _
      | _ => exact List.append_nil _
    show c.Halted (Log.calls id (s.life id)
      ({ time := s.now, who := some t.id, what } :: s.log)).commands
    rw [hcommands]
    exact hh id c hreg
  conclude := fun {s t c} gone hs hlive hmode hh id c' hreg => by
    by_cases hid : id = t.id
    · obtain ⟨c₀, hreg₀, hpristine⟩ := (conclude_tended k t gone s).consumer? hreg
      obtain rfl : c = c₀ :=
        Option.some.inj ((consumer?_of_subject? hlive).symm.trans (hid ▸ hreg₀))
      have hsame : c'.pristine.mode = c.pristine.mode := congrArg Consumer.mode hpristine
      refine Consumer.halted_of_mode fun hassign => ?_
      cases hassign.symm.trans (hsame.trans hmode)
    · exact halted_of_view_eq (conclude_view_of_ne k t gone s hid) hh hreg
  elsewhere := fun _ _ hh => hh

variable {policy : Policy} {memory : ω}

theorem Reachable.halted (hbuiltin : k.handler = .builtin) (h : k.Reachable policy memory s) :
    s.Halted := by
  refine (halted_kept hbuiltin).reachable h fun id c hreg => ?_
  cases (congrArg View.consumer (Moment.view_initial policy memory id)).symm.trans hreg

/-- **A consumer that counts as paused consumes nothing, unless the call that was to pause or to
resume its queues has failed last.**  Of a registered consumer that was handed queues, and of which
operators are told that it is paused: all queues that are assigned to it are paused in its client;
or the last command for it was to pause exactly those that are not, or to resume exactly those that
are, and has failed. -/
theorem Reachable.paused_consumes_nothing (hbuiltin : k.handler = .builtin)
    (h : k.Reachable policy memory s) (hreg : s.consumer? id = some c)
    (hmode : c.mode = some .assign) (hpaused : s.isPaused? id = some true) :
    (c.unpaused = ∅ ∧ ∀ q ∈ c.assigned, q ∈ (Log.calls id (s.life id) s.log).paused) ∨
      (Log.calls id (s.life id) s.log).commands.getLast? =
        some (.pause c.unpaused.toList, false) ∨
      (Log.calls id (s.life id) s.log).commands.getLast? =
        some (.resume c.paused.toList, false) := by
  have hflag : c.isPaused = true := by
    rw [State.isPaused?, hreg] at hpaused
    exact Option.some.inj hpaused
  refine (h.halted hbuiltin id c hreg hmode hflag).imp_left fun hnone => ⟨hnone, fun q hq => ?_⟩
  have hcurrent := (h.bookkept id).current c hreg
  rw [show (Moment.view (s, none) id).record = Log.about id s.log from rfl,
    Log.calls_about] at hcurrent
  have hexact : (Log.calls id (s.life id) s.log).paused = c.paused := hcurrent.leave.paused_eq
  by_contra hfree
  have hconsumed : q ∈ c.unpaused := Consumer.mem_unpaused.2 ⟨hq, hexact ▸ hfree⟩
  rw [hnone] at hconsumed
  exact Std.ExtTreeSet.not_mem_empty hconsumed

/-- The worker, all of whose queues are paused in its client. -/
theorem Reachable.paused_consumes_nothing_of_worker :
    ∃ s c, Rehearsal.stage.run 0 (.initial (.prohibiting ["t"]) {}) Rehearsal.shift = some s ∧
      s.consumer? Rehearsal.worker.id = some c ∧
      s.isPaused? Rehearsal.worker.id = some true ∧
      ((c.unpaused = ∅ ∧ ∀ q ∈ c.assigned,
          q ∈ (Log.calls Rehearsal.worker.id (s.life Rehearsal.worker.id) s.log).paused) ∨
        (Log.calls Rehearsal.worker.id (s.life Rehearsal.worker.id) s.log).commands.getLast? =
          some (.pause c.unpaused.toList, false) ∨
        (Log.calls Rehearsal.worker.id (s.life Rehearsal.worker.id) s.log).commands.getLast? =
          some (.resume c.paused.toList, false)) := by
  obtain ⟨s, c, hrun, hreg, hmode, hstate, -⟩ := Rehearsal.shift_pauses
  have hreachable : Rehearsal.stage.Reachable (.prohibiting ["t"]) {} s := Reachable.start.run hrun
  have hpaused : s.isPaused? Rehearsal.worker.id = some true := by
    rw [State.isPaused?, hreg, Option.map_some, Consumer.isPaused, hstate]
    rfl
  exact ⟨s, c, hrun, hreg, hpaused, hreachable.paused_consumes_nothing rfl hreg hmode hpaused⟩

/-- A controller whose clients can be paused once. -/
def tiring : Controller Nat where
  environment :=
    { command := fun pauses _ _ command =>
        match command with
        | .pause _ =>
            { result := if pauses = 0 then .ok () else .error (.broker "pause" "tired")
              delivered := [], memory := pauses + 1 }
        | _ => { result := .ok (), delivered := [], memory := pauses }
      query := fun pauses _ _ _ _ => (.ok [], pauses)
      members := fun pauses _ _ _ _ => ([], pauses) }

/-- **The exception is needed**: a worker that cannot be paused any more is handed another queue.
It counts as paused, and consumes from that queue. -/
theorem exists_paused_consuming :
    ∃ s c, tiring.run 0 (.initial (.prohibiting ["t"]) 0) Rehearsal.shift = some s ∧
      s.consumer? Rehearsal.worker.id = some c ∧ c.mode = some .assign ∧
      s.isPaused? Rehearsal.worker.id = some true ∧
      c.unpaused.toList = [⟨"t", "b", 2⟩] ∧
      (⟨"t", "b", 2⟩ : Queue) ∉
        (Log.calls Rehearsal.worker.id (s.life Rehearsal.worker.id) s.log).paused.toList := by
  have hrun : ((tiring.run 0 (.initial (.prohibiting ["t"]) 0) Rehearsal.shift).bind fun s =>
      (s.consumer? Rehearsal.worker.id).map fun c => (c.mode, s.isPaused? Rehearsal.worker.id,
        c.unpaused.toList,
        (Log.calls Rehearsal.worker.id (s.life Rehearsal.worker.id) s.log).paused.toList)) =
      some (some .assign, some true, [⟨"t", "b", 2⟩], [⟨"t", "b", 0⟩, ⟨"t", "b", 1⟩]) := by
    decide +kernel
  obtain ⟨s, hs, hc⟩ := Option.bind_eq_some_iff.1 hrun
  obtain ⟨c, hreg, hall⟩ := Option.map_eq_some_iff.1 hc
  obtain ⟨hmode, hrest⟩ := Prod.mk.inj hall
  obtain ⟨hflag, hsets⟩ := Prod.mk.inj hrest
  obtain ⟨hunpaused, hpaused⟩ := Prod.mk.inj hsets
  refine ⟨s, c, hs, hreg, hmode, hflag, hunpaused, ?_⟩
  rw [hpaused]
  decide

end Controller

end Embargo
