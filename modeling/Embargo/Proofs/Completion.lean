import Embargo.Proofs.Coherence

/-!
# Transitions are carried out, or nothing is

A transition makes up to three calls, any of which may fail.  Most of them are vital: when one of
these fails, the transition ends there, and the consumer is as it was.  The others are made for good
measure: rebalancing, and giving back the queues that are no longer assigned.  Their failure holds
nothing up.

* `Command.IsVital` — what must not fail;
* `Trace.Aborted` — a vital call has failed, after which nothing was called;
* `Consumer.Attained` — a consumer has got where a decision wanted it;
* `Consumer.Transit.aborted_or_attained` — **every transition does one or the other**;
* `Controller.drive_all_or_nothing` — the same, told of consumers that are driven, at any moment
  that steps lead to.
-/

namespace Embargo

/-! ### Vital calls -/

/-- The calls of a transition that must not fail: all but rebalancing, and but for giving back
queues while a consumer is suspended. -/
def Command.IsVital (d : Decision) : Command → Prop
  | .rebalance => False
  | .resume _ => d = .resume
  | _ => True

namespace Trace

/-- A vital call has failed after others that have succeeded, and is the last one. -/
def Aborted (d : Decision) (tr : Trace) : Prop :=
  ∃ earlier cmd, tr = earlier ++ [(cmd, false)] ∧ cmd.IsVital d ∧ ∀ x ∈ earlier, x.2 = true

variable {d : Decision} {tr earlier later : Trace} {cmd : Command}

/-- Nothing is called after a call that has failed. -/
theorem Aborted.eq_nil_of_split (h : tr.Aborted d)
    (hsplit : tr = earlier ++ (cmd, false) :: later) : later = [] := by
  obtain ⟨ok, last, rfl, -, hok⟩ := h
  rcases List.eq_nil_or_concat later with hnil | ⟨rest, x, rfl⟩
  · exact hnil
  -- otherwise the call would be one of those that have succeeded
  · rw [List.concat_eq_append, ← List.cons_append, ← List.append_assoc] at hsplit
    have hmem : (cmd, false) ∈ ok := by
      rw [(List.append_inj' hsplit rfl).1]
      exact List.mem_append_right _ List.mem_cons_self
    cases hok _ hmem

end Trace

theorem Consumer.mem_forQueues {command : List Queue → Command} {queues : List Queue}
    {ok ok' : Bool} {cmd : Command} : (cmd, ok') ∈ forQueues command queues ok ↔
      queues ≠ [] ∧ cmd = command queues ∧ ok' = ok := by
  cases queues with
  | nil => simp [forQueues]
  | cons q qs => simp [forQueues]

/-! ### Where decisions want consumers -/

namespace Consumer

variable {now : Nat} {c : Consumer} {d : Decision} {tr : Trace} {o : Outcome}

/-- A consumer has got where a decision wanted it, if it has a mode: out of its group, with a
confirmation if it has just left; with all its queues paused, and of the others only those that
could not be given back; or back in consumption, with nothing paused. -/
structure Attained (c : Consumer) (d : Decision) (tr : Trace) (o : Outcome) : Prop where
  left : c.mode = some .subscribe → d = .suspend →
    (o.consumer.state = .suspending ∨ o.consumer.state = .suspended) ∧
      (o.leaving = true ↔ c.state = .active)
  halted : c.mode = some .assign → d = .suspend →
    o.consumer.state = .suspended ∧ o.leaving = false ∧
      ∀ q, q ∈ o.consumer.paused ↔
        q ∈ c.assigned ∨ q ∈ c.stale ∧ (Command.resume c.stale.toList, false) ∈ tr
  resumed : c.mode ≠ none → d = .resume →
    o.consumer.state = .active ∧ o.consumer.paused = ∅ ∧ o.leaving = false
  modeless : c.mode = none → tr = [] ∧ o = { consumer := c }

theorem out_of_ne_active (h : c.state ≠ .active) :
    c.state = .suspending ∨ c.state = .suspended := by
  cases hstate : c.state with
  | active => exact absurd hstate h
  | suspending => exact .inl rfl
  | suspended => exact .inr rfl

/-- What a subscribing consumer has attained. -/
theorem attained_of_subscribe (hmode : c.mode = some .subscribe)
    (hleft : d = .suspend → (o.consumer.state = .suspending ∨ o.consumer.state = .suspended) ∧
      (o.leaving = true ↔ c.state = .active))
    (hresumed : d = .resume → o.consumer.state = .active ∧ o.consumer.paused = ∅ ∧
      o.leaving = false) : c.Attained d tr o where
  left := fun _ => hleft
  halted := fun h => by cases hmode.symm.trans h
  resumed := fun _ => hresumed
  modeless := fun h => by cases hmode.symm.trans h

/-- What a consumer with assigned queues has attained. -/
theorem attained_of_assign (hmode : c.mode = some .assign) (hstay : o.leaving = false)
    (hhalted : d = .suspend → o.consumer.state = .suspended ∧ ∀ q, q ∈ o.consumer.paused ↔
      q ∈ c.assigned ∨ q ∈ c.stale ∧ (Command.resume c.stale.toList, false) ∈ tr)
    (hresumed : d = .resume → o.consumer.state = .active ∧ o.consumer.paused = ∅) :
    c.Attained d tr o where
  left := fun h => by cases hmode.symm.trans h
  halted := fun _ hd => ⟨(hhalted hd).1, hstay, (hhalted hd).2⟩
  resumed := fun _ hd => ⟨(hresumed hd).1, (hresumed hd).2, hstay⟩
  modeless := fun h => by cases hmode.symm.trans h

/-- The queues that are paused once the assigned ones are paused and the stale ones were to be given
back. -/
theorem mem_paused_released (c : Consumer) (ok : Bool) (q : Queue) :
    q ∈ ((c.markPaused c.unpaused.toList).released c.stale.toList ok).paused ↔
      q ∈ c.assigned ∨ q ∈ c.stale ∧ ok = false := by
  cases ok with
  | true =>
    simp only [released, if_true, mem_paused_markResumed, mem_paused_markPaused,
      Std.ExtTreeSet.mem_toList, mem_unpaused, mem_stale]
    tauto
  | false =>
    simp only [released, Bool.false_eq_true, if_false, mem_paused_markPaused,
      Std.ExtTreeSet.mem_toList, mem_unpaused, mem_stale]
    tauto

theorem settle_suspended (now : Nat) (c : Consumer) :
    (c.settle now).state = .suspended ∧ (c.settle now).paused = c.paused := by
  obtain ⟨epoch, last, hsettle⟩ := settle_eq now c
  rw [hsettle]
  exact ⟨rfl, rfl⟩

/-- **A transition is aborted by a vital call, and then the consumer is as it was; or none of its
vital calls has failed, and the consumer is where it was wanted.** -/
theorem Transit.aborted_or_attained (h : c.Transit now d tr o) (hc : c.Coherent) :
    (tr.Aborted d ∧ o = { consumer := c }) ∨
      ((∀ cmd, (cmd, false) ∈ tr → ¬cmd.IsVital d) ∧ c.Attained d tr o) := by
  cases h with
  | modeless hmode =>
    refine .inr ⟨fun _ hcmd => absurd hcmd List.not_mem_nil, ?_⟩
    exact {
      left := fun h => by cases hmode.symm.trans h
      halted := fun h => by cases hmode.symm.trans h
      resumed := fun h => absurd hmode h
      modeless := fun _ => ⟨rfl, rfl⟩ }
  -- a subscribing consumer
  | alreadyOut hmode hstate =>
    refine .inr ⟨fun _ hcmd => absurd hcmd List.not_mem_nil,
      attained_of_subscribe hmode (fun _ => ?_) fun hd => by cases hd⟩
    exact ⟨out_of_ne_active hstate, ⟨fun hleaving => (by cases hleaving), (absurd · hstate)⟩⟩
  | flushFailed hmode hstate => exact .inl ⟨⟨[], _, rfl, trivial, by simp⟩, rfl⟩
  | leaveFailed hmode hstate =>
    exact .inl ⟨⟨[(.persistOffsets, true)], _, rfl, trivial, by simp⟩, rfl⟩
  | left ok hmode hstate =>
    refine .inr ⟨fun cmd hcmd => ?_, attained_of_subscribe hmode
      (fun _ => ⟨.inl rfl, fun _ => hstate, fun _ => rfl⟩) fun hd => by cases hd⟩
    obtain ⟨rfl, -⟩ : cmd = .rebalance ∧ ok = false := by simpa [eq_comm] using hcmd
    exact not_false
  | alreadyIn hmode hstate =>
    exact .inr ⟨fun _ hcmd => absurd hcmd List.not_mem_nil,
      attained_of_subscribe hmode (fun hd => by cases hd)
      fun _ => ⟨hstate, hc.paused_of_subscribe hmode, rfl⟩⟩
  | rejoinFailed hmode hstate => exact .inl ⟨⟨[], _, rfl, trivial, by simp⟩, rfl⟩
  | rejoined ok hmode hstate =>
    refine .inr ⟨fun cmd hcmd => ?_, attained_of_subscribe hmode (fun hd => by cases hd)
      fun _ => ⟨rfl, hc.paused_of_subscribe hmode, rfl⟩⟩
    obtain ⟨rfl, -⟩ : cmd = .rebalance ∧ ok = false := by simpa [eq_comm] using hcmd
    exact not_false
  -- a consumer with assigned queues
  | alreadyPaused hmode hunpaused hstale hstate =>
    refine .inr ⟨fun _ hcmd => absurd hcmd List.not_mem_nil, attained_of_assign hmode rfl
      (fun _ => ⟨hstate, fun q => ?_⟩) fun hd => by cases hd⟩
    have hreleased := mem_paused_released c true q
    rw [hunpaused, hstale, released_nil] at hreleased
    simpa [mem_paused_markPaused] using hreleased
  | pauseFailed hmode hunpaused => exact .inl ⟨⟨[], _, rfl, trivial, by simp⟩, rfl⟩
  | paused ok hmode =>
    obtain ⟨hstate, hpaused⟩ :=
      settle_suspended now ((c.markPaused c.unpaused.toList).released c.stale.toList ok)
    refine .inr ⟨fun cmd hcmd => ?_, attained_of_assign hmode rfl (fun _ => ⟨hstate, fun q => ?_⟩)
      fun hd => by cases hd⟩
    · rcases List.mem_append.1 hcmd with hpause | hresume
      · cases (mem_forQueues.1 hpause).2.2
      · rw [(mem_forQueues.1 hresume).2.1]
        exact fun hd => by cases hd
    · rw [hpaused, mem_paused_released, List.mem_append, mem_forQueues, mem_forQueues]
      refine or_congr_right (and_congr_right fun hq => ?_)
      constructor
      · rintro rfl
        exact .inr ⟨List.ne_nil_of_mem (Std.ExtTreeSet.mem_toList.2 hq), rfl, rfl⟩
      · rintro (⟨-, hpause, -⟩ | ⟨-, -, hok⟩)
        · cases hpause
        · exact hok.symm
  | nothingPaused hmode hpaused hstate =>
    refine .inr ⟨fun _ hcmd => absurd hcmd List.not_mem_nil,
      attained_of_assign hmode rfl (fun hd => by cases hd) fun _ => ⟨?_, ?_⟩⟩
    -- a consumer that was handed queues is never suspending
    · by_contra hactive
      rcases out_of_ne_active hactive with hsuspending | hsuspended
      · cases hmode.symm.trans (hc.sound.suspending hsuspending)
      · exact hstate hsuspended
    · refine Std.ExtTreeSet.eq_empty_iff_forall_not_mem.2 fun q hq => ?_
      cases hpaused ▸ Std.ExtTreeSet.mem_toList.2 hq
  | resumeFailed hmode hpaused => exact .inl ⟨⟨[], _, rfl, rfl, by simp⟩, rfl⟩
  | resumed hmode =>
    refine .inr ⟨fun cmd hcmd => ?_, attained_of_assign hmode rfl (fun hd => by cases hd)
      fun _ => ⟨rfl, paused_markResumed_all c⟩⟩
    cases (mem_forQueues.1 hcmd).2.2

end Consumer

/-! ### Consumers that are driven -/

namespace Controller

variable {ω : Type} {k : Controller ω} {policy : Policy} {memory : ω} {s : State ω}
  {f : Option Poll} {id : ConsumerId} {c : Consumer}

/-- Whatever moment steps lead to, registered consumers are coherent. -/
theorem coherent_of_leads (h : k.Leads (.initial policy memory, none) (s, f))
    (hreg : s.consumer? id = some c) : c.Coherent := by
  have hreach := (h (keyed_initial policy memory)).2 id
  rw [Moment.view_initial] at hreach
  exact View.Reach.coherent hreach hreg

/-- To carry out a decision is to call for one consumer, and to put another one in its place. -/
theorem drive_frame (k : Controller ω) (d : Decision) (hreg : s.consumer? id = some c)
    (hid : c.client.id = id) :
    ∃ tr o, c.Transit s.now d tr o ∧
      (∀ other, (k.drive d id s).consumer? other =
        if id = other then some o.consumer else s.consumer? other) ∧
      (∀ other life, Log.calls other life (k.drive d id s).log =
        Log.calls other life s.log ++ if id = other ∧ s.life id = life then tr.calls else []) ∧
      (k.drive d id s).confirmations = s.confirmations ++
        if o.leaving then [.start k.config s.now (s.life id) o.consumer] else [] := by
  obtain ⟨tr, o, memory', stuck, log, htransit, habout, heq⟩ := drive_eq k d hreg
  refine ⟨tr, o, htransit, fun other => ?_, fun other life => ?_, ?_⟩
  · rw [heq]
    exact consumer?_replace s id other o.consumer
  · rw [heq]
    show Log.calls other life log = _
    rw [← Log.calls_about, habout, Log.calls_append, Log.calls_about, hid]
    congr 1
    by_cases hother : id = other
    · rw [if_pos hother, Log.calls_entries, hid]
    · rw [if_neg hother, if_neg fun h => hother h.1]
      rfl
  · rw [heq]
    cases o.leaving with
    | false => exact (List.append_nil _).symm
    | true => rfl

/-- **Decisions are carried out, or nothing is.**  At any moment that steps lead to, be it amid a
sweep, a plan or a poll, a registered consumer is driven.  If one of its vital calls fails, that
call is the last one, and consumer and confirmations are as they were.  If none fails, the consumer
gets where it was wanted: out of its group, with a confirmation just if it was in there; suspended
with just those queues paused that it has been handed, and stale ones that could not be given back;
or in consumption with nothing paused. -/
theorem drive_all_or_nothing (h : k.Leads (.initial policy memory, none) (s, f))
    (hreg : s.consumer? id = some c) (d : Decision) :
    ∃ (tr : Trace) (c' : Consumer) (started : List Confirmation),
      (∀ other, (k.drive d id s).consumer? other =
        if id = other then some c' else s.consumer? other) ∧
      (∀ other life, Log.calls other life (k.drive d id s).log =
        Log.calls other life s.log ++ if id = other ∧ s.life id = life then tr.calls else []) ∧
      (k.drive d id s).confirmations = s.confirmations ++ started ∧
      c'.pristine = c.pristine ∧
      (∀ earlier cmd later, tr = earlier ++ (cmd, false) :: later → cmd.IsVital d →
        later = [] ∧ c' = c ∧ started = []) ∧
      ((∀ cmd, (cmd, false) ∈ tr → ¬cmd.IsVital d) →
        (c.mode = none → tr = [] ∧ c' = c ∧ started = []) ∧
        (c.mode = some .subscribe → d = .suspend →
          (c'.state = .suspending ∨ c'.state = .suspended) ∧
            started = if c.state = .active then [.start k.config s.now (s.life id) c'] else []) ∧
        (c.mode = some .assign → d = .suspend →
          c'.state = .suspended ∧ started = [] ∧
            ∀ q, q ∈ c'.paused ↔
              q ∈ c.assigned ∨ q ∈ c.stale ∧ (Command.resume c.stale.toList, false) ∈ tr) ∧
        (c.mode ≠ none → d = .resume →
          c'.state = .active ∧ c'.paused = ∅ ∧ started = [])) := by
  have hid : c.client.id = id := (h (keyed_initial policy memory)).1 id c hreg
  obtain ⟨tr, o, htransit, hconsumer, hcalls, hconfirmations⟩ := drive_frame k d hreg hid
  refine ⟨tr, o.consumer, _, hconsumer, hcalls, hconfirmations, htransit.pristine_eq, ?_⟩
  rcases htransit.aborted_or_attained (coherent_of_leads h hreg) with
    ⟨haborted, rfl⟩ | ⟨hunharmed, hattained⟩
  · refine ⟨fun earlier cmd later hsplit _ => ⟨haborted.eq_nil_of_split hsplit, rfl, rfl⟩,
      fun hunharmed => ?_⟩
    obtain ⟨earlier, cmd, rfl, hvital, -⟩ := haborted
    exact absurd hvital (hunharmed cmd (by simp))
  · refine ⟨fun earlier cmd later hsplit hvital => ?_, fun _ => ⟨fun hmode => ?_,
      fun hmode hd => ?_, fun hmode hd => ?_, fun hmode hd => ?_⟩⟩
    · exact absurd hvital (hunharmed cmd (by simp [hsplit]))
    · obtain ⟨htr, rfl⟩ := hattained.modeless hmode
      exact ⟨htr, rfl, rfl⟩
    · obtain ⟨hstate, hleaving⟩ := hattained.left hmode hd
      refine ⟨hstate, ?_⟩
      simp only [hleaving]
    · obtain ⟨hstate, hstay, hpaused⟩ := hattained.halted hmode hd
      exact ⟨hstate, if_neg (Bool.not_eq_true _ ▸ hstay), hpaused⟩
    · obtain ⟨hstate, hpaused, hstay⟩ := hattained.resumed hmode hd
      exact ⟨hstate, hpaused, if_neg (Bool.not_eq_true _ ▸ hstay)⟩

/-- The newcomer takes part in consumption and is told to leave.  None of the calls fails, and so it
leaves, which is to be confirmed. -/
theorem drive_all_or_nothing_of_newcomer :
    ∃ s c c', Rehearsal.stage.run 0 (.initial .disabled {}) Rehearsal.entrance = some s ∧
      s.consumer? Rehearsal.newcomer.id = some c ∧ c.mode = some .subscribe ∧
      c.state = .active ∧
      (Rehearsal.stage.drive .suspend Rehearsal.newcomer.id s).consumer? Rehearsal.newcomer.id =
        some c' ∧ (c'.state = .suspending ∨ c'.state = .suspended) ∧
      (Rehearsal.stage.drive .suspend Rehearsal.newcomer.id s).confirmations = s.confirmations ++
        [.start Rehearsal.stage.config s.now (s.life Rehearsal.newcomer.id) c'] := by
  have hrun : ((Rehearsal.stage.run 0 (.initial .disabled {}) Rehearsal.entrance).bind fun s =>
      (s.consumer? Rehearsal.newcomer.id).map fun c => (c.mode, c.state,
        (Log.calls Rehearsal.newcomer.id (s.life Rehearsal.newcomer.id)
          (Rehearsal.stage.drive .suspend Rehearsal.newcomer.id s).log).all (·.2))) =
            some (some .subscribe, .active, true) := by
    decide +kernel
  obtain ⟨s, hs, hc⟩ := Option.bind_eq_some_iff.1 hrun
  obtain ⟨c, hreg, hall⟩ := Option.map_eq_some_iff.1 hc
  obtain ⟨hmode, hrest⟩ := Prod.mk.inj hall
  obtain ⟨hstate, hok⟩ := Prod.mk.inj hrest
  obtain ⟨tr, c', started, hconsumer, hcalls, hconfirmations, -, -, hattained⟩ :=
    drive_all_or_nothing (run_leads _ (keyed_initial .disabled {}) hs) hreg .suspend
  -- all calls on record have succeeded, those of the transition among them
  rw [hcalls, if_pos ⟨rfl, rfl⟩, List.all_eq_true] at hok
  have hunharmed : ∀ cmd, (cmd, false) ∈ tr → ¬cmd.IsVital .suspend := fun cmd hcmd => by
    cases hok (.command cmd, false) (List.mem_append_right _ (List.mem_map_of_mem hcmd))
  obtain ⟨-, hleft, -⟩ := hattained hunharmed
  obtain ⟨hout, rfl⟩ := hleft hmode rfl
  refine ⟨s, c, c', hs, hreg, hmode, hstate, ?_, hout, ?_⟩
  · rw [hconsumer, if_pos rfl]
  · rw [hconfirmations, if_pos hstate]

end Controller

end Embargo
