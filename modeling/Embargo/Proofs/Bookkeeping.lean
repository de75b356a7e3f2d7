import Embargo.Proofs.Assignments
import Embargo.Proofs.Members
import Embargo.Proofs.Recovery

/-!
# Paused queues are accounted for

A consumer that was handed queues remembers which of them are paused in its client.  What is to be
paused and what is to be resumed is computed from that memory, and calls may fail one by one, with
new assignments coming in between; the memory is exact all the same.

* `Calls.paused` — the queues that are paused in a client, when its calls take effect;
* `Call.Apt` — a call that pauses or resumes what can be paused or resumed;
* `Calls.Leave` — apt calls, and the queues that they leave paused;
* `Consumer.Bookkept`, `Consumer.Transit.bookkept` — a consumer remembers what its calls have left
  paused, and every transition keeps it so;
* `View.Bookkept`, `View.Step.bookkept` — **the invariant**;
* `Controller.Reachable.bookkeeping_exact` — the same, told of the calls on record.
-/

namespace Embargo

/-! ### Paused queues of a client -/

/-- The paused queues of a client after a call: to pause and to resume takes effect exactly when it
succeeds. -/
def pausedAfter (paused : QueueSet) : Call × Bool → QueueSet
  | (.command (.pause queues), true) => paused.insertMany queues
  | (.command (.resume queues), true) => paused \ QueueSet.ofList queues
  | _ => paused

/-- The queues that are paused in a client after calls, when none has been paused at first. -/
def Calls.paused (calls : Calls) : QueueSet :=
  calls.foldl pausedAfter ∅

/-- Whether a call makes sense while queues are paused: what it pauses is not paused yet, and what
it resumes is paused. -/
def Call.Apt (paused : QueueSet) : Call → Prop
  | .command (.pause queues) => queues ≠ [] ∧ queues.Nodup ∧ ∀ q ∈ queues, q ∉ paused
  | .command (.resume queues) => queues ≠ [] ∧ queues.Nodup ∧ ∀ q ∈ queues, q ∈ paused
  | _ => True

/-- Calls each of which makes sense, and the queues that they leave paused. -/
structure Calls.Leave (calls : Calls) (paused : QueueSet) : Prop where
  paused_eq : calls.paused = paused
  apt : ∀ earlier x later, calls = earlier ++ x :: later → x.1.Apt (Calls.paused earlier)

/-- A call that neither pauses nor resumes. -/
def Call.IsPlain : Call → Prop
  | .command (.pause _) => False
  | .command (.resume _) => False
  | _ => True

namespace Calls

variable {calls : Calls} {paused : QueueSet} {queues : List Queue}

theorem paused_snoc (calls : Calls) (x : Call × Bool) :
    Calls.paused (calls ++ [x]) = pausedAfter calls.paused x := by
  rw [Calls.paused, List.foldl_append]
  rfl

theorem leave_nil : Leave [] ∅ where
  paused_eq := rfl
  apt := fun earlier x later h => by cases earlier <;> cases h

theorem Leave.snoc (h : calls.Leave paused) {x : Call × Bool} (hx : x.1.Apt paused) :
    Leave (calls ++ [x]) (pausedAfter paused x) where
  paused_eq := by rw [paused_snoc, h.paused_eq]
  apt := fun earlier y later hsplit => by
    rcases List.eq_nil_or_concat later with rfl | ⟨later, z, rfl⟩
    · obtain ⟨rfl, hxy⟩ := List.append_inj' hsplit rfl
      cases hxy
      exact h.paused_eq ▸ hx
    · rw [List.concat_eq_append, ← List.cons_append, ← List.append_assoc] at hsplit
      exact h.apt earlier y later (List.append_inj' hsplit rfl).1

theorem Leave.plain (h : calls.Leave paused) (call : Call) (ok : Bool) (hplain : call.IsPlain) :
    Leave (calls ++ [(call, ok)]) paused := by
  cases call with
  | findMembers topic group => exact h.snoc (x := (.findMembers topic group, ok)) trivial
  | command command =>
    cases command with
    | pause queues => exact absurd hplain not_false
    | resume queues => exact absurd hplain not_false
    | _ => exact h.snoc (x := (.command _, ok)) trivial

/-- Commands of which none pauses or resumes. -/
theorem Leave.commands {tr : Trace} (h : calls.Leave paused)
    (hplain : ∀ x ∈ tr, (Call.command x.1).IsPlain) : Leave (calls ++ tr.calls) paused := by
  induction tr generalizing calls with
  | nil => exact (List.append_nil calls).symm ▸ h
  | cons x tr ih =>
    have hfirst := h.plain (.command x.1) x.2 (hplain x List.mem_cons_self)
    have hrest := ih hfirst fun y hy => hplain y (List.mem_cons_of_mem x hy)
    rwa [List.append_assoc] at hrest

end Calls

/-! ### What transitions do to paused queues -/

theorem QueueSet.nodup_toList (s : QueueSet) : s.toList.Nodup :=
  Std.ExtTreeSet.distinct_toList.imp fun {a b} hne (heq : a = b) =>
    hne (Std.LawfulEqOrd.compare_eq_iff_eq.2 heq)

namespace Consumer

variable {now : Nat} {c c' : Consumer} {calls : Calls} {d : Decision} {tr : Trace} {o : Outcome}

theorem paused_markResumed (c : Consumer) (queues : List Queue) :
    (c.markResumed queues).paused = c.paused \ QueueSet.ofList queues := by
  refine Std.ExtTreeSet.ext_mem fun q => ?_
  rw [mem_paused_markResumed, Std.ExtTreeSet.mem_diff_iff, QueueSet.mem_ofList]

/-- A consumer pauses what it has not paused yet. -/
theorem leave_forPause (h : calls.Leave c.paused) {queues : List Queue} (hnodup : queues.Nodup)
    (hfresh : ∀ q ∈ queues, q ∉ c.paused) :
    Calls.Leave (calls ++ (forQueues .pause queues true : Trace).calls)
      (c.markPaused queues).paused := by
  cases queues with
  | nil => exact (List.append_nil calls).symm ▸ h
  | cons q qs => exact h.snoc (x := (.command (.pause (q :: qs)), true)) ⟨nofun, hnodup, hfresh⟩

/-- A consumer resumes what it has paused, if that succeeds. -/
theorem leave_forResume (h : calls.Leave c.paused) {queues : List Queue} (hnodup : queues.Nodup)
    (hpaused : ∀ q ∈ queues, q ∈ c.paused) (ok : Bool) :
    Calls.Leave (calls ++ (forQueues .resume queues ok : Trace).calls)
      (c.released queues ok).paused := by
  cases queues with
  | nil =>
    rw [released_nil]
    exact (List.append_nil calls).symm ▸ h
  | cons q qs =>
    have hcall := h.snoc (x := (.command (.resume (q :: qs)), ok)) ⟨nofun, hnodup, hpaused⟩
    cases ok with
    | false => exact hcall
    | true => exact paused_markResumed c (q :: qs) ▸ hcall

/-- A consumer remembers what its calls have left paused, which is nothing unless it is suspended
and was handed queues. -/
structure Bookkept (c : Consumer) (calls : Calls) : Prop where
  leave : calls.Leave c.paused
  suspended : c.paused ≠ ∅ → c.mode = some .assign ∧ c.state = .suspended

theorem wrap_bookkept {client : Client} (h : wrap client = .ok c) : c.Bookkept [] := by
  obtain ⟨group, mode, -, rfl⟩ := wrap_eq_ok h
  exact ⟨Calls.leave_nil, fun hne => absurd rfl hne⟩

theorem apply_bookkept {change : Change} (h : c.Bookkept calls) (happly : c.apply change = .ok c') :
    c'.Bookkept calls := by
  obtain ⟨mode, topics, assigned, rfl, hmode⟩ := apply_frame happly
  refine ⟨h.leave, fun hne => ?_⟩
  obtain ⟨hassign, hstate⟩ := h.suspended hne
  refine ⟨?_, hstate⟩
  rcases hmode with hnone | hsame
  · cases hnone.symm.trans hassign
  · exact hsame.trans hassign

/-- A subscribing consumer has paused nothing, whatever state it enters. -/
theorem Bookkept.transition (h : c.Bookkept calls) (hmode : c.mode = some .subscribe)
    (state : Membership) : (c.transition now state).Bookkept calls :=
  ⟨h.leave, fun hne => by cases hmode.symm.trans (h.suspended hne).1⟩

theorem Bookkept.commands (h : c.Bookkept calls) (hplain : ∀ x ∈ tr, (Call.command x.1).IsPlain) :
    c.Bookkept (calls ++ tr.calls) :=
  ⟨h.leave.commands hplain, h.suspended⟩

/-- **Every transition keeps the memory of paused queues exact.** -/
theorem Transit.bookkept (htransit : c.Transit now d tr o) (h : c.Bookkept calls) :
    o.consumer.Bookkept (calls ++ tr.calls) := by
  have hidle : calls ++ Trace.calls [] = calls := List.append_nil calls
  cases htransit with
  | modeless hmode => exact hidle.symm ▸ h
  | alreadyOut hmode hstate => exact hidle.symm ▸ h
  | flushFailed hmode hstate => exact h.commands (by simp [Call.IsPlain])
  | leaveFailed hmode hstate => exact h.commands (by simp [Call.IsPlain])
  | left ok hmode hstate => exact (h.transition hmode _).commands (by simp [Call.IsPlain])
  | alreadyIn hmode hstate => exact hidle.symm ▸ h
  | rejoinFailed hmode hstate => exact h.commands (by simp [Call.IsPlain])
  | rejoined ok hmode hstate => exact (h.transition hmode _).commands (by simp [Call.IsPlain])
  | alreadyPaused hmode hunpaused hstale hstate => exact hidle.symm ▸ h
  | pauseFailed hmode hunpaused =>
    refine ⟨h.leave.snoc (x := (.command (.pause c.unpaused.toList), false))
      ⟨hunpaused, QueueSet.nodup_toList _, fun q hq => ?_⟩, h.suspended⟩
    exact (mem_unpaused.1 (Std.ExtTreeSet.mem_toList.1 hq)).2
  | paused ok hmode =>
    have hpause : Calls.Leave (calls ++ (forQueues .pause c.unpaused.toList true : Trace).calls)
        (c.markPaused c.unpaused.toList).paused :=
      leave_forPause h.leave (QueueSet.nodup_toList _) fun q hq =>
        (mem_unpaused.1 (Std.ExtTreeSet.mem_toList.1 hq)).2
    have hresume := leave_forResume hpause (QueueSet.nodup_toList c.stale) (fun q hq =>
      mem_paused_markPaused.2 (.inl (mem_stale.1 (Std.ExtTreeSet.mem_toList.1 hq)).1)) ok
    obtain ⟨paused, hreleased⟩ := released_eq (c.markPaused c.unpaused.toList) c.stale.toList ok
    obtain ⟨epoch, last, hsettle⟩ :=
      settle_eq now ((c.markPaused c.unpaused.toList).released c.stale.toList ok)
    rw [Trace.calls, List.map_append, ← List.append_assoc]
    refine ⟨?_, fun _ => ?_⟩
    · rw [hsettle]
      exact hresume
    · rw [hsettle, hreleased]
      exact ⟨hmode, rfl⟩
  | nothingPaused hmode hpaused hstate => exact hidle.symm ▸ h
  | resumeFailed hmode hpaused =>
    exact ⟨h.leave.snoc (x := (.command (.resume c.paused.toList), false))
      ⟨hpaused, QueueSet.nodup_toList _, fun q hq => Std.ExtTreeSet.mem_toList.1 hq⟩, h.suspended⟩
  | resumed hmode =>
    have hresume := leave_forResume h.leave (QueueSet.nodup_toList c.paused)
      (fun q hq => Std.ExtTreeSet.mem_toList.1 hq) true
    exact ⟨hresume, fun hne => absurd (paused_markResumed_all c) hne⟩

/-- Nothing is paused or resumed on the way back. -/
theorem rollBack_bookkept (h : c.Bookkept calls) (hmode : c.mode = some .subscribe)
    (hyields : (c.rollBack now).Yields tr c') : c'.Bookkept (calls ++ tr.calls) := by
  rcases rollBack_yields hyields with ⟨rfl, rfl⟩ | ⟨ok, rfl, rfl⟩ <;>
    exact (h.transition hmode _).commands (by simp [Call.IsPlain])

end Consumer

/-! ### The invariant -/

namespace View

variable {config : Config} {id : ConsumerId} {v v' : View} {c c' : Consumer}

/-- The registered consumer remembers what its calls have left paused, and all calls that have ever
been made were apt. -/
structure Bookkept (id : ConsumerId) (v : View) : Prop where
  current : ∀ c, v.consumer = some c → c.Bookkept (v.record.calls id v.life)
  past : ∀ life, ∃ paused, (v.record.calls id life).Leave paused

theorem initial_bookkept (policy : Policy) (id : ConsumerId) :
    (View.initial policy).Bookkept id where
  current := fun c hc => by cases hc
  past := fun life => ⟨∅, Calls.leave_nil⟩

theorem Bookkept.of_calls_eq (h : v.Bookkept id)
    (hcalls : ∀ life, v'.record.calls id life = v.record.calls id life)
    (hcurrent : ∀ c, v'.consumer = some c → c.Bookkept (v.record.calls id v'.life)) :
    v'.Bookkept id where
  current := fun c hc => hcalls v'.life ▸ hcurrent c hc
  past := fun life => hcalls life ▸ h.past life

/-- What is called for one consumer leaves the calls for the others as they are. -/
theorem Bookkept.of_entries (h : v.Bookkept id) {client : Client} {tr : Trace}
    (hid : client.id = id) (hcalls : c'.Bookkept (v.record.calls id v.life ++ tr.calls))
    (hlife : v'.life = v.life) (hreg : v'.consumer = some c')
    (hrecord : v'.record = Program.Subject.entries ⟨client, v.life⟩ v.now tr ++ v.record) :
    v'.Bookkept id where
  current := fun c hc => by
    obtain rfl : c' = c := Option.some.inj (hreg.symm.trans hc)
    rw [hrecord, hlife, calls_entries_of_id_eq _ hid]
    exact hcalls
  past := fun life => by
    rw [hrecord]
    by_cases heq : v.life = life
    · subst heq
      rw [calls_entries_of_id_eq _ hid]
      exact ⟨_, hcalls.leave⟩
    · rw [Log.calls_append, Log.calls_entries, if_neg fun hboth => heq hboth.2, List.append_nil]
      exact h.past life

theorem Bookkept.receive (h : v.Bookkept id) (d : Delivery) :
    ({ v with received := d :: v.received } : View).Bookkept id :=
  ⟨h.current, h.past⟩

theorem Effect.bookkept (h : Effect config id v v') (hv : v.Sound id) (hb : v.Bookkept id) :
    v'.Bookkept id := by
  cases h with
  | install p => exact hb.of_calls_eq (fun _ => rfl) hb.current
  | register hfree hid hwrap =>
    refine hb.of_calls_eq (fun _ => rfl) fun c hc => ?_
    cases hc
    show Consumer.Bookkept _ (v.record.calls id v.life)
    rw [hv.calls_eq_nil hfree]
    exact Consumer.wrap_bookkept hwrap
  | @revise c c' change hreg happly =>
    refine hb.of_calls_eq (fun _ => rfl) fun c₁ hc₁ => ?_
    cases hc₁
    exact Consumer.apply_bookkept (hb.current c hreg) happly
  | remove hreg => exact hb.of_calls_eq (fun _ => rfl) fun c hc => by cases hc
  | @drive c d tr o hreg htransit =>
    exact hb.of_entries (hv.keyed c hreg) (htransit.bookkept (hb.current c hreg)) rfl rfl rfl

/-- **Every step keeps the books.** -/
theorem Step.bookkept (h : Step config id v v') (hv : v.Sound id) (hb : v.Bookkept id) :
    v'.Bookkept id := by
  cases h with
  | deliver d hwithin heffects =>
    have hboth := heffects.keeps (P := fun w => w.Sound id ∧ w.Bookkept id)
      (fun heffect hw => ⟨heffect.sound hw.1, heffect.bookkept hw.1 hw.2⟩)
      ⟨hv.receive d, hb.receive d⟩
    exact hboth.2
  | @ask t topic ok hpoll hentitled =>
    have hcalls : ∀ {life paused}, (v.record.calls id life).Leave paused →
        Calls.Leave (Log.calls id life
          ({ time := v.now, who := some id,
             what := .call t.client t.life (.findMembers topic t.group) ok } :: v.record))
          paused := by
      intro life paused hleave
      rw [Log.calls_cons_call]
      split
      · exact hleave.plain _ ok trivial
      · exact (List.append_nil _).symm ▸ hleave
    refine ⟨fun c hc => ⟨hcalls (hb.current c hc).leave, (hb.current c hc).suspended⟩,
      fun life => ?_⟩
    obtain ⟨paused, hleave⟩ := hb.past life
    exact ⟨paused, hcalls hleave⟩
  | answer topic members hpoll =>
    exact hb.of_calls_eq (fun life => (Log.calls_cons ..).trans (List.append_nil _)) hb.current
  | @confirm t c hpoll hlive =>
    have hmode := (hv.startedBy (mem_tasks_of_poll hpoll) hlive).mode
    refine hb.of_calls_eq (fun _ => rfl) fun c₁ hc₁ => ?_
    cases hc₁
    exact (hb.current c (of_subject? hlive).1).transition hmode _
  | @rollBack t c c' tr hpoll hover hlive hyields =>
    have ht : t ∈ v.tasks := mem_tasks_of_poll hpoll
    obtain ⟨hreg, hlife, -, -⟩ := of_subject? hlive
    refine hb.of_entries (hv.tasks t ht).1 (Consumer.rollBack_bookkept (hb.current c hreg)
      (hv.startedBy ht hlive).mode hyields) rfl rfl (hlife ▸ rfl)
  | _ => exact hb.of_calls_eq (fun _ => rfl) hb.current

theorem Reach.bookkept (h : Reach config id v v') (hv : v.Sound id) (hb : v.Bookkept id) :
    v'.Bookkept id :=
  (h.keeps (P := fun w => w.Sound id ∧ w.Bookkept id)
    (fun hstep hw => ⟨hstep.sound hw.1, hstep.bookkept hw.1 hw.2⟩) ⟨hv, hb⟩).2

end View

namespace Controller

variable {ω : Type} {k : Controller ω} {policy : Policy} {memory : ω} {s : State ω}

theorem Reachable.bookkept (h : k.Reachable policy memory s) (id : ConsumerId) :
    (Moment.view (s, none) id).Bookkept id :=
  View.Reach.bookkept (h.reach id) (View.initial_sound policy id) (View.initial_bookkept policy id)

/-- What a client had paused when a call was made for one of its consumers. -/
theorem Reachable.apt_of_split (h : k.Reachable policy memory s) {later earlier : Log} {e : Event}
    {client : Client} {life : Nat} {call : Call} {ok : Bool}
    (hsplit : s.log = later ++ e :: earlier) (hwhat : e.what = .call client life call ok) :
    call.Apt (Log.calls client.id life earlier).paused := by
  obtain ⟨paused, hleave⟩ := (h.bookkept client.id).past life
  have hlog : Log.calls client.id life (Log.about client.id s.log) =
      Log.calls client.id life earlier ++ (call, ok) :: Log.calls client.id life later := by
    rw [Log.calls_about, hsplit, Log.calls_append, Log.calls_cons, Event.call?, hwhat,
      List.append_assoc]
    simp
  exact hleave.apt _ _ _ hlog

/-- **The bookkeeping of paused queues is exact.**  A registered consumer remembers exactly the
queues that are paused in its client, and while it is active there are none.  Every call to pause
is one for queues, all different, that are assigned at the time and not paused, and every call to
resume is one for queues, all different, that are paused.  The calls made for the consumer itself
are all that matters, since none is made for an earlier one any more. -/
theorem Reachable.bookkeeping_exact (h : k.Reachable policy memory s) (id : ConsumerId) :
    (∀ c, s.consumer? id = some c →
      c.paused = (Log.calls id (s.life id) s.log).paused ∧
      c.assigned = Log.assigned id s.log ∧
      (c.state = .active → (Log.calls id (s.life id) s.log).paused = ∅)) ∧
    (∀ later e earlier client life queues ok, s.log = later ++ e :: earlier → client.id = id →
      e.what = .call client life (.command (.pause queues)) ok →
      queues ≠ [] ∧ queues.Nodup ∧
        ∀ q ∈ queues, q ∈ Log.assigned id earlier ∧ q ∉ (Log.calls id life earlier).paused) ∧
    (∀ later e earlier client life queues ok, s.log = later ++ e :: earlier → client.id = id →
      e.what = .call client life (.command (.resume queues)) ok →
      queues ≠ [] ∧ queues.Nodup ∧ ∀ q ∈ queues, q ∈ (Log.calls id life earlier).paused) ∧
    ∀ life patience inputs s', life < s.life id → k.run patience s inputs = some s' →
      (Log.calls id life s'.log).commands = (Log.calls id life s.log).commands := by
  refine ⟨fun c hreg => ?_, ?_, ?_, fun life patience inputs s' hlife hrun =>
    h.past_commands hlife hrun⟩
  · have hcurrent := (h.bookkept id).current c hreg
    rw [show (Moment.view (s, none) id).record = Log.about id s.log from rfl,
      Log.calls_about] at hcurrent
    have hpaused : (Log.calls id (s.life id) s.log).paused = c.paused := hcurrent.leave.paused_eq
    refine ⟨hpaused.symm, h.accounted.assigned id not_false c hreg, fun hstate => ?_⟩
    by_contra hne
    cases hstate.symm.trans (hcurrent.suspended (hpaused ▸ hne)).2
  · rintro later e earlier client life queues ok hsplit rfl hwhat
    obtain ⟨hne, hnodup, hfresh⟩ := h.apt_of_split hsplit hwhat
    exact ⟨hne, hnodup, fun q hq =>
      ⟨h.accounted.pauses later e earlier client life queues ok hsplit hwhat q hq, hfresh q hq⟩⟩
  · rintro later e earlier client life queues ok hsplit rfl hwhat
    exact h.apt_of_split hsplit hwhat

/-- The worker that has been handed other queues: what is paused in its client are these. -/
theorem Reachable.bookkeeping_exact_of_worker :
    ∃ s c, Rehearsal.stage.run 0 (.initial (.prohibiting ["t"]) {}) Rehearsal.shift = some s ∧
      s.consumer? Rehearsal.worker.id = some c ∧
      (Log.calls Rehearsal.worker.id (s.life Rehearsal.worker.id) s.log).paused.toList =
        [⟨"t", "b", 1⟩, ⟨"t", "b", 2⟩] := by
  obtain ⟨s, c, hrun, hreg, -, -, hpaused⟩ := Rehearsal.shift_pauses
  have hreachable : Rehearsal.stage.Reachable (.prohibiting ["t"]) {} s := Reachable.start.run hrun
  exact ⟨s, c, hrun, hreg,
    ((hreachable.bookkeeping_exact Rehearsal.worker.id).1 c hreg).1 ▸ hpaused⟩

end Controller

end Embargo
