import Embargo.Proofs.Completion

/-!
# Consumers at rest

Once a decision has been carried out there is nothing left to do for it.  A consumer that is driven
again is at rest: nothing is called, no confirmation is started, and it stays exactly as it is.
That lasts until something is delivered that changes what is wanted of it, or a confirmation brings
it back into its group.

* `Consumer.AtRest` — there is nothing left to do for a decision;
* `Consumer.AtRest.drive_eq` — then a transition comes to one notice;
* `Consumer.Transit.atRest` — a transition in which nothing but rebalancing has failed leads there;
* `View.LeftAlone` — nothing is delivered about a consumer, nor does it get back into its group;
* `View.Step.rests`, `Reach.rests` — steps that leave a consumer alone leave it at rest;
* `Controller.drive_of_atRest`, `Reposes.deliver` — what driving it and delivering about it come
  to;
* `Controller.Calm` — all that may happen to a consumer without its decision or its queues changing;
* `Controller.drive_twice` — **driving twice is driving once**.
-/

namespace Embargo

/-! ### Nothing left to do -/

namespace Consumer

variable {now : Nat} {c c' : Consumer} {d : Decision} {tr : Trace} {o : Outcome}

/-- There is nothing left to do for a decision. -/
def AtRest (d : Decision) (c : Consumer) : Prop :=
  match c.mode, d with
  | none, _ => c.paused = ∅
  | some .subscribe, .suspend => c.state ≠ .active
  | some .subscribe, .resume => c.state = .active
  | some .assign, .suspend => c.state = .suspended ∧ c.paused = c.assigned
  | some .assign, .resume => c.state ≠ .suspended ∧ c.paused = ∅

theorem consumes_of_pristine_eq (h : c'.pristine = c.pristine) :
    c'.mode = c.mode ∧ c'.topics = c.topics ∧ c'.assigned = c.assigned := by
  have hmode := congrArg Consumer.mode h
  have htopics := congrArg Consumer.topics h
  have hassigned := congrArg Consumer.assigned h
  exact ⟨hmode, htopics, hassigned⟩

/-- When exactly the assigned queues are paused, none is left to be paused, and none is stale. -/
theorem toList_eq_nil_of_paused (h : c.paused = c.assigned) :
    c.unpaused.toList = [] ∧ c.stale.toList = [] := by
  simp only [Std.ExtTreeSet.toList_eq_nil_iff, Std.ExtTreeSet.eq_empty_iff_forall_not_mem,
    mem_unpaused, mem_stale, h]
  constructor
  · intro q hq
    exact hq.2 hq.1
  · intro q hq
    exact hq.2 hq.1

/-- **To drive a consumer at rest comes to one notice.** -/
theorem AtRest.drive_eq (h : c.AtRest d) (now : Nat) :
    ∃ n, c.drive now d = .note n (.done { consumer := c }) := by
  rcases hmode : c.mode with _ | (_ | _) <;> cases d <;> simp only [AtRest, hmode] at h <;>
    simp only [drive, suspend, resume, hmode]
  · exact ⟨_, rfl⟩
  · exact ⟨_, rfl⟩
  · -- it is out of its group, on its way or confirmed
    rw [suspendSubscribed]
    cases hstate : c.state with
    | active => exact absurd hstate h
    | suspending => exact ⟨_, rfl⟩
    | suspended => exact ⟨_, rfl⟩
  · rw [resumeSubscribed, if_pos h]
    exact ⟨_, rfl⟩
  · obtain ⟨hstate, hpaused⟩ := h
    obtain ⟨hunpaused, hstale⟩ := toList_eq_nil_of_paused hpaused
    rw [suspendAssigned, hunpaused, hstale, isPaused, hstate]
    exact ⟨_, rfl⟩
  · obtain ⟨hstate, hpaused⟩ := h
    have hnil : c.paused.toList = [] := Std.ExtTreeSet.toList_eq_nil_iff.2 hpaused
    have hin : c.isPaused = false := decide_eq_false hstate
    rw [resumeAssigned, hnil, hin]
    exact ⟨_, rfl⟩

/-- **A transition in which nothing but rebalancing has failed leaves nothing to do.** -/
theorem Transit.atRest (h : c.Transit now d tr o) (hc : c.Coherent)
    (hok : ∀ cmd, (cmd, false) ∈ tr → cmd = .rebalance) : o.consumer.AtRest d := by
  obtain ⟨hmode, -, hassigned⟩ := consumes_of_pristine_eq h.pristine_eq
  rcases h.aborted_or_attained hc with ⟨haborted, -⟩ | ⟨-, hattained⟩
  · -- a vital call would have failed
    obtain ⟨earlier, cmd, rfl, hvital, -⟩ := haborted
    rw [hok cmd (by simp)] at hvital
    exact absurd hvital not_false
  rcases hc' : c.mode with _ | (_ | _) <;> cases d <;> simp only [AtRest, hmode, hc']
  · obtain ⟨-, rfl⟩ := hattained.modeless hc'
    exact (hc.modeless hc').2.2.2
  · obtain ⟨-, rfl⟩ := hattained.modeless hc'
    exact (hc.modeless hc').2.2.2
  · rcases (hattained.left hc' rfl).1 with hstate | hstate <;> simp [hstate]
  · exact (hattained.resumed (by simp [hc']) rfl).1
  · obtain ⟨hstate, -, hpaused⟩ := hattained.halted hc' rfl
    refine ⟨hstate, Std.ExtTreeSet.ext_mem ?_⟩
    intro q
    rw [hpaused, hassigned]
    constructor
    · rintro (hq | ⟨-, hfailed⟩)
      · exact hq
      · cases hok _ hfailed
    · exact .inl
  · obtain ⟨hstate, hpaused, -⟩ := hattained.resumed (by simp [hc']) rfl
    exact ⟨by simp [hstate], hpaused⟩

/-- Whoever is out of its group rests there. -/
theorem atRest_of_suspended (hmode : c.mode = some .subscribe) :
    (c.transition now .suspended).AtRest .suspend := by
  have hmode' : (c.transition now .suspended).mode = some .subscribe := hmode
  simp only [AtRest, hmode']
  show Membership.suspended ≠ .active
  simp

/-- A change that leaves the assigned queues as they are leaves a consumer at rest; if the consumer
had no mode before, as far as it takes part in consumption. -/
theorem AtRest.of_apply {change : Change} (h : c.AtRest d) (hc : c.Sound)
    (happly : c.apply change = .ok c') (hassigned : c'.assigned = c.assigned)
    (hmodeless : c.mode = none → d = .resume) : c'.AtRest d := by
  obtain ⟨mode, topics, assigned, rfl, hmode⟩ := apply_frame happly
  obtain rfl : assigned = c.assigned := hassigned
  rcases hmode with hnone | rfl
  · obtain rfl := hmodeless hnone
    have hstate := (hc.modeless hnone).1
    simp only [AtRest, hnone] at h
    rcases mode with _ | (_ | _)
    · exact h
    · exact hstate
    · refine ⟨?_, h⟩
      show c.state ≠ .suspended
      simp [hstate]
  · exact h

end Consumer

/-! ### Left alone -/

namespace View

variable {config : Config} {id : ConsumerId} {v v' v'' : View} {c : Consumer} {d : Decision}

/-- Between two views nothing is delivered about the consumer, nor does it get back into its
group. -/
structure LeftAlone (id : ConsumerId) (v v' : View) : Prop where
  unheard : ∃ later, v'.received = later ++ v.received ∧ ∀ d ∈ later, ¬d.concerns id
  out : ∃ new, v'.record = new ++ v.record ∧
    ∀ e ∈ new, ∀ client life group, e.what ≠ .call client life (.command (.register group)) true

/-- Who is left alone all the time is left alone at any time. -/
theorem LeftAlone.split (h : v.LeftAlone id v'') (hreach : Reach config id v v')
    (hstep : Step config id v' v'') : v.LeftAlone id v' ∧ v'.LeftAlone id v'' := by
  obtain ⟨later, hreceived, hunheard⟩ := h.unheard
  obtain ⟨new, hrecord, hout⟩ := h.out
  obtain ⟨new₁, later₁, hrecord₁, hreceived₁⟩ := Reach.grows hreach
  obtain ⟨new₂, later₂, hrecord₂, hreceived₂⟩ := hstep.grows
  obtain rfl : later = later₂ ++ later₁ := List.append_cancel_right
    (hreceived.symm.trans (by rw [hreceived₂, hreceived₁, List.append_assoc]))
  obtain rfl : new = new₂ ++ new₁ := List.append_cancel_right
    (hrecord.symm.trans (by rw [hrecord₂, hrecord₁, List.append_assoc]))
  constructor
  · exact ⟨⟨later₁, hreceived₁, fun d hd => hunheard d (List.mem_append_right _ hd)⟩,
      ⟨new₁, hrecord₁, fun e he => hout e (List.mem_append_right _ he)⟩⟩
  · exact ⟨⟨later₂, hreceived₂, fun d hd => hunheard d (List.mem_append_left _ hd)⟩,
      ⟨new₂, hrecord₂, fun e he => hout e (List.mem_append_left _ he)⟩⟩

/-- A consumer is at rest, and what a policy is applied to is as it was. -/
structure Rests (d : Decision) (policy : Policy) (c₀ : Consumer) (v : View) : Prop where
  policy_eq : v.policy = policy
  consumer : ∃ c, v.consumer = some c ∧ c.AtRest d ∧ c.pristine = c₀

variable {policy : Policy} {c₀ : Consumer}

/-- What a consumer at rest in the mode `subscribe` has to be like, for a confirmation that is not
superseded. -/
theorem Rests.of_subject? {t : Confirmation} (h : v.Rests d policy c₀) (hv : v.Orderly config id)
    (ht : t ∈ v.tasks) (hlive : v.subject? t = some c) :
    d = .suspend ∧ c.mode = some .subscribe ∧ c.pristine = c₀ := by
  obtain ⟨c₁, hreg, hrest, hpristine⟩ := h.consumer
  obtain rfl : c = c₁ := Option.some.inj ((View.of_subject? hlive).1.symm.trans hreg)
  have hmode := (hv.sound.startedBy ht hlive).mode
  have hstate := hv.tracked.suspending ht hlive
  refine ⟨?_, hmode, hpristine⟩
  cases d with
  | suspend => rfl
  | resume =>
    simp only [Consumer.AtRest, hmode] at hrest
    rw [hstate] at hrest
    cases hrest

/-- **A step that leaves a consumer alone leaves it at rest**, also one that confirms its exit, and
one that cannot bring it back. -/
theorem Step.rests (h : Step config id v v') (hv : v.Orderly config id)
    (halone : v.LeftAlone id v') (hrests : v.Rests d policy c₀) : v'.Rests d policy c₀ := by
  cases h with
  | deliver delivery hwithin heffects =>
    obtain ⟨later, hreceived, hunheard⟩ := halone.unheard
    have hlater : later = [delivery] :=
      List.append_cancel_right (hreceived.symm.trans heffects.received_eq)
    rw [Effects.eq_of_not (hunheard delivery (hlater ▸ List.mem_singleton_self delivery)) heffects]
    exact ⟨hrests.policy_eq, hrests.consumer⟩
  | @confirm t c hpoll hlive =>
    obtain ⟨rfl, hmode, hpristine⟩ := hrests.of_subject? hv (mem_tasks_of_poll hpoll) hlive
    exact ⟨hrests.policy_eq, _, rfl, Consumer.atRest_of_suspended hmode, hpristine⟩
  | @rollBack t c c' tr hpoll hover hlive hyields =>
    obtain ⟨rfl, hmode, hpristine⟩ := hrests.of_subject? hv (mem_tasks_of_poll hpoll) hlive
    rcases Consumer.rollBack_yields hyields with ⟨-, rfl⟩ | ⟨ok, rfl, -⟩
    · exact ⟨hrests.policy_eq, _, rfl, Consumer.atRest_of_suspended hmode, hpristine⟩
    · -- it would be back in its group
      obtain ⟨new, hrecord, hout⟩ := halone.out
      obtain rfl := List.append_cancel_right hrecord
      refine absurd rfl (hout
        { time := v.now, who := some t.client.id
          what := .call t.client t.life (.command (.register c.group)) true } ?_ t.client t.life
        c.group)
      simp [Program.Subject.entries]
  | _ => exact ⟨hrests.policy_eq, hrests.consumer⟩

/-- Any number of such steps leave a consumer at rest. -/
theorem Reach.rests (h : Reach config id v v') (hv : v.Orderly config id)
    (halone : v.LeftAlone id v') (hrests : v.Rests d policy c₀) : v'.Rests d policy c₀ := by
  induction h with
  | refl => exact hrests
  | tail hbefore hlast ih =>
    obtain ⟨hfirst, hsecond⟩ := halone.split hbefore hlast
    exact hlast.rests (Reach.orderly hbefore hv) hsecond (ih hfirst)

theorem Effect.orderly (h : Effect config id v v') (hv : v.Orderly config id) :
    v'.Orderly config id :=
  ⟨h.sound hv.sound, h.tracked hv.sound hv.tracked, h.conducted hv.sound hv.conducted⟩

end View

/-! ### Driving a consumer at rest -/

theorem Registry.replace_of_lookup {α : Type} {r : Registry α} {id : ConsumerId} {a : α}
    (h : r.lookup id = some a) : r.replace id a = r := by
  refine congrArg Registry.mk (Std.ExtTreeMap.ext_getElem? ?_)
  intro id'
  have hsame := lookup_replace r id id' a
  by_cases hid : id = id'
  · subst hid
    rw [if_pos rfl, ← h] at hsame
    exact hsame
  · rw [if_neg hid] at hsame
    exact hsame

variable {ω : Type}

namespace State

/-- What the policy in force wants of the registered consumer. -/
def decision? (s : State ω) (id : ConsumerId) : Option Decision :=
  (s.consumer? id).map fun c => s.policy.current.decide c.topics

/-- What is wanted of a consumer stays the same, and so do its assigned queues. -/
structure Unaltered (id : ConsumerId) (s s' : State ω) : Prop where
  decision : s'.decision? id = s.decision? id
  assigned : s'.assigned? id = s.assigned? id

/-- Of the commands that join the record nothing but rebalancing fails. -/
def Unfailing (s s' : State ω) : Prop :=
  ∃ new, s'.log = new ++ s.log ∧ ∀ e ∈ new, ∀ client life cmd,
    e.what = .call client life (.command cmd) false → cmd = .rebalance

end State

namespace Controller

variable {k : Controller ω} {s s' : State ω} {f : Option Poll} {id : ConsumerId}
  {c c' : Consumer} {d : Decision}

/-- **A consumer at rest stays as it is when it is driven**: all that is added is one notice. -/
theorem drive_of_atRest (k : Controller ω) (hkeyed : s.Keyed) (hreg : s.consumer? id = some c)
    (hrest : c.AtRest d) : ∃ n, k.drive d id s = s.report id n := by
  obtain ⟨n, hn⟩ := hrest.drive_eq s.now
  refine ⟨n, ?_⟩
  rw [drive_eq_run, hreg]
  simp only [hn, Program.run, Program.waits, Bool.or_false, hkeyed id c hreg,
    Registry.replace_of_lookup hreg]
  rfl

/-- A drive in which nothing but rebalancing fails leaves the consumer at rest. -/
theorem atRest_of_unfailing (hkeyed : s.Keyed) (hreg : s.consumer? id = some c) (hc : c.Coherent)
    (hok : s.Unfailing (k.drive d id s)) (hv : (Moment.view (s, f) id).Orderly k.config id) :
    (Moment.view (k.drive d id s, f) id).Orderly k.config id ∧
      (Moment.view (k.drive d id s, f) id).Rests d s.policy.current c.pristine := by
  obtain ⟨tr, o, htransit, hview⟩ := drive_view k d hkeyed hreg f
  have hid : c.client.id = id := hkeyed id c hreg
  -- what is called is on record
  have hfailed : ∀ cmd, (cmd, false) ∈ tr → cmd = .rebalance := by
    intro cmd hcmd
    obtain ⟨new, hlog, hnew⟩ := hok
    have habout : Log.about id new = Program.Subject.entries ⟨c.client, s.life id⟩ s.now tr := by
      have hrecord := congrArg View.record hview
      refine List.append_cancel_right ((Log.about_append id new s.log).symm.trans ?_)
      exact (congrArg (Log.about id) hlog).symm.trans hrecord
    refine hnew
      { time := s.now, who := some c.client.id
        what := .call c.client (s.life id) (.command cmd) false } ?_ _ _ cmd rfl
    refine List.mem_of_mem_filter (?_ : _ ∈ Log.about id new)
    rw [habout, Program.Subject.entries, List.mem_reverse, List.mem_map]
    exact ⟨_, hcmd, rfl⟩
  have heffect : View.Effect k.config id (Moment.view (s, f) id) _ :=
    .drive (show _ = some c from hreg) htransit
  refine ⟨(heffect.congr hview).orderly hv, ?_⟩
  rw [hview]
  exact ⟨rfl, o.consumer, rfl, htransit.atRest hc hfailed, htransit.pristine_eq⟩

/-! ### Delivering to a consumer at rest -/

/-- An evaluation that leads nowhere when the consumer is at rest. -/
def View.Passes (config : Config) (v v' : View) : Prop :=
  v.Evaluated config v' ∧ ∀ c, v.consumer = some c → c.AtRest (v.policy.decide c.topics) → v' = v

theorem relates_passes (hbuiltin : k.handler = .builtin) (id : ConsumerId) (f : Option Poll) :
    k.Relates id f (View.Passes k.config) := by
  intro s c trigger hkeyed hreg
  refine ⟨evaluate_evaluated hbuiltin hkeyed hreg trigger f, ?_⟩
  intro c₁ hreg₁ hrest
  obtain rfl : c = c₁ := Option.some.inj (hreg.symm.trans hreg₁)
  rw [evaluate_eq hbuiltin hreg trigger]
  obtain ⟨n, hn⟩ := drive_of_atRest k
    (s := s.happen (some id) (.evaluation .builtin trigger c s.policy.current)) hkeyed hreg hrest
  have hdecision : s.policy.current.decide c.topics =
      (Moment.view (s, f) id).policy.decide c.topics := rfl
  rw [hdecision, hn, State.report, view_happen rfl, view_happen rfl]

/-- A change that is brought and accepted leads to an evaluation. -/
theorem evaluates_of_change {client : Client} {e : LifecycleEvent} {change : Change}
    (hid : client.id = id) (hchange : e.change? = some change) (happly : c.apply change = .ok c') :
    (Hook.lifecycle client e).Evaluates id c := by
  -- what has no topic brings no change
  cases e <;> simp only [LifecycleEvent.change?, Option.ite_none_left_eq_some, Bool.not_eq_true,
    Option.some.injEq, reduceCtorEq] at hchange <;> obtain ⟨htopic, rfl⟩ := hchange
  · exact .subscribe hid htopic happly
  · exact .unsubscribe hid htopic happly
  · exact .assign hid htopic happly

/-- What a client reports of a registered consumer, comings and goings apart, leads to an
evaluation, or nothing happens to the consumer. -/
theorem lifecycle_of_registered (k : Controller ω) {client : Client} (hid : client.id = id)
    (hreg : s.consumer? id = some c) (hrunning : c.shutDown = false) {e : LifecycleEvent}
    (hstart : e ≠ .start) (hshutdown : e ≠ .shutdown) (f : Option Poll) :
    (Hook.lifecycle client e).Evaluates id c ∨
      Moment.view (k.lifecycle client e s, f) id = Moment.view (s, f) id := by
  subst hid
  obtain ⟨n, hn⟩ := lifecycle_eq k client hstart hshutdown s
  rw [hn]
  cases hchange : e.change? with
  | none => exact .inr (view_happen rfl s f client.id)
  | some change =>
    cases happly : c.apply change with
    | ok c' => exact .inl (evaluates_of_change rfl hchange happly)
    | error error =>
      right
      simp only [Option.elim_some, Controller.change_outside, hreg, hrunning, happly]
      exact view_happen rfl s f client.id

/-- What becomes of a hook, seen from a registered consumer: it is evaluated, or nothing happens to
it, or it is removed. -/
theorem deliver_of_registered (k : Controller ω) (hkeyed : s.Keyed) (hreg : s.consumer? id = some c)
    (hrunning : c.shutDown = false) (h : Hook) (f : Option Poll) :
    h.Evaluates id c ∨ Moment.view (k.deliver s h, f) id = Moment.view (s, f) id ∨
      (k.deliver s h).consumer? id = none := by
  by_cases habout : (Delivery.hook h none).concerns id
  case neg => exact .inr (.inl ((deliver_acts k h none f s).view_eq hkeyed habout))
  cases h with
  | policyUpdate p => exact .inl (.policyUpdate p)
  | policyDelivery p => exact .inl (.policyDelivery p)
  | policyDocument text =>
    obtain ⟨p, hdoc⟩ := habout
    exact .inl (.policyDocument hdoc)
  | lifecycle client e =>
    obtain rfl : client.id = id := habout
    by_cases hstart : e = .start
    · subst hstart
      cases hwrap : Consumer.wrap client with
      | ok fresh => exact .inl (.restart rfl hwrap)
      | error error =>
        right; left
        rw [deliver_lifecycle, lifecycle_start, start_of_error k hwrap]
        exact view_happen rfl s f client.id
    by_cases hshutdown : e = .shutdown
    · subst hshutdown
      right; right
      rw [deliver_lifecycle, lifecycle_shutdown, shutdown_of_registered hreg, consumer?_dismiss,
        if_pos rfl]
    rcases lifecycle_of_registered k rfl hreg hrunning hstart hshutdown f with hevaluates | hview
    · exact .inl hevaluates
    · exact .inr (.inl hview)

/-- A consumer is at rest in a moment, for what the policy in force wants. -/
structure Reposes (k : Controller ω) (d : Decision) (id : ConsumerId) (m : Moment ω) : Prop where
  keyed : m.1.Keyed
  orderly : (m.view id).Orderly k.config id
  decided : m.1.decision? id = some d
  atRest : ∃ c, m.1.consumer? id = some c ∧ c.AtRest d

/-- **What is delivered to a consumer at rest passes by**, if it changes neither what is wanted of
the consumer nor its queues: the consumer is at rest still, and nothing but what it consumes has
changed. -/
theorem Reposes.deliver (hm : k.Reposes d id (s, f)) (hbuiltin : k.handler = .builtin) (h : Hook)
    (hunaltered : s.Unaltered id (k.deliver s h)) :
    ∃ p c c', s.consumer? id = some c ∧
      Moment.view (k.deliver s h, f) id =
        { Moment.view (s, f) id with policy := p, consumer := some c' } ∧
      c'.AtRest d ∧ c'.state = c.state ∧ c'.epoch = c.epoch ∧ c'.paused = c.paused ∧
      c'.lastTransition = c.lastTransition := by
  obtain ⟨c, hreg, hrest⟩ := hm.atRest
  have hsound : c.Sound := hm.orderly.sound.consumer c hreg
  have hdecided : s.policy.current.decide c.topics = d := by
    have hd := hm.decided
    rw [State.decision?, hreg, Option.map_some] at hd
    exact Option.some.inj hd
  have hdecision : (k.deliver s h).decision? id = some d := hunaltered.decision.trans hm.decided
  rcases deliver_of_registered k hm.keyed hreg hsound.running h f with hevaluates | hview | hgone
  · obtain ⟨p, c', hc', ⟨c₁, tr, o, hc₁, htransit, hdriven⟩, hpasses⟩ := deliver_related
      (relates_passes hbuiltin id f) hm.keyed hreg hsound.running hevaluates
    cases hc₁
    have hpolicy : (k.deliver s h).policy.current = p := congrArg View.policy hdriven
    have hafter : (k.deliver s h).consumer? id = some o.consumer := congrArg View.consumer hdriven
    have hpristine : o.consumer.pristine = c'.pristine := htransit.pristine_eq
    have hwanted : p.decide c'.topics = d := by
      rw [State.decision?, hafter, hpolicy, Option.map_some, Option.some.injEq] at hdecision
      rw [← hdecision, (Consumer.consumes_of_pristine_eq hpristine).2.1]
    have hassigned : c'.assigned = c.assigned := by
      have hqueues := hunaltered.assigned
      rw [State.assigned?, State.assigned?, hafter, hreg, Option.map_some, Option.map_some,
        Option.some.injEq] at hqueues
      exact (Consumer.consumes_of_pristine_eq hpristine).2.2.symm.trans hqueues
    have hrest' : c'.AtRest d := by
      rcases hc' with rfl | ⟨change, happly⟩
      · exact hrest
      · refine hrest.of_apply hsound happly hassigned ?_
        -- nothing is prohibited that is not consumed
        intro hmode
        cases hd : s.policy.current.decide c.topics with
        | resume => rw [← hdecided, hd]
        | suspend =>
          obtain ⟨-, t, ht, -⟩ := Policy.decide_eq_suspend_iff.1 hd
          exact absurd ht ((hsound.modeless hmode).2 t)
    refine ⟨p, c, c', hreg, hpasses c' rfl (hwanted.symm ▸ hrest'), hrest', ?_⟩
    rcases hc' with rfl | ⟨change, happly⟩
    · exact ⟨rfl, rfl, rfl, rfl⟩
    · obtain ⟨mode, topics, assigned, rfl, -⟩ := Consumer.apply_frame happly
      exact ⟨rfl, rfl, rfl, rfl⟩
  · refine ⟨s.policy.current, c, c, hreg, ?_, hrest, rfl, rfl, rfl, rfl⟩
    rw [hview]
    exact View.ext rfl rfl rfl rfl hreg rfl rfl rfl
  · rw [State.decision?, hgone] at hdecision
    cases hdecision

/-! ### Calm histories -/

/-- What may happen to a consumer while it is at rest: it is left alone, or a hook is received that
changes neither what is wanted of it nor its assigned queues. -/
inductive Calm (k : Controller ω) (id : ConsumerId) : Moment ω → Moment ω → Prop where
  | leftAlone {m m' : Moment ω} (hleads : k.Leads m m')
      (halone : (m.view id).LeftAlone id (m'.view id)) : Calm k id m m'
  | received {s : State ω} {f : Option Poll} (within : Option Confirmation) (h : Hook)
      (hwithin : ∀ p, f = some p → within = some p.task)
      (hunaltered : s.Unaltered id (k.receive within s h)) :
      Calm k id (s, f) (k.receive within s h, f)

/-- What is put on record as received makes no difference. -/
theorem Reposes.receive (hm : k.Reposes d id (s, f)) (received : List Delivery) :
    k.Reposes d id ({ s with received }, f) where
  keyed := hm.keyed
  orderly :=
    { sound := ⟨hm.orderly.sound.keyed, hm.orderly.sound.consumer, hm.orderly.sound.tasks,
        hm.orderly.sound.record⟩
      tracked := ⟨hm.orderly.tracked.early, hm.orderly.tracked.soon, hm.orderly.tracked.picked,
        hm.orderly.tracked.attempts, hm.orderly.tracked.tracks⟩
      conducted := ⟨hm.orderly.conducted.current, hm.orderly.conducted.past⟩ }
  decided := hm.decided
  atRest := hm.atRest

theorem Calm.reposes {m m' : Moment ω} (h : k.Calm id m m') (hbuiltin : k.handler = .builtin)
    (hm : k.Reposes d id m) : k.Reposes d id m' := by
  cases h with
  | leftAlone hleads halone =>
    obtain ⟨hkeyed, hreach⟩ := hleads hm.keyed
    obtain ⟨c, hreg, hrest⟩ := hm.atRest
    obtain ⟨hpolicy, c', hreg', hrest', hpristine⟩ := View.Reach.rests (hreach id) hm.orderly halone
      (d := d) ⟨rfl, c, hreg, hrest, rfl⟩
    refine ⟨hkeyed, View.Reach.orderly (hreach id) hm.orderly, ?_, c', hreg', hrest'⟩
    rw [← hm.decided, State.decision?, State.decision?, show m'.1.consumer? id = some c' from hreg',
      hreg, show m'.1.policy.current = m.1.policy.current from hpolicy, Option.map_some,
      Option.map_some, (Consumer.consumes_of_pristine_eq hpristine).2.1]
  | @received s f within hook hwithin hunaltered =>
    obtain ⟨hkeyed, hreach⟩ := receive_leads k hwithin s hook hm.keyed
    obtain ⟨p, c, c', -, hview, hrest, -⟩ := (hm.receive (.hook hook within :: s.received)).deliver
      hbuiltin hook ⟨hunaltered.decision, hunaltered.assigned⟩
    exact ⟨hkeyed, View.Reach.orderly (hreach id) hm.orderly, hunaltered.decision.trans hm.decided,
      c', congrArg View.consumer hview, hrest⟩

theorem reposes_of_calm {m m' : Moment ω} (h : Relation.ReflTransGen (k.Calm id) m m')
    (hbuiltin : k.handler = .builtin) (hm : k.Reposes d id m) : k.Reposes d id m' := by
  induction h with
  | refl => exact hm
  | tail _ hlast ih => exact hlast.reposes hbuiltin ih

variable {policy : Policy} {memory : ω}

/-- **Driving twice is driving once.**  At any moment that steps lead to, be it amid a sweep, a plan
or a poll, a registered consumer is driven, and of its calls none fails but for rebalancing.  From
then on, as long as it is left alone, its exit may be confirmed, but to drive it again adds one
notice to the record and leaves everything else exactly as it is.  When it was driven to what the
policy in force wants of it, under the built-in handler, no hook that changes neither what is wanted
of it nor its assigned queues has anything called for it, or starts a confirmation, or touches its
state, its epoch or its paused queues; however many there are, and whatever happens between them. -/
theorem drive_twice (h : k.Leads (.initial policy memory, none) (s, f))
    (hreg : s.consumer? id = some c) (hok : s.Unfailing (k.drive d id s)) :
    (∀ m : Moment ω, k.Leads (k.drive d id s, f) m →
      (Moment.view (k.drive d id s, f) id).LeftAlone id (m.view id) →
      (m.1.consumer? id).isSome ∧ ∃ n, k.drive d id m.1 = m.1.report id n) ∧
    (k.handler = .builtin → s.decision? id = some d →
      ∀ s₁ f₁, Relation.ReflTransGen (k.Calm id) (k.drive d id s, f) (s₁, f₁) →
      ∀ within hook, s₁.Unaltered id (k.receive within s₁ hook) →
        (∀ life, Log.calls id life (k.receive within s₁ hook).log = Log.calls id life s₁.log) ∧
        waitingFor id (k.receive within s₁ hook).confirmations = waitingFor id s₁.confirmations ∧
        ∃ c₁ c₂, s₁.consumer? id = some c₁ ∧ (k.receive within s₁ hook).consumer? id = some c₂ ∧
          c₂.state = c₁.state ∧ c₂.epoch = c₁.epoch ∧ c₂.paused = c₁.paused ∧
          c₂.lastTransition = c₁.lastTransition) := by
  obtain ⟨hkeyed, hreach⟩ := h (keyed_initial policy memory)
  have horderly : (Moment.view (s, f) id).Orderly k.config id := by
    have hview := hreach id
    rw [Moment.view_initial] at hview
    exact View.Reach.orderly hview (View.initial_orderly k.config policy id)
  have hcoherent := coherent_of_leads h hreg
  obtain ⟨hdriven, hrests⟩ := atRest_of_unfailing hkeyed hreg hcoherent hok horderly
  have hkeyed' := drive_keyed k id d hkeyed
  constructor
  · intro m hleads halone
    obtain ⟨hkeyed₁, hreach₁⟩ := hleads hkeyed'
    obtain ⟨-, c₁, hreg₁, hrest₁, -⟩ := View.Reach.rests (hreach₁ id) hdriven halone hrests
    exact ⟨Option.isSome_of_eq_some hreg₁, drive_of_atRest k hkeyed₁ hreg₁ hrest₁⟩
  · intro hbuiltin hdecision s₁ f₁ hcalm within hook hunaltered
    have hreposes : k.Reposes d id (k.drive d id s, f) := by
      obtain ⟨hpolicy, c₁, hreg₁, hrest₁, hpristine⟩ := hrests
      refine ⟨hkeyed', hdriven, ?_, c₁, hreg₁, hrest₁⟩
      rw [← hdecision, State.decision?, State.decision?, hreg,
        show (k.drive d id s).consumer? id = some c₁ from hreg₁,
        show (k.drive d id s).policy.current = s.policy.current from hpolicy, Option.map_some,
        Option.map_some, (Consumer.consumes_of_pristine_eq hpristine).2.1]
    have hreposes₁ := (reposes_of_calm hcalm hbuiltin hreposes).receive
      (.hook hook within :: s₁.received)
    obtain ⟨p, c₁, c₂, hreg₁, hview, -, hsame⟩ :=
      hreposes₁.deliver hbuiltin hook ⟨hunaltered.decision, hunaltered.assigned⟩
    refine ⟨?_, congrArg View.waiting hview, c₁, c₂, hreg₁, congrArg View.consumer hview, hsame⟩
    intro life
    rw [← Log.calls_about, ← Log.calls_about (l := s₁.log)]
    exact congrArg (Log.calls id life) (congrArg View.record hview)

/-- Whether an event is no command, or one that has succeeded and brings nobody into a group. -/
def Event.isQuiet (e : Event) : Bool :=
  match e.what with
  | .call _ _ (.command (.register _)) _ => false
  | .call _ _ (.command _) ok => ok
  | _ => true

/-- The newcomer takes part in consumption and is told to leave, and it does.  Once its exit has
been confirmed it is told again, and nothing happens. -/
theorem drive_twice_of_newcomer :
    ∃ s s', Rehearsal.stage.run 0 (.initial .disabled {}) Rehearsal.entrance = some s ∧
      Rehearsal.stage.react 9 (Rehearsal.stage.drive .suspend Rehearsal.newcomer.id s)
        (.pass 9000) = some s' ∧
      (s'.consumer? Rehearsal.newcomer.id).map Consumer.state = some .suspended ∧
      ∃ n, Rehearsal.stage.drive .suspend Rehearsal.newcomer.id s' =
        s'.report Rehearsal.newcomer.id n := by
  have hrun : ((Rehearsal.stage.run 0 (.initial .disabled {}) Rehearsal.entrance).bind fun s =>
      (Rehearsal.stage.react 9 (Rehearsal.stage.drive .suspend Rehearsal.newcomer.id s)
        (.pass 9000)).map fun s' =>
          ((s.consumer? Rehearsal.newcomer.id).isSome,
            (s'.consumer? Rehearsal.newcomer.id).map Consumer.state, s'.received.length,
            (Rehearsal.stage.drive .suspend Rehearsal.newcomer.id s).received.length,
            (Rehearsal.stage.drive .suspend Rehearsal.newcomer.id s).log.all Event.isQuiet,
            s'.log.all Event.isQuiet)) =
      some (true, some .suspended, 2, 2, true, true) := by
    decide +kernel
  obtain ⟨s, hs, hreact⟩ := Option.bind_eq_some_iff.1 hrun
  obtain ⟨s', hs', hall⟩ := Option.map_eq_some_iff.1 hreact
  simp only [Prod.mk.injEq, Option.isSome_iff_exists, List.all_eq_true] at hall
  obtain ⟨⟨c, hreg⟩, hstate, hlater, hearlier, hdriven, hquiet⟩ := hall
  have hinitial := keyed_initial .disabled ({} : Rehearsal.Script)
  have hleads := run_leads _ hinitial hs
  have hkeyed₀ := (hleads hinitial).1
  have hkeyed := drive_keyed Rehearsal.stage Rehearsal.newcomer.id .suspend hkeyed₀
  obtain ⟨hpassed, -⟩ := react_leads hkeyed hs'
  obtain ⟨new, later, hrecord, hreceived⟩ :=
    View.Reach.grows ((hpassed hkeyed).2 Rehearsal.newcomer.id)
  -- nothing has been received while time passed
  have hnil : later = [] := by
    have hlength : s'.received.length = later.length +
        (Rehearsal.stage.drive .suspend Rehearsal.newcomer.id s).received.length :=
      (congrArg List.length hreceived).trans List.length_append
    rw [hlater, hearlier] at hlength
    refine List.length_eq_zero_iff.1 ?_
    omega
  have hok : s.Unfailing (Rehearsal.stage.drive .suspend Rehearsal.newcomer.id s) := by
    obtain ⟨before, hlog, -⟩ :=
      (drive_tended Rehearsal.stage Rehearsal.newcomer.id .suspend hkeyed₀).log
    refine ⟨before, hlog, ?_⟩
    intro e he client life cmd hwhat
    have hevent := hdriven e (hlog ▸ List.mem_append_left _ he)
    cases cmd <;> simp [Event.isQuiet, hwhat] at hevent
  refine ⟨s, s', hs, hs', hstate, ?_⟩
  refine ((drive_twice hleads hreg hok).1 (s', none) hpassed ⟨⟨later, hreceived, ?_⟩,
    ⟨new, hrecord, ?_⟩⟩).2
  · simp [hnil]
  · intro e he client life group hwhat
    have hmem : e ∈ Log.about Rehearsal.newcomer.id s'.log := by
      rw [show Log.about Rehearsal.newcomer.id s'.log = _ from hrecord]
      exact List.mem_append_left _ he
    have hevent := hquiet e (List.mem_of_mem_filter hmem)
    simp [Event.isQuiet, hwhat] at hevent

end Controller

end Embargo
