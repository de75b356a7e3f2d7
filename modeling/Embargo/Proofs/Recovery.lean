import Embargo.Proofs.Evaluations
import Embargo.Proofs.Members

/-!
# Consumers recover

Whatever has failed before, one evaluation is enough to mend a consumer, provided that from then on
its calls succeed, the broker tells the truth, and nobody interferes: an interval later at most, the
consumer does what the policy in force wants of it.

* `Log.Cooperative` — calls succeed, and nobody is listed who is no member;
* `Consumer.Obeys` — a consumer does what a policy wants; `Consumer.Approaches` — or it has left its
  group for it and waits for the confirmation;
* `Consumer.Transit.approaches` — an evaluation without failures leads there, from any state;
* `View.Mended` — **the invariant** from then on: the confirmation that is waited for is due by the
  deadline and will not find the consumer in its group;
* `Controller.Reachable.recovers` — every run mends a consumer in time.
-/

namespace Embargo

/-! ### Cooperation -/

/-- Whether an event lets a consumer recover: a call for it succeeds, and the broker lists its
client only while that is a member of the group. -/
def Event.Cooperative (id : ConsumerId) (life : Nat) (earlier : Log) (e : Event) : Prop :=
  match e.what with
  | .call client life' _ ok => client.id = id ∧ life' = life → ok = true
  | .listing client life' _ group members =>
      client.id = id ∧ life' = life ∧ client.clientId ∈ members →
        (earlier.calls id life).attends group = true
  | _ => True

/-- Whether all events that joined a record let a consumer recover. -/
def Log.Cooperative (id : ConsumerId) (life : Nat) (old : Log) : Log → Prop
  | [] => True
  | e :: new => e.Cooperative id life (new ++ old) ∧ Log.Cooperative id life old new

instance (id : ConsumerId) (life : Nat) (earlier : Log) :
    DecidablePred (Event.Cooperative id life earlier)
  | ⟨_, _, .call ..⟩ => inferInstanceAs (Decidable (_ → _))
  | ⟨_, _, .listing ..⟩ => inferInstanceAs (Decidable (_ → _))
  | ⟨_, _, .notice _⟩ => .isTrue trivial
  | ⟨_, _, .evaluation ..⟩ => .isTrue trivial

instance Log.decidableCooperative (id : ConsumerId) (life : Nat) (old : Log) :
    (new : Log) → Decidable (Log.Cooperative id life old new)
  | [] => .isTrue trivial
  | e :: new =>
      have := Log.decidableCooperative id life old new
      inferInstanceAs (Decidable (e.Cooperative id life (new ++ old) ∧ _))

/-- Of what joined a record, some joined first and some later. -/
theorem Log.cooperative_append {id : ConsumerId} {life : Nat} {old first : Log} (later : Log) :
    Log.Cooperative id life old (later ++ first) ↔
      Log.Cooperative id life (first ++ old) later ∧ Log.Cooperative id life old first := by
  induction later with
  | nil => exact ⟨fun h => ⟨trivial, h⟩, fun h => h.2⟩
  | cons e later ih =>
    rw [List.cons_append, Log.Cooperative, Log.Cooperative, ih, List.append_assoc, and_assoc]

/-- The commands of a transition that let a consumer recover have succeeded. -/
theorem Log.Cooperative.entries {client : Client} {life now : Nat} {old : Log} {tr : Trace}
    (h : Log.Cooperative client.id life old (Program.Subject.entries ⟨client, life⟩ now tr)) :
    ∀ x ∈ tr, x.2 = true := by
  induction tr generalizing old with
  | nil => exact fun x hx => by cases hx
  | cons c tr ih =>
    rw [Program.Subject.entries_cons, Log.cooperative_append] at h
    intro x hx
    rcases List.mem_cons.1 hx with rfl | hlater
    · exact h.2.1 ⟨rfl, rfl⟩
    · exact ih h.1 x hlater

/-! ### Obedience -/

namespace Consumer

/-- Whether a consumer does what a policy wants: it is out of its group or has all its queues
paused, or it takes part in consumption with none of them paused. -/
def Obeys (p : Policy) (c : Consumer) : Prop :=
  match p.decide c.topics with
  | .suspend => c.state = .suspended ∧ (c.mode = some .assign → c.paused = c.assigned)
  | .resume => c.state = .active ∧ (c.mode = some .assign → c.paused = ∅)

/-- A consumer obeys, or it is to be suspended and has only to be confirmed. -/
def Approaches (p : Policy) (c : Consumer) : Prop :=
  c.Obeys p ∨ c.state = .suspending ∧ p.decide c.topics = .suspend

variable {now : Nat} {c : Consumer} {p : Policy} {tr : Trace} {o : Outcome}

theorem obeys_of_suspend (hdecide : p.decide c.topics = .suspend) (hstate : c.state = .suspended)
    (hpaused : c.mode = some .assign → c.paused = c.assigned) : c.Obeys p := by
  rw [Obeys, hdecide]
  exact ⟨hstate, hpaused⟩

theorem obeys_of_resume (hdecide : p.decide c.topics = .resume) (hstate : c.state = .active)
    (hpaused : c.mode = some .assign → c.paused = ∅) : c.Obeys p := by
  rw [Obeys, hdecide]
  exact ⟨hstate, hpaused⟩

/-- Nothing is stale when stale queues are resumed, or there are none. -/
theorem mem_released {stale : List Queue} {ok : Bool} (hok : ok = true ∨ stale = []) {q : Queue} :
    q ∈ (c.released stale ok).paused ↔ q ∈ c.paused ∧ q ∉ stale := by
  rcases hok with rfl | rfl
  · exact mem_paused_markResumed
  · rw [released_nil]
    simp

/-- Once what is assigned is paused and what is stale is resumed, exactly what is assigned is
paused. -/
theorem paused_eq_assigned {ok : Bool} (hok : ok = true ∨ c.stale.toList = []) :
    ((c.markPaused c.unpaused.toList).released c.stale.toList ok).paused = c.assigned := by
  refine Std.ExtTreeSet.ext_mem fun q => ?_
  rw [mem_released hok, mem_paused_markPaused, Std.ExtTreeSet.mem_toList,
    Std.ExtTreeSet.mem_toList, mem_unpaused, mem_stale]
  tauto

/-- When nothing is left to be paused, and nothing stale, exactly what is assigned is paused. -/
theorem paused_eq_assigned_of_nil (hunpaused : c.unpaused.toList = [])
    (hstale : c.stale.toList = []) : c.paused = c.assigned := by
  have h : ((c.markPaused c.unpaused.toList).released c.stale.toList true).paused = c.assigned :=
    paused_eq_assigned (.inl rfl)
  rwa [hunpaused, hstale] at h

theorem paused_markResumed_all (c : Consumer) : (c.markResumed c.paused.toList).paused = ∅ := by
  refine Std.ExtTreeSet.ext_mem fun q => ?_
  rw [mem_paused_markResumed, Std.ExtTreeSet.mem_toList]
  simp

theorem paused_eq_empty (h : c.paused.toList = []) : c.paused = ∅ :=
  Std.ExtTreeSet.toList_eq_nil_iff.1 h

/-- What a policy wants does not change with the state of the consumer. -/
theorem Transit.decide_eq {d : Decision} (h : c.Transit now d tr o) :
    p.decide o.consumer.topics = p.decide c.topics := by
  obtain ⟨paused, state, epoch, last, hframe⟩ := h.frame
  rw [hframe]

/-- **A transition without failures leads to what the policy wants**, or to an exit that has only to
be confirmed, whatever state it begins in. -/
theorem Transit.approaches (hsound : c.Sound) (htransit : c.Transit now (p.decide c.topics) tr o)
    (hok : ∀ x ∈ tr, x.2 = true) : o.consumer.Approaches p := by
  have hdecide := htransit.decide_eq (p := p)
  have hfailed : ∀ {command : Command}, (command, false) ∉ tr := fun hx => by cases hok _ hx
  -- a subscribing consumer has no queues
  have hnone : c.mode = some .subscribe → c.mode = some .assign → c.paused = c.assigned :=
    fun hsubscribe hassign => by rw [hsubscribe] at hassign; cases hassign
  have hnone' : c.mode = some .subscribe → c.mode = some .assign → c.paused = ∅ :=
    fun hsubscribe hassign => by rw [hsubscribe] at hassign; cases hassign
  generalize hd : p.decide c.topics = d at htransit hdecide
  cases htransit with
  | modeless hmode =>
    obtain ⟨hstate, hempty⟩ := hsound.modeless hmode
    refine .inl (obeys_of_resume ?_ hstate fun hassign => by rw [hmode] at hassign; cases hassign)
    cases hwant : p.decide c.topics with
    | resume => rfl
    | suspend =>
      obtain ⟨-, topic, htopic, -⟩ := Policy.decide_eq_suspend_iff.1 hwant
      exact absurd htopic (hempty topic)
  | alreadyOut hmode hstate =>
    cases hout : c.state with
    | active => exact absurd hout hstate
    | suspending => exact .inr ⟨hout, hdecide⟩
    | suspended => exact .inl (obeys_of_suspend hdecide hout (hnone hmode))
  | flushFailed => exact absurd List.mem_cons_self hfailed
  | leaveFailed =>
    exact absurd (List.mem_cons_of_mem _ List.mem_cons_self) hfailed
  | left ok hmode hstate => exact .inr ⟨rfl, hdecide⟩
  | alreadyIn hmode hstate => exact .inl (obeys_of_resume hdecide hstate (hnone' hmode))
  | rejoinFailed => exact absurd List.mem_cons_self hfailed
  | rejoined ok hmode hstate => exact .inl (obeys_of_resume hdecide rfl (hnone' hmode))
  | alreadyPaused hmode hunpaused hstale hstate =>
    exact .inl (obeys_of_suspend hdecide hstate fun _ =>
      paused_eq_assigned_of_nil hunpaused hstale)
  | pauseFailed => exact absurd List.mem_cons_self hfailed
  | paused ok hmode =>
    have hreleased : ok = true ∨ c.stale.toList = [] := by
      by_cases hstale : c.stale.toList = []
      · exact .inr hstale
      · refine .inl (hok (.resume c.stale.toList, ok) (List.mem_append_right _ ?_))
        rw [forQueues, if_neg (by simpa using hstale)]
        exact List.mem_singleton_self _
    obtain ⟨epoch, last, hsettle⟩ :=
      settle_eq now ((c.markPaused c.unpaused.toList).released c.stale.toList ok)
    obtain ⟨paused, hframe⟩ := released_eq (c.markPaused c.unpaused.toList) c.stale.toList ok
    refine .inl (obeys_of_suspend hdecide ?_ fun _ => ?_)
    · rw [hsettle]
    · have hpaused := paused_eq_assigned hreleased
      rw [hframe] at hpaused
      rw [hsettle, hframe]
      exact hpaused
  | nothingPaused hmode hpaused hstate =>
    refine .inl (obeys_of_resume hdecide ?_ fun _ => paused_eq_empty hpaused)
    cases hin : c.state with
    | active => rfl
    | suspending =>
      rw [hsound.suspending hin] at hmode
      cases hmode
    | suspended => exact absurd hin hstate
  | resumeFailed => exact absurd List.mem_cons_self hfailed
  | resumed hmode => exact .inl (obeys_of_resume hdecide rfl fun _ => paused_markResumed_all c)

end Consumer

/-! ### The way to obedience -/

namespace View

variable {config : Config} {id : ConsumerId} {v v' : View} {p : Policy} {life deadline : Nat}

/-- A consumer on its way to what a policy wants: it waits no longer than to a deadline, and whoever
is asked for it will not find it in its group. -/
structure Mended (p : Policy) (life deadline : Nat) (v : View) : Prop where
  policy : v.policy = p
  life : v.life = life
  consumer : ∃ c, v.consumer = some c ∧ c.Approaches p
  poll : ∀ q, v.poll = some q → q.present = true → v.subject? q.task = none
  due : ∀ t ∈ v.tasks, v.subject? t ≠ none → t.due ≤ deadline

/-- A consumer that approaches what a policy wants is on its way there as soon as it is not asked
for. -/
theorem Tracked.mended {c : Consumer} (h : v.Tracked config) (hreg : v.consumer = some c)
    (happroaches : c.Approaches v.policy) (hidle : v.poll = none) :
    v.Mended v.policy v.life (v.now + config.intervalMs.toNat) where
  policy := rfl
  life := rfl
  consumer := ⟨c, hreg, happroaches⟩
  poll := fun q hq => by
    rw [hidle] at hq
    cases hq
  due := fun t ht _ => h.soon t ht

/-- A consumer whose exit is confirmed obeys. -/
theorem Mended.obeys_of_confirmed {c : Consumer} {t : Confirmation} {now : Nat}
    (h : v.Mended p life deadline) (hv : v.Orderly config id) (ht : t ∈ v.tasks)
    (hlive : v.subject? t = some c) : (c.transition now .suspended).Obeys p := by
  obtain ⟨c₁, hreg₁, happroaches⟩ := h.consumer
  obtain rfl : c = c₁ := Option.some.inj ((of_subject? hlive).1.symm.trans hreg₁)
  have hstate := hv.tracked.suspending ht hlive
  have hmode := (hv.sound.startedBy ht hlive).mode
  have hdecide : p.decide c.topics = .suspend := by
    rcases happroaches with hobeys | ⟨-, hdecide⟩
    · rw [Consumer.Obeys, hstate] at hobeys
      cases hwant : p.decide c.topics with
      | suspend => rfl
      | resume =>
        rw [hwant] at hobeys
        cases hobeys.1
    · exact hdecide
  refine Consumer.obeys_of_suspend hdecide rfl fun hassign => ?_
  change c.mode = some .assign at hassign
  rw [hmode] at hassign
  cases hassign

/-- **A step without failures, of which nothing is about the consumer, keeps it on its way.** -/
theorem Step.mended (hvalid : config.maxRetries ≠ 0) (h : Step config id v v')
    (hv : v.Orderly config id) (hm : v.Mended p life deadline) {new : Log}
    {later : List Delivery} (hrecord : v'.record = new ++ v.record)
    (hreceived : v'.received = later ++ v.received)
    (hcooperative : Log.Cooperative id life v.record new) (hquiet : ∀ d ∈ later, ¬d.concerns id) :
    v'.Mended p life deadline := by
  have hevent : ∀ {e : Event}, v'.record = e :: v.record → e.Cooperative id life v.record := by
    intro e he
    obtain rfl : new = [e] := List.append_cancel_right (hrecord.symm.trans he)
    exact hcooperative.1
  cases h with
  | deliver d hwithin heffects =>
    have hlater : later = [d] :=
      List.append_cancel_right (hreceived.symm.trans heffects.received_eq)
    rw [Effects.eq_of_not (hquiet d (hlater ▸ List.mem_singleton_self d)) heffects]
    exact ⟨hm.policy, hm.life, hm.consumer, hm.poll, hm.due⟩
  | tick hidle hle hdue => exact ⟨hm.policy, hm.life, hm.consumer, hm.poll, hm.due⟩
  | @pick t rest hidle hwaiting hdue =>
    have htasks : v.tasks = t ::ₘ rest := (tasks_of_idle hidle).trans hwaiting
    refine ⟨hm.policy, hm.life, hm.consumer, fun q hq hpresent => ?_,
      fun u hu => hm.due u (htasks ▸ hu)⟩
    -- whoever is picked has polls left
    cases hq
    have hspent : config.maxRetries.toNat ≤ t.attempts := of_decide_eq_true hpresent
    rcases hv.tracked.attempts t (htasks ▸ Multiset.mem_cons_self t _) with hzero | hlt
    · rw [hzero] at hspent
      exact absurd (UInt32.toNat_inj.1 (Nat.le_zero.1 hspent)) hvalid
    · exact absurd hspent (Nat.not_le.2 hlt)
  | @ask t topic ok hpoll hentitled =>
    have htasks : v.tasks = t ::ₘ v.waiting := tasks_of_poll hpoll
    refine ⟨hm.policy, hm.life, hm.consumer, fun q hq hpresent => ?_,
      fun u hu => hm.due u (htasks ▸ hu)⟩
    cases hq
    by_contra hlive
    obtain ⟨c, hlive⟩ := Option.ne_none_iff_exists'.1 hlive
    have hid := (hv.sound.tasks t (htasks ▸ Multiset.mem_cons_self t _)).1
    have hok : ok = true := hevent rfl ⟨hid, (of_subject? hlive).2.1.trans hm.life⟩
    rw [hok] at hpresent
    cases hpresent
  | @answer t topic members hpoll =>
    have htasks : v.tasks = t ::ₘ v.waiting := tasks_of_poll hpoll
    refine ⟨hm.policy, hm.life, hm.consumer, fun q hq hpresent => ?_,
      fun u hu => hm.due u (htasks ▸ hu)⟩
    cases hq
    by_contra hlive
    obtain ⟨c, hlive⟩ := Option.ne_none_iff_exists'.1 hlive
    have ht : t ∈ v.tasks := htasks ▸ Multiset.mem_cons_self t _
    -- a truthful broker does not list who is out of the group
    have hlife : t.life = life := (of_subject? hlive).2.1.trans hm.life
    have hattends := hevent rfl ⟨(hv.sound.tasks t ht).1, hlife, of_decide_eq_true hpresent⟩
    rw [← hlife, (hv.attendance ht hlive).attends_eq] at hattends
    cases hattends
  | discard hpoll hover =>
    exact ⟨hm.policy, hm.life, hm.consumer, (fun q hq => by cases hq),
      fun u hu => hm.due u (mem_tasks_of_waiting hu)⟩
  | @confirm t c hpoll hlive =>
    have ht : t ∈ v.tasks := mem_tasks_of_poll hpoll
    refine ⟨hm.policy, hm.life, ⟨_, rfl, .inl (hm.obeys_of_confirmed hv ht hlive)⟩,
      (fun q hq => by cases hq), fun u hu hlive' => ?_⟩
    -- nothing waits for the epoch that has just begun
    obtain ⟨c', hlive'⟩ := Option.ne_none_iff_exists'.1 hlive'
    obtain ⟨hreg', hlife', -, hepoch'⟩ := of_subject? hlive'
    cases hreg'
    have hzero : v.pending (c.transition v.now .suspended) = 0 :=
      hv.sound.pending_eq_zero (of_subject? hlive).1 (Nat.lt_succ_self _) rfl fun w hw => hw
    exact absurd ⟨hlife', hepoch'.symm⟩
      (Multiset.filter_eq_nil.1 hzero u (mem_tasks_of_waiting hu))
  | @retry t hpoll hleft =>
    have hsuperseded : v.subject? t = none := hm.poll _ hpoll rfl
    refine ⟨hm.policy, hm.life, hm.consumer, (fun q hq => by cases hq), fun u hu hlive => ?_⟩
    rcases Multiset.mem_cons.1 hu with rfl | hold
    · exact absurd hsuperseded hlive
    · exact hm.due u (mem_tasks_of_waiting hold) hlive
  | rollBack hpoll hover hlive hyields =>
    rw [hm.poll _ hpoll rfl] at hlive
    cases hlive

/-- Any number of such steps keep it on its way. -/
theorem Reach.mended (hvalid : config.maxRetries ≠ 0) (h : Reach config id v v')
    (hv : v.Orderly config id) (hm : v.Mended p life deadline) {new : Log}
    {later : List Delivery} (hrecord : v'.record = new ++ v.record)
    (hreceived : v'.received = later ++ v.received)
    (hcooperative : Log.Cooperative id life v.record new) (hquiet : ∀ d ∈ later, ¬d.concerns id) :
    v'.Mended p life deadline := by
  induction h generalizing new later with
  | refl => exact hm
  | tail hbefore hlast ih =>
    obtain ⟨first, earlier, hfirst, hearlier⟩ := Reach.grows hbefore
    obtain ⟨last, latest, hlastRecord, hlatest⟩ := hlast.grows
    obtain rfl : new = last ++ first := List.append_cancel_right
      (hrecord.symm.trans (by rw [hlastRecord, hfirst, List.append_assoc]))
    obtain rfl : later = latest ++ earlier := List.append_cancel_right
      (hreceived.symm.trans (by rw [hlatest, hearlier, List.append_assoc]))
    obtain ⟨hcooperativeLast, hcooperativeFirst⟩ := (Log.cooperative_append last).1 hcooperative
    have hmended := ih hfirst hearlier hcooperativeFirst
      fun d hd => hquiet d (List.mem_append_right _ hd)
    exact hlast.mended hvalid (Reach.orderly hbefore hv) hmended hlastRecord hlatest
      (hfirst ▸ hcooperativeLast) fun d hd => hquiet d (List.mem_append_left _ hd)

end View

/-! ### Recovery in a run -/

namespace Controller

variable {ω : Type} {k : Controller ω} {policy : Policy} {memory : ω} {s s' : State ω}
  {id : ConsumerId} {c : Consumer}

/-- After an evaluation without failures a consumer is on its way to what the policy in force wants,
and nothing but the evaluation has joined its record. -/
theorem Reachable.receive_mended (hbuiltin : k.handler = .builtin)
    (h : k.Reachable policy memory s) (hreg : s.consumer? id = some c) {hook : Hook}
    (hevaluates : hook.Evaluates id c) :
    ∃ p new, (Moment.view (k.receive none s hook, none) id).record = new ++ Log.about id s.log ∧
      (k.receive none s hook).received = .hook hook none :: s.received ∧
      (Log.Cooperative id (s.life id) (Log.about id s.log) new →
        (Moment.view (k.receive none s hook, none) id).Mended p (s.life id)
          (s.now + k.config.intervalMs.toNat)) := by
  have hsound : c.Sound := (h.orderly id).sound.consumer c hreg
  have horderly : (Moment.view (k.receive none s hook, none) id).Orderly k.config id :=
    View.Reach.orderly ((receive_leads k (fun p hp => by cases hp) s hook h.keyed).2 id)
      (h.orderly id)
  obtain ⟨p, c₀, hc₀, c₁, tr, o, hreg₁, htransit, hview⟩ := deliver_evaluated
    (s := { s with received := .hook hook none :: s.received }) hbuiltin h.keyed hreg
    hsound.running hevaluates none
  cases hreg₁
  have hkept : c₀.client.id = id ∧ c₀.Sound := by
    have hid : c.client.id = id := h.keyed id c hreg
    rcases hc₀ with rfl | ⟨change, happly⟩
    · exact ⟨hid, hsound⟩
    · exact ⟨(Consumer.apply_continues happly).client ▸ hid, Consumer.apply_sound hsound happly⟩
  refine ⟨p, Program.Subject.entries ⟨c₀.client, s.life id⟩ s.now tr,
    congrArg View.record hview, congrArg View.received hview, fun hcooperative => ?_⟩
  have hok := Log.Cooperative.entries (hkept.1.symm ▸ hcooperative)
  have hmended := horderly.tracked.mended (c := o.consumer) (congrArg View.consumer hview)
    (by
      rw [show (Moment.view (k.receive none s hook, none) id).policy = p from
        congrArg View.policy hview]
      exact htransit.approaches hkept.2 hok) rfl
  rw [show Moment.view (k.receive none s hook, none) id = _ from hview] at hmended ⊢
  exact hmended

/-- A consumer that is on its way to what a policy wants is there at the deadline. -/
theorem Reachable.obeys_of_mended (h : k.Reachable policy memory s) {p : Policy}
    {life deadline : Nat} (hmended : (Moment.view (s, none) id).Mended p life deadline)
    (hover : deadline ≤ s.now) : ∃ c, s.consumer? id = some c ∧ c.Obeys s.policy.current := by
  obtain ⟨c, hreg, happroaches⟩ := hmended.consumer
  have hpolicy : s.policy.current = p := hmended.policy
  refine ⟨c, hreg, ?_⟩
  rw [hpolicy]
  rcases happroaches with hobeys | ⟨hstate, -⟩
  · exact hobeys
  -- its confirmation would have been due by now
  exfalso
  obtain ⟨t, began, hawaited, -, -, -, hlate, -⟩ := h.awaited_of_suspending hreg hstate
  have ht : t ∈ s.awaited id c := hawaited ▸ List.mem_singleton_self t
  obtain ⟨hmem, hfor⟩ := List.mem_filter.1 ht
  obtain ⟨hid, hisFor⟩ := of_decide_eq_true hfor
  have htask : t ∈ (Moment.view (s, none) id).tasks := hid ▸ mem_tasks_view hmem
  have hrunning := ((h.orderly id).sound.consumer c hreg).running
  have hdue := hmended.due t htask fun hover =>
    View.not_isFor_of_subject? hreg hrunning hover hisFor
  exact absurd hlate (Nat.not_lt.2 (Nat.le_trans hdue hover))

/-- **Consumers recover.**  Whatever a run has led to, when a registered consumer is evaluated once,
and from then on its calls succeed, the broker lists its client only as a member of its group, and
nothing more is delivered about it, then an interval later, and at any time after that, it does what
the policy in force wants: it is suspended when one of its topics is prohibited and active when none
is, and of the queues it was handed exactly all, or none, are paused.  That time does come, and when
commands return, it comes without anything getting stuck. -/
theorem Reachable.recovers (hvalid : k.config.validate = .ok ()) (hbuiltin : k.handler = .builtin)
    (h : k.Reachable policy memory s) (hreg : s.consumer? id = some c) {hook : Hook}
    (hevaluates : hook.Evaluates id c) {patience : Nat} {inputs : List Input}
    (hrun : k.run patience s (.hook hook :: inputs) = some s') :
    (∃ new later, Log.about id s'.log = new ++ Log.about id s.log ∧
      s'.received = later ++ .hook hook none :: s.received ∧
      (Log.Cooperative id (s.life id) (Log.about id s.log) new →
        (∀ d ∈ later, ¬d.concerns id) → s.now + k.config.intervalMs.toNat ≤ s'.now →
        ∃ c', s'.consumer? id = some c' ∧
          ((s'.policy.current.enabled = true ∧ ∃ t ∈ c'.topics, t ∈ s'.policy.current.topics) →
            c'.state = .suspended ∧ s'.isPaused? id = some true ∧
              (c'.mode = some .assign → c'.paused = c'.assigned)) ∧
          (¬(s'.policy.current.enabled = true ∧ ∃ t ∈ c'.topics, t ∈ s'.policy.current.topics) →
            c'.state = .active ∧ s'.isPaused? id = some false ∧
              (c'.mode = some .assign → c'.paused = ∅)))) ∧
    ∀ ms, ∃ patience s'', k.react patience s' (.pass ms) = some s'' ∧
      (k.environment.Prompt → s''.stuck = false) := by
  obtain ⟨hinterval, hretries⟩ := Config.validate_eq_ok.1 hvalid
  have hpasses : ∀ ms, ∃ patience s'', k.react patience s' (.pass ms) = some s'' ∧
      (k.environment.Prompt → s''.stuck = false) := by
    intro ms
    obtain ⟨patience, s'', hreact⟩ := exists_react_eq_some
      (Nat.pos_of_ne_zero fun hzero => hinterval (UInt64.toNat_inj.1 hzero)) s'
      (i := .pass ms) fun hwait => (nomatch hwait)
    exact ⟨patience, s'', hreact,
      fun henv => (react_stuck henv hreact).trans (h.run hrun).not_stuck⟩
  refine ⟨?_, hpasses⟩
  obtain ⟨p, first, hfirst, hreceived, hmended⟩ := h.receive_mended hbuiltin hreg hevaluates
  rw [run_cons, Option.bind_eq_some_iff] at hrun
  obtain ⟨s₁, hnext, hrest⟩ := hrun
  have hreachable : k.Reachable policy memory s' :=
    (Reachable.step patience _ h hnext).run hrest
  -- from the evaluation on, only steps that keep the consumer on its way
  have hreceive : k.Leads (s, none) (k.receive none s hook, none) :=
    receive_leads k (fun p hp => by cases hp) s hook
  have hkeyed := (hreceive h.keyed).1
  obtain ⟨hsettled, -⟩ := advance_leads hkeyed (next_eq_some.1 hnext).1
  have hreach : View.Reach k.config id (Moment.view (k.receive none s hook, none) id)
      (Moment.view (s', none) id) :=
    ((hsettled hkeyed).2 id).trans ((run_leads inputs (hsettled hkeyed).1 hrest
      (hsettled hkeyed).1).2 id)
  have horderly := View.Reach.orderly ((hreceive h.keyed).2 id) (h.orderly id)
  obtain ⟨rest, later, hrecord, hlater⟩ := View.Reach.grows hreach
  refine ⟨rest ++ first, later, ?_, ?_, fun hcooperative hquiet htime => ?_⟩
  · exact hrecord.trans (by rw [hfirst, List.append_assoc])
  · exact hlater.trans (congrArg (later ++ ·) hreceived)
  obtain ⟨hcooperativeRest, hcooperativeFirst⟩ := (Log.cooperative_append rest).1 hcooperative
  have hmended' := View.Reach.mended hretries hreach horderly (hmended hcooperativeFirst) hrecord
    hlater (hfirst ▸ hcooperativeRest) hquiet
  obtain ⟨c', hreg', hobeys⟩ := hreachable.obeys_of_mended hmended' htime
  have hpaused : s'.isPaused? id = some (decide (c'.state = .suspended)) := by
    rw [State.isPaused?, hreg']
    rfl
  refine ⟨c', hreg', fun hmeets => ?_, fun hmeets => ?_⟩
  · rw [Consumer.Obeys, Policy.decide_eq_suspend_iff.2 hmeets] at hobeys
    rw [hpaused, hobeys.1]
    exact ⟨rfl, rfl, hobeys.2⟩
  · have hresume : s'.policy.current.decide c'.topics = .resume := by
      cases hwant : s'.policy.current.decide c'.topics with
      | resume => rfl
      | suspend => exact absurd (Policy.decide_eq_suspend_iff.1 hwant) hmeets
    rw [Consumer.Obeys, hresume] at hobeys
    rw [hpaused, hobeys.1]
    exact ⟨rfl, rfl, hobeys.2⟩

/-- The newcomer, which has left its group, is evaluated again, and an interval later it is
suspended. -/
theorem Reachable.recovers_of_newcomer :
    ∃ s s' c',
      Rehearsal.stage.run 0 (.initial (.prohibiting ["t"]) {}) Rehearsal.entrance = some s ∧
      Rehearsal.stage.run 0 s [.hook (.policyUpdate (.prohibiting ["t"])), .pass 1000] = some s' ∧
      s'.consumer? Rehearsal.newcomer.id = some c' ∧ c'.state = .suspended := by
  obtain ⟨s, c, hrun, hreg, -⟩ := Rehearsal.entrance_suspends
  have hreachable : Rehearsal.stage.Reachable (.prohibiting ["t"]) {} s := Reachable.start.run hrun
  -- one query joins the record, with its answer, and nothing but the policy is received
  have hlater : ((Rehearsal.stage.run 0 (.initial (.prohibiting ["t"]) {}) Rehearsal.entrance).bind
      fun s => (Rehearsal.stage.run 0 s [.hook (.policyUpdate (.prohibiting ["t"])),
        .pass 1000]).map fun s' =>
          let old := Log.about Rehearsal.newcomer.id s.log
          let new := (Log.about Rehearsal.newcomer.id s'.log).take 2
          (decide (Log.about Rehearsal.newcomer.id s'.log = new ++ old),
            decide (Log.Cooperative Rehearsal.newcomer.id (s.life Rehearsal.newcomer.id) old new),
            decide (s'.received.length = s.received.length + 1),
            decide (s.now + Rehearsal.stage.config.intervalMs.toNat ≤ s'.now),
            (s'.consumer? Rehearsal.newcomer.id).map fun c =>
              s'.policy.current.decide c.topics)) =
        some (true, true, true, true, some .suspend) := by
    decide +kernel
  rw [hrun, Option.bind_some, Option.map_eq_some_iff] at hlater
  obtain ⟨s', hrun', hfacts⟩ := hlater
  simp only [Prod.mk.injEq, decide_eq_true_eq] at hfacts
  obtain ⟨hrecord, hcooperative, hcount, htime, hwant⟩ := hfacts
  obtain ⟨⟨new, later, hnew, hreceived, hrecovers⟩, -⟩ :=
    hreachable.recovers rfl rfl hreg (.policyUpdate _) hrun'
  obtain rfl : new = (Log.about Rehearsal.newcomer.id s'.log).take 2 :=
    List.append_cancel_right (hnew.symm.trans hrecord)
  have hnone : later = [] := by
    rw [hreceived, List.length_append, List.length_cons] at hcount
    exact List.eq_nil_of_length_eq_zero (by omega)
  subst hnone
  obtain ⟨c', hreg', hsuspended, -⟩ := hrecovers hcooperative (fun d hd => by cases hd) htime
  rw [hreg', Option.map_some, Option.some.injEq, Policy.decide_eq_suspend_iff] at hwant
  exact ⟨s, s', c', hrun, hrun', hreg', (hsuspended hwant).1⟩

end Controller

end Embargo
