import Embargo.Proofs.Suspension

/-!
# The calls of one consumer

The calls made for a consumer follow a discipline that depends on its mode: one that subscribes
leaves its group and comes back, one that was handed queues pauses and resumes them, and for one
without a mode nothing is called.  The state of the consumer tells how far the discipline has come.

* `Log.calls` — the calls made for one consumer, the earliest first; `Calls.commands` — without the
  queries for members;
* `Attendance` — the calls of a subscribing consumer, and whether they leave it in its group;
* `OnlyQueues` — the calls of a consumer that was handed queues;
* `View.Conducted` — **the invariant**: the registered consumer and all those that have been removed
  have followed the discipline;
* `View.Orderly`, `Controller.Reachable.orderly` — this and the other invariants, which every run
  keeps.
-/

namespace Embargo

/-! ### Calls in a record -/

/-- Calls in their order, each with whether it succeeded. -/
abbrev Calls := List (Call × Bool)

/-- The call of an event, when it was made for the `life`-th consumer under an identity. -/
def Event.call? (id : ConsumerId) (life : Nat) (e : Event) : Option (Call × Bool) :=
  match e.what with
  | .call client life' call ok => if client.id = id ∧ life' = life then some (call, ok) else none
  | _ => none

/-- The calls made for the `life`-th consumer under an identity, the earliest first. -/
def Log.calls (id : ConsumerId) (life : Nat) (l : Log) : Calls :=
  (l.filterMap (Event.call? id life)).reverse

/-- The commands of a trace as calls. -/
def Trace.calls (tr : Trace) : Calls :=
  tr.map fun c => (.command c.1, c.2)

/-- The command of a call, if it is none of the queries for members. -/
def Call.command? : Call × Bool → Option (Command × Bool)
  | (.command c, ok) => some (c, ok)
  | (.findMembers .., _) => none

/-- Calls without the queries for members. -/
def Calls.commands (calls : Calls) : Trace :=
  calls.filterMap Call.command?

theorem Calls.commands_append (calls calls' : Calls) :
    (calls ++ calls').commands = calls.commands ++ calls'.commands :=
  List.filterMap_append ..

namespace Log

variable {id : ConsumerId} {life : Nat}

theorem calls_append (l m : Log) :
    Log.calls id life (l ++ m) = Log.calls id life m ++ Log.calls id life l := by
  rw [calls, List.filterMap_append, List.reverse_append]
  rfl

theorem calls_cons (e : Event) (l : Log) :
    Log.calls id life (e :: l) = Log.calls id life l ++ (e.call? id life).toList := by
  rw [calls, List.filterMap_cons]
  cases e.call? id life with
  | none => exact (List.append_nil _).symm
  | some c => exact List.reverse_cons

theorem calls_cons_call (time : Nat) (who : Option ConsumerId) (client : Client) (life' : Nat)
    (call : Call) (ok : Bool) (l : Log) :
    Log.calls id life ({ time, who, what := .call client life' call ok } :: l) =
      Log.calls id life l ++ if client.id = id ∧ life' = life then [(call, ok)] else [] := by
  rw [calls_cons]
  show Log.calls id life l ++ Option.toList (if client.id = id ∧ life' = life then _ else _) = _
  split <;> rfl

/-- The calls for a consumer are in the part of the record that is about its identity. -/
theorem calls_about (l : Log) : Log.calls id life (Log.about id l) = Log.calls id life l := by
  rw [calls, calls, about, List.filterMap_filter]
  congr 2
  funext e
  rcases e with ⟨time, who, what⟩
  cases what <;> simp [Event.call?, Occurrence.client?]
  intro h hid
  exact absurd hid h

/-- What a transition leaves in the record are its commands, for the consumer that they are made
for and for no other one. -/
theorem calls_entries (s : Program.Subject) (now : Nat) (tr : Trace) :
    Log.calls id life (s.entries now tr) =
      if s.client.id = id ∧ s.life = life then tr.calls else [] := by
  induction tr with
  | nil => split <;> rfl
  | cons c tr ih =>
    rw [Program.Subject.entries_cons, calls_append, ih]
    by_cases h : s.client.id = id ∧ s.life = life
    · simp [calls, Event.call?, Trace.calls, h]
    · simp [calls, Event.call?, h]

end Log

/-! ### The two disciplines -/

/-- The calls made for a subscribing consumer, and whether they leave it in its group.  Offsets are
flushed anew for every attempt to leave; what succeeds is followed by a rebalance.  Queries for
members change nothing, and may stand anywhere here. -/
inductive Attendance (group : String) : Bool → Calls → Prop where
  | nil : Attendance group true []
  | flushFailed {calls : Calls} (h : Attendance group true calls) :
      Attendance group true (calls ++ [(.command .persistOffsets, false)])
  | leaveFailed {calls : Calls} (h : Attendance group true calls) :
      Attendance group true
        (calls ++ [(.command .persistOffsets, true), (.command (.unregister group), false)])
  | left {calls : Calls} (ok : Bool) (h : Attendance group true calls) :
      Attendance group false
        (calls ++ [(.command .persistOffsets, true), (.command (.unregister group), true),
          (.command .rebalance, ok)])
  | asked {inside : Bool} {calls : Calls} (topic : String) (ok : Bool)
      (h : Attendance group inside calls) :
      Attendance group inside (calls ++ [(.findMembers topic group, ok)])
  | rejoinFailed {calls : Calls} (h : Attendance group false calls) :
      Attendance group false (calls ++ [(.command (.register group), false)])
  | rejoined {calls : Calls} (ok : Bool) (h : Attendance group false calls) :
      Attendance group true
        (calls ++ [(.command (.register group), true), (.command .rebalance, ok)])

/-- The calls made for a consumer that was handed queues. -/
def OnlyQueues (calls : Calls) : Prop :=
  ∀ x ∈ calls, ∃ queues, x.1 = .command (.pause queues) ∨ x.1 = .command (.resume queues)

namespace Consumer

/-- What the calls made for a consumer have to be like in its mode and state. -/
def Conduct (c : Consumer) (calls : Calls) : Prop :=
  match c.mode with
  | none => calls = []
  | some .subscribe => Attendance c.group (decide (c.state = .active)) calls
  | some .assign => OnlyQueues calls

variable {now : Nat} {c c' : Consumer} {calls : Calls}

theorem conduct_of_subscribe (hmode : c.mode = some .subscribe) :
    c.Conduct calls =
      Attendance c.group (decide (c.state = .active)) calls := by
  rw [Conduct, hmode]

theorem conduct_of_assign (hmode : c.mode = some .assign) :
    c.Conduct calls = OnlyQueues calls := by
  rw [Conduct, hmode]

/-- A consumer that has just been taken over has not called anything. -/
theorem wrap_conduct {client : Client} (h : wrap client = .ok c) : c.Conduct [] := by
  obtain ⟨group, mode, hmode, rfl⟩ := wrap_eq_ok h
  cases mode with
  | none => exact rfl
  | some mode =>
    cases mode with
    | subscribe => exact .nil
    | assign => exact absurd rfl hmode

/-- A change of what a consumer consumes may fix its mode, but before that nothing is called. -/
theorem apply_conduct {change : Change} (hsound : c.Sound) (happly : c.apply change = .ok c')
    (h : c.Conduct calls) : c'.Conduct calls := by
  obtain ⟨mode, topics, assigned, rfl, hmode⟩ := apply_frame happly
  rcases hmode with hnone | rfl
  · rw [Conduct, hnone] at h
    subst h
    cases mode with
    | none => exact rfl
    | some mode =>
      cases mode with
      | subscribe =>
        rw [conduct_of_subscribe rfl]
        show Attendance c.group (decide (c.state = .active)) []
        rw [(hsound.modeless hnone).1]
        exact .nil
      | assign => exact fun x hx => by cases hx
  · exact h

theorem onlyQueues_append {calls calls' : Calls} (h : OnlyQueues calls) (h' : OnlyQueues calls') :
    OnlyQueues (calls ++ calls') := by
  intro x hx
  rcases List.mem_append.1 hx with hx | hx
  · exact h x hx
  · exact h' x hx

theorem onlyQueues_forQueues {command : List Queue → Command} (queues : List Queue) (ok : Bool)
    (hcommand : command = .pause ∨ command = .resume) :
    OnlyQueues (forQueues command queues ok : Trace).calls := by
  intro x hx
  rw [forQueues] at hx
  split at hx
  · cases hx
  · rw [List.mem_singleton.1 hx]
    rcases hcommand with rfl | rfl
    · exact ⟨queues, .inl rfl⟩
    · exact ⟨queues, .inr rfl⟩

/-- **Every transition follows the discipline of the mode.** -/
theorem Transit.conduct {d : Decision} {tr : Trace} {o : Outcome} (htransit : c.Transit now d tr o)
    (h : c.Conduct calls) : o.consumer.Conduct (calls ++ tr.calls) := by
  have hidle : calls ++ Trace.calls [] = calls := List.append_nil calls
  have hqueues : c.mode = some .assign → OnlyQueues calls :=
    fun hmode => (conduct_of_assign hmode).mp h
  have hinside : c.mode = some .subscribe → c.state = .active →
      Attendance c.group true calls := by
    intro hmode hstate
    rw [conduct_of_subscribe hmode, hstate] at h
    exact h
  have houtside : c.mode = some .subscribe → c.state ≠ .active →
      Attendance c.group false calls := by
    intro hmode hstate
    rw [conduct_of_subscribe hmode, decide_eq_false hstate] at h
    exact h
  cases htransit with
  | modeless hmode => exact hidle.symm ▸ h
  | alreadyOut hmode hstate => exact hidle.symm ▸ h
  | flushFailed hmode hstate =>
    rw [conduct_of_subscribe hmode, hstate]
    exact .flushFailed (hinside hmode hstate)
  | leaveFailed hmode hstate =>
    rw [conduct_of_subscribe hmode, hstate]
    exact .leaveFailed (hinside hmode hstate)
  | left ok hmode hstate =>
    rw [conduct_of_subscribe (c := c.transition now .suspending) hmode]
    exact .left ok (hinside hmode hstate)
  | alreadyIn hmode hstate => exact hidle.symm ▸ h
  | rejoinFailed hmode hstate =>
    rw [conduct_of_subscribe hmode, decide_eq_false hstate]
    exact .rejoinFailed (houtside hmode hstate)
  | rejoined ok hmode hstate =>
    rw [conduct_of_subscribe (c := c.transition now .active) hmode]
    exact .rejoined ok (houtside hmode hstate)
  | alreadyPaused hmode hunpaused hstale hstate => exact hidle.symm ▸ h
  | pauseFailed hmode hunpaused =>
    rw [conduct_of_assign hmode]
    refine onlyQueues_append (hqueues hmode) fun x hx => ?_
    rw [List.mem_singleton.1 hx]
    exact ⟨_, .inl rfl⟩
  | paused ok hmode =>
    obtain ⟨paused, hreleased⟩ := released_eq (c.markPaused c.unpaused.toList) c.stale.toList ok
    obtain ⟨epoch, last, hsettle⟩ :=
      settle_eq now ((c.markPaused c.unpaused.toList).released c.stale.toList ok)
    have hmode' : (((c.markPaused c.unpaused.toList).released c.stale.toList ok).settle now).mode =
        some .assign := by
      rw [hsettle, hreleased]
      exact hmode
    rw [conduct_of_assign hmode', Trace.calls, List.map_append]
    exact onlyQueues_append (hqueues hmode) (onlyQueues_append
      (onlyQueues_forQueues _ _ (.inl rfl)) (onlyQueues_forQueues _ _ (.inr rfl)))
  | nothingPaused hmode hpaused hstate => exact hidle.symm ▸ h
  | resumeFailed hmode hpaused =>
    rw [conduct_of_assign hmode]
    refine onlyQueues_append (hqueues hmode) fun x hx => ?_
    rw [List.mem_singleton.1 hx]
    exact ⟨_, .inr rfl⟩
  | resumed hmode =>
    rw [conduct_of_assign (c := (c.markResumed c.paused.toList).transition now .active) hmode]
    exact onlyQueues_append (hqueues hmode) (onlyQueues_forQueues _ _ (.inr rfl))

/-- The way back follows the discipline of a consumer that is out of its group. -/
theorem rollBack_conduct {tr : Trace} (hmode : c.mode = some .subscribe)
    (hstate : c.state ≠ .active) (hyields : (c.rollBack now).Yields tr c')
    (h : c.Conduct calls) :
    c'.Conduct (calls ++ tr.calls) := by
  rw [conduct_of_subscribe hmode, decide_eq_false hstate] at h
  rcases rollBack_yields hyields with ⟨rfl, rfl⟩ | ⟨ok, rfl, rfl⟩
  · rw [conduct_of_subscribe (c := c.transition now .suspended) hmode]
    exact .rejoinFailed h
  · rw [conduct_of_subscribe (c := c.transition now .active) hmode]
    exact .rejoined ok h

end Consumer

namespace View

variable {config : Config} {id : ConsumerId} {v v' : View} {c c' : Consumer}

/-- What the calls for a consumer that has been removed have been like. -/
def PastConduct (id : ConsumerId) (v : View) (life : Nat) : Prop :=
  (OnlyQueues (v.record.calls id life) ∧ ∀ t ∈ v.tasks, t.life ≠ life) ∨
    ∃ group inside, Attendance group inside (v.record.calls id life) ∧
      ∀ t ∈ v.tasks, t.life = life → t.group = group

/-- The registered consumer, and all those that have been removed, have followed the discipline. -/
structure Conducted (id : ConsumerId) (v : View) : Prop where
  current : ∀ c, v.consumer = some c →
    c.Conduct (v.record.calls id v.life)
  past : ∀ life, life < v.life → v.PastConduct id life

theorem initial_conducted (policy : Policy) (id : ConsumerId) :
    (View.initial policy).Conducted id where
  current := fun c hc => by cases hc
  past := fun life hlife => absurd hlife (Nat.not_lt_zero _)

/-- Nothing has been called for a consumer that has not been registered yet. -/
theorem Sound.calls_eq_nil (h : v.Sound id) (hfree : v.consumer = none) :
    v.record.calls id v.life = [] := by
  rw [Log.calls, List.reverse_eq_nil_iff, List.filterMap_eq_nil_iff]
  rintro ⟨time, who, what⟩ he
  cases what with
  | call client life call ok =>
    refine if_neg fun hmine => ?_
    obtain ⟨c, hc, -⟩ := (h.record _ he client life rfl).2 hmine.2
    rw [hfree] at hc
    cases hc
  | _ => rfl

/-- Nothing has been called for a consumer that is yet to come. -/
theorem Sound.calls_eq_nil_of_lt {life : Nat} (h : v.Sound id) (hlife : v.life < life) :
    v.record.calls id life = [] := by
  rw [Log.calls, List.reverse_eq_nil_iff, List.filterMap_eq_nil_iff]
  rintro ⟨time, who, what⟩ he
  cases what with
  | call client life' call ok =>
    refine if_neg fun hmine => ?_
    have hle := (h.record _ he client life' rfl).1
    exact absurd (hmine.2 ▸ hle) (Nat.not_le.2 hlife)
  | _ => rfl

/-- The past stays as it is when nothing is called for it and no confirmation joins it. -/
theorem PastConduct.of_eq {life : Nat} (h : v.PastConduct id life)
    (hcalls : v'.record.calls id life = v.record.calls id life)
    (htasks : ∀ t ∈ v'.tasks, t.life = life → ∃ u ∈ v.tasks, u.life = life ∧ u.group = t.group) :
    v'.PastConduct id life := by
  rw [PastConduct, hcalls]
  rcases h with ⟨hqueues, hnone⟩ | ⟨group, inside, hattendance, hgroup⟩
  · refine .inl ⟨hqueues, fun t ht heq => ?_⟩
    obtain ⟨u, hu, hlife, -⟩ := htasks t ht heq
    exact hnone u hu hlife
  · refine .inr ⟨group, inside, hattendance, fun t ht heq => ?_⟩
    obtain ⟨u, hu, hlife, hsame⟩ := htasks t ht heq
    exact hsame ▸ hgroup u hu hlife

/-- What is called for a consumer adds nothing to the calls for those before it. -/
theorem calls_entries_of_lt {client : Client} {now life life' : Nat} {tr : Trace} (l : Log)
    (hlife : life < life') :
    Log.calls id life (Program.Subject.entries ⟨client, life'⟩ now tr ++ l) =
      Log.calls id life l := by
  rw [Log.calls_append, Log.calls_entries, if_neg fun h => absurd h.2 (Nat.ne_of_gt hlife),
    List.append_nil]

theorem calls_entries_of_id_eq {client : Client} {now life : Nat} {tr : Trace} (l : Log)
    (hid : client.id = id) :
    Log.calls id life (Program.Subject.entries ⟨client, life⟩ now tr ++ l) =
      Log.calls id life l ++ tr.calls := by
  rw [Log.calls_append, Log.calls_entries, if_pos ⟨hid, rfl⟩]

/-- A consumer that is removed leaves a past that has followed the discipline. -/
theorem Conducted.pastConduct (h : v.Conducted id) (hv : v.Sound id) (hreg : v.consumer = some c) :
    v.PastConduct id v.life := by
  have hcurrent := h.current c hreg
  have hstarted : ∀ t ∈ v.tasks, t.life = v.life → t.StartedBy c := by
    intro t ht hlife
    obtain ⟨c', hreg', hstarted⟩ := (hv.tasks t ht).2.2 hlife
    rw [hreg, Option.some.injEq] at hreg'
    exact hreg' ▸ hstarted
  cases hmode : c.mode with
  | none =>
    rw [Consumer.Conduct, hmode] at hcurrent
    refine .inl ⟨fun x hx => ?_, fun t ht hlife => ?_⟩
    · rw [hcurrent] at hx
      cases hx
    · rw [(hstarted t ht hlife).mode] at hmode
      cases hmode
  | some mode =>
    cases mode with
    | subscribe =>
      rw [Consumer.conduct_of_subscribe hmode] at hcurrent
      exact .inr ⟨c.group, _, hcurrent, fun t ht hlife => (hstarted t ht hlife).group⟩
    | assign =>
      rw [Consumer.conduct_of_assign hmode] at hcurrent
      refine .inl ⟨hcurrent, fun t ht hlife => ?_⟩
      rw [(hstarted t ht hlife).mode] at hmode
      cases hmode

theorem Conducted.receive (h : v.Conducted id) (d : Delivery) :
    ({ v with received := d :: v.received } : View).Conducted id := by
  exact ⟨h.current, h.past⟩

/-- What a delivery does follows the discipline. -/
theorem Effect.conducted (h : Effect config id v v') (hv : v.Sound id) (hc : v.Conducted id) :
    v'.Conducted id := by
  have hsame : ∀ {life : Nat}, ∀ t ∈ v.tasks, t.life = life →
      ∃ u ∈ v.tasks, u.life = life ∧ u.group = t.group := fun t ht hlife => ⟨t, ht, hlife, rfl⟩
  cases h with
  | install p => exact ⟨hc.current, hc.past⟩
  | @register client c hfree hid hwrap =>
    refine ⟨fun c₁ hc₁ => ?_, hc.past⟩
    cases hc₁
    show c.Conduct (v.record.calls id v.life)
    rw [hv.calls_eq_nil hfree]
    exact Consumer.wrap_conduct hwrap
  | @revise c c' change hreg happly =>
    refine ⟨fun c₁ hc₁ => ?_, hc.past⟩
    cases hc₁
    exact Consumer.apply_conduct (hv.consumer c hreg) happly (hc.current c hreg)
  | remove hreg =>
    refine ⟨fun c hc₁ => ?_, fun life hlife => ?_⟩
    · cases hc₁
    · rcases Nat.lt_succ_iff_lt_or_eq.1 hlife with hlt | rfl
      · exact (hc.past life hlt).of_eq rfl hsame
      · exact (hc.pastConduct hv hreg).of_eq rfl hsame
  | @drive c d tr o hreg htransit =>
    refine ⟨fun c₁ hc₁ => ?_, fun life hlife => ?_⟩
    · cases hc₁
      show o.consumer.Conduct (Log.calls id v.life (_ ++ v.record))
      rw [calls_entries_of_id_eq _ (hv.keyed c hreg)]
      exact htransit.conduct (hc.current c hreg)
    · refine (hc.past life hlife).of_eq (calls_entries_of_lt _ hlife) fun t ht heq => ?_
      rcases mem_tasks.1 ht with hwaiting | hpoll
      · -- a confirmation that has just been started belongs to the registered consumer
        change t ∈ if o.leaving then _ else _ at hwaiting
        split at hwaiting
        · rcases Multiset.mem_cons.1 hwaiting with rfl | hold
          · exact absurd heq (Nat.ne_of_gt hlife)
          · exact ⟨t, mem_tasks_of_waiting hold, heq, rfl⟩
        · exact ⟨t, mem_tasks_of_waiting hwaiting, heq, rfl⟩
      · exact ⟨t, mem_tasks.2 (.inr hpoll), heq, rfl⟩

/-- The consumer that a confirmation is about is suspending. -/
theorem Tracked.suspending {t : Confirmation} (h : v.Tracked config) (ht : t ∈ v.tasks)
    (hlive : v.subject? t = some c) : c.state = .suspending := by
  obtain ⟨hreg, hlife, -, hepoch⟩ := of_subject? hlive
  have htracks := h.tracks c hreg
  by_contra hstate
  rw [Tracks, if_neg hstate] at htracks
  exact Multiset.filter_eq_nil.1 htracks t ht ⟨hlife, hepoch.symm⟩

/-- A query is made for a consumer that subscribes, or for one that did. -/
theorem Conducted.ask {t : Confirmation} {present : Bool} {topic : String} {ok : Bool}
    (hc : v.Conducted id) (hv : v.Sound id) (hpoll : v.poll = some ⟨t, present⟩) :
    ({ v with
        poll := some ⟨t, !ok⟩
        record :=
          { time := v.now, who := some id,
            what := .call t.client t.life (.findMembers topic t.group) ok } :: v.record } :
      View).Conducted id := by
  have htasks : v.tasks = t ::ₘ v.waiting := tasks_of_poll hpoll
  have ht : t ∈ v.tasks := mem_tasks_of_poll hpoll
  obtain ⟨hid, -, hcurrent⟩ := hv.tasks t ht
  have hother : ∀ {life : Nat} {now : Nat}, t.life ≠ life → Log.calls id life
      ({ time := now, who := some id,
         what := .call t.client t.life (.findMembers topic t.group) ok } :: v.record) =
      v.record.calls id life := by
    intro life now hne
    rw [Log.calls_cons_call, if_neg fun h => hne h.2, List.append_nil]
  have hown : ∀ {now : Nat}, Log.calls id t.life
      ({ time := now, who := some id,
         what := .call t.client t.life (.findMembers topic t.group) ok } :: v.record) =
      v.record.calls id t.life ++ [(.findMembers topic t.group, ok)] := by
    intro now
    rw [Log.calls_cons_call, if_pos ⟨hid, rfl⟩]
  refine ⟨fun c hreg => ?_, fun life hlife => ?_⟩
  · show c.Conduct (Log.calls id v.life (_ :: v.record))
    by_cases hlife : t.life = v.life
    · obtain ⟨c₁, hreg₁, hstarted⟩ := hcurrent hlife
      obtain rfl : c₁ = c := Option.some.inj (hreg₁.symm.trans hreg)
      have hattendance := hc.current c₁ hreg
      rw [← hlife, hown, hlife, hstarted.group]
      rw [Consumer.conduct_of_subscribe hstarted.mode] at hattendance ⊢
      exact .asked topic ok hattendance
    · rw [hother hlife]
      exact hc.current c hreg
  · have hsame : ∀ u ∈ t ::ₘ v.waiting, u ∈ v.tasks := fun u hu => htasks ▸ hu
    by_cases heq : t.life = life
    · subst heq
      rcases hc.past t.life hlife with ⟨-, hnone⟩ | ⟨group, inside, hattendance, hgroup⟩
      · exact absurd rfl (hnone t ht)
      · refine .inr ⟨group, inside, ?_, fun u hu => hgroup u (hsame u hu)⟩
        show Attendance group inside (Log.calls id t.life (_ :: v.record))
        rw [hown, hgroup t ht rfl]
        exact .asked topic ok hattendance
    · exact (hc.past life hlife).of_eq (hother heq) fun u hu hu' => ⟨u, hsame u hu, hu', rfl⟩

/-- **Every step follows the discipline.** -/
theorem Step.conducted (h : Step config id v v') (hv : v.Sound id) (htracked : v.Tracked config)
    (hc : v.Conducted id) : v'.Conducted id := by
  cases h with
  | deliver d hwithin heffects =>
    have hboth := heffects.keeps (P := fun w => w.Sound id ∧ w.Conducted id)
      (fun heffect hw => ⟨heffect.sound hw.1, heffect.conducted hw.1 hw.2⟩)
      ⟨hv.receive d, hc.receive d⟩
    exact hboth.2
  | tick hidle hle hdue => exact ⟨hc.current, hc.past⟩
  | @pick t rest hidle hwaiting hdue =>
    have htasks : v.tasks = t ::ₘ rest := (tasks_of_idle hidle).trans hwaiting
    exact ⟨hc.current, fun life hlife => (hc.past life hlife).of_eq rfl fun u hu heq =>
      ⟨u, htasks ▸ hu, heq, rfl⟩⟩
  | ask topic ok hpoll hentitled => exact hc.ask hv hpoll
  | @answer t topic members hpoll =>
    have hcalls : ∀ life, Log.calls id life
        ({ time := v.now, who := some id,
           what := .listing t.client t.life topic t.group members } :: v.record) =
        v.record.calls id life := by
      intro life
      rw [Log.calls_cons]
      exact List.append_nil _
    refine ⟨fun c hreg => ?_, fun life hlife => (hc.past life hlife).of_eq (hcalls life)
      fun u hu heq => ⟨u, ?_, heq, rfl⟩⟩
    · show c.Conduct (Log.calls id v.life (_ :: v.record))
      rw [hcalls]
      exact hc.current c hreg
    · rw [tasks, hpoll]
      exact hu
  | @discard p hpoll hover =>
    exact ⟨hc.current, fun life hlife => (hc.past life hlife).of_eq rfl fun u hu heq =>
      ⟨u, mem_tasks_of_waiting hu, heq, rfl⟩⟩
  | @confirm t c hpoll hlive =>
    have ht : t ∈ v.tasks := mem_tasks_of_poll hpoll
    have hmode := (hv.startedBy ht hlive).mode
    have hcurrent := hc.current c (of_subject? hlive).1
    refine ⟨fun c₁ hc₁ => ?_, fun life hlife => (hc.past life hlife).of_eq rfl fun u hu heq =>
      ⟨u, mem_tasks_of_waiting hu, heq, rfl⟩⟩
    cases hc₁
    rw [Consumer.conduct_of_subscribe hmode, htracked.suspending ht hlive] at hcurrent
    rw [Consumer.conduct_of_subscribe (c := c.transition v.now .suspended) hmode]
    exact hcurrent
  | @retry t hpoll hleft =>
    refine ⟨hc.current, fun life hlife => (hc.past life hlife).of_eq rfl fun u hu heq => ?_⟩
    rcases mem_tasks.1 hu with hwaiting | ⟨p, hp, -⟩
    · rcases Multiset.mem_cons.1 hwaiting with rfl | hold
      · exact ⟨t, mem_tasks_of_poll hpoll, heq, rfl⟩
      · exact ⟨u, mem_tasks_of_waiting hold, heq, rfl⟩
    · cases hp
  | @rollBack t c c' tr hpoll hover hlive hyields =>
    have ht : t ∈ v.tasks := mem_tasks_of_poll hpoll
    obtain ⟨hreg, hlife, -, -⟩ := of_subject? hlive
    have hmode := (hv.startedBy ht hlive).mode
    have hstate : c.state ≠ .active := by
      rw [htracked.suspending ht hlive]
      exact Membership.noConfusion
    refine ⟨fun c₁ hc₁ => ?_, fun life hlt => (hc.past life hlt).of_eq ?_ fun u hu heq =>
      ⟨u, mem_tasks_of_waiting hu, heq, rfl⟩⟩
    · cases hc₁
      show c'.Conduct (Log.calls id v.life (Program.Subject.entries ⟨t.client, t.life⟩ _ _ ++ _))
      rw [hlife, calls_entries_of_id_eq _ (hv.tasks t ht).1]
      exact Consumer.rollBack_conduct hmode hstate hyields (hc.current c hreg)
    · exact calls_entries_of_lt _ (hlife ▸ hlt)

/-! ### All that every step keeps -/

/-- All that always holds of what a state holds about an identity. -/
structure Orderly (config : Config) (id : ConsumerId) (v : View) : Prop where
  sound : v.Sound id
  tracked : v.Tracked config
  conducted : v.Conducted id

theorem initial_orderly (config : Config) (policy : Policy) (id : ConsumerId) :
    (View.initial policy).Orderly config id :=
  ⟨initial_sound policy id, initial_tracked policy, initial_conducted policy id⟩

theorem Step.orderly (h : Step config id v v') (hv : v.Orderly config id) :
    v'.Orderly config id :=
  ⟨h.sound hv.sound, h.tracked hv.sound hv.tracked, h.conducted hv.sound hv.tracked hv.conducted⟩

theorem Reach.orderly (h : Reach config id v v') (hv : v.Orderly config id) :
    v'.Orderly config id :=
  h.keeps Step.orderly hv

/-- A confirmation that is not superseded is one of a consumer that is out of its group. -/
theorem Orderly.attendance {t : Confirmation} (hv : v.Orderly config id)
    (ht : t ∈ v.tasks) (hlive : v.subject? t = some c) :
    Attendance t.group false (Log.calls id t.life v.record) := by
  obtain ⟨hreg, hlife, -, -⟩ := of_subject? hlive
  have hstarted := hv.sound.startedBy ht hlive
  have hconduct := hv.conducted.current c hreg
  rw [Consumer.conduct_of_subscribe hstarted.mode, hv.tracked.suspending ht hlive] at hconduct
  rw [hlife, hstarted.group]
  exact hconduct

end View

namespace Controller

variable {ω : Type} {k : Controller ω} {policy : Policy} {memory : ω} {s : State ω}
  {id : ConsumerId} {c : Consumer}

/-- **Every state that a run leads to is in order**, and so calls have followed the discipline. -/
theorem Reachable.orderly (h : k.Reachable policy memory s) (id : ConsumerId) :
    (Moment.view (s, none) id).Orderly k.config id :=
  (h.reach id).orderly (View.initial_orderly k.config policy id)

theorem Reachable.conducted (h : k.Reachable policy memory s) (id : ConsumerId) :
    (Moment.view (s, none) id).Conducted id :=
  (h.orderly id).conducted

/-- The calls for a registered consumer are what they have to be in its mode and state. -/
theorem Reachable.conduct (h : k.Reachable policy memory s) (hreg : s.consumer? id = some c) :
    c.Conduct (Log.calls id (s.life id) s.log) := by
  rw [← Log.calls_about]
  exact (h.conducted id).current c hreg

end Controller

end Embargo
