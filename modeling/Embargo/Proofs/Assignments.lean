import Embargo.Proofs.Moves

/-!
# Assigned queues on record

Whenever a consumer is handed other queues it is evaluated at once, and the evaluation puts it on
record as it is then.  So the record tells at any point of time which queues are assigned to whom,
and that nothing is ever paused that is not assigned.

* `Log.assigned` — the queues that a consumer was evaluated with last;
* `Log.PausesAssigned` — every pause is one of queues that are assigned at the time;
* `State.Accounted` — **the invariant**: both, and the registered consumers are as the record says;
* `Controller.Reachable.accounted` — every run keeps it.
-/

namespace Embargo

variable {ω : Type}

/-! ### What the record says -/

/-- The consumer that an event shows, when it is an evaluation under an identity. -/
def Event.shown? (id : ConsumerId) (e : Event) : Option Consumer :=
  match e.what with
  | .evaluation _ _ c _ => if e.who = some id then some c else none
  | _ => none

theorem Event.shown?_evaluation (time : Nat) (who : Option ConsumerId) (handler : HandlerName)
    (trigger : Trigger) (c : Consumer) (policy : Policy) (id : ConsumerId) :
    Event.shown? id { time, who, what := .evaluation handler trigger c policy } =
      if who = some id then some c else none := rfl

namespace Log

variable {l new : Log} {id : ConsumerId}

/-- The queues that a consumer was evaluated with last. -/
def assigned (id : ConsumerId) (l : Log) : QueueSet :=
  ((l.findSome? (Event.shown? id)).map Consumer.assigned).getD ∅

/-- Every pause is one of queues that are assigned at the time. -/
def PausesAssigned (l : Log) : Prop :=
  ∀ later e earlier client life queues ok, l = later ++ e :: earlier →
    e.what = .call client life (.command (.pause queues)) ok →
    ∀ q ∈ queues, q ∈ Log.assigned client.id earlier

theorem assigned_cons_of_none {e : Event} (h : e.shown? id = none) :
    Log.assigned id (e :: l) = Log.assigned id l := by
  rw [assigned, List.findSome?_cons, h]
  rfl

theorem assigned_cons_of_some {e : Event} {c : Consumer} (h : e.shown? id = some c) :
    Log.assigned id (e :: l) = c.assigned := by
  rw [assigned, List.findSome?_cons, h]
  rfl

/-- An event that shows assigned queues as they are leaves the record right about them. -/
theorem assigned_cons {assigned? : ConsumerId → Option QueueSet} {e : Event} {queues : QueueSet}
    (hfaithful : e.Faithful assigned?) (hid : assigned? id = some queues)
    (h : queues = Log.assigned id l) : queues = Log.assigned id (e :: l) := by
  cases hshown : e.shown? id with
  | none => rw [assigned_cons_of_none hshown, h]
  | some c =>
    rw [assigned_cons_of_some hshown]
    rcases e with ⟨time, who, what⟩
    cases what with
    | evaluation handler trigger c' policy =>
      rw [Event.shown?_evaluation] at hshown
      split at hshown
      · rename_i hwho
        cases hshown
        exact Option.some.inj (hid.symm.trans (hfaithful id hwho))
      · cases hshown
    | _ => cases hshown

/-- An event that shows assigned queues as they are is no pause of others. -/
theorem PausesAssigned.cons {assigned? : ConsumerId → Option QueueSet} {e : Event}
    (h : PausesAssigned l) (hfaithful : e.Faithful assigned?)
    (hassigned : ∀ id queues, assigned? id = some queues → queues = Log.assigned id l) :
    PausesAssigned (e :: l) := by
  intro later e' earlier client life queues ok hsplit hwhat q hq
  cases later with
  | nil =>
    obtain ⟨rfl, rfl⟩ := List.cons.inj hsplit
    rw [Event.Faithful, hwhat] at hfaithful
    obtain ⟨all, hall, hmem⟩ := hfaithful
    exact hassigned _ _ hall ▸ hmem q hq
  | cons e₁ later =>
    obtain ⟨-, rfl⟩ := List.cons.inj hsplit
    exact h later e' earlier client life queues ok rfl hwhat q hq

/-- Events that show assigned queues as they are leave the record right. -/
theorem faithful_append {assigned? : ConsumerId → Option QueueSet}
    (hnew : ∀ e ∈ new, e.Faithful assigned?) (h : PausesAssigned l)
    (hassigned : ∀ id queues, assigned? id = some queues → queues = Log.assigned id l) :
    PausesAssigned (new ++ l) ∧
      ∀ id queues, assigned? id = some queues → queues = Log.assigned id (new ++ l) := by
  induction new with
  | nil => exact ⟨h, hassigned⟩
  | cons e new ih =>
    obtain ⟨hpauses, hright⟩ := ih fun e' he' => hnew e' (List.mem_cons_of_mem e he')
    have hfaithful := hnew e List.mem_cons_self
    exact ⟨hpauses.cons hfaithful hright,
      fun id queues hid => assigned_cons hfaithful hid (hright id queues hid)⟩

end Log

/-! ### The invariant -/

namespace State

variable {s s' : State ω}

/-- Registered consumers, but possibly not all of them, are assigned what the record says. -/
structure AccountedBut (exempt : ConsumerId → Prop) (s : State ω) : Prop where
  pauses : s.log.PausesAssigned
  assigned : ∀ id, ¬exempt id → ∀ c, s.consumer? id = some c → c.assigned = s.log.assigned id

/-- All registered consumers are assigned what the record says. -/
abbrev Accounted (s : State ω) : Prop := s.AccountedBut fun _ => False

theorem Tended.accounted (h : s.Tended s') (hs : s.Accounted) : s'.Accounted := by
  obtain ⟨new, hlog, hnew⟩ := h.log
  obtain ⟨hpauses, hright⟩ := Log.faithful_append hnew hs.pauses fun id queues hid => by
    obtain ⟨c, hreg, rfl⟩ := Option.map_eq_some_iff.1 hid
    exact hs.assigned id not_false c hreg
  refine ⟨hlog ▸ hpauses, fun id _ c hreg => hlog ▸ hright id _ ?_⟩
  rw [← h.assigned?_eq, assigned?, hreg, Option.map_some]

/-- Notices say nothing about assigned queues. -/
theorem Noted.accounted {exempt : ConsumerId → Prop} (h : s.Noted s')
    (hs : s.AccountedBut exempt) : s'.AccountedBut exempt := by
  obtain ⟨new, rfl, hnew⟩ := h
  have hfaithful : ∀ e ∈ new, e.Faithful fun id => some (s.log.assigned id) := by
    intro e he
    obtain ⟨n, hwhat⟩ := hnew e he
    rw [Event.Faithful, hwhat]
    trivial
  obtain ⟨hpauses, hright⟩ := Log.faithful_append hfaithful hs.pauses fun id queues hid =>
    (Option.some.inj hid).symm
  exact ⟨hpauses, fun id hid c hreg => (hs.assigned id hid c hreg).trans (hright id _ rfl)⟩

end State

namespace Controller

variable {k : Controller ω} {s s' : State ω}

/-- An evaluation puts on record what its consumer is assigned. -/
theorem evaluate_accounted (k : Controller ω) (trigger : Trigger) {i : ConsumerId} (hs : s.Tidy)
    (h : s.AccountedBut (· = i)) : (k.evaluate trigger i s).Accounted := by
  rw [evaluate_outside]
  cases hreg : s.consumer? i with
  | none =>
    refine ⟨h.pauses, fun id _ c hc => h.assigned id (fun hid => ?_) c hc⟩
    cases hreg.symm.trans (hid ▸ hc)
  | some c =>
    have hfaithful : Event.Faithful s.assigned?
        { time := s.now, who := some i,
          what := .evaluation k.handler.name trigger c s.policy.current } := fun id hid => by
      cases hid
      rw [State.assigned?, hreg]
      rfl
    have hasked : (s.happen (some i)
        (.evaluation k.handler.name trigger c s.policy.current)).Accounted := by
      refine ⟨?_, fun id _ c' hc' => ?_⟩
      · intro later e earlier client life queues ok hsplit hwhat
        cases later with
        | nil =>
          obtain ⟨rfl, -⟩ := List.cons.inj hsplit
          cases hwhat
        | cons e₁ later =>
          exact h.pauses later e earlier client life queues ok (List.cons.inj hsplit).2 hwhat
      · by_cases hid : id = i
        · subst hid
          obtain rfl : c = c' := Option.some.inj (hreg.symm.trans hc')
          refine (Log.assigned_cons_of_some ?_).symm
          rw [Event.shown?_evaluation, if_pos rfl]
        · refine (h.assigned id hid c' hc').trans (Log.assigned_cons_of_none ?_).symm
          rw [Event.shown?_evaluation, if_neg fun hwho => hid (Option.some.inj hwho).symm]
    exact (plan_tended k i _ _ ((s.happen_tended _ _ hfaithful).tidy hs)).accounted hasked

/-- Whatever becomes of a hook, the record stays right. -/
theorem Treatment.accounted {h : Hook} (htreated : k.Treatment s h s') (hs : s.Tidy)
    (haccounted : s.Accounted) : s'.Accounted := by
  cases htreated with
  | rejected hwrap => exact (s.report_tended _ _).accounted haccounted
  | @restarted client fresh c hwrap hreg =>
    have hreport := s.report_tended client.id .startedTwice
    exact (hreport.trans (evaluate_tended k _ _ (hreport.tidy hs))).accounted haccounted
  | @enrolled client fresh hwrap hfree =>
    refine evaluate_accounted k _ (enrol_tidy hwrap hs)
      ((enrol_noted client fresh s).accounted ⟨haccounted.pauses, fun id hid c hreg => ?_⟩)
    rw [consumer?_takeIn, if_neg fun heq => hid heq.symm] at hreg
    exact haccounted.assigned id not_false c hreg
  | unusable hstart hshutdown hchange => exact (s.report_tended _ _).accounted haccounted
  | refused hchange hreg happly => exact (s.report_tended _ _).accounted haccounted
  | @revised client e change c c' hchange hreg happly =>
    refine evaluate_accounted k _ (put_tidy hs hreg happly)
      ⟨haccounted.pauses, fun id hid c₁ hc₁ => ?_⟩
    rw [State.consumer?_put, if_neg fun heq => hid heq.symm] at hc₁
    exact haccounted.assigned id not_false c₁ hc₁
  | cached hchange hfree =>
    exact (State.report_tended _ _ _).accounted ⟨haccounted.pauses, haccounted.assigned⟩
  | unknown hfree =>
    exact (State.report_tended _ _ _).accounted ⟨haccounted.pauses, haccounted.assigned⟩
  | @dismissed client c hreg =>
    refine (State.report_tended _ _ _).accounted ⟨haccounted.pauses, fun id _ c₁ hc₁ => ?_⟩
    change (s.registry.remove client.id).2.lookup id = some c₁ at hc₁
    rw [Registry.lookup_remove] at hc₁
    split at hc₁
    · cases hc₁
    · exact haccounted.assigned id not_false c₁ hc₁
  | unreadable hdoc => exact haccounted
  | swept hpolicy => exact (updatePolicy_tended k _ hs).accounted haccounted

theorem accounted_kept (k : Controller ω) : k.Kept State.Accounted :=
  .of_tended (fun htended hs => htended.accounted hs)
    (fun within h hs haccounted => (receive_treated k within h hs).accounted
      (hs.of_eq rfl rfl) ⟨haccounted.pauses, haccounted.assigned⟩)
    fun _ _ hs => ⟨hs.pauses, hs.assigned⟩

/-- **In every state that a run leads to, the record tells which queues are assigned**, and nothing
has ever been paused that was not assigned. -/
theorem Reachable.accounted {policy : Policy} {memory : ω} (h : k.Reachable policy memory s) :
    s.Accounted := by
  refine (accounted_kept k).reachable h ⟨?_, fun id _ c hreg => ?_⟩
  · intro later e earlier client life queues ok hsplit
    cases later <;> cases hsplit
  · cases (congrArg View.consumer (Moment.view_initial policy memory id)).symm.trans hreg

end Controller

end Embargo
