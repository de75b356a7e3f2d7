import Embargo.Proofs.Attendance

/-!
# Members of groups

A client joins its group before it reports its start, and from then on it is the controller that
takes it out of the group and back.  Whether it is a member can be told from the calls that have
been made for it; the state of its consumer says the same.

* `Calls.attends` — whether a client is a member of its group, when its calls take effect;
* `Attendance.attends_eq`, `OnlyQueues.attends_eq` — what the two disciplines leave it;
* `View.Step.past_commands` — no command is made any more for a consumer that has been removed, so
  its successor's membership is in its successor's hands;
* `Controller.Reachable.state_tells_membership` — **the state of a consumer says whether its client
  is a member**.
-/

namespace Embargo

/-! ### Members of a group -/

/-- Whether a client is a member of a group after a call: leaving it and joining it take effect
exactly when they succeed. -/
def memberAfter (group : String) (member : Bool) : Call × Bool → Bool
  | (.command (.register g), true) => if g = group then true else member
  | (.command (.unregister g), true) => if g = group then false else member
  | _ => member

/-- Whether a client that has been a member of a group at first is one after calls. -/
def Calls.attends (group : String) (calls : Calls) : Bool :=
  calls.foldl (memberAfter group) true

theorem Calls.attends_append (group : String) (calls calls' : Calls) :
    (calls ++ calls').attends group = calls'.foldl (memberAfter group) (calls.attends group) :=
  List.foldl_append

/-- A subscribing consumer is a member while its calls leave it in its group. -/
theorem Attendance.attends_eq {group : String} {inside : Bool} {calls : Calls}
    (h : Attendance group inside calls) : calls.attends group = inside := by
  induction h with
  | nil => rfl
  | flushFailed _ ih => rw [Calls.attends_append, ih]; rfl
  | leaveFailed _ ih => rw [Calls.attends_append, ih]; rfl
  | left ok _ _ => rw [Calls.attends_append]; exact if_pos rfl
  | asked topic ok _ ih => rw [Calls.attends_append, ih]; rfl
  | rejoinFailed _ ih => rw [Calls.attends_append, ih]; rfl
  | rejoined ok _ _ => rw [Calls.attends_append]; exact if_pos rfl

/-- Pausing and resuming queues leaves a client in its group. -/
theorem OnlyQueues.attends_eq (group : String) {calls : Calls} (h : OnlyQueues calls) :
    calls.attends group = true := by
  induction calls using List.reverseRecOn with
  | nil => rfl
  | append_singleton calls x ih =>
    obtain ⟨call, ok⟩ := x
    obtain ⟨queues, hcall⟩ := h _ (List.mem_append_right _ (List.mem_singleton_self _))
    rw [Calls.attends_append, ih fun y hy => h y (List.mem_append_left _ hy)]
    rcases hcall with rfl | rfl <;> rfl

/-! ### Removed consumers -/

namespace View

variable {config : Config} {id : ConsumerId} {v v' : View} {life : Nat}

theorem Effect.life_le (h : Effect config id v v') : v.life ≤ v'.life := by
  cases h with
  | remove => exact Nat.le_succ _
  | _ => exact Nat.le_refl _

/-- Nothing is called for a removed consumer when something is delivered. -/
theorem Effect.past_calls (h : Effect config id v v') (hlife : life < v.life) :
    v'.record.calls id life = v.record.calls id life := by
  cases h with
  | drive hreg htransit => exact calls_entries_of_lt _ hlife
  | _ => rfl

/-- What a removed consumer has left behind: only queries join its calls. -/
theorem Step.past_commands (h : Step config id v v') (hlife : life < v.life) :
    v.life ≤ v'.life ∧
      (v'.record.calls id life).commands = (v.record.calls id life).commands := by
  cases h with
  | deliver d hwithin heffects =>
    have hboth := heffects.keeps
      (P := fun w => v.life ≤ w.life ∧ w.record.calls id life = v.record.calls id life)
      (fun heffect hw => ⟨Nat.le_trans hw.1 heffect.life_le,
        (heffect.past_calls (Nat.lt_of_lt_of_le hlife hw.1)).trans hw.2⟩)
      ⟨Nat.le_refl _, rfl⟩
    exact ⟨hboth.1, congrArg Calls.commands hboth.2⟩
  | ask topic ok hpoll hentitled =>
    refine ⟨Nat.le_refl _, ?_⟩
    rw [Log.calls_cons_call, Calls.commands_append]
    split <;> exact List.append_nil _
  | answer topic members hpoll =>
    refine ⟨Nat.le_refl _, ?_⟩
    rw [Log.calls_cons]
    exact congrArg Calls.commands (List.append_nil _)
  | @rollBack t c c' tr hpoll hover hlive hyields =>
    have hsame : t.life = v.life := (of_subject? hlive).2.1
    exact ⟨Nat.le_refl _, congrArg Calls.commands (calls_entries_of_lt _ (hsame ▸ hlife))⟩
  | _ => exact ⟨Nat.le_refl _, rfl⟩

theorem Reach.past_commands (h : Reach config id v v') (hlife : life < v.life) :
    (v'.record.calls id life).commands = (v.record.calls id life).commands :=
  (h.keeps (P := fun w => v.life ≤ w.life ∧
      (w.record.calls id life).commands = (v.record.calls id life).commands)
    (fun hstep hw =>
      have hnext := hstep.past_commands (Nat.lt_of_lt_of_le hlife hw.1)
      ⟨Nat.le_trans hw.1 hnext.1, hnext.2.trans hw.2⟩)
    ⟨Nat.le_refl _, rfl⟩).2

end View

/-! ### Membership in a run -/

namespace Controller

variable {ω : Type} {k : Controller ω} {policy : Policy} {memory : ω} {s s' : State ω}
  {id : ConsumerId} {c : Consumer}

/-- After a consumer has been removed, no command is made for it any more. -/
theorem Reachable.past_commands (h : k.Reachable policy memory s) {life patience : Nat}
    {inputs : List Input} (hlife : life < s.life id)
    (hrun : k.run patience s inputs = some s') :
    (Log.calls id life s'.log).commands = (Log.calls id life s.log).commands := by
  rw [← Log.calls_about, ← Log.calls_about s.log]
  exact View.Reach.past_commands ((run_leads inputs h.keyed hrun h.keyed).2 id) hlife

/-- **The state of a consumer tells whether its client is a member of its group**, whatever calls
have failed: an active one has a member, a subscribing one that is not active has none, and one
that was handed queues has a member in either state.  The calls made for the consumer itself are all
that matters, since none that joins or leaves a group is made for an earlier one any more. -/
theorem Reachable.state_tells_membership (h : k.Reachable policy memory s)
    (hreg : s.consumer? id = some c) :
    (c.mode = some .subscribe → c.state ≠ .active →
      (Log.calls id (s.life id) s.log).attends c.group = false) ∧
    (c.state = .active → (Log.calls id (s.life id) s.log).attends c.group = true) ∧
    (c.mode = some .assign → (Log.calls id (s.life id) s.log).attends c.group = true) ∧
    ∀ life patience inputs s', life < s.life id → k.run patience s inputs = some s' →
      (Log.calls id life s'.log).commands = (Log.calls id life s.log).commands := by
  have hconduct := h.conduct hreg
  refine ⟨fun hmode hstate => ?_, fun hstate => ?_, fun hmode => ?_,
    fun life patience inputs s' hlife hrun => h.past_commands hlife hrun⟩
  · rw [Consumer.conduct_of_subscribe hmode, decide_eq_false hstate] at hconduct
    exact hconduct.attends_eq
  · cases hmode : c.mode with
    | none =>
      rw [Consumer.Conduct, hmode] at hconduct
      rw [hconduct]
      rfl
    | some mode =>
      cases mode with
      | subscribe =>
        rw [Consumer.conduct_of_subscribe hmode, decide_eq_true hstate] at hconduct
        exact hconduct.attends_eq
      | assign =>
        rw [Consumer.conduct_of_assign hmode] at hconduct
        exact hconduct.attends_eq c.group
  · rw [Consumer.conduct_of_assign hmode] at hconduct
    exact hconduct.attends_eq c.group

/-- The newcomer, which is suspending, is no member of its group. -/
theorem Reachable.state_tells_membership_of_newcomer :
    ∃ s c, Rehearsal.stage.run 0 (.initial (.prohibiting ["t"]) {}) Rehearsal.entrance = some s ∧
      s.consumer? Rehearsal.newcomer.id = some c ∧ c.state = .suspending ∧
      (Log.calls Rehearsal.newcomer.id (s.life Rehearsal.newcomer.id) s.log).attends c.group =
        false := by
  obtain ⟨s, c, hrun, hreg, hstate, hmode⟩ := Rehearsal.entrance_suspends
  have hreachable : Rehearsal.stage.Reachable (.prohibiting ["t"]) {} s := Reachable.start.run hrun
  refine ⟨s, c, hrun, hreg, hstate, (hreachable.state_tells_membership hreg).1 hmode ?_⟩
  rw [hstate]
  exact Membership.noConfusion

end Controller

end Embargo
