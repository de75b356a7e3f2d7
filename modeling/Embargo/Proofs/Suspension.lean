import Embargo.Proofs.Progress
import Embargo.Proofs.Standing
import Embargo.Rehearsal.Cast

/-!
# Suspensions are confirmed in time

A consumer that has left its group waits for the broker to confirm it.  Exactly one confirmation
does that waiting, from the exit on, and it comes to its end within a fixed time, whatever happens
to the consumer in the meantime.

* `View.pending` — the confirmations that are not superseded;
* `Confirmation.turn` — when a confirmation goes on after so many polls;
* `View.Tracks` — a suspending consumer has one pending confirmation, which is on schedule, and any
  other consumer has none;
* `View.Tracked` — **the invariant**: this, and no confirmation is ever late;
* `Controller.Reachable.schedule` — when the one pending confirmation goes on, and until when;
* `Controller.Reachable.suspension_ends` — no consumer stays half suspended.
-/

namespace Embargo

/-! ### Schedules -/

/-- When a confirmation that was started at a time goes on after so many polls. -/
def Confirmation.turn (config : Config) (began attempts : Nat) : Nat :=
  if config.maxRetries = 0 then began else began + (attempts + 1) * config.intervalMs.toNat

theorem Confirmation.start_due (config : Config) (now life : Nat) (c : Consumer) :
    (start config now life c).due = turn config now 0 := by
  simp only [start, turn, Nat.zero_add, Nat.one_mul]

theorem Confirmation.le_turn (config : Config) (began attempts : Nat) :
    began ≤ turn config began attempts := by
  rw [turn]
  split
  · exact Nat.le_refl _
  · exact Nat.le_add_right ..

theorem Confirmation.turn_zero_le (config : Config) (began : Nat) :
    turn config began 0 ≤ began + config.intervalMs.toNat := by
  rw [turn]
  split
  · exact Nat.le_add_right ..
  · rw [Nat.zero_add, Nat.one_mul]

theorem Confirmation.again_due {config : Config} {t : Confirmation} {began : Nat}
    (hdue : t.due = turn config began t.attempts)
    (hleft : t.attempts + 1 < config.maxRetries.toNat) :
    (t.again config t.due).due = turn config began (t.attempts + 1) := by
  have hsome : config.maxRetries ≠ 0 := by
    rintro hzero
    rw [hzero] at hleft
    exact absurd hleft (Nat.not_lt_zero _)
  rw [turn, if_neg hsome] at hdue ⊢
  show t.due + config.intervalMs.toNat = _
  rw [hdue, Nat.add_assoc, ← Nat.succ_mul]

/-- Whether a confirmation belongs to the epoch of a life. -/
def Confirmation.IsFor (life epoch : Nat) (t : Confirmation) : Prop :=
  t.life = life ∧ t.epoch = epoch

instance (life epoch : Nat) : DecidablePred (Confirmation.IsFor life epoch) :=
  fun _ => inferInstanceAs (Decidable (_ ∧ _))

namespace View

/-- The confirmations of the suspension that a consumer is in. -/
def pending (v : View) (c : Consumer) : Multiset Confirmation :=
  v.tasks.filter (Confirmation.IsFor v.life c.epoch)

/-- A suspending consumer has one pending confirmation, which is on schedule; any other consumer has
none. -/
def Tracks (config : Config) (v : View) (c : Consumer) : Prop :=
  if c.state = .suspending then
    ∃ t began, v.pending c = {t} ∧ c.lastTransition = some began ∧ began ≤ v.now ∧
      t.due = Confirmation.turn config began t.attempts
  else v.pending c = 0

/-- No confirmation is late, and what is pending is what the registered consumer waits for. -/
structure Tracked (config : Config) (v : View) : Prop where
  early : ∀ t ∈ v.tasks, v.now ≤ t.due
  soon : ∀ t ∈ v.tasks, t.due ≤ v.now + config.intervalMs.toNat
  picked : ∀ p, v.poll = some p → p.task.due ≤ v.now
  attempts : ∀ t ∈ v.tasks, t.attempts = 0 ∨ t.attempts < config.maxRetries.toNat
  tracks : ∀ c, v.consumer = some c → v.Tracks config c

variable {config : Config} {id : ConsumerId} {v v' : View} {c c' : Consumer}

theorem initial_tracked (policy : Policy) : (View.initial policy).Tracked config where
  early := fun t ht => by simp [View.initial, tasks] at ht
  soon := fun t ht => by simp [View.initial, tasks] at ht
  picked := fun p hp => by cases hp
  attempts := fun t ht => by simp [View.initial, tasks] at ht
  tracks := fun c hc => by cases hc

/-- A confirmation that begins to wait is one more that is running. -/
theorem tasks_of_waiting {t : Confirmation} (hpoll : v'.poll = v.poll)
    (hwaiting : v'.waiting = t ::ₘ v.waiting) : v'.tasks = t ::ₘ v.tasks := by
  rw [tasks, tasks, hpoll, hwaiting]
  cases v.poll with
  | none => rfl
  | some p => exact Multiset.cons_swap p.task t v.waiting

/-! ### Keeping track -/

/-- Nothing is pending for an epoch that has just begun. -/
theorem Sound.pending_eq_zero (h : v.Sound id) (hreg : v.consumer = some c)
    (hepoch : c.epoch < c'.epoch) (hlife : v'.life = v.life)
    (htasks : ∀ t ∈ v'.tasks, t ∈ v.tasks) : v'.pending c' = 0 := by
  refine Multiset.filter_eq_nil.2 fun t ht hpending => ?_
  obtain ⟨c₁, hc₁, hstarted⟩ := (h.tasks t (htasks t ht)).2.2 (hpending.1.trans hlife)
  rw [hreg, Option.some.injEq] at hc₁
  have hle : t.epoch ≤ c.epoch := hc₁ ▸ hstarted.epoch
  exact absurd hepoch (by rw [← hpending.2]; exact Nat.not_lt.2 hle)

theorem tracks_of_ne (hstate : c.state ≠ .suspending) (h : v.pending c = 0) :
    v.Tracks config c := by
  rw [Tracks, if_neg hstate]
  exact h

/-- Track is kept of a consumer as long as it stays in its state and the same confirmations are
pending. -/
theorem Tracks.of_eq (h : v.Tracks config c) (hnow : v.now ≤ v'.now)
    (hpending : v'.pending c' = v.pending c) (hstate : c'.state = c.state)
    (hlast : c'.lastTransition = c.lastTransition) : v'.Tracks config c' := by
  rw [Tracks] at h ⊢
  rw [hpending, hstate, hlast]
  split at h
  · rename_i hsuspending
    rw [if_pos hsuspending]
    obtain ⟨t, began, hpending, hbegan, hle, hdue⟩ := h
    exact ⟨t, began, hpending, hbegan, Nat.le_trans hle hnow, hdue⟩
  · rename_i hstate
    rw [if_neg hstate]
    exact h

/-- A confirmation that is superseded is not pending. -/
theorem not_isFor_of_subject? {t : Confirmation} (hreg : v.consumer = some c)
    (hrunning : c.shutDown = false) (hover : v.subject? t = none) : ¬t.IsFor v.life c.epoch := by
  rintro ⟨hlife, hepoch⟩
  rw [subject?, hreg, Option.filter_eq_none_iff] at hover
  refine hover c rfl ?_
  simp [hlife, hrunning, hepoch]

/-- What is running is neither late nor early as long as the same is running at the same time. -/
theorem Tracked.of_running_eq (h : v.Tracked config) (hnow : v'.now = v.now)
    (hwaiting : v'.waiting = v.waiting) (hpoll : v'.poll = v.poll)
    (htracks : ∀ c, v'.consumer = some c → v'.Tracks config c) : v'.Tracked config := by
  have htasks : v'.tasks = v.tasks := by rw [tasks, tasks, hwaiting, hpoll]
  exact ⟨fun t ht => hnow ▸ h.early t (htasks ▸ ht), fun t ht => hnow ▸ h.soon t (htasks ▸ ht),
    fun p hp => hnow ▸ h.picked p (hpoll ▸ hp), fun t ht => h.attempts t (htasks ▸ ht), htracks⟩

/-- What a delivery does keeps track. -/
theorem Effect.tracked (h : Effect config id v v') (hv : v.Sound id) (htracked : v.Tracked config) :
    v'.Tracked config := by
  cases h with
  | install p => exact htracked.of_running_eq rfl rfl rfl htracked.tracks
  | @register client c hfree hid hwrap =>
    refine htracked.of_running_eq rfl rfl rfl fun c₁ hc₁ => ?_
    cases hc₁
    obtain ⟨group, mode, -, rfl⟩ := Consumer.wrap_eq_ok hwrap
    refine tracks_of_ne Membership.noConfusion (Multiset.filter_eq_nil.2 fun t ht hpending => ?_)
    obtain ⟨c₁, hc₁, -⟩ := (hv.tasks t ht).2.2 hpending.1
    rw [hfree] at hc₁
    cases hc₁
  | @revise c c' change hreg happly =>
    refine htracked.of_running_eq rfl rfl rfl fun c₁ hc₁ => ?_
    cases hc₁
    obtain ⟨mode, topics, assigned, rfl, -⟩ := Consumer.apply_frame happly
    exact (htracked.tracks c hreg).of_eq (Nat.le_refl _) rfl rfl rfl
  | remove hreg =>
    refine htracked.of_running_eq rfl rfl rfl fun c hc => ?_
    cases hc
  | @drive c d tr o hreg htransit =>
    rcases htransit.course with ⟨hstay, hstate, hepoch, hlast⟩ | ⟨hleave, hmode, hstate, hleft⟩ |
      ⟨hstay, -, hstate, hepoch⟩
    · rw [driven, hstay]
      refine htracked.of_running_eq rfl rfl rfl fun c₁ hc₁ => ?_
      cases hc₁
      refine (htracked.tracks c hreg).of_eq (Nat.le_refl _) ?_ hstate hlast
      rw [pending, hepoch]
      rfl
    · rw [driven, hleave]
      generalize hstart : Confirmation.start config v.now v.life o.consumer = t
      have hdue : t.due = Confirmation.turn config v.now 0 :=
        hstart ▸ Confirmation.start_due config v.now v.life o.consumer
      have htasks : ∀ {consumer : Option Consumer} {record : Log},
          ({ v with consumer, waiting := t ::ₘ v.waiting, record } : View).tasks = t ::ₘ v.tasks :=
        tasks_of_waiting rfl rfl
      refine ⟨fun u hu => ?_, fun u hu => ?_, htracked.picked, fun u hu => ?_, fun c₁ hc₁ => ?_⟩
      · rcases Multiset.mem_cons.1 (htasks ▸ hu) with rfl | hold
        · show v.now ≤ u.due
          rw [hdue]
          exact Confirmation.le_turn ..
        · exact htracked.early u hold
      · rcases Multiset.mem_cons.1 (htasks ▸ hu) with rfl | hold
        · show u.due ≤ v.now + config.intervalMs.toNat
          rw [hdue]
          exact Confirmation.turn_zero_le ..
        · exact htracked.soon u hold
      · rcases Multiset.mem_cons.1 (htasks ▸ hu) with rfl | hold
        · exact .inl (hstart ▸ rfl)
        · exact htracked.attempts u hold
      · cases hc₁
        rw [Tracks, if_pos (by rw [hleft]; rfl)]
        refine ⟨t, v.now, ?_, by rw [hleft]; rfl, Nat.le_refl _, ?_⟩
        · have hothers : v.pending o.consumer = 0 :=
            hv.pending_eq_zero hreg (hleft ▸ Nat.lt_succ_self _) rfl fun u hu => hu
          rw [pending, if_pos rfl, htasks, Multiset.filter_cons_of_pos _ (hstart ▸ ⟨rfl, rfl⟩)]
          exact congrArg (t ::ₘ ·) hothers
        · rw [hdue, ← hstart]
          rfl
    · rw [driven, hstay]
      refine htracked.of_running_eq rfl rfl rfl fun c₁ hc₁ => ?_
      cases hc₁
      exact tracks_of_ne hstate (hv.pending_eq_zero hreg (hepoch ▸ Nat.lt_succ_self _) rfl
        fun t ht => ht)

/-- Track is kept when the same confirmations are running, for the same consumer. -/
theorem Tracked.of_tasks_eq (h : v.Tracked config) (hnow : v'.now = v.now)
    (hlife : v'.life = v.life) (hreg : v'.consumer = v.consumer) (htasks : v'.tasks = v.tasks)
    (hpicked : ∀ p, v'.poll = some p → p.task.due ≤ v.now) : v'.Tracked config where
  early := fun t ht => hnow ▸ h.early t (htasks ▸ ht)
  soon := fun t ht => hnow ▸ h.soon t (htasks ▸ ht)
  picked := fun p hp => hnow ▸ hpicked p hp
  attempts := fun t ht => h.attempts t (htasks ▸ ht)
  tracks := fun c hc => by
    refine (h.tracks c (hreg ▸ hc)).of_eq (Nat.le_of_eq hnow.symm) ?_ rfl rfl
    rw [pending, pending, htasks, hlife]

/-- Track is kept when a poll is over and its consumer has moved on. -/
theorem Tracked.of_moved_on (h : v.Tracked config) (hv : v.Sound id) (hreg : v.consumer = some c)
    (hepoch : c.epoch < c'.epoch) (hstate : c'.state ≠ .suspending) (hnow : v'.now = v.now)
    (hlife : v'.life = v.life) (hreg' : v'.consumer = some c') (hpoll : v'.poll = none)
    (htasks : ∀ t ∈ v'.tasks, t ∈ v.tasks) : v'.Tracked config where
  early := fun t ht => hnow ▸ h.early t (htasks t ht)
  soon := fun t ht => hnow ▸ h.soon t (htasks t ht)
  picked := fun p hp => by
    rw [hpoll] at hp
    cases hp
  attempts := fun t ht => h.attempts t (htasks t ht)
  tracks := fun c₁ hc₁ => by
    rw [hreg', Option.some.injEq] at hc₁
    subst hc₁
    exact tracks_of_ne hstate (hv.pending_eq_zero hreg hepoch hlife htasks)

/-- **Every step keeps track of the suspending consumer.** -/
theorem Step.tracked (h : Step config id v v') (hv : v.Sound id) (htracked : v.Tracked config) :
    v'.Tracked config := by
  cases h with
  | deliver d hwithin heffects =>
    have hboth := heffects.keeps (P := fun w => w.Sound id ∧ w.Tracked config)
      (fun heffect hw => ⟨heffect.sound hw.1, heffect.tracked hw.1 hw.2⟩)
      ⟨hv.receive d, htracked.of_running_eq rfl rfl rfl htracked.tracks⟩
    exact hboth.2
  | @tick now hidle hle hdue =>
    have htasks : v.tasks = v.waiting := tasks_of_idle hidle
    refine ⟨fun t ht => ?_,
      fun t ht => Nat.le_trans (htracked.soon t ht) (Nat.add_le_add_right hle _),
      fun p hp => Nat.le_trans (htracked.picked p hp) hle,
      htracked.attempts, fun c hc => (htracked.tracks c hc).of_eq hle rfl rfl rfl⟩
    rcases hdue with rfl | hdue
    · exact htracked.early t ht
    · exact hdue t (htasks ▸ ht)
  | @pick t rest hidle hwaiting hdue =>
    have htasks : v.tasks = t ::ₘ rest := (tasks_of_idle hidle).trans hwaiting
    refine htracked.of_tasks_eq rfl rfl rfl htasks.symm fun p hp => ?_
    cases hp
    exact hdue
  | @ask t topic ok hpoll hentitled =>
    have hdue : t.due ≤ v.now := htracked.picked _ hpoll
    refine htracked.of_tasks_eq rfl rfl rfl (by rw [tasks, tasks, hpoll]) fun p hp => ?_
    cases hp
    exact hdue
  | @answer t topic members hpoll =>
    have hdue : t.due ≤ v.now := htracked.picked _ hpoll
    refine htracked.of_tasks_eq rfl rfl rfl (by rw [tasks, tasks, hpoll]) fun p hp => ?_
    cases hp
    exact hdue
  | @discard p hpoll hover =>
    have htasks : v.tasks = p.task ::ₘ v.waiting := tasks_of_poll hpoll
    have hold : ∀ t ∈ v.waiting, t ∈ v.tasks :=
      fun t ht => htasks ▸ Multiset.mem_cons_of_mem ht
    refine ⟨fun t ht => htracked.early t (hold t ht), fun t ht => htracked.soon t (hold t ht),
      fun q hq => ?_,
      fun t ht => htracked.attempts t (hold t ht), fun c hc => ?_⟩
    · cases hq
    -- a confirmation that is discarded was not pending
    refine (htracked.tracks c hc).of_eq (Nat.le_refl _) ?_ rfl rfl
    rw [pending, pending, htasks, Multiset.filter_cons_of_neg _
      (not_isFor_of_subject? hc (hv.consumer c hc).running hover)]
    rfl
  | @confirm t c hpoll hlive =>
    exact htracked.of_moved_on hv (of_subject? hlive).1 (Nat.lt_succ_self _)
      Membership.noConfusion rfl rfl rfl rfl fun u hu => mem_tasks_of_waiting hu
  | @retry t hpoll hleft =>
    have htasks : v.tasks = t ::ₘ v.waiting := tasks_of_poll hpoll
    have ht : t ∈ v.tasks := htasks ▸ Multiset.mem_cons_self t _
    have hnow : v.now = t.due := Nat.le_antisymm (htracked.early t ht) (htracked.picked _ hpoll)
    refine ⟨fun u hu => ?_, fun u hu => ?_, fun p hp => ?_, fun u hu => ?_, fun c hc => ?_⟩
    · rcases Multiset.mem_cons.1 hu with rfl | hold
      · exact Nat.le_add_right ..
      · exact htracked.early u (htasks ▸ Multiset.mem_cons_of_mem hold)
    · rcases Multiset.mem_cons.1 hu with rfl | hold
      · exact Nat.le_refl _
      · exact htracked.soon u (htasks ▸ Multiset.mem_cons_of_mem hold)
    · cases hp
    · rcases Multiset.mem_cons.1 hu with rfl | hold
      · exact .inr hleft
      · exact htracked.attempts u (htasks ▸ Multiset.mem_cons_of_mem hold)
    · have htracks := htracked.tracks c hc
      by_cases hlive : t.IsFor v.life c.epoch
      -- the confirmation stays the one that is pending, and on schedule
      · rw [Tracks, pending, htasks, Multiset.filter_cons_of_pos _ hlive] at htracks
        split at htracks
        · rename_i hsuspending
          obtain ⟨u, began, hpending, hbegan, hle, hdue⟩ := htracks
          obtain ⟨rfl, hothers⟩ := (Multiset.singleton_eq_cons_iff _).1 hpending.symm
          rw [Tracks, if_pos hsuspending]
          refine ⟨u.again config v.now, began, ?_, hbegan, hle, ?_⟩
          · have hagain : (u.again config v.now).IsFor v.life c.epoch := hlive
            exact (Multiset.filter_cons_of_pos _ hagain).trans (congrArg (_ ::ₘ ·) hothers)
          · rw [hnow]
            exact Confirmation.again_due hdue hleft
        · cases Multiset.cons_ne_zero htracks
      -- one that was superseded stays so
      · refine htracks.of_eq (Nat.le_refl _) ?_ rfl rfl
        rw [pending, pending, htasks, Multiset.filter_cons_of_neg _ hlive]
        have hagain : ¬(t.again config v.now).IsFor v.life c.epoch := hlive
        exact Multiset.filter_cons_of_neg _ hagain
  | @rollBack t c c' tr hpoll hover hlive hyields =>
    have hmoved : c.epoch < c'.epoch ∧ c'.state ≠ .suspending := by
      rcases Consumer.rollBack_yields hyields with ⟨-, rfl⟩ | ⟨ok, -, rfl⟩ <;>
        exact ⟨Nat.lt_succ_self _, Membership.noConfusion⟩
    exact htracked.of_moved_on hv (of_subject? hlive).1 hmoved.1 hmoved.2 rfl rfl rfl rfl
      fun u hu => mem_tasks_of_waiting hu

theorem Reach.tracked {policy : Policy} (h : Reach config id (.initial policy) v) :
    v.Tracked config := by
  have hkeeps : ∀ {v v' : View}, Step config id v v' →
      v.Sound id ∧ v.Tracked config → v'.Sound id ∧ v'.Tracked config :=
    fun hstep hv => ⟨hstep.sound hv.1, hstep.tracked hv.1 hv.2⟩
  exact (h.keeps hkeeps ⟨initial_sound policy id, initial_tracked policy⟩).2

end View

/-! ### Suspensions in a run -/

/-- The running confirmations of the suspension that a registered consumer is in. -/
def State.awaited {ω : Type} (s : State ω) (id : ConsumerId) (c : Consumer) :
    List Confirmation :=
  s.confirmations.filter fun t => t.id = id ∧ t.IsFor (s.life id) c.epoch

namespace Controller

variable {ω : Type} {k : Controller ω} {policy : Policy} {memory : ω} {s s' : State ω}
  {id : ConsumerId} {c : Consumer}

theorem Reachable.tracked (h : k.Reachable policy memory s) (id : ConsumerId) :
    (Moment.view (s, none) id).Tracked k.config :=
  View.Reach.tracked (h.reach id)

theorem mem_tasks_view {t : Confirmation} (ht : t ∈ s.confirmations) :
    t ∈ (Moment.view (s, none) t.id).tasks :=
  List.mem_filter.2 ⟨ht, by simp⟩

theorem within_of_tracked (h : ∀ id, (Moment.view (s, none) id).Tracked k.config) :
    k.Within s := by
  intro t ht
  rcases (h t.id).attempts t (mem_tasks_view ht) with hzero | hlt
  · exact hzero ▸ Nat.zero_le _
  · exact Nat.le_of_lt hlt

theorem Reachable.within (h : k.Reachable policy memory s) : k.Within s :=
  within_of_tracked h.tracked

/-- What a state holds of a suspension is what is pending. -/
theorem coe_awaited (s : State ω) (id : ConsumerId) (c : Consumer) :
    (s.awaited id c : Multiset Confirmation) = (Moment.view (s, none) id).pending c := by
  show _ = Multiset.filter _ (waitingFor id s.confirmations)
  rw [waitingFor, Multiset.filter_coe, List.filter_filter, State.awaited]
  congr 2
  funext t
  rw [Bool.and_comm]
  exact Bool.decide_and _ _

/-- A suspending consumer waits for one confirmation, which is on schedule and not due yet. -/
theorem Reachable.awaited_of_suspending (h : k.Reachable policy memory s)
    (hreg : s.consumer? id = some c) (hstate : c.state = .suspending) :
    ∃ t began, s.awaited id c = [t] ∧ c.lastTransition = some began ∧ began ≤ s.now ∧
      t.due = Confirmation.turn k.config began t.attempts ∧ s.now < t.due ∧
      (t.attempts = 0 ∨ t.attempts < k.config.maxRetries.toNat) := by
  have htracked := h.tracked id
  have htracks := htracked.tracks c hreg
  rw [View.Tracks, if_pos hstate] at htracks
  obtain ⟨t, began, hpending, hbegan, hle, hdue⟩ := htracks
  rw [← coe_awaited, Multiset.coe_eq_singleton] at hpending
  have ht : t ∈ s.awaited id c := hpending ▸ List.mem_singleton_self t
  obtain ⟨hmem, hfor⟩ := List.mem_filter.1 ht
  have hid : t.id = id := (of_decide_eq_true hfor).1
  exact ⟨t, began, hpending, hbegan, hle, hdue, h.settled t hmem,
    (hid ▸ htracked).attempts t (hid ▸ mem_tasks_view hmem)⟩

/-- A consumer in any other state waits for none. -/
theorem Reachable.awaited_of_ne_suspending (h : k.Reachable policy memory s)
    (hreg : s.consumer? id = some c) (hstate : c.state ≠ .suspending) : s.awaited id c = [] := by
  have htracks := (h.tracked id).tracks c hreg
  rw [View.Tracks, if_neg hstate] at htracks
  exact (Multiset.coe_eq_zero _).1 ((coe_awaited s id c).trans htracks)

/-- The schedule of the confirmation that a suspending consumer waits for. -/
theorem Reachable.schedule (h : k.Reachable policy memory s) (hreg : s.consumer? id = some c)
    (hstate : c.state = .suspending) :
    ∃ t began, s.awaited id c = [t] ∧ c.lastTransition = some began ∧ began ≤ s.now ∧
      t.attempts < k.config.maxRetries.toNat ∧
      t.due = began + (t.attempts + 1) * k.config.intervalMs.toNat ∧ s.now < t.due ∧
      s.now < began + k.config.intervalMs.toNat * k.config.maxRetries.toNat := by
  obtain ⟨t, began, hawaited, hbegan, hle, hdue, hlate, hattempts⟩ :=
    h.awaited_of_suspending hreg hstate
  -- without polls to make it would have gone on at once
  have hsome : k.config.maxRetries ≠ 0 := by
    intro hzero
    rw [hdue, Confirmation.turn, if_pos hzero] at hlate
    exact absurd hlate (Nat.not_lt.2 hle)
  rw [Confirmation.turn, if_neg hsome] at hdue
  have hpolls : t.attempts < k.config.maxRetries.toNat := by
    rcases hattempts with hzero | hlt
    · rw [hzero]
      exact Nat.pos_of_ne_zero fun h => hsome (UInt32.toNat_inj.1 h)
    · exact hlt
  refine ⟨t, began, hawaited, hbegan, hle, hpolls, hdue, hlate, ?_⟩
  calc s.now < began + (t.attempts + 1) * k.config.intervalMs.toNat := hdue ▸ hlate
    _ ≤ began + k.config.maxRetries.toNat * k.config.intervalMs.toNat :=
        Nat.add_le_add_left (Nat.mul_le_mul_right _ hpolls) _
    _ = began + k.config.intervalMs.toNat * k.config.maxRetries.toNat := by
        rw [Nat.mul_comm]

/-- When nothing is waited for any more, nothing is running and nobody is suspending. -/
theorem Reachable.after_wait (h : k.Reachable policy memory s) {patience : Nat}
    (hreact : k.react patience s .wait = some s') :
    s'.confirmations = [] ∧ ∀ id c, s'.consumer? id = some c → c.state ≠ .suspending := by
  have hnone : s'.confirmations = [] := by
    rw [react, Option.bind_eq_some_iff] at hreact
    obtain ⟨s₁, hwait, hsettle⟩ := hreact
    have hnone₁ := (wait_leads h.keyed hwait).2
    have hnext : Confirmation.takeNext (some (s₁.now + 0)) s₁.confirmations = none := by
      rw [hnone₁]
      rfl
    rw [settle, advance, Option.map_eq_some_iff] at hsettle
    obtain ⟨s₂, hrun, rfl⟩ := hsettle
    cases hfuel : k.budget patience s₁ <;> rw [hfuel, runUntil, hnext] at hrun <;> cases hrun <;>
      exact hnone₁
  refine ⟨hnone, fun id c hreg hstate => ?_⟩
  have hreach := (h.reach id).trans (((react_leads h.keyed hreact).1 h.keyed).2 id)
  have htracks := (View.Reach.tracked hreach).tracks c hreg
  rw [View.Tracks, if_pos hstate] at htracks
  obtain ⟨t, began, hpending, -⟩ := htracks
  rw [← coe_awaited, State.awaited, hnone] at hpending
  exact Multiset.zero_ne_singleton t hpending

/-- **No consumer stays half suspended.**  In every state between inputs, a registered consumer is
suspending exactly when one confirmation waits for its suspension, and none waits otherwise.  That
confirmation has polls left, its next one is an interval after its last one, and the suspension is
over after all of them, in whatever run; without polls, or without time between them, nobody is
ever seen suspending.  After a wait nothing is running.  Inputs do lead to states: always when
clients are quiet, and with patience when polls take time; and these are not stuck when commands
return. -/
theorem Reachable.suspension_ends (h : k.Reachable policy memory s) :
    (∀ id c, s.consumer? id = some c →
      (c.state = .suspending ↔ ∃ t, s.awaited id c = [t]) ∧
      (c.state ≠ .suspending → s.awaited id c = []) ∧
      (c.state = .suspending → ∃ t began, s.awaited id c = [t] ∧ c.lastTransition = some began ∧
        began ≤ s.now ∧ t.attempts < k.config.maxRetries.toNat ∧
        t.due = began + (t.attempts + 1) * k.config.intervalMs.toNat ∧ s.now < t.due ∧
        s.now < began + k.config.intervalMs.toNat * k.config.maxRetries.toNat ∧
        ∀ patience inputs s' c', k.run patience s inputs = some s' → s'.consumer? id = some c' →
          began + k.config.intervalMs.toNat * k.config.maxRetries.toNat ≤ s'.now →
          ¬(c'.state = .suspending ∧ c'.lastTransition = some began)) ∧
      (k.config.intervalMs = 0 ∨ k.config.maxRetries = 0 → c.state ≠ .suspending)) ∧
    (∀ patience s', k.react patience s .wait = some s' →
      s'.confirmations = [] ∧ ∀ id c, s'.consumer? id = some c → c.state ≠ .suspending) ∧
    (k.environment.Quiet → ∀ patience i, ∃ s', k.react patience s i = some s' ∧
      (k.environment.Prompt → s'.stuck = false)) ∧
    (k.config.intervalMs ≠ 0 → ∀ i, i ≠ .wait → ∃ patience s', k.react patience s i = some s' ∧
      (k.environment.Prompt → s'.stuck = false)) := by
  refine ⟨fun id c hreg => ⟨⟨fun hstate => ?_, fun hawaited => ?_⟩, fun hstate => ?_,
    fun hstate => ?_, fun hzero hstate => ?_⟩, fun patience s' hreact => h.after_wait hreact,
    fun hquiet patience i => ?_, fun hinterval i hi => ?_⟩
  · obtain ⟨t, began, hawaited, -⟩ := h.schedule hreg hstate
    exact ⟨t, hawaited⟩
  · obtain ⟨t, hawaited⟩ := hawaited
    by_contra hstate
    rw [h.awaited_of_ne_suspending hreg hstate] at hawaited
    cases hawaited
  · exact h.awaited_of_ne_suspending hreg hstate
  · obtain ⟨t, began, hawaited, hbegan, hle, hpolls, hdue, hlate, hbound⟩ := h.schedule hreg hstate
    refine ⟨t, began, hawaited, hbegan, hle, hpolls, hdue, hlate, hbound, ?_⟩
    rintro patience inputs s' c' hrun hreg' hover ⟨hstate', hbegan'⟩
    obtain ⟨t', began', -, hlast, -, -, -, -, hbound'⟩ := (h.run hrun).schedule hreg' hstate'
    rw [hbegan', Option.some.injEq] at hlast
    exact absurd hbound' (Nat.not_lt.2 (hlast ▸ hover))
  · obtain ⟨t, began, -, -, hle, -, -, -, hbound⟩ := h.schedule hreg hstate
    have hnothing : k.config.intervalMs.toNat * k.config.maxRetries.toNat = 0 := by
      rcases hzero with hzero | hzero <;> rw [hzero]
      · exact Nat.zero_mul _
      · exact Nat.mul_zero _
    rw [hnothing] at hbound
    exact absurd hbound (Nat.not_lt.2 hle)
  · obtain ⟨s', hreact⟩ := react_isSome_of_quiet hquiet patience i h.within
    exact ⟨s', hreact, fun henv => (react_stuck henv hreact).trans h.not_stuck⟩
  · obtain ⟨patience, s', hreact⟩ := exists_react_eq_some
      (Nat.pos_of_ne_zero fun h => hinterval (UInt64.toNat_inj.1 h)) s hi
    exact ⟨patience, s', hreact, fun henv => (react_stuck henv hreact).trans h.not_stuck⟩

/-- The newcomer's exit is confirmed by one confirmation, which is on schedule. -/
theorem Reachable.suspension_ends_of_newcomer :
    ∃ s c, Rehearsal.stage.run 0 (.initial (.prohibiting ["t"]) {}) Rehearsal.entrance = some s ∧
      s.consumer? Rehearsal.newcomer.id = some c ∧ c.state = .suspending ∧
      ∃ t began, s.awaited Rehearsal.newcomer.id c = [t] ∧ c.lastTransition = some began ∧
        t.attempts < Rehearsal.stage.config.maxRetries.toNat ∧
        t.due = began + (t.attempts + 1) * Rehearsal.stage.config.intervalMs.toNat ∧
        s.now < t.due := by
  obtain ⟨s, c, hrun, hreg, hstate, -⟩ := Rehearsal.entrance_suspends
  have hreachable : Rehearsal.stage.Reachable (.prohibiting ["t"]) {} s := Reachable.start.run hrun
  obtain ⟨t, began, hawaited, hbegan, -, hpolls, hdue, hlate, -⟩ :=
    (hreachable.suspension_ends.1 _ c hreg).2.2.1 hstate
  exact ⟨s, c, hrun, hreg, hstate, t, began, hawaited, hbegan, hpolls, hdue, hlate⟩

end Controller

end Embargo
