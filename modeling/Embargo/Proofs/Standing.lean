import Embargo.Proofs.Simulation

/-!
# What always holds of a consumer

Whatever is delivered, and however calls are answered, some facts about a consumer and about what
belongs to it never change.  They are the ground on which the theorems about single consumers stand.

* `Consumer.Continues` — a consumer as it goes on: the same client in the same group, with its mode
  fixed for good and its epoch never going back;
* `Consumer.Sound` — a registered consumer is not shut down, has done nothing before it has a mode,
  and leaves a group only when it subscribes;
* `View.Sound` — confirmations and calls belong to the registered consumer or to one that has been
  removed;
* `View.Step.sound`, `Controller.Reachable.sound` — every step keeps this, and so does every run.
-/

namespace Embargo

/-! ### Consumers that go on -/

namespace Consumer

/-- A consumer as it goes on. -/
structure Continues (c c' : Consumer) : Prop where
  client : c'.client = c.client
  group : c'.group = c.group
  epoch : c.epoch ≤ c'.epoch
  mode : ∀ m, c.mode = some m → c'.mode = some m

/-- What holds of every registered consumer. -/
structure Sound (c : Consumer) : Prop where
  running : c.shutDown = false
  modeless : c.mode = none → c.state = .active ∧ ∀ t, t ∉ c.topics
  suspending : c.state = .suspending → c.mode = some .subscribe

variable {now : Nat} {c c' : Consumer}

theorem wrap_sound {client : Client} (h : wrap client = .ok c) : c.Sound := by
  obtain ⟨group, mode, -, rfl⟩ := wrap_eq_ok h
  refine ⟨rfl, fun _ => ⟨rfl, fun t ht => ?_⟩, fun hstate => by cases hstate⟩
  exact Std.ExtTreeSet.not_mem_empty ht

theorem apply_continues {change : Change} (h : c.apply change = .ok c') : c.Continues c' := by
  obtain ⟨mode, topics, assigned, rfl, hmode⟩ := apply_frame h
  refine ⟨rfl, rfl, Nat.le_refl _, fun m hm => ?_⟩
  rcases hmode with hnone | hsame
  · rw [hnone] at hm
    cases hm
  · exact hsame.trans hm

theorem apply_sound {change : Change} (hsound : c.Sound) (h : c.apply change = .ok c') :
    c'.Sound := by
  have hcontinues := apply_continues h
  have hmodeless := apply_modeless h
  obtain ⟨mode, topics, assigned, rfl, -⟩ := apply_frame h
  refine ⟨hsound.running, fun hmode => ?_, fun hstate => ?_⟩
  · obtain ⟨hnone, htopics⟩ := hmodeless hmode
    obtain ⟨hstate, hempty⟩ := hsound.modeless hnone
    exact ⟨hstate, fun t ht => hempty t (htopics t ht)⟩
  · exact hcontinues.mode _ (hsound.suspending hstate)

theorem transition_continues (now : Nat) (c : Consumer) (state : Membership) :
    c.Continues (c.transition now state) :=
  ⟨rfl, rfl, Nat.le_succ _, fun _ hm => hm⟩

/-- Entering a state that only subscribing consumers are in needs that mode. -/
theorem transition_sound {state : Membership} (hsound : c.Sound) (hmode : c.mode ≠ none)
    (hsuspending : state = .suspending → c.mode = some .subscribe) :
    (c.transition now state).Sound :=
  ⟨hsound.running, fun hnone => absurd hnone hmode, hsuspending⟩

/-- What becomes of state and epoch when a decision is carried out: nothing; or the consumer leaves
its group; or it enters a state in which nothing is waited for. -/
theorem Transit.course {d : Decision} {tr : Trace} {o : Outcome} (h : c.Transit now d tr o) :
    (o.leaving = false ∧ o.consumer.state = c.state ∧ o.consumer.epoch = c.epoch ∧
        o.consumer.lastTransition = c.lastTransition) ∨
      (o.leaving = true ∧ c.mode = some .subscribe ∧ c.state = .active ∧
        o.consumer = c.transition now .suspending) ∨
      (o.leaving = false ∧ c.mode ≠ none ∧ o.consumer.state ≠ .suspending ∧
        o.consumer.epoch = c.epoch + 1) := by
  cases h with
  | left ok hmode hstate => exact .inr (.inl ⟨rfl, hmode, hstate, rfl⟩)
  | rejoined ok hmode =>
    exact .inr (.inr ⟨rfl, Option.ne_none_iff_exists'.2 ⟨_, hmode⟩, Membership.noConfusion, rfl⟩)
  | resumed hmode =>
    exact .inr (.inr ⟨rfl, Option.ne_none_iff_exists'.2 ⟨_, hmode⟩, Membership.noConfusion, rfl⟩)
  | paused ok hmode =>
    obtain ⟨paused, hreleased⟩ := released_eq (c.markPaused c.unpaused.toList) c.stale.toList ok
    dsimp only
    rw [hreleased, settle]
    split
    · exact .inl ⟨rfl, rfl, rfl, rfl⟩
    · exact .inr (.inr
        ⟨rfl, Option.ne_none_iff_exists'.2 ⟨_, hmode⟩, Membership.noConfusion, rfl⟩)
  | _ => exact .inl ⟨rfl, rfl, rfl, rfl⟩

theorem Transit.continues {d : Decision} {tr : Trace} {o : Outcome} (h : c.Transit now d tr o) :
    c.Continues o.consumer := by
  have hepoch : c.epoch ≤ o.consumer.epoch := by
    rcases h.course with ⟨-, -, hsame, -⟩ | ⟨-, -, -, hleft⟩ | ⟨-, -, -, hnext⟩
    · exact Nat.le_of_eq hsame.symm
    · rw [hleft]
      exact Nat.le_succ _
    · exact hnext ▸ Nat.le_succ _
  obtain ⟨paused, state, epoch, last, hframe⟩ := h.frame
  rw [hframe] at hepoch ⊢
  exact ⟨rfl, rfl, hepoch, fun _ hm => hm⟩

theorem Transit.sound {d : Decision} {tr : Trace} {o : Outcome} (hsound : c.Sound)
    (h : c.Transit now d tr o) : o.consumer.Sound := by
  obtain ⟨paused, state, epoch, last, hframe⟩ := h.frame
  rcases h.course with ⟨-, hstate, -⟩ | ⟨-, hmode, -, hleft⟩ | ⟨-, hmode, hstate, -⟩
  · rw [hframe] at hstate ⊢
    exact ⟨hsound.running, fun hnone => ⟨hstate.trans (hsound.modeless hnone).1,
      (hsound.modeless hnone).2⟩, fun hs => hsound.suspending (hstate.symm.trans hs)⟩
  · rw [hleft]
    exact transition_sound hsound (Option.ne_none_iff_exists'.2 ⟨_, hmode⟩) fun _ => hmode
  · rw [hframe] at hstate ⊢
    exact ⟨hsound.running, fun hnone => absurd hnone hmode, fun hs => absurd hs hstate⟩

theorem rollBack_continues {tr : Trace} (h : (c.rollBack now).Yields tr c') :
    c.Continues c' := by
  rcases rollBack_yields h with ⟨-, rfl⟩ | ⟨ok, -, rfl⟩ <;> exact transition_continues now c _

theorem rollBack_sound {tr : Trace} (hsound : c.Sound) (hmode : c.mode ≠ none)
    (h : (c.rollBack now).Yields tr c') : c'.Sound := by
  rcases rollBack_yields h with ⟨-, rfl⟩ | ⟨ok, -, rfl⟩ <;>
    exact transition_sound hsound hmode fun h => by cases h

end Consumer

/-! ### What belongs to a consumer -/

/-- A confirmation was started by a consumer. -/
structure Confirmation.StartedBy (c : Consumer) (t : Confirmation) : Prop where
  client : t.client = c.client
  group : t.group = c.group
  epoch : t.epoch ≤ c.epoch
  mode : c.mode = some .subscribe

theorem Confirmation.StartedBy.continue {c c' : Consumer} {t : Confirmation}
    (h : t.StartedBy c) (hcontinues : c.Continues c') : t.StartedBy c' where
  client := h.client.trans hcontinues.client.symm
  group := h.group.trans hcontinues.group.symm
  epoch := Nat.le_trans h.epoch hcontinues.epoch
  mode := hcontinues.mode _ h.mode

theorem Confirmation.StartedBy.mode_ne_none {c : Consumer} {t : Confirmation}
    (h : t.StartedBy c) : c.mode ≠ none :=
  Option.ne_none_iff_exists'.2 ⟨_, h.mode⟩

/-- The consumer that a call was made for: its client, and the how-many-eth under its identity it
is. -/
def Occurrence.wrapper? : Occurrence → Option (Client × Nat)
  | .call client life .. => some (client, life)
  | .listing client life .. => some (client, life)
  | _ => none

/-- Every entry of a trace is a call for the consumer that the trace is of. -/
theorem Program.Subject.mem_entries {s : Program.Subject} {now : Nat} {tr : Trace} {e : Event}
    (h : e ∈ s.entries now tr) :
    ∃ c ok, (c, ok) ∈ tr ∧
      e = { time := now, who := some s.client.id,
            what := .call s.client s.life (.command c) ok } := by
  obtain ⟨⟨c, ok⟩, hmem, rfl⟩ := List.mem_map.1 (List.mem_reverse.1 h)
  exact ⟨c, ok, hmem, rfl⟩

namespace View

theorem tasks_of_idle {v : View} (h : v.poll = none) : v.tasks = v.waiting := by
  rw [tasks, h]

theorem tasks_of_poll {v : View} {p : Poll} (h : v.poll = some p) :
    v.tasks = p.task ::ₘ v.waiting := by
  rw [tasks, h]

/-- A confirmation is running when it waits or is being carried out. -/
theorem mem_tasks {v : View} {t : Confirmation} :
    t ∈ v.tasks ↔ t ∈ v.waiting ∨ ∃ p, v.poll = some p ∧ p.task = t := by
  cases hpoll : v.poll with
  | none => simp [tasks_of_idle hpoll]
  | some p => simp [tasks_of_poll hpoll, or_comm, eq_comm]

theorem mem_tasks_of_waiting {v : View} {t : Confirmation} (h : t ∈ v.waiting) : t ∈ v.tasks :=
  mem_tasks.2 (.inl h)

theorem mem_tasks_of_poll {v : View} {p : Poll} (h : v.poll = some p) : p.task ∈ v.tasks :=
  mem_tasks.2 (.inr ⟨p, h, rfl⟩)

/-- What holds of everything that a state holds about an identity. -/
structure Sound (id : ConsumerId) (v : View) : Prop where
  keyed : ∀ c, v.consumer = some c → c.client.id = id
  consumer : ∀ c, v.consumer = some c → c.Sound
  /-- Confirmations belong to the registered consumer or to one that has been removed. -/
  tasks : ∀ t ∈ v.tasks, t.id = id ∧ t.life ≤ v.life ∧
    (t.life = v.life → ∃ c, v.consumer = some c ∧ t.StartedBy c)
  /-- And so do calls. -/
  record : ∀ e ∈ v.record, ∀ client life, e.what.wrapper? = some (client, life) →
    life ≤ v.life ∧ (life = v.life → ∃ c, v.consumer = some c ∧ client = c.client)

theorem initial_sound (policy : Policy) (id : ConsumerId) : (View.initial policy).Sound id where
  keyed := fun c hc => by cases hc
  consumer := fun c hc => by cases hc
  tasks := fun t ht => by simp [View.initial, View.tasks] at ht
  record := fun e he => by cases he

variable {config : Config} {id : ConsumerId} {v v' : View}

/-- The consumer that a confirmation is about is registered, and the confirmation is its latest. -/
theorem of_subject? {t : Confirmation} {c : Consumer} (h : v.subject? t = some c) :
    v.consumer = some c ∧ t.life = v.life ∧ c.shutDown = false ∧ c.epoch = t.epoch := by
  obtain ⟨hreg, hlive⟩ := Option.filter_eq_some_iff.1 h
  simp only [Bool.and_eq_true, decide_eq_true_eq, Bool.not_eq_true'] at hlive
  exact ⟨hreg, hlive.1.1, hlive.1.2, hlive.2⟩

/-- The consumer of a confirmation that is not superseded subscribes. -/
theorem Sound.startedBy {t : Confirmation} {c : Consumer} (h : v.Sound id) (ht : t ∈ v.tasks)
    (hlive : v.subject? t = some c) : t.StartedBy c := by
  obtain ⟨hreg, hlife, -, -⟩ := of_subject? hlive
  obtain ⟨c', hreg', hstarted⟩ := (h.tasks t ht).2.2 hlife
  rw [hreg, Option.some.injEq] at hreg'
  exact hreg' ▸ hstarted

/-- What goes on with the registered consumer, and adds confirmations and calls of its own only,
keeps all this. -/
theorem Sound.continue {c c' : Consumer} (h : v.Sound id) (hreg : v.consumer = some c)
    (hcontinues : c.Continues c') (hsound : c'.Sound) (hlife : v'.life = v.life)
    (hreg' : v'.consumer = some c')
    (htasks : ∀ t ∈ v'.tasks, t ∈ v.tasks ∨ t.id = id ∧ t.life = v.life ∧ t.StartedBy c')
    (hrecord : ∀ e ∈ v'.record, e ∈ v.record ∨ e.what.wrapper? = some (c.client, v.life)) :
    v'.Sound id where
  keyed := fun c₁ hc₁ => by
    rw [hreg', Option.some.injEq] at hc₁
    rw [← hc₁, hcontinues.client]
    exact h.keyed c hreg
  consumer := fun c₁ hc₁ => by
    rw [hreg', Option.some.injEq] at hc₁
    exact hc₁ ▸ hsound
  tasks := fun t ht => by
    rw [hlife]
    rcases htasks t ht with hold | ⟨hid, hlife', hstarted⟩
    · obtain ⟨hid, hle, hcurrent⟩ := h.tasks t hold
      refine ⟨hid, hle, fun heq => ⟨c', hreg', ?_⟩⟩
      obtain ⟨c₁, hc₁, hstarted⟩ := hcurrent heq
      rw [hreg, Option.some.injEq] at hc₁
      exact (hc₁ ▸ hstarted).continue hcontinues
    · exact ⟨hid, Nat.le_of_eq hlife', fun _ => ⟨c', hreg', hstarted⟩⟩
  record := fun e he client life hwrapper => by
    rw [hlife]
    rcases hrecord e he with hold | hnew
    · obtain ⟨hle, hcurrent⟩ := h.record e hold client life hwrapper
      refine ⟨hle, fun heq => ⟨c', hreg', ?_⟩⟩
      obtain ⟨c₁, hc₁, hclient⟩ := hcurrent heq
      rw [hreg, Option.some.injEq] at hc₁
      exact hclient.trans (hc₁ ▸ hcontinues.client.symm)
    · rw [hnew, Option.some.injEq, Prod.mk.injEq] at hwrapper
      obtain ⟨rfl, rfl⟩ := hwrapper
      exact ⟨Nat.le_refl _, fun _ => ⟨c', hreg', hcontinues.client.symm⟩⟩

/-- What leaves the registration alone, adds no confirmation, and adds calls of confirmations only,
keeps all this. -/
theorem Sound.rest (h : v.Sound id) (hlife : v'.life = v.life) (hreg : v'.consumer = v.consumer)
    (htasks : ∀ t ∈ v'.tasks, ∃ u ∈ v.tasks, t.client = u.client ∧ t.group = u.group ∧
      t.life = u.life ∧ t.epoch = u.epoch)
    (hrecord : ∀ e ∈ v'.record, e ∈ v.record ∨
      ∃ t ∈ v.tasks, e.what.wrapper? = some (t.client, t.life)) : v'.Sound id where
  keyed := hreg ▸ h.keyed
  consumer := hreg ▸ h.consumer
  tasks := fun t ht => by
    rw [hlife, hreg]
    obtain ⟨u, hu, hclient, hgroup, hlife', hepoch⟩ := htasks t ht
    obtain ⟨hid, hle, hcurrent⟩ := h.tasks u hu
    refine ⟨(congrArg Client.id hclient).trans hid, hlife' ▸ hle, fun heq => ?_⟩
    obtain ⟨c, hc, hstarted⟩ := hcurrent (hlife'.symm.trans heq)
    exact ⟨c, hc, hclient.trans hstarted.client, hgroup.trans hstarted.group,
      hepoch ▸ hstarted.epoch, hstarted.mode⟩
  record := fun e he client life hwrapper => by
    rw [hlife, hreg]
    rcases hrecord e he with hold | ⟨t, ht, hnew⟩
    · exact h.record e hold client life hwrapper
    · rw [hnew, Option.some.injEq, Prod.mk.injEq] at hwrapper
      obtain ⟨rfl, rfl⟩ := hwrapper
      obtain ⟨-, hle, hcurrent⟩ := h.tasks t ht
      refine ⟨hle, fun heq => ?_⟩
      obtain ⟨c, hc, hstarted⟩ := hcurrent heq
      exact ⟨c, hc, hstarted.client⟩

theorem Sound.receive (h : v.Sound id) (d : Delivery) :
    ({ v with received := d :: v.received } : View).Sound id :=
  ⟨h.keyed, h.consumer, h.tasks, h.record⟩

/-- What a delivery does keeps this. -/
theorem Effect.sound (h : Effect config id v v') (hv : v.Sound id) : v'.Sound id := by
  cases h with
  | install p => exact ⟨hv.keyed, hv.consumer, hv.tasks, hv.record⟩
  | register hfree hid hwrap =>
    -- nothing belongs to a consumer that has not been registered yet
    have hpast : ∀ {P : Consumer → Prop}, ¬∃ c, v.consumer = some c ∧ P c := by
      rintro P ⟨c, hc, -⟩
      rw [hfree] at hc
      cases hc
    refine ⟨fun c₁ hc₁ => ?_, fun c₁ hc₁ => ?_, fun t ht => ?_,
      fun e he client life hwrapper => ?_⟩
    · cases hc₁
      rw [Consumer.client_of_wrap hwrap, hid]
    · cases hc₁
      exact Consumer.wrap_sound hwrap
    · obtain ⟨hid', hle, hcurrent⟩ := hv.tasks t ht
      exact ⟨hid', hle, fun heq => absurd (hcurrent heq) hpast⟩
    · obtain ⟨hle, hcurrent⟩ := hv.record e he client life hwrapper
      exact ⟨hle, fun heq => absurd (hcurrent heq) hpast⟩
  | revise hreg happly =>
    exact hv.continue hreg (Consumer.apply_continues happly)
      (Consumer.apply_sound (hv.consumer _ hreg) happly) rfl rfl (fun t ht => .inl ht)
      fun e he => .inl he
  | remove hreg =>
    -- all that has been started or called belongs to an earlier life now
    have hpast : ∀ {life : Nat} {P : Prop}, life ≤ v.life →
        life ≤ v.life + 1 ∧ (life = v.life + 1 → P) := by
      intro life P hle
      exact ⟨Nat.le_succ_of_le hle, fun heq => absurd (heq ▸ hle) (Nat.not_succ_le_self _)⟩
    refine ⟨fun c hc => ?_, fun c hc => ?_, fun t ht => ?_, fun e he client life hwrapper => ?_⟩
    · cases hc
    · cases hc
    · exact ⟨(hv.tasks t ht).1, hpast (hv.tasks t ht).2.1⟩
    · exact hpast (hv.record e he client life hwrapper).1
  | @drive c d tr o hreg htransit =>
    refine hv.continue hreg htransit.continues (htransit.sound (hv.consumer c hreg)) rfl rfl
      (fun t ht => ?_) fun e he => ?_
    · rcases htransit.course with ⟨hstay, -⟩ | ⟨hleave, hmode, -, hleft⟩ | ⟨hstay, -⟩
      · rw [driven, hstay] at ht
        exact .inl ht
      · rw [driven, hleave] at ht
        rcases mem_tasks.1 ht with hwaiting | hpoll
        · rcases Multiset.mem_cons.1 hwaiting with rfl | hold
          · have hid : o.consumer.client.id = id := by
              rw [hleft]
              exact hv.keyed c hreg
            exact .inr ⟨hid, rfl, rfl, rfl, Nat.le_refl _, hleft ▸ hmode⟩
          · exact .inl (mem_tasks_of_waiting hold)
        · exact .inl (mem_tasks.2 (.inr hpoll))
      · rw [driven, hstay] at ht
        exact .inl ht
    · rcases List.mem_append.1 he with hnew | hold
      · obtain ⟨command, ok, -, rfl⟩ := Program.Subject.mem_entries hnew
        exact .inr rfl
      · exact .inl hold

/-- **Every step keeps what belongs to a consumer in order.** -/
theorem Step.sound (h : Step config id v v') (hv : v.Sound id) : v'.Sound id := by
  cases h with
  | deliver d hwithin heffects => exact heffects.keeps Effect.sound (hv.receive d)
  | tick hidle hle hdue => exact ⟨hv.keyed, hv.consumer, hv.tasks, hv.record⟩
  | @pick t rest hidle hwaiting hdue =>
    refine hv.rest rfl rfl (fun u hu => ⟨u, ?_, rfl, rfl, rfl, rfl⟩) fun e he => .inl he
    rw [tasks, hidle]
    exact hwaiting ▸ hu
  | @ask t topic ok hpoll hentitled =>
    have ht : t ∈ v.tasks := mem_tasks_of_poll hpoll
    refine hv.rest rfl rfl (fun u hu => ⟨u, ?_, rfl, rfl, rfl, rfl⟩) fun e he => ?_
    · rw [tasks, hpoll]
      exact hu
    · rcases List.mem_cons.1 he with rfl | hold
      · exact .inr ⟨t, ht, rfl⟩
      · exact .inl hold
  | @answer t topic members hpoll =>
    have ht : t ∈ v.tasks := mem_tasks_of_poll hpoll
    refine hv.rest rfl rfl (fun u hu => ⟨u, ?_, rfl, rfl, rfl, rfl⟩) fun e he => ?_
    · rw [tasks, hpoll]
      exact hu
    · rcases List.mem_cons.1 he with rfl | hold
      · exact .inr ⟨t, ht, rfl⟩
      · exact .inl hold
  | discard hpoll hover =>
    exact hv.rest rfl rfl (fun u hu => ⟨u, mem_tasks_of_waiting hu, rfl, rfl, rfl, rfl⟩)
      fun e he => .inl he
  | @confirm t c hpoll hlive =>
    have hstarted := hv.startedBy (mem_tasks_of_poll hpoll) hlive
    have hreg := (of_subject? hlive).1
    refine hv.continue hreg (Consumer.transition_continues v.now c _) ?_ rfl rfl
      (fun u hu => .inl (mem_tasks_of_waiting hu)) fun e he => .inl he
    exact Consumer.transition_sound (hv.consumer c hreg) hstarted.mode_ne_none
      fun h => by cases h
  | @retry t hpoll hleft =>
    refine hv.rest rfl rfl (fun u hu => ?_) fun e he => .inl he
    rcases mem_tasks.1 hu with hwaiting | ⟨p, hp, -⟩
    · rcases Multiset.mem_cons.1 hwaiting with rfl | hold
      · exact ⟨t, mem_tasks_of_poll hpoll, rfl, rfl, rfl, rfl⟩
      · exact ⟨u, mem_tasks_of_waiting hold, rfl, rfl, rfl, rfl⟩
    · cases hp
  | @rollBack t c c' tr hpoll hover hlive hyields =>
    have hstarted := hv.startedBy (mem_tasks_of_poll hpoll) hlive
    obtain ⟨hreg, hlife, -, -⟩ := of_subject? hlive
    refine hv.continue hreg (Consumer.rollBack_continues hyields)
      (Consumer.rollBack_sound (hv.consumer c hreg) hstarted.mode_ne_none hyields) rfl rfl
      (fun u hu => .inl (mem_tasks_of_waiting hu)) fun e he => ?_
    rcases List.mem_append.1 he with hnew | hold
    · obtain ⟨command, ok, -, rfl⟩ := Program.Subject.mem_entries hnew
      refine .inr ?_
      rw [← hstarted.client, ← hlife]
      rfl
    · exact .inl hold

theorem Reach.sound (h : Reach config id v v') (hv : v.Sound id) : v'.Sound id :=
  h.keeps Step.sound hv

end View

/-- **In every state that a run leads to, everything belongs to a registered consumer or to one that
has been removed.** -/
theorem Controller.Reachable.sound {ω : Type} {k : Controller ω} {policy : Policy} {memory : ω}
    {s : State ω} (h : k.Reachable policy memory s) (id : ConsumerId) :
    (Moment.view (s, none) id).Sound id :=
  (h.reach id).sound (View.initial_sound policy id)

end Embargo
