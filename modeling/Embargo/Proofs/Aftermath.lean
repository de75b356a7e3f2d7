import Embargo.Proofs.Members
import Embargo.Proofs.Moves
import Embargo.Proofs.Progress
import Embargo.Rehearsal.Cast

/-!
# What is left behind

A consumer that is resumed while its exit is being confirmed leaves the confirmation behind, and so
does one that is shut down.  It may be suspended again before that confirmation polls, and there may
be a new consumer under the same identity by then.  Epochs never come again within a life, nor do
lives, so what is left behind is told apart from what is waited for, and does nothing any more.

* `View.GoesOn` — how far a consumer can get: to another life or a later epoch, or nowhere;
* `View.Suspends`, `View.IsPast` — a consumer is in the suspension of an epoch, or beyond it;
* `Controller.Discards` — a confirmation finds nothing to confirm when it goes on;
* `Controller.leftover_kept` — **nothing starts a confirmation for an epoch that is past**;
* `Controller.finished_kept` — **nothing is called for a consumer that has been removed**;
* `Controller.Reachable.superseded_inert` — both of them in runs.

A confirmation checks before it polls, and again when it ends; between the topics of one poll it
does not.  A query is not shielded from the hooks that are delivered while it is made, so a consumer
may leave its suspension in the middle of a poll, and then the rest of its topics are still asked
for.
-/

namespace Embargo

namespace View

variable {config : Config} {id : ConsumerId} {v v' v'' : View} {life epoch : Nat}

/-! ### Epochs never come again -/

/-- How far a consumer can get: it is removed, or stays in its state and epoch, or enters a later
epoch. -/
def GoesOn (v v' : View) : Prop :=
  v.life < v'.life ∨ v'.life = v.life ∧ ∀ c, v.consumer = some c → ∃ c', v'.consumer = some c' ∧
    (c'.state = c.state ∧ c'.epoch = c.epoch ∨ c.epoch < c'.epoch)

theorem GoesOn.refl (v : View) : v.GoesOn v :=
  .inr ⟨rfl, fun c hc => ⟨c, hc, .inl ⟨rfl, rfl⟩⟩⟩

/-- What is known of the registered consumer before and after is enough, as long as it is not
removed. -/
theorem GoesOn.of_registered {c c' : Consumer} (hlife : v'.life = v.life)
    (hreg : v.consumer = some c) (hreg' : v'.consumer = some c')
    (hcourse : c'.state = c.state ∧ c'.epoch = c.epoch ∨ c.epoch < c'.epoch) : v.GoesOn v' := by
  refine .inr ⟨hlife, fun c₁ hc₁ => ⟨c', hreg', ?_⟩⟩
  obtain rfl : c = c₁ := Option.some.inj (hreg.symm.trans hc₁)
  exact hcourse

theorem GoesOn.trans (h : v.GoesOn v') (h' : v'.GoesOn v'') : v.GoesOn v'' := by
  rcases h with hremoved | ⟨hlife, hcourse⟩
  · rcases h' with hremoved' | ⟨hlife', -⟩
    · exact .inl (Nat.lt_trans hremoved hremoved')
    · exact .inl (hlife' ▸ hremoved)
  rcases h' with hremoved' | ⟨hlife', hcourse'⟩
  · exact .inl (hlife ▸ hremoved')
  refine .inr ⟨hlife'.trans hlife, fun c hc => ?_⟩
  obtain ⟨c', hc', hfirst⟩ := hcourse c hc
  obtain ⟨c'', hc'', hsecond⟩ := hcourse' c' hc'
  refine ⟨c'', hc'', ?_⟩
  rcases hfirst with ⟨hstate, hepoch⟩ | hlater
  · rw [← hstate, ← hepoch]
    exact hsecond
  · rcases hsecond with ⟨-, hepoch⟩ | hlater'
    · exact .inr (hepoch ▸ hlater)
    · exact .inr (Nat.lt_trans hlater hlater')

theorem Effect.goesOn (h : Effect config id v v') : v.GoesOn v' := by
  cases h with
  | install p => exact .refl v
  | register hfree hid hwrap =>
    refine .inr ⟨rfl, fun c hc => ?_⟩
    rw [hfree] at hc
    cases hc
  | revise hreg happly =>
    obtain ⟨mode, topics, assigned, rfl, -⟩ := Consumer.apply_frame happly
    exact .of_registered rfl hreg rfl (.inl ⟨rfl, rfl⟩)
  | remove hreg => exact .inl (Nat.lt_succ_self _)
  | drive hreg htransit =>
    refine .of_registered rfl hreg rfl ?_
    rcases htransit.course with ⟨-, hstate, hepoch, -⟩ | ⟨-, -, -, hleft⟩ | ⟨-, -, -, hnext⟩
    · exact .inl ⟨hstate, hepoch⟩
    · exact .inr (hleft ▸ Nat.lt_succ_self _)
    · exact .inr (hnext ▸ Nat.lt_succ_self _)

theorem Step.goesOn (h : Step config id v v') : v.GoesOn v' := by
  cases h with
  | deliver d hwithin heffects =>
    exact heffects.keeps (P := fun w => v.GoesOn w) (fun heffect hw => hw.trans heffect.goesOn)
      (.refl v)
  | confirm hpoll hlive =>
    exact .of_registered rfl (of_subject? hlive).1 rfl (.inr (Nat.lt_succ_self _))
  | rollBack hpoll hover hlive hyields =>
    refine .of_registered rfl (of_subject? hlive).1 rfl (.inr ?_)
    rcases Consumer.rollBack_yields hyields with ⟨-, rfl⟩ | ⟨ok, -, rfl⟩ <;>
      exact Nat.lt_succ_self _
  | _ => exact .refl v

theorem Reach.goesOn (h : Reach config id v v') : v.GoesOn v' :=
  h.keeps (P := fun w => v.GoesOn w) (fun hstep hw => hw.trans hstep.goesOn) (.refl v)

/-! ### Suspensions that are over -/

/-- The consumer is in the suspension that began with an epoch. -/
def Suspends (life epoch : Nat) (v : View) : Prop :=
  v.life = life ∧ ∃ c, v.consumer = some c ∧ c.state = .suspending ∧ c.epoch = epoch

/-- The consumer is beyond an epoch: it has been removed since, or has entered a later one. -/
def IsPast (life epoch : Nat) (v : View) : Prop :=
  life < v.life ∨ v.life = life ∧ ∃ c, v.consumer = some c ∧ epoch < c.epoch

theorem IsPast.goesOn (h : v.IsPast life epoch) (hgoes : v.GoesOn v') :
    v'.IsPast life epoch := by
  rcases hgoes with hremoved | ⟨hlife, hcourse⟩
  · exact .inl (Nat.lt_of_le_of_lt (h.elim Nat.le_of_lt fun h => Nat.le_of_eq h.1.symm) hremoved)
  rcases h with hremoved | ⟨hsame, c, hc, hlater⟩
  · exact .inl (hlife ▸ hremoved)
  obtain ⟨c', hc', hcourse⟩ := hcourse c hc
  refine .inr ⟨hlife.trans hsame, c', hc', ?_⟩
  rcases hcourse with ⟨-, hepoch⟩ | hlater'
  · exact hepoch ▸ hlater
  · exact Nat.lt_trans hlater hlater'

/-- A suspension that has been left is past for good. -/
theorem Suspends.isPast (h : v.Suspends life epoch) (hgoes : v.GoesOn v')
    (hleft : ¬v'.Suspends life epoch) : v'.IsPast life epoch := by
  obtain ⟨rfl, c, hc, hstate, rfl⟩ := h
  rcases hgoes with hremoved | ⟨hlife, hcourse⟩
  · exact .inl hremoved
  obtain ⟨c', hc', hcourse⟩ := hcourse c hc
  rcases hcourse with ⟨hsame, hepoch⟩ | hlater
  · exact absurd ⟨hlife, c', hc', hsame.trans hstate, hepoch⟩ hleft
  · exact .inr ⟨hlife, c', hc', hlater⟩

/-- The confirmation of a suspension that is past has nothing to confirm. -/
theorem IsPast.subject?_eq_none {t : Confirmation} (h : v.IsPast life epoch)
    (hfor : t.IsFor life epoch) : v.subject? t = none := by
  obtain ⟨rfl, rfl⟩ := hfor
  by_contra hlive
  obtain ⟨c, hlive⟩ := Option.ne_none_iff_exists'.1 hlive
  obtain ⟨hreg, hlife, -, hepoch⟩ := of_subject? hlive
  rcases h with hremoved | ⟨-, c', hc', hlater⟩
  · exact absurd hlife (Nat.ne_of_lt hremoved)
  · obtain rfl : c = c' := Option.some.inj (hreg.symm.trans hc')
    exact absurd hepoch (Nat.ne_of_gt hlater)

/-- A suspension is past, and only confirmations that are known are left of it. -/
structure Leftover (known : List Confirmation) (life epoch : Nat) (v : View) : Prop where
  past : v.IsPast life epoch
  waiting : ∀ t ∈ v.waiting, t.IsFor life epoch → t ∈ known

theorem Effect.leftover {known : List Confirmation} (h : Effect config id v v')
    (hv : v.Leftover known life epoch) : v'.Leftover known life epoch := by
  have hpast := hv.past.goesOn h.goesOn
  refine ⟨hpast, ?_⟩
  cases h with
  | @drive c d tr o hreg htransit =>
    intro t ht hfor
    change t ∈ if o.leaving then _ else _ at ht
    split at ht
    · rcases Multiset.mem_cons.1 ht with rfl | hold
      -- a confirmation that has just been started is for the epoch that has just begun
      · rcases hpast with hremoved | ⟨-, c', hc', hlater⟩
        · exact absurd hfor.1 (Nat.ne_of_gt hremoved)
        · obtain rfl : o.consumer = c' := Option.some.inj hc'
          exact absurd hfor.2 (Nat.ne_of_gt hlater)
      · exact hv.waiting t hold hfor
    · exact hv.waiting t ht hfor
  | _ => exact hv.waiting

end View

variable {ω : Type}

namespace State

/-- A consumer is in the suspension that began with an epoch. -/
def Suspends (s : State ω) (id : ConsumerId) (life epoch : Nat) : Prop :=
  (Moment.view (s, none) id).Suspends life epoch

theorem suspends_iff {s : State ω} {id : ConsumerId} {life epoch : Nat} :
    s.Suspends id life epoch ↔ s.life id = life ∧
      (s.consumer? id).map (fun c => (c.state, c.epoch)) = some (.suspending, epoch) := by
  simp only [Option.map_eq_some_iff, Prod.mk.injEq]
  exact Iff.rfl

instance (s : State ω) (id : ConsumerId) (life epoch : Nat) :
    Decidable (s.Suspends id life epoch) :=
  decidable_of_iff _ suspends_iff.symm

/-- The `life`-th consumer of an identity has been removed, and these are all calls for it. -/
structure Finished (id : ConsumerId) (life : Nat) (calls : Calls) (s : State ω) : Prop where
  removed : life < s.life id
  calls : Log.calls id life s.log = calls

end State

namespace Controller

variable {k : Controller ω} {s s' : State ω} {t : Confirmation} {id : ConsumerId}
  {life epoch : Nat}

/-! ### Confirmations that are left behind -/

/-- A confirmation finds nothing to confirm when it goes on: it is reported to be discarded, and
that is all. -/
def Discards (k : Controller ω) (t : Confirmation) (s : State ω) : Prop :=
  ∀ waiting, k.goOn t waiting s =
    { s with confirmations := waiting, now := max s.now t.due }.report t.id .confirmationDiscarded

theorem discards_of_superseded (hover : subject? t s = none) : k.Discards t s := fun waiting =>
  proceed_of_superseded k (s := { s with confirmations := waiting, now := max s.now t.due }) hover

/-- A confirmation that is superseded while it polls has no effect of its own but for notices, and
that it may wait once more. -/
theorem proceed_noted {c : Consumer} {gone : Bool}
    (hleft : t.attempts < k.config.maxRetries.toNat) (hlive : subject? t s = some c)
    (hgone : k.isGone t c.topics.toList s = (gone, s')) (hover : subject? t s' = none) :
    s'.Noted { k.proceed t s with confirmations := s'.confirmations } := by
  rw [Controller.proceed, if_neg (Nat.not_le.2 hleft), hlive]
  dsimp only
  rw [hgone]
  cases gone with
  | true =>
    dsimp only
    rw [Controller.conclude_eq_run, hover]
    exact s'.report_noted t.id .confirmationDiscarded
  | false =>
    have hlisted := s'.report_noted t.id
      (.stillListed t.client.clientId t.group (t.again k.config s'.now).attempts)
    dsimp only
    split
    · rw [Controller.conclude_eq_run, show subject? (t.again k.config s'.now) (s'.report _ _) = none
        from hover]
      exact hlisted.trans (State.report_noted ..)
    · exact hlisted

/-- With quiet clients no confirmation is superseded while it polls. -/
theorem subject?_isGone (hquiet : k.environment.Quiet) (topics : List String) (s : State ω) :
    subject? t (k.isGone t topics s).2 = subject? t s := by
  obtain ⟨memory, log, hpolled⟩ := isGone_of_quiet hquiet t topics s
  rw [hpolled]
  rfl

/-- Nothing starts a confirmation for an epoch that is past, and those that are left of it do not
act. -/
theorem leftover_kept (k : Controller ω) (id : ConsumerId) (known : List Confirmation)
    (life epoch : Nat) :
    k.KeptBy (fun t => ¬(t.id = id ∧ t.IsFor life epoch))
      fun s => (Moment.view (s, none) id).Leftover known life epoch where
  receive := fun within h hs hP =>
    (receive_effects k within h hs.keyed id).keeps View.Effect.leftover ⟨hP.past, hP.waiting⟩
  order := fun i d hs hP =>
    (order_effects k i d hs.keyed id).keeps View.Effect.leftover ⟨hP.past, hP.waiting⟩
  report := fun _ _ hP => ⟨hP.past, hP.waiting⟩
  utter := fun _ _ _ hP => ⟨hP.past, hP.waiting⟩
  conclude := fun {s t c} gone hs _ hspent hlive hmode hP => by
    refine ⟨View.IsPast.goesOn (v := Moment.view (s, some ⟨t, !gone⟩) id) hP.past ?_, ?_⟩
    · exact View.Reach.goesOn ((conclude_leads gone hspent hs.keyed).2 id)
    · show ∀ u ∈ waitingFor id (k.conclude t gone s).confirmations, _
      rw [conclude_confirmations]
      exact hP.waiting
  pick := fun {s t limit waiting} hnext hP => by
    refine ⟨hP.past, fun u hu => hP.waiting u ?_⟩
    obtain ⟨hmem, hid⟩ := mem_waitingFor.1 hu
    have hperm := (Confirmation.takeNext_eq_some hnext).1
    exact mem_waitingFor.2 ⟨hperm.mem_iff.2 (List.mem_cons_of_mem t hmem), hid⟩
  again := fun {s t} place hacts hP => by
    refine ⟨hP.past, fun u hu hfor => ?_⟩
    obtain ⟨hmem, hid⟩ := mem_waitingFor.1 hu
    rcases List.eq_or_mem_of_mem_insertIdx hmem with rfl | hold
    · exact absurd ⟨hid, hfor⟩ hacts
    · exact hP.waiting u (mem_waitingFor.2 ⟨hold, hid⟩) hfor
  tick := fun _ hP => ⟨hP.past, hP.waiting⟩
  superseded := fun {s t} hnot hP => by
    obtain ⟨rfl, hfor⟩ := not_not.1 hnot
    exact (subject?_view ..).symm.trans (hP.past.subject?_eq_none hfor)

/-- **What waits for a suspension that is past has been waiting before, and is discarded.** -/
theorem Moves.discards (h : k.Moves s s') (hs : k.InOrder s)
    (hpast : (Moment.view (s, none) id).IsPast life epoch) (ht : t ∈ s'.confirmations)
    (hid : t.id = id) (hfor : t.IsFor life epoch) :
    t ∈ s.confirmations ∧ s'.now ≤ t.due ∧ k.Discards t s' := by
  have hleftover := (leftover_kept k id s.confirmations life epoch).moves h hs
    ⟨hpast, fun u hu _ => (mem_waitingFor.1 hu).1⟩
  have htracked := ((Moves.inOrder h hs).orderly t.id).tracked
  refine ⟨hleftover.waiting t (mem_waitingFor.2 ⟨ht, hid⟩) hfor,
    htracked.early t (mem_tasks_view ht), discards_of_superseded ?_⟩
  subst hid
  exact (subject?_view ..).symm.trans (hleftover.past.subject?_eq_none hfor)

/-! ### Consumers that have been removed -/

/-- The end of a confirmation calls for its own consumer only. -/
theorem calls_conclude (k : Controller ω) (t : Confirmation) (gone : Bool) (s : State ω)
    (hother : ¬(t.id = id ∧ t.life = life)) :
    Log.calls id life (k.conclude t gone s).log = Log.calls id life s.log := by
  have hnoted : ∀ (log : Log) (n : Notice),
      Log.calls id life ({ time := s.now, who := some t.id, what := .notice n } :: log) =
        Log.calls id life log :=
    fun log n => (Log.calls_cons ..).trans (List.append_nil _)
  rw [conclude_eq_run]
  cases hlive : subject? t s with
  | none => exact hnoted _ _
  | some c =>
    dsimp only
    split
    · exact hnoted _ _
    · obtain ⟨tr, -, habout⟩ := Program.run_yields k.environment s.now ⟨t.client, t.life⟩
        (c.rollBack s.now) s.memory
        (s.report t.id (.confirmationTimedOut c.label k.config.maxRetries.toNat)).log
      refine (Log.calls_about _).symm.trans ?_
      refine (congrArg (Log.calls id life) (habout id)).trans ?_
      rw [Log.calls_append, Log.calls_about]
      refine (congrArg (· ++ _) (hnoted _ _)).trans ?_
      split
      · rw [Log.calls_entries]
        exact (congrArg (_ ++ ·) (if_neg hother)).trans (List.append_nil _)
      · exact List.append_nil _

theorem conclude_life (k : Controller ω) (t : Confirmation) (gone : Bool) (s : State ω) :
    (k.conclude t gone s).life = s.life := by
  rw [conclude_eq_run]
  split
  · rfl
  · split <;> rfl

/-- Nothing is called for a consumer that has been removed, while its own confirmations do not
act. -/
theorem finished_kept (k : Controller ω) (id : ConsumerId) (life : Nat) (calls : Calls) :
    k.KeptBy (fun t => ¬(t.id = id ∧ t.life = life)) (State.Finished id life calls) := by
  have hcarried : ∀ {s : State ω} {v : View} {about : Prop},
      View.Effects k.config about id v (Moment.view (s, none) id) → life < v.life →
      v.record.calls id life = calls → s.Finished id life calls := by
    intro s v about heffects hremoved hcalls
    obtain ⟨hremoved', hcalls'⟩ := heffects.keeps
      (P := fun w => life < w.life ∧ w.record.calls id life = calls)
      (fun heffect hw => ⟨Nat.lt_of_lt_of_le hw.1 heffect.life_le,
        (heffect.past_calls hw.1).trans hw.2⟩) ⟨hremoved, hcalls⟩
    exact ⟨hremoved', (Log.calls_about s.log).symm.trans hcalls'⟩
  exact {
    receive := fun {s} within h hs hP => hcarried (receive_effects k within h hs.keyed id)
      hP.removed ((Log.calls_about s.log).trans hP.calls)
    order := fun {s} i d hs hP => hcarried (order_effects k i d hs.keyed id)
      hP.removed ((Log.calls_about s.log).trans hP.calls)
    report := fun t n hP =>
      ⟨hP.removed, (Log.calls_cons ..).trans ((List.append_nil _).trans hP.calls)⟩
    utter := fun {s t what} memory hacts hutters hP => by
      refine ⟨hP.removed, ?_⟩
      show Log.calls id life ({ time := s.now, who := some t.id, what } :: s.log) = calls
      cases hutters with
      | asked topic ok =>
        rw [Log.calls_cons_call]
        exact (congrArg (_ ++ ·) (if_neg hacts)).trans ((List.append_nil _).trans hP.calls)
      | _ => exact (Log.calls_cons ..).trans ((List.append_nil _).trans hP.calls)
    conclude := fun {s t c} gone _ hacts _ _ _ hP =>
      ⟨(congrFun (conclude_life k t gone s) id).symm ▸ hP.removed,
        (calls_conclude k t gone s hacts).trans hP.calls⟩
    pick := fun _ hP => ⟨hP.removed, hP.calls⟩
    again := fun _ _ hP => ⟨hP.removed, hP.calls⟩
    tick := fun _ hP => ⟨hP.removed, hP.calls⟩
    superseded := fun {s t} hnot hP => by
      obtain ⟨rfl, rfl⟩ := not_not.1 hnot
      rw [subject?_eq]
      refine Option.filter_eq_none_iff.2 fun c _ hlive => ?_
      simp only [Bool.and_eq_true, decide_eq_true_eq] at hlive
      exact absurd hlive.1.1 (Nat.ne_of_lt hP.removed) }

/-- **No move calls for a consumer that has been removed.** -/
theorem Moves.calls_eq (h : k.Moves s s') (hs : k.InOrder s) (hremoved : life < s.life id) :
    Log.calls id life s'.log = Log.calls id life s.log :=
  ((finished_kept k id life _).moves h hs ⟨hremoved, rfl⟩).calls

/-- Nor does a hook, from wherever it comes. -/
theorem receive_calls_eq (k : Controller ω) (within : Option Confirmation) (h : Hook)
    (hs : s.Tidy) (hremoved : life < s.life id) :
    Log.calls id life (k.receive within s h).log = Log.calls id life s.log :=
  ((finished_kept k id life _).receive within h hs ⟨hremoved, rfl⟩).calls

/-- Nor does a poll of another consumer. -/
theorem isGone_calls_eq (k : Controller ω) (topics : List String) (hs : s.Tidy)
    (hremoved : life < s.life id) (hother : ¬(t.id = id ∧ t.life = life)) :
    Log.calls id life (k.isGone t topics s).2.log = Log.calls id life s.log :=
  ((finished_kept k id life _).isGone hother topics hs ⟨hremoved, rfl⟩).1.calls

/-- A shutdown removes the registered consumer, and calls nothing. -/
theorem receive_shutdown (k : Controller ω) (within : Option Confirmation) {client : Client}
    {c : Consumer} (hreg : s.consumer? client.id = some c) :
    let s' := k.receive within s (.lifecycle client .shutdown)
    s'.consumer? client.id = none ∧ s'.life client.id = s.life client.id + 1 ∧
      ∀ id life, Log.calls id life s'.log = Log.calls id life s.log := by
  have hdismissed : k.receive within s (.lifecycle client .shutdown) = dismiss client.id c
      { s with received := .hook (.lifecycle client .shutdown) within :: s.received } :=
    shutdown_of_registered hreg
  dsimp only
  rw [hdismissed]
  refine ⟨(consumer?_dismiss ..).trans (if_pos rfl), life_dismiss .., fun id life => ?_⟩
  exact (Log.calls_cons ..).trans (List.append_nil _)

/-! ### In runs -/

variable {policy : Policy} {memory : ω}

/-- **Superseded confirmations are inert, and a shutdown is final.**  Whatever happens once a
consumer has left a suspension, also if it is suspended again or if its identity is taken by
another consumer: a confirmation that still waits for that suspension has been waiting all along,
is not late, and when it goes on it is reported to be discarded, and nothing else happens; between
inputs none is due.  One that is superseded while it polls, which takes clients that are not quiet,
may ask on, but has no effect of its own after that.  Once a registered consumer has been shut
down, nothing is called for it, and nothing for its identity at all before a consumer is registered
again.  If it is shut down from inside a query for somebody else, nothing that happens until that
poll is over calls for it either. -/
theorem Reachable.superseded_inert (h : k.Reachable policy memory s) (id : ConsumerId) :
    -- confirmations that are left behind
    (∀ life epoch s₁ s₂, s.Suspends id life epoch → k.Moves s s₁ →
      ¬s₁.Suspends id life epoch → k.Moves s₁ s₂ →
      ∀ t ∈ s₂.confirmations, t.id = id → t.IsFor life epoch →
        t ∈ s₁.confirmations ∧ s₂.now ≤ t.due ∧ k.Discards t s₂) ∧
    (∀ t ∈ s.confirmations, s.now < t.due) ∧
    -- and those that are left while they poll
    (∀ t c gone s₁ s₂, t.attempts < k.config.maxRetries.toNat → subject? t s₁ = some c →
      k.isGone t c.topics.toList s₁ = (gone, s₂) → subject? t s₂ = none →
      s₂.Noted { k.proceed t s₁ with confirmations := s₂.confirmations }) ∧
    (k.environment.Quiet → ∀ t topics s₁, subject? t (k.isGone t topics s₁).2 = subject? t s₁) ∧
    -- shutdowns, and those from inside a query
    (∀ client c s₁, client.id = id → s.consumer? id = some c →
      k.Moves (k.receive none s (.lifecycle client .shutdown)) s₁ →
      (∀ life ≤ s.life id, Log.calls id life s₁.log = Log.calls id life s.log) ∧
      (s₁.consumer? id = none → s₁.life id = s.life id + 1 →
        ∀ life, Log.calls id life s₁.log = Log.calls id life s.log)) ∧
    (∀ within client c s₁, client.id = id → s₁.consumer? id = some c →
      (k.receive within s₁ (.lifecycle client .shutdown)).life id = s₁.life id + 1) ∧
    ∀ s₁ life, s₁.Tidy → life < s₁.life id →
      (∀ within hook, Log.calls id life (k.receive within s₁ hook).log =
        Log.calls id life s₁.log) ∧
      ∀ t, ¬(t.id = id ∧ t.life = life) →
        (∀ topics, Log.calls id life (k.isGone t topics s₁).2.log = Log.calls id life s₁.log) ∧
        ∀ gone, Log.calls id life (k.conclude t gone s₁).log = Log.calls id life s₁.log := by
  refine ⟨fun life epoch s₁ s₂ hsuspends hbefore hleft hafter t ht hid hfor => ?_, h.settled,
    fun t c gone s₁ s₂ hpolls hlive hgone hover => proceed_noted hpolls hlive hgone hover,
    fun hquiet t topics s₁ => subject?_isGone hquiet topics s₁,
    fun client c s₁ hid hreg hmoves => ?_,
    fun within client c s₁ hid hreg => hid ▸ (receive_shutdown k within (hid ▸ hreg)).2.1,
    fun s₁ life hs₁ hremoved => ⟨fun within hook => receive_calls_eq k within hook hs₁ hremoved,
      fun t hother => ⟨fun topics => isGone_calls_eq k topics hs₁ hremoved hother,
        fun gone => calls_conclude k t gone s₁ hother⟩⟩⟩
  · have hgoes := View.Reach.goesOn ((hbefore.leads h.keyed h.keyed).2 id)
    exact hafter.discards (hbefore.inOrder h.inOrder) (hsuspends.isPast hgoes hleft) ht hid hfor
  · subst hid
    obtain ⟨hfree, hlife, hcalls⟩ := receive_shutdown k none hreg
    generalize hs₀ : k.receive none s (.lifecycle client .shutdown) = s₀ at *
    have hshut : k.Move s s₀ := hs₀ ▸ .receive _
    have hs₀' := hshut.inOrder h.inOrder
    have hpast : ∀ life ≤ s.life client.id,
        Log.calls client.id life s₁.log = Log.calls client.id life s.log := fun life hle =>
      (hmoves.calls_eq hs₀' (hlife ▸ Nat.lt_succ_of_le hle)).trans (hcalls client.id life)
    refine ⟨hpast, fun hfree₁ hlife₁ life => ?_⟩
    rcases Nat.lt_or_ge (s.life client.id) life with hlater | hle
    -- nobody has been there whom anything could have been called for
    · have hsound := ((hmoves.inOrder hs₀').orderly client.id).sound
      have hnone : Log.calls client.id life s.log = [] :=
        (Log.calls_about s.log).symm.trans ((h.sound client.id).calls_eq_nil_of_lt hlater)
      rw [hnone, ← Log.calls_about]
      rcases Nat.eq_or_lt_of_le hlater with hnext | hfar
      · obtain rfl : s₁.life client.id = life := hlife₁.trans hnext
        exact hsound.calls_eq_nil hfree₁
      · exact hsound.calls_eq_nil_of_lt (lt_of_eq_of_lt hlife₁ hfar)
    · exact hpast life hle

/-- The newcomer is suspended, resumed, and suspended again before its first confirmation polls:
that one waits still, but will be discarded. -/
theorem Reachable.superseded_inert_of_newcomer :
    ∃ s s₁ s₂ t,
      Rehearsal.stage.run 0 (.initial (.prohibiting ["t"]) {}) Rehearsal.entrance = some s ∧
      Rehearsal.stage.run 0 s [.hook (.policyUpdate (.prohibiting []))] = some s₁ ∧
      Rehearsal.stage.run 0 s₁ [.hook (.policyUpdate (.prohibiting ["t"]))] = some s₂ ∧
      s₂.Suspends Rehearsal.newcomer.id 0 3 ∧ t ∈ s₂.confirmations ∧
      t.id = Rehearsal.newcomer.id ∧ t.IsFor 0 1 ∧ Rehearsal.stage.Discards t s₂ := by
  have hrun : ((Rehearsal.stage.run 0 (.initial (.prohibiting ["t"]) {})
      Rehearsal.entrance).bind fun s =>
      (Rehearsal.stage.run 0 s [.hook (.policyUpdate (.prohibiting []))]).bind fun s₁ =>
      (Rehearsal.stage.run 0 s₁ [.hook (.policyUpdate (.prohibiting ["t"]))]).map fun s₂ =>
        (decide (s.Suspends Rehearsal.newcomer.id 0 1),
          decide (s₁.Suspends Rehearsal.newcomer.id 0 1),
          decide (s₂.Suspends Rehearsal.newcomer.id 0 3),
          s₂.confirmations.head?.map fun t =>
            decide (t.id = Rehearsal.newcomer.id ∧ t.IsFor 0 1))) =
      some (true, false, true, some true) := by
    decide +kernel
  obtain ⟨s, hs, hrest⟩ := Option.bind_eq_some_iff.1 hrun
  obtain ⟨s₁, hs₁, hrest⟩ := Option.bind_eq_some_iff.1 hrest
  obtain ⟨s₂, hs₂, hfacts⟩ := Option.map_eq_some_iff.1 hrest
  obtain ⟨hsuspends, hfacts⟩ := Prod.mk.inj hfacts
  obtain ⟨hleft, hfacts⟩ := Prod.mk.inj hfacts
  obtain ⟨hagain, hwaiting⟩ := Prod.mk.inj hfacts
  obtain ⟨t, hhead, hfor⟩ := Option.map_eq_some_iff.1 hwaiting
  obtain ⟨hid, hfor⟩ := of_decide_eq_true hfor
  have hreachable : Rehearsal.stage.Reachable (.prohibiting ["t"]) {} s := Reachable.start.run hs
  have ht : t ∈ s₂.confirmations := List.mem_of_mem_head? hhead
  have hinert := (hreachable.superseded_inert Rehearsal.newcomer.id).1 0 1 s₁ s₂
    (of_decide_eq_true hsuspends) (run_moves _ hs₁) (of_decide_eq_false hleft) (run_moves _ hs₂)
    t ht hid hfor
  exact ⟨s, s₁, s₂, t, hs, hs₁, hs₂, of_decide_eq_true hagain, ht, hid, hfor, hinert.2.2⟩

/-- A script in which the newcomer shuts down while it is asked for members. -/
def departing : Rehearsal.Script :=
  Rehearsal.Script.withPart {} Rehearsal.newcomer.handle
    { members := Std.ExtTreeMap.insert ∅ "t" [[]]
      reentered := Std.ExtTreeMap.insert ∅ "find_consumer_ids"
        [.lifecycle Rehearsal.newcomer .shutdown] }

/-- **A poll does ask on**: the newcomer that departs while it is asked for the members of one topic
is asked for those of the next one after it has been removed. -/
theorem exists_query_after_shutdown :
    ∃ s, Rehearsal.stage.run 0 (.initial (.prohibiting ["t"]) departing)
        (Rehearsal.entrance ++
          [.hook (.lifecycle Rehearsal.newcomer (.subscribe "u")), .pass 1000]) = some s ∧
      s.consumer? Rehearsal.newcomer.id = none ∧
      (s.history.drop 11).map Event.what =
        [.notice (.removed ⟨"worker-1", "g"⟩), .listing Rehearsal.newcomer 0 "t" "g" [],
          .call Rehearsal.newcomer 0 (.findMembers "u" "g") true, .notice .unknownShutdown,
          .listing Rehearsal.newcomer 0 "u" "g" ["10.0.0.9@other"],
          .notice .confirmationDiscarded] := by
  have hrun : (Rehearsal.stage.run 0 (.initial (.prohibiting ["t"]) departing)
      (Rehearsal.entrance ++
        [.hook (.lifecycle Rehearsal.newcomer (.subscribe "u")), .pass 1000])).map
        (fun s => ((s.consumer? Rehearsal.newcomer.id).isNone,
          (s.history.drop 11).map Event.what)) =
      some (true,
        [.notice (.removed ⟨"worker-1", "g"⟩), .listing Rehearsal.newcomer 0 "t" "g" [],
          .call Rehearsal.newcomer 0 (.findMembers "u" "g") true, .notice .unknownShutdown,
          .listing Rehearsal.newcomer 0 "u" "g" ["10.0.0.9@other"],
          .notice .confirmationDiscarded]) := by
    decide +kernel
  obtain ⟨s, hs, hfacts⟩ := Option.map_eq_some_iff.1 hrun
  obtain ⟨hfree, hwhat⟩ := Prod.mk.inj hfacts
  exact ⟨s, hs, Option.isNone_iff_eq_none.1 hfree, hwhat⟩

end Controller

end Embargo
