import Embargo.Proofs.Aftermath
import Embargo.Proofs.Attempts
import Embargo.Proofs.Halting

/-!
# What a confirmation comes to

From the moment when a consumer leaves its group, one confirmation watches it.  Whatever else
happens meanwhile, attempt follows attempt at a fixed distance, until the consumer has been found
gone, or all attempts have been spent, or the consumer has been taken out of its suspension.

* `View.Awaits` — a suspending consumer, and the confirmation that watches it;
* `View.Effect.lingers`, `Controller.Move.lingers` — **what does not end a suspension leaves its
  confirmation alone**;
* `View.Dawns`, `Controller.Move.dawns` — a suspension begins with a confirmation that has not asked
  yet;
* `Controller.Vigil` — the attempts that have been made, with all that has happened between them;
* `Controller.Ending` — the three ways in which it ends;
* `Controller.confirmation_outcome` — **every suspension takes this course**.
-/

namespace Embargo

/-- A suspending consumer that is driven stays as it is, after a call to rejoin its group at most,
which has failed; or it leaves its suspension. -/
theorem Consumer.Transit.of_suspending {now : Nat} {c : Consumer} {d : Decision} {tr : Trace}
    {o : Outcome} (h : c.Transit now d tr o) (hmode : c.mode = some .subscribe)
    (hstate : c.state = .suspending) :
    (o = { consumer := c } ∧ ∀ x ∈ tr, x = (.register c.group, false)) ∨
      c.epoch < o.consumer.epoch := by
  cases h with
  | alreadyOut => exact .inl ⟨rfl, fun x hx => by cases hx⟩
  | rejoinFailed => exact .inl ⟨rfl, fun x hx => List.mem_singleton.1 hx⟩
  | rejoined => exact .inr (Nat.lt_succ_self _)
  | flushFailed _ hactive | leaveFailed _ hactive | left _ _ hactive | alreadyIn _ hactive =>
    cases hactive.symm.trans hstate
  | modeless hother | alreadyPaused hother | pauseFailed hother | paused _ hother
  | nothingPaused hother | resumeFailed hother | resumed hother =>
    cases hother.symm.trans hmode

/-- A confirmation goes on an interval after its last attempt, and at once if there are none to
make. -/
theorem Confirmation.turn_eq {config : Config} {began attempts : Nat}
    (h : attempts = 0 ∨ attempts < config.maxRetries.toNat) :
    turn config began attempts =
      began + min (attempts + 1) config.maxRetries.toNat * config.intervalMs.toNat := by
  rw [turn]
  split
  · rename_i hzero
    rw [hzero]
    exact (congrArg (began + ·) (Nat.zero_mul _)).symm
  · rename_i hsome
    have hpositive : 0 < config.maxRetries.toNat :=
      Nat.pos_of_ne_zero fun hzero => hsome (UInt32.toNat_inj.1 hzero)
    rw [Nat.min_eq_left (h.elim (fun hzero => hzero ▸ hpositive) fun hleft => hleft)]

/-! ### A consumer that is being watched -/

namespace View

variable {config : Config} {id : ConsumerId} {v v' : View} {t : Confirmation} {began : Nat}
  {before : Log} {life epoch : Nat}

/-- A consumer has been suspending since some time, and one confirmation waits for it. -/
structure Awaits (v : View) (t : Confirmation) (began : Nat) : Prop where
  life : v.life = t.life
  consumer : ∃ c, v.consumer = some c ∧ c.state = .suspending ∧ c.epoch = t.epoch ∧
    c.lastTransition = some began ∧ t.StartedBy c
  waiting : v.waiting.filter (Confirmation.IsFor t.life t.epoch) = {t}

theorem Awaits.suspends (h : v.Awaits t began) : v.Suspends t.life t.epoch := by
  obtain ⟨c, hreg, hstate, hepoch, -⟩ := h.consumer
  exact ⟨h.life, c, hreg, hstate, hepoch⟩

theorem suspends_iff_of_eq_some {c : Consumer} (hreg : v.consumer = some c) :
    v.Suspends life epoch ↔ v.life = life ∧ c.state = .suspending ∧ c.epoch = epoch := by
  constructor
  · rintro ⟨hlife, c', hreg', hstate, hepoch⟩
    obtain rfl : c = c' := Option.some.inj (hreg.symm.trans hreg')
    exact ⟨hlife, hstate, hepoch⟩
  · exact fun ⟨hlife, hstate, hepoch⟩ => ⟨hlife, c, hreg, hstate, hepoch⟩

theorem IsPast.not_suspends (h : v.IsPast life epoch) : ¬v.Suspends life epoch := by
  intro hsuspends
  rcases h with hremoved | ⟨-, c, hreg, hlater⟩
  · exact absurd hsuspends.1 (Nat.ne_of_gt hremoved)
  · exact absurd ((suspends_iff_of_eq_some hreg).1 hsuspends).2.2 (Nat.ne_of_gt hlater)

/-- The confirmation is not superseded. -/
theorem Awaits.subject?_eq (h : v.Awaits t began) (hv : v.Sound id) :
    ∃ c, v.subject? t = some c ∧ t.StartedBy c := by
  obtain ⟨c, hreg, -, hepoch, -, hstarted⟩ := h.consumer
  refine ⟨c, ?_, hstarted⟩
  rw [subject?, hreg, Option.filter_eq_some_iff]
  exact ⟨rfl, by simp [h.life, (hv.consumer c hreg).running, hepoch]⟩

/-- Confirmations of anything else have nothing to confirm. -/
theorem Awaits.subject?_eq_none {u : Confirmation} (h : v.Awaits t began)
    (hother : ¬u.IsFor t.life t.epoch) : v.subject? u = none := by
  by_contra hlive
  obtain ⟨c, hlive⟩ := Option.ne_none_iff_exists'.1 hlive
  obtain ⟨hreg, hlife, -, hepoch⟩ := of_subject? hlive
  obtain ⟨c', hreg', -, hepoch', -⟩ := h.consumer
  obtain rfl : c = c' := Option.some.inj (hreg.symm.trans hreg')
  exact hother ⟨hlife.trans h.life, hepoch.symm.trans hepoch'⟩

/-- The confirmation is on schedule. -/
theorem Awaits.due_eq (h : v.Awaits t began) (hv : v.Tracked config) (hidle : v.poll = none) :
    v.now ≤ t.due ∧ t.due = Confirmation.turn config began t.attempts ∧
      (t.attempts = 0 ∨ t.attempts < config.maxRetries.toNat) := by
  obtain ⟨c, hreg, hstate, hepoch, hlast, -⟩ := h.consumer
  have htasks : v.tasks = v.waiting := tasks_of_idle hidle
  have hpending : v.pending c = {t} := by
    rw [pending, htasks, h.life, hepoch]
    exact h.waiting
  have ht : t ∈ v.tasks := Multiset.mem_of_mem_filter (hpending ▸ Multiset.mem_singleton_self t)
  have htracks := hv.tracks c hreg
  rw [Tracks, if_pos hstate, hpending] at htracks
  obtain ⟨u, began', hsame, hbegan, -, hdue⟩ := htracks
  obtain rfl : t = u := Multiset.singleton_inj.1 hsame
  obtain rfl : began = began' := Option.some.inj (hlast.symm.trans hbegan)
  exact ⟨hv.early t ht, hdue, hv.attempts t ht⟩

/-- A confirmation that has not asked yet is the one that was started when its consumer left. -/
theorem Awaits.eq_start {c : Consumer} (h : v.Awaits t v.now) (hv : v.Tracked config)
    (hidle : v.poll = none) (hreg : v.consumer = some c) (hfirst : t.attempts = 0) :
    t = Confirmation.start config v.now v.life c := by
  obtain ⟨-, hdue, -⟩ := h.due_eq hv hidle
  obtain ⟨c₁, hreg₁, -, hepoch, -, hstarted⟩ := h.consumer
  obtain rfl : c = c₁ := Option.some.inj (hreg.symm.trans hreg₁)
  rw [hfirst, ← Confirmation.start_due config v.now v.life c] at hdue
  obtain ⟨client, life, epoch, group, attempts, due⟩ := t
  obtain ⟨rfl, rfl, -, -⟩ := hstarted
  obtain rfl : v.life = life := h.life
  obtain rfl : c.epoch = epoch := hepoch
  obtain rfl : attempts = 0 := hfirst
  exact congrArg (Confirmation.mk _ _ _ _ _) hdue

/-- A consumer is still watched by the same confirmation, and nothing has been called for it but
what has failed to take it out of its suspension. -/
structure Lingers (before : Log) (t : Confirmation) (began : Nat) (v : View) : Prop where
  awaits : v.Awaits t began
  record : ∃ new, v.record = new ++ before ∧
    ∀ e ∈ new, e.what = .call t.client t.life (.command (.register t.group)) false

theorem Awaits.lingers (h : v.Awaits t began) : v.Lingers v.record t began :=
  ⟨h, [], rfl, fun e he => by cases he⟩

/-- **What is delivered ends a suspension, or leaves its confirmation alone.** -/
theorem Effect.lingers (h : Effect config id v v') (hv : v.Lingers before t began) :
    v'.Lingers before t began ∨ v'.IsPast t.life t.epoch := by
  obtain ⟨c, hreg, hstate, hepoch, hlast, hstarted⟩ := hv.awaits.consumer
  cases h with
  | install p => exact .inl ⟨⟨hv.awaits.life, hv.awaits.consumer, hv.awaits.waiting⟩, hv.record⟩
  | register hfree => cases hfree.symm.trans hreg
  | revise hreg₁ happly =>
    obtain rfl := Option.some.inj (hreg.symm.trans hreg₁)
    have hcontinues := Consumer.apply_continues happly
    obtain ⟨mode, topics, assigned, rfl, -⟩ := Consumer.apply_frame happly
    exact .inl ⟨⟨hv.awaits.life, ⟨_, rfl, hstate, hepoch, hlast, hstarted.continue hcontinues⟩,
      hv.awaits.waiting⟩, hv.record⟩
  | remove => exact .inr (.inl (hv.awaits.life ▸ Nat.lt_succ_self _))
  | @drive c₁ d tr o hreg₁ htransit =>
    obtain rfl := Option.some.inj (hreg.symm.trans hreg₁)
    rcases htransit.of_suspending hstarted.mode hstate with ⟨rfl, htr⟩ | hlater
    · obtain ⟨new, hnew, hfailed⟩ := hv.record
      refine .inl ⟨⟨hv.awaits.life, ⟨c, rfl, hstate, hepoch, hlast, hstarted⟩,
        hv.awaits.waiting⟩, _, (congrArg _ hnew).trans (List.append_assoc ..).symm, fun e he => ?_⟩
      rcases List.mem_append.1 he with hcalled | hold
      · obtain ⟨command, ok, hmem, rfl⟩ := Program.Subject.mem_entries hcalled
        cases htr _ hmem
        rw [hstarted.client, hstarted.group, ← hv.awaits.life]
      · exact hfailed e hold
    · exact .inr (.inr ⟨hv.awaits.life, o.consumer, rfl, hepoch ▸ hlater⟩)

/-! ### How a suspension begins -/

/-- A suspension has not begun, or it is past, or it has begun at this very time. -/
inductive Dawns (life epoch : Nat) (v : View) : Prop where
  | before (hnone : v.waiting.filter (Confirmation.IsFor life epoch) = 0)
      (hnot : ¬v.Suspends life epoch)
  | past (hpast : v.IsPast life epoch)
  | begun {t : Confirmation} (hawaits : v.Awaits t v.now) (hfor : t.IsFor life epoch)
      (hfirst : t.attempts = 0)

theorem Effect.now_eq (h : Effect config id v v') : v'.now = v.now := by
  cases h <;> rfl

/-- A suspension begins when its consumer leaves its group, and with a confirmation. -/
theorem Effect.dawns (h : Effect config id v v') (hv : v.Dawns life epoch) :
    v'.Dawns life epoch := by
  cases hv with
  | past hpast => exact .past (hpast.goesOn h.goesOn)
  | begun hawaits hfor hfirst =>
    rcases h.lingers hawaits.lingers with hstays | hpast
    · exact .begun (h.now_eq ▸ hstays.awaits) hfor hfirst
    · exact .past (hfor.1 ▸ hfor.2 ▸ hpast)
  | before hnone hnot =>
    cases h with
    | install p => exact .before hnone hnot
    | register hfree hid hwrap =>
      refine .before hnone fun hsuspends => ?_
      obtain ⟨-, hstate, -⟩ := (suspends_iff_of_eq_some rfl).1 hsuspends
      obtain ⟨group, mode, -, rfl⟩ := Consumer.wrap_eq_ok hwrap
      cases hstate
    | revise hreg happly =>
      obtain ⟨mode, topics, assigned, rfl, -⟩ := Consumer.apply_frame happly
      refine .before hnone fun hsuspends => hnot ?_
      obtain ⟨hlife, hstate, hepoch⟩ := (suspends_iff_of_eq_some rfl).1 hsuspends
      exact (suspends_iff_of_eq_some hreg).2 ⟨hlife, hstate, hepoch⟩
    | remove =>
      refine .before hnone ?_
      rintro ⟨-, c', hreg', -⟩
      cases hreg'
    | @drive c d tr o hreg htransit =>
      rcases htransit.course with ⟨hstay, hstate, hepoch, -⟩ | ⟨hleave, hmode, hactive, hleft⟩ |
        ⟨hstay, -, hstate, -⟩
      · rw [driven, hstay]
        refine .before hnone fun hsuspends => hnot ?_
        obtain ⟨hlife, hstate', hepoch'⟩ := (suspends_iff_of_eq_some rfl).1 hsuspends
        exact (suspends_iff_of_eq_some hreg).2
          ⟨hlife, hstate.symm.trans hstate', hepoch.symm.trans hepoch'⟩
      · rw [driven, hleave]
        generalize hstart : Confirmation.start config v.now v.life o.consumer = t
        have ht : t.life = v.life ∧ t.epoch = o.consumer.epoch ∧ t.attempts = 0 ∧
            t.StartedBy o.consumer := by
          rw [← hstart, hleft]
          exact ⟨rfl, rfl, rfl, rfl, rfl, Nat.le_refl _, hmode⟩
        obtain ⟨hlife, hepoch, hfirst, hstarted⟩ := ht
        by_cases hfor : t.IsFor life epoch
        · obtain ⟨rfl, rfl⟩ := hfor
          refine .begun ⟨hlife.symm, ⟨o.consumer, rfl, hleft ▸ rfl, hepoch.symm, hleft ▸ rfl,
            hstarted⟩, ?_⟩ ⟨rfl, rfl⟩ hfirst
          exact (Multiset.filter_cons_of_pos _ ⟨rfl, rfl⟩).trans (congrArg (t ::ₘ ·) hnone)
        · refine .before ((Multiset.filter_cons_of_neg _ hfor).trans hnone) fun hsuspends => hfor ?_
          obtain ⟨hlife', -, hepoch'⟩ := (suspends_iff_of_eq_some rfl).1 hsuspends
          exact ⟨hlife.trans hlife', hepoch.trans hepoch'⟩
      · rw [driven, hstay]
        refine .before hnone fun hsuspends => ?_
        exact hstate ((suspends_iff_of_eq_some rfl).1 hsuspends).2.1

/-- Neither the record nor what has been received matters, nor what waits for anything else. -/
theorem Dawns.of_eq (h : v.Dawns life epoch) (hnow : v'.now = v.now) (hlife : v'.life = v.life)
    (hreg : v'.consumer = v.consumer)
    (hwaiting : v'.waiting.filter (Confirmation.IsFor life epoch) =
      v.waiting.filter (Confirmation.IsFor life epoch)) : v'.Dawns life epoch := by
  cases h with
  | before hnone hnot =>
    refine .before (hwaiting.trans hnone) fun ⟨hlife', hrest⟩ => hnot ⟨hlife ▸ hlife', hreg ▸ hrest⟩
  | past hpast => exact .past (hpast.imp (hlife ▸ ·) fun hlater => hlife ▸ hreg ▸ hlater)
  | begun hawaits hfor hfirst =>
    obtain ⟨rfl, rfl⟩ := hfor
    exact .begun ⟨hlife.trans hawaits.life, hreg ▸ hnow ▸ hawaits.consumer,
      hwaiting.trans hawaits.waiting⟩ ⟨rfl, rfl⟩ hfirst

end View

variable {ω : Type}

/-- The confirmations of one suspension are the same when another confirmation is added. -/
theorem filter_waitingFor_of_perm {id : ConsumerId} {life epoch : Nat} {ts us : List Confirmation}
    {u : Confirmation} (hperm : ts.Perm (u :: us)) (hother : ¬(u.id = id ∧ u.IsFor life epoch)) :
    (waitingFor id ts).filter (Confirmation.IsFor life epoch) =
      (waitingFor id us).filter (Confirmation.IsFor life epoch) := by
  rw [waitingFor_perm hperm]
  by_cases hid : u.id = id
  · rw [waitingFor_cons_of_id_eq us hid]
    exact Multiset.filter_cons_of_neg _ fun hfor => hother ⟨hid, hfor⟩
  · rw [waitingFor_cons_of_id_ne us hid]

theorem filter_waitingFor_cons {id : ConsumerId} {life epoch : Nat} (us : List Confirmation)
    {u : Confirmation} (hid : u.id = id) (hfor : u.IsFor life epoch) :
    (waitingFor id (u :: us)).filter (Confirmation.IsFor life epoch) =
      u ::ₘ (waitingFor id us).filter (Confirmation.IsFor life epoch) := by
  rw [waitingFor_cons_of_id_eq us hid]
  exact Multiset.filter_cons_of_pos _ hfor

/-- To insert a confirmation is to add it somewhere, unless its place does not exist. -/
theorem insertIdx_eq_or_perm (ts : List Confirmation) (place : Nat) (u : Confirmation) :
    ts.insertIdx place u = ts ∨ (ts.insertIdx place u).Perm (u :: ts) :=
  (Nat.lt_or_ge ts.length place).imp List.insertIdx_of_length_lt (List.perm_insertIdx u ts)

theorem filter_waitingFor_insertIdx {id : ConsumerId} {life epoch : Nat} (ts : List Confirmation)
    (place : Nat) {u : Confirmation} (hother : ¬(u.id = id ∧ u.IsFor life epoch)) :
    (waitingFor id (ts.insertIdx place u)).filter (Confirmation.IsFor life epoch) =
      (waitingFor id ts).filter (Confirmation.IsFor life epoch) := by
  rcases insertIdx_eq_or_perm ts place u with hsame | hperm
  · rw [hsame]
  · exact filter_waitingFor_of_perm hperm hother

theorem waitingFor_insertIdx_of_id_ne {id : ConsumerId} (ts : List Confirmation) (place : Nat)
    {u : Confirmation} (hid : u.id ≠ id) :
    waitingFor id (ts.insertIdx place u) = waitingFor id ts := by
  rcases insertIdx_eq_or_perm ts place u with hsame | hperm
  · rw [hsame]
  · exact (waitingFor_perm hperm).trans (waitingFor_cons_of_id_ne ts hid)

namespace Controller

variable {k : Controller ω} {s s' : State ω} {t : Confirmation} {c : Consumer} {id : ConsumerId}
  {life epoch began : Nat}

/-- The end of a confirmation is not the beginning of a suspension. -/
theorem state_of_conclude (k : Controller ω) (hlive : subject? t s = some c) (gone : Bool) :
    ∃ c', (k.conclude t gone s).consumer? t.id = some c' ∧ c'.state ≠ .suspending := by
  obtain ⟨tr, c', hgone, hback, hturn⟩ := conclude_turn k hlive gone
  refine ⟨c', hturn.consumer, ?_⟩
  cases gone with
  | true =>
    rw [(hgone rfl).2]
    exact Membership.noConfusion
  | false =>
    rcases Consumer.rollBack_yields (hback rfl) with ⟨-, rfl⟩ | ⟨ok, -, rfl⟩ <;>
      exact Membership.noConfusion

/-- Confirmations of other suspensions leave it as it is whether a suspension has begun. -/
theorem dawns_kept (k : Controller ω) (id : ConsumerId) (life epoch : Nat) :
    k.KeptDuring (fun t => ¬(t.id = id ∧ t.IsFor life epoch))
      fun s => (Moment.view (s, none) id).Dawns life epoch where
  receive := fun within h hs hP =>
    (receive_effects k within h hs.keyed id).keeps View.Effect.dawns (hP.of_eq rfl rfl rfl rfl)
  report := fun _ _ hP => hP.of_eq rfl rfl rfl rfl
  utter := fun _ _ _ hP => hP.of_eq rfl rfl rfl rfl
  conclude := fun {s t c} gone hs hother hspent hlive hmode hP => by
    by_cases hid : id = t.id
    · subst hid
      cases hP with
      | before hnone hnot =>
        obtain ⟨c', hreg', hstate⟩ := state_of_conclude k hlive gone
        refine .before ?_ fun hsuspends => ?_
        · show Multiset.filter _ (waitingFor t.id (k.conclude t gone s).confirmations) = 0
          rw [conclude_confirmations]
          exact hnone
        · exact hstate ((View.suspends_iff_of_eq_some hreg').1 hsuspends).2.1
      | past hpast =>
        refine .past (View.IsPast.goesOn (v := Moment.view (s, some ⟨t, !gone⟩) t.id) hpast ?_)
        exact View.Reach.goesOn ((conclude_leads gone hspent hs.keyed).2 t.id)
      | begun hawaits hfor hfirst =>
        have hlive' : (Moment.view (s, none) t.id).subject? t = some c :=
          (subject?_view ..).trans hlive
        refine absurd ((hawaits.subject?_eq_none fun hsame => hother ⟨rfl, ?_⟩).symm.trans hlive')
          (by simp)
        exact ⟨hsame.1.trans hfor.1, hsame.2.trans hfor.2⟩
    · rw [conclude_view_of_ne k t gone s hid]
      exact hP
  again := fun place hother hP =>
    hP.of_eq rfl rfl rfl (filter_waitingFor_insertIdx _ place hother)

/-- Nothing of a suspension is left, or has been there, before it begins. -/
theorem InOrder.before_or_past (hs : k.InOrder s) (hnot : ¬s.Suspends id life epoch) :
    (waitingFor id s.confirmations).filter (Confirmation.IsFor life epoch) = 0 ∨
      (Moment.view (s, none) id).IsPast life epoch := by
  by_contra hneither
  rw [not_or] at hneither
  obtain ⟨t, ht⟩ := Multiset.exists_mem_of_ne_zero hneither.1
  obtain ⟨hwaiting, hfor⟩ := Multiset.mem_filter.1 ht
  have horderly := hs.orderly id
  have htask : t ∈ (Moment.view (s, none) id).tasks := hwaiting
  obtain ⟨-, hle, hcurrent⟩ := horderly.sound.tasks t htask
  obtain ⟨rfl, rfl⟩ := hfor
  rcases Nat.eq_or_lt_of_le hle with hlife | hremoved
  · obtain ⟨c, hreg, hstarted⟩ := hcurrent hlife
    rcases Nat.eq_or_lt_of_le hstarted.epoch with hepoch | hlater
    -- a confirmation waits for the epoch that the consumer is in, so it is suspending
    · have htracks := horderly.tracked.tracks c hreg
      rw [View.Tracks] at htracks
      split at htracks
      · rename_i hstate
        exact hnot ⟨hlife.symm, c, hreg, hstate, hepoch.symm⟩
      · exact Multiset.filter_eq_nil.1 htracks t htask ⟨hlife, hepoch⟩
    · exact hneither.2 (.inr ⟨hlife.symm, c, hreg, hlater⟩)
  · exact hneither.2 (.inl hremoved)

/-- **A suspension begins with a confirmation that has not asked yet.** -/
theorem Move.dawns (h : k.Move s s') (hs : k.InOrder s) (hbefore : ¬s.Suspends id life epoch)
    (hafter : s'.Suspends id life epoch) :
    ∃ t, (Moment.view (s', none) id).Awaits t s'.now ∧ t.IsFor life epoch ∧ t.attempts = 0 := by
  have hkept := dawns_kept k id life epoch
  have hdawns : (Moment.view (s, none) id).Dawns life epoch :=
    (hs.before_or_past hbefore).elim (.before · hbefore) .past
  have hdawns' : (Moment.view (s', none) id).Dawns life epoch := by
    cases h with
    | receive hook => exact hkept.receive none hook hs.tidy hdawns
    | order i d =>
      exact (order_effects k i d hs.tidy.keyed id).keeps View.Effect.dawns
        (hdawns.of_eq rfl rfl rfl rfl)
    | @goOn limit t waiting hnext =>
      have hperm := (Confirmation.takeNext_eq_some hnext).1
      rw [Controller.goOn] at hafter ⊢
      by_cases hown : t.id = id ∧ t.IsFor life epoch
      -- what is left of it is superseded
      · obtain ⟨rfl, hfor⟩ := hown
        refine absurd hafter ?_
        rcases hs.before_or_past hbefore with hnone | hpast
        · exact absurd hfor (Multiset.filter_eq_nil.1 hnone t
            (mem_waitingFor.2 ⟨hperm.mem_iff.2 List.mem_cons_self, rfl⟩))
        · rw [proceed_of_superseded k (s := { s with confirmations := waiting, now := _ })
            ((subject?_view t s none).symm.trans (hpast.subject?_eq_none hfor))]
          exact hpast.not_suspends
      · refine hkept.proceed hown ((Kept.tidy k).keptBy.pick hnext hs.tidy) ?_ ?_
        · exact View.Reach.sound ((pick_leads hnext hs.tidy.keyed).2 _) (hs.orderly _).sound
        · refine (hs.before_or_past hbefore).elim (fun hnone => .before ?_ hbefore) fun hpast =>
            .past hpast
          exact (filter_waitingFor_of_perm hperm hown).symm.trans hnone
    | tick => exact absurd hafter hbefore
  cases hdawns' with
  | before _ hnot => exact absurd hafter hnot
  | past hpast => exact absurd hafter hpast.not_suspends
  | begun hawaits hfor hfirst => exact ⟨_, hawaits, hfor, hfirst⟩

/-! ### While it lasts -/

/-- Confirmations of somebody else leave alone what is delivered does. -/
theorem keptDuring_elsewhere (k : Controller ω) (id : ConsumerId) {Q : View → Prop}
    (hreceive : ∀ {v : View} (d : Delivery), Q v → Q { v with received := d :: v.received })
    (heffect : ∀ {v v' : View}, View.Effect k.config id v v' → Q v → Q v') :
    k.KeptDuring (fun t => t.id ≠ id) fun s => Q (Moment.view (s, none) id) where
  receive := fun within h hs hP =>
    (receive_effects k within h hs.keyed id).keeps heffect (hreceive _ hP)
  report := fun {s} t n hP => by
    have hsame : Moment.view (s.report t.id n, none) id = Moment.view (s, none) id :=
      view_happen rfl s none id
    exact hsame.symm ▸ hP
  utter := fun {s t what} memory hid hutters hP => by
    have hsame : Moment.view (({ s with memory } : State ω).happen (some t.id) what, none) id =
        Moment.view (s, none) id := by
      cases hutters with
      | notice n => exact view_happen rfl s none id
      | _ =>
        exact View.ext rfl rfl rfl rfl rfl rfl rfl
          (about_happen_of_id_ne { s with memory := _ } _ rfl hid.symm)
    exact hsame.symm ▸ hP
  conclude := fun {s t _} gone _ hid _ _ _ hP =>
    (conclude_view_of_ne k t gone s hid.symm).symm ▸ hP
  again := fun {s t} place hid hP => by
    have hsame : Moment.view ({ s with
        confirmations := s.confirmations.insertIdx place (t.again k.config s.now) }, none) id =
          Moment.view (s, none) id :=
      View.ext rfl rfl rfl rfl rfl (waitingFor_insertIdx_of_id_ne _ place hid) rfl rfl
    exact hsame.symm ▸ hP

/-- It is the turn of the confirmation of a suspension. -/
def TurnOf (k : Controller ω) (t : Confirmation) (s s' : State ω) : Prop :=
  ∃ limit u waiting, Confirmation.takeNext limit s.confirmations = some (u, waiting) ∧
    u.id = t.id ∧ u.IsFor t.life t.epoch ∧ s' = k.goOn u waiting s

/-- **What is not its turn ends a suspension, or leaves its confirmation alone.** -/
theorem Move.lingers (h : k.Move s s') (hs : k.InOrder s)
    (hawaits : (Moment.view (s, none) t.id).Awaits t began) (hother : ¬k.TurnOf t s s') :
    (Moment.view (s', none) t.id).Lingers (Log.about t.id s.log) t began ∨
      (Moment.view (s', none) t.id).IsPast t.life t.epoch := by
  have hlingers : (Moment.view (s, none) t.id).Lingers (Log.about t.id s.log) t began :=
    hawaits.lingers
  have hreceive : ∀ {v : View} (d : Delivery),
      v.Lingers (Log.about t.id s.log) t began ∨ v.IsPast t.life t.epoch →
      View.Lingers (Log.about t.id s.log) t began { v with received := d :: v.received } ∨
        View.IsPast t.life t.epoch { v with received := d :: v.received } :=
    fun d hv => hv.imp_left fun hv =>
      ⟨⟨hv.awaits.life, hv.awaits.consumer, hv.awaits.waiting⟩, hv.record⟩
  have heffect : ∀ {v v' : View}, View.Effect k.config t.id v v' →
      v.Lingers (Log.about t.id s.log) t began ∨ v.IsPast t.life t.epoch →
      v'.Lingers (Log.about t.id s.log) t began ∨ v'.IsPast t.life t.epoch :=
    fun heffect hv => hv.elim heffect.lingers fun hpast => .inr (hpast.goesOn heffect.goesOn)
  have hkept := keptDuring_elsewhere k t.id hreceive heffect
  cases h with
  | receive hook => exact hkept.receive none hook hs.tidy (.inl hlingers)
  | order i d =>
    exact (order_effects k i d hs.tidy.keyed t.id).keeps heffect (hreceive _ (.inl hlingers))
  | @goOn limit u waiting hnext =>
    have hnot : ¬(u.id = t.id ∧ u.IsFor t.life t.epoch) := fun ⟨hid, hfor⟩ =>
      hother ⟨limit, u, waiting, hnext, hid, hfor, rfl⟩
    have hperm := (Confirmation.takeNext_eq_some hnext).1
    rw [Controller.goOn]
    generalize hp : ({ s with confirmations := waiting, now := max s.now u.due } : State ω) = p
    have hpicked : (Moment.view (p, none) t.id).Lingers (Log.about t.id s.log) t began := by
      subst hp
      exact ⟨⟨hawaits.life, hawaits.consumer,
        (filter_waitingFor_of_perm hperm hnot).symm.trans hawaits.waiting⟩, hlingers.record⟩
    by_cases hid : u.id = t.id
    · have hover : (Moment.view (p, none) u.id).subject? u = none :=
        hid.symm ▸ hpicked.awaits.subject?_eq_none fun hfor => hnot ⟨hid, hfor⟩
      have hsame : Moment.view (p.report u.id .confirmationDiscarded, none) t.id =
          Moment.view (p, none) t.id := view_happen rfl p none t.id
      rw [proceed_of_superseded k ((subject?_view ..).symm.trans hover), hsame]
      exact .inl hpicked
    · refine hkept.proceed hid (hp ▸ (Kept.tidy k).keptBy.pick hnext hs.tidy) ?_ (.inl hpicked)
      exact hp ▸ View.Reach.sound ((pick_leads hnext hs.tidy.keyed).2 _) (hs.orderly _).sound
  | tick =>
    exact .inl ⟨⟨hawaits.life, hawaits.consumer, hawaits.waiting⟩, hlingers.record⟩

/-! ### Its turns -/

/-- The confirmation that is awaited waits. -/
theorem mem_of_awaits (h : (Moment.view (s, none) id).Awaits t began) : t ∈ s.confirmations := by
  have ht := Multiset.mem_of_mem_filter (h.waiting ▸ Multiset.mem_singleton_self t)
  exact (mem_waitingFor.1 ht).1

/-- It is the turn of the confirmation that is awaited. -/
theorem eq_of_awaits {limit : Option Nat} {u : Confirmation} {waiting : List Confirmation}
    (hawaits : (Moment.view (s, none) id).Awaits t began)
    (hnext : Confirmation.takeNext limit s.confirmations = some (u, waiting)) (hid : u.id = id)
    (hfor : u.IsFor t.life t.epoch) : u = t := by
  have hmem : u ∈ s.confirmations :=
    (Confirmation.takeNext_eq_some hnext).1.mem_iff.2 List.mem_cons_self
  have hu : u ∈ (waitingFor id s.confirmations).filter (Confirmation.IsFor t.life t.epoch) :=
    Multiset.mem_filter.2 ⟨mem_waitingFor.2 ⟨hmem, hid⟩, hfor⟩
  exact Multiset.mem_singleton.1 (hawaits.waiting ▸ hu)

theorem TurnOf.move (h : k.TurnOf t s s') : k.Move s s' := by
  obtain ⟨limit, u, waiting, hnext, -, -, rfl⟩ := h
  exact .goOn hnext

/-- **What the turn of the confirmation comes to.** -/
theorem TurnOf.taken (h : k.TurnOf t s s') (hs : k.InOrder s)
    (hawaits : (Moment.view (s, none) t.id).Awaits t began) (hundisturbed : s'.Undisturbed t) :
    ∃ c tried tr c' again waiting, s.consumer? t.id = some c ∧ s.confirmations.Perm (t :: waiting) ∧
      t.Turn k.config c t.due tried tr c' again ∧
      t.TakesTurn tried tr c' again { s with confirmations := waiting, now := t.due } s' := by
  obtain ⟨limit, u, waiting, hnext, hid, hfor, rfl⟩ := h
  have hperm := (Confirmation.takeNext_eq_some hnext).1
  obtain rfl := eq_of_awaits hawaits hnext hid hfor
  have horderly := hs.orderly u.id
  obtain ⟨hle, -, hattempts⟩ := hawaits.due_eq horderly.tracked rfl
  obtain ⟨c, hview, hstarted⟩ := hawaits.subject?_eq horderly.sound
  have hlive : subject? u s = some c := (subject?_view ..).symm.trans hview
  have hnow : max s.now u.due = u.due := Nat.max_eq_right hle
  rw [Controller.goOn, hnow] at hundisturbed ⊢
  obtain ⟨tried, tr, c', again, hturn, htaken⟩ :=
    proceed_turn hundisturbed hlive hstarted.client.symm hattempts
  exact ⟨c, tried, tr, c', again, waiting, consumer?_of_subject? hlive, hperm, hturn, htaken⟩

/-- A confirmation that waits again is the one that is awaited. -/
theorem awaits_again {tried : Option Attempt} {tr : Trace} {waiting : List Confirmation}
    {now : Nat} (hawaits : (Moment.view (s, none) t.id).Awaits t began)
    (hreg : s.consumer? t.id = some c) (hperm : s.confirmations.Perm (t :: waiting))
    (htaken : t.TakesTurn tried tr c [t.again k.config now]
      { s with confirmations := waiting, now := t.due } s') :
    (Moment.view (s', none) t.id).Awaits (t.again k.config now) began := by
  obtain ⟨c₀, hreg₀, hrest⟩ := hawaits.consumer
  obtain rfl : c₀ = c := Option.some.inj (hreg₀.symm.trans hreg)
  have hnone : (waitingFor t.id waiting).filter (Confirmation.IsFor t.life t.epoch) = 0 := by
    have hall := filter_waitingFor_cons waiting (u := t) rfl ⟨rfl, rfl⟩
    rw [← waitingFor_perm hperm] at hall
    exact ((Multiset.singleton_eq_cons_iff _).1 (hawaits.waiting.symm.trans hall)).2
  obtain ⟨hstate, hepoch, hlast, hstarted⟩ := hrest
  refine ⟨htaken.life.trans hawaits.life, ⟨c₀, htaken.consumer, hstate, hepoch, hlast,
    hstarted.client, hstarted.group, hstarted.epoch, hstarted.mode⟩, ?_⟩
  have hperm' : s'.confirmations.Perm (t.again k.config now :: waiting) :=
    htaken.confirmations ▸ List.perm_append_singleton _ waiting
  have hall : (waitingFor t.id (t.again k.config now :: waiting)).filter
      (Confirmation.IsFor t.life t.epoch) = t.again k.config now ::ₘ
        (waitingFor t.id waiting).filter (Confirmation.IsFor t.life t.epoch) :=
    filter_waitingFor_cons waiting rfl ⟨rfl, rfl⟩
  rw [← waitingFor_perm hperm', hnone] at hall
  exact hall

/-! ### The course of a suspension -/

/-- The attempts that the confirmation of a suspension has made since a state, with all that has
happened between them. -/
inductive Vigil (k : Controller ω) (t : Confirmation) (s₁ : State ω) :
    List Attempt → State ω → Prop where
  | begun : Vigil k t s₁ [] s₁
  /-- Something else happens.  If anybody calls for the consumer, it is to take it back into its
  group, and fails. -/
  | meanwhile {as : List Attempt} {s s' : State ω} {new : Log} (h : Vigil k t s₁ as s)
      (hmove : k.Move s s') (hother : ¬k.TurnOf t s s')
      (hstays : s'.Suspends t.id t.life t.epoch)
      (hrecord : Log.about t.id s'.log = new ++ Log.about t.id s.log)
      (hnew : ∀ e ∈ new, e.what = .call t.client t.life (.command (.register t.group)) false) :
      Vigil k t s₁ as s'
  /-- An attempt is made, and the consumer is still listed. -/
  | attempted {as : List Attempt} {s s' : State ω} {c : Consumer} {a : Attempt}
      (h : Vigil k t s₁ as s) (hturn : k.TurnOf t s s') (hreg : s.consumer? t.id = some c)
      (hmade : a.IsMade c s'.now) (hlisted : a.gone = false)
      (hleft : as.length + 1 < k.config.maxRetries.toNat)
      (htime : s'.now = s₁.now + (as.length + 1) * k.config.intervalMs.toNat)
      (hconsumer : s'.consumer? t.id = some c)
      (hrecord : Log.about t.id s'.log = t.attempted a ++ Log.about t.id s.log) :
      Vigil k t s₁ (as ++ [a]) s'

/-- How a suspension that began at a time has ended, after so many attempts in vain. -/
inductive Ending (k : Controller ω) (t : Confirmation) (began : Nat) (as : List Attempt)
    (s s₂ : State ω) : Prop where
  /-- Something else has ended it. -/
  | superseded {s' : State ω} (hmove : k.Move s s') (hother : ¬k.TurnOf t s s')
      (hleft : ¬s'.Suspends t.id t.life t.epoch) (hafter : k.Moves s' s₂)
  /-- The next attempt has found the consumer gone. -/
  | confirmed {s' : State ω} {c : Consumer} {a : Attempt} (hturn : k.TurnOf t s s')
      (hreg : s.consumer? t.id = some c) (hepoch : c.epoch = t.epoch)
      (hmade : a.IsMade c s'.now) (hgone : a.gone = true)
      (hcount : as.length + 1 ≤ k.config.maxRetries.toNat)
      (htime : s'.now = began + (as.length + 1) * k.config.intervalMs.toNat)
      (hconsumer : s'.consumer? t.id = some (c.transition s'.now .suspended))
      (hrecord : Log.about t.id s'.log = t.attempted a ++ Log.about t.id s.log)
      (hafter : k.Moves s' s₂)
  /-- The last attempt, if there was any, has been in vain, too. -/
  | rolledBack {s' : State ω} {c c' : Consumer} {tried : Option Attempt} {tr : Trace}
      (hturn : k.TurnOf t s s') (hreg : s.consumer? t.id = some c) (hepoch : c.epoch = t.epoch)
      (hmade : ∀ a ∈ tried, a.IsMade c s'.now ∧ a.gone = false)
      (hcount : as.length + tried.toList.length = k.config.maxRetries.toNat)
      (htime : s'.now = began + k.config.maxRetries.toNat * k.config.intervalMs.toNat)
      (hback : (tr = [(.register t.group, false)] ∧ c' = c.transition s'.now .suspended) ∨
        ∃ ok, tr = [(.register t.group, true), (.rebalance, ok)] ∧
          c' = c.transition s'.now .active)
      (hconsumer : s'.consumer? t.id = some c')
      (hrecord : Log.about t.id s'.log = Program.Subject.entries ⟨t.client, t.life⟩ s'.now tr ++
        (tried.toList.flatMap t.attempted ++ Log.about t.id s.log))
      (hafter : k.Moves s' s₂)

/-- Attempt follows attempt at a fixed distance, and all of them are in vain. -/
theorem Vigil.attempts {s₁ : State ω} {as : List Attempt} (h : k.Vigil t s₁ as s) :
    ∀ j a, as[j]? = some a →
      a.time = s₁.now + (j + 1) * k.config.intervalMs.toNat ∧ a.gone = false := by
  induction h with
  | begun => exact fun j a ha => by simp at ha
  | meanwhile _ _ _ _ _ _ ih => exact ih
  | @attempted as s s' c a _ _ _ hmade hlisted _ htime _ _ ih =>
    intro j b hb
    rw [List.getElem?_append] at hb
    split at hb
    · exact ih j b hb
    · rename_i hle
      rw [List.getElem?_singleton] at hb
      split at hb
      · rename_i hlast
        cases hb
        have hj : j = as.length := by omega
        exact ⟨hmade.time.trans (hj ▸ htime), hlisted⟩
      · cases hb

/-- A move leaves a suspension as it is, or ends it. -/
theorem Move.isPast (h : k.Move s s') (hs : k.InOrder s) (hbefore : s.Suspends id life epoch)
    (hafter : ¬s'.Suspends id life epoch) : (Moment.view (s', none) id).IsPast life epoch :=
  View.Suspends.isPast hbefore
    (View.Reach.goesOn ((h.leads hs.tidy.keyed hs.tidy.keyed).2 id)) hafter

theorem not_suspends_of_state (hreg : s.consumer? id = some c) (hstate : c.state ≠ .suspending) :
    ¬s.Suspends id life epoch := by
  rw [State.Suspends, View.suspends_iff_of_eq_some hreg]
  exact fun hsuspends => hstate hsuspends.2.1

/-- **When a suspension has ended, what still waits for it is discarded.** -/
theorem Ending.discards {as : List Attempt} {s₂ : State ω} (h : k.Ending t began as s s₂)
    (hs : k.InOrder s) (hsuspends : s.Suspends t.id t.life t.epoch) :
    ∀ u ∈ s₂.confirmations, u.id = t.id → u.IsFor t.life t.epoch → k.Discards u s₂ := by
  have hover : ∀ {s'}, k.Move s s' → ¬s'.Suspends t.id t.life t.epoch → k.Moves s' s₂ →
      ∀ u ∈ s₂.confirmations, u.id = t.id → u.IsFor t.life t.epoch → k.Discards u s₂ :=
    fun hmove hleft hafter u hu hid hfor =>
      (hafter.discards (hmove.inOrder hs) (hmove.isPast hs hsuspends hleft) hu hid hfor).2.2
  cases h with
  | superseded hmove hother hleft hafter => exact hover hmove hleft hafter
  | confirmed hturn hreg hepoch hmade hgone hcount htime hconsumer hrecord hafter =>
    exact hover hturn.move (not_suspends_of_state hconsumer Membership.noConfusion) hafter
  | rolledBack hturn hreg hepoch hmade hcount htime hback hconsumer hrecord hafter =>
    refine hover hturn.move (not_suspends_of_state hconsumer ?_) hafter
    rcases hback with ⟨-, rfl⟩ | ⟨ok, -, rfl⟩ <;> exact Membership.noConfusion

theorem Ending.tail {as : List Attempt} {s₂ s₃ : State ω} (h : k.Ending t began as s s₂)
    (hlast : k.Move s₂ s₃) : k.Ending t began as s s₃ := by
  cases h with
  | superseded hmove hother hleft hafter => exact .superseded hmove hother hleft (hafter.tail hlast)
  | confirmed hturn hreg hepoch hmade hgone hcount htime hconsumer hrecord hafter =>
    exact .confirmed hturn hreg hepoch hmade hgone hcount htime hconsumer hrecord
      (hafter.tail hlast)
  | rolledBack hturn hreg hepoch hmade hcount htime hback hconsumer hrecord hafter =>
    exact .rolledBack hturn hreg hepoch hmade hcount htime hback hconsumer hrecord
      (hafter.tail hlast)

/-- A suspension lasts: its confirmation waits, after all the attempts that it has made. -/
def Lasts (k : Controller ω) (t : Confirmation) (s₁ : State ω) (as : List Attempt)
    (s : State ω) : Prop :=
  k.Vigil t s₁ as s ∧
    ∃ due, (Moment.view (s, none) t.id).Awaits { t with attempts := as.length, due } s₁.now

/-- The turn of the confirmation is another attempt in vain, or the end. -/
theorem Lasts.turn {s₁ : State ω} {as : List Attempt} (h : k.Lasts t s₁ as s) (hs : k.InOrder s)
    (hundisturbed : s'.Undisturbed t) (hturn : k.TurnOf t s s') :
    (∃ a, k.Lasts t s₁ (as ++ [a]) s') ∨ k.Ending t s₁.now as s s' := by
  obtain ⟨hvigil, due, hawaits⟩ := h
  obtain ⟨-, hdue, hattempts⟩ := hawaits.due_eq (hs.orderly t.id).tracked rfl
  obtain ⟨c₀, hreg₀, hstate, hepoch, hlast, hstarted⟩ := hawaits.consumer
  obtain ⟨c, tried, tr, c', again, waiting, hreg, hperm, htook, htaken⟩ :=
    TurnOf.taken (t := { t with attempts := as.length, due }) hturn hs hawaits hundisturbed
  obtain rfl : c₀ = c := Option.some.inj (hreg₀.symm.trans hreg)
  have hnow : s'.now = s₁.now + min (as.length + 1) k.config.maxRetries.toNat *
      k.config.intervalMs.toNat :=
    htaken.now.trans (hdue.trans (Confirmation.turn_eq hattempts))
  have hthen : due = s'.now := htaken.now.symm
  cases htook with
  | @waits a hmade hlisted hleft =>
    have hagain := awaits_again hawaits hreg hperm htaken
    refine .inl ⟨a, .attempted hvigil hturn hreg (hthen ▸ hmade) hlisted hleft ?_ htaken.consumer
      htaken.record_of_attempt, due + k.config.intervalMs.toNat, ?_⟩
    · rw [hnow, Nat.min_eq_left (Nat.le_of_lt hleft)]
    · rw [List.length_append]
      exact hagain
  | @confirms a hmade hgone hleft =>
    refine .inr (.confirmed hturn hreg hepoch (hthen ▸ hmade) hgone hleft ?_
      (hthen ▸ htaken.consumer) htaken.record_of_attempt .refl)
    rw [hnow, Nat.min_eq_left hleft]
  | givesUp hmade hspent hback =>
    refine .inr (.rolledBack hturn hreg hepoch (hthen ▸ hmade) hspent ?_ ?_ htaken.consumer
      (hthen ▸ htaken.record) .refl)
    · have hlast : k.config.maxRetries.toNat ≤ as.length + 1 :=
        hspent ▸ Nat.add_le_add_left (Option.length_toList_le) as.length
      rw [hnow, Nat.min_eq_right hlast]
    · have hends := Consumer.rollBack_yields hback
      rw [← hstarted.group] at hends
      exact hthen ▸ hends

/-- A move leaves a suspension lasting, with one more attempt at most, or ends it. -/
theorem Lasts.move {s₁ : State ω} {as : List Attempt} (h : k.Lasts t s₁ as s) (hs : k.InOrder s)
    (hundisturbed : s'.Undisturbed t) (hmove : k.Move s s') :
    (∃ as', k.Lasts t s₁ as' s') ∨ k.Ending t s₁.now as s s' := by
  by_cases hturn : k.TurnOf t s s'
  · exact (h.turn hs hundisturbed hturn).imp_left fun ⟨a, hlasts⟩ => ⟨_, hlasts⟩
  obtain ⟨hvigil, due, hawaits⟩ := h
  rcases hmove.lingers (t := { t with attempts := as.length, due }) hs hawaits hturn with
    hlingers | hpast
  · obtain ⟨new, hrecord, hnew⟩ := hlingers.record
    exact .inl ⟨as, .meanwhile hvigil hmove hturn hlingers.awaits.suspends hrecord hnew, due,
      hlingers.awaits⟩
  · exact .inr (.superseded hmove hturn hpast.not_suspends .refl)

/-- What has been received stays so. -/
theorem Move.undisturbed (h : k.Move s s') (hs : k.InOrder s) (hundisturbed : s'.Undisturbed t) :
    s.Undisturbed t := by
  have hreach : View.Reach k.config t.id (Moment.view (s, none) t.id)
      (Moment.view (s', none) t.id) := (h.leads hs.tidy.keyed hs.tidy.keyed).2 t.id
  obtain ⟨new, later, -, hreceived⟩ := hreach.grows
  refine hundisturbed.mono fun d hd => ?_
  rw [show s'.received = later ++ s.received from hreceived]
  exact List.mem_append_right later hd

/-- **A suspension lasts until it ends.** -/
theorem Lasts.moves {s₁ s₂ : State ω} {as : List Attempt} (h : k.Lasts t s₁ as s)
    (hs : k.InOrder s) (hundisturbed : s₂.Undisturbed t) (hmoves : k.Moves s s₂) :
    (∃ as', k.Lasts t s₁ as' s₂) ∨
      ∃ as' s', k.InOrder s' ∧ k.Lasts t s₁ as' s' ∧ k.Ending t s₁.now as' s' s₂ := by
  induction hmoves with
  | refl => exact .inl ⟨as, h⟩
  | @tail s₂ s₃ hbefore hlast ih =>
    have hs₂ := Moves.inOrder hbefore hs
    rcases ih (hlast.undisturbed hs₂ hundisturbed) with
      ⟨as', hlasts⟩ | ⟨as', s', hs', hlasts, hending⟩
    · exact (hlasts.move hs₂ hundisturbed hlast).imp_right fun hending =>
        ⟨as', s₂, hs₂, hlasts, hending⟩
    · exact .inr ⟨as', s', hs', hlasts, hending.tail hlast⟩

/-- A consumer that has just begun to suspend is watched. -/
theorem Move.lasts {s₁ : State ω} (h : k.Move s s₁) (hs : k.InOrder s)
    (hreg : s₁.consumer? id = some c) (hstate : c.state = .suspending)
    (hfresh : ¬s.Suspends id (s₁.life id) c.epoch) :
    c.lastTransition = some s₁.now ∧
      Confirmation.start k.config s₁.now (s₁.life id) c ∈ s₁.confirmations ∧
      k.Lasts (.start k.config s₁.now (s₁.life id) c) s₁ [] s₁ := by
  have horderly := (h.inOrder hs).orderly id
  obtain ⟨t, hawaits, hfor, hfirst⟩ := h.dawns hs hfresh ⟨rfl, c, hreg, hstate, rfl⟩
  obtain rfl := hawaits.eq_start horderly.tracked rfl hreg hfirst
  obtain rfl : c.client.id = id := horderly.sound.keyed c hreg
  obtain ⟨c₁, hreg₁, -, -, hlast, -⟩ := hawaits.consumer
  obtain rfl : c = c₁ := Option.some.inj (hreg.symm.trans hreg₁)
  exact ⟨hlast, mem_of_awaits hawaits, .begun, _, hawaits⟩

variable {policy : Policy} {memory : ω}

/-- **Every suspension takes its course.**  A consumer that has just begun to suspend has a
confirmation that waits for it.  Whatever happens then, if nothing is delivered from inside its
queries: the confirmation makes one attempt after the other, each an interval after the one before,
for the topics that the consumer has at that time; every attempt but the last one is in vain, which
means that a query has failed or has listed the client.  All that is called for the consumer in
between is to take it back into its group, and that has failed.

Either there are attempts left, and the next one is not overdue.  Or the suspension has ended, and
none will be made any more.  If nothing else has ended it, then either the last attempt has found
the consumer gone, and the consumer has become suspended without any call; or all attempts have been
in vain, and the consumer has been taken back into its group, or has become suspended when that has
failed.  Both ends are one transition of the consumer, so that its epoch has grown by one. -/
theorem confirmation_outcome {s₀ s₁ s₂ : State ω} (hbefore : k.Moves (.initial policy memory) s₀)
    (hmove : k.Move s₀ s₁) (hreg : s₁.consumer? id = some c) (hstate : c.state = .suspending)
    (hfresh : ¬s₀.Suspends id (s₁.life id) c.epoch)
    (hafter : k.Moves s₁ s₂)
    (hundisturbed : s₂.Undisturbed (.start k.config s₁.now (s₁.life id) c)) :
    c.lastTransition = some s₁.now ∧
    ∃ t, t = Confirmation.start k.config s₁.now (s₁.life id) c ∧ t ∈ s₁.confirmations ∧
      ∃ as s, k.Vigil t s₁ as s ∧
        (∀ j a, as[j]? = some a →
          a.time = s₁.now + (j + 1) * k.config.intervalMs.toNat ∧ a.gone = false) ∧
        -- it still lasts
        ((s = s₂ ∧ (as.length = 0 ∨ as.length < k.config.maxRetries.toNat) ∧
            ∃ due, { t with attempts := as.length, due } ∈ s₂.confirmations ∧ s₂.now ≤ due ∧
              due = s₁.now + min (as.length + 1) k.config.maxRetries.toNat *
                k.config.intervalMs.toNat) ∨
          -- it has ended
          (k.Ending t s₁.now as s s₂ ∧
            ∀ u ∈ s₂.confirmations, u.id = id → u.IsFor (s₁.life id) c.epoch →
              k.Discards u s₂)) := by
  have hs₀ : k.InOrder s₀ := hbefore.inOrder (inOrder_initial k policy memory)
  have hs₁ : k.InOrder s₁ := hmove.inOrder hs₀
  obtain rfl : c.client.id = id := hs₁.tidy.keyed id c hreg
  obtain ⟨hsince, hwaits, hlasts⟩ := hmove.lasts hs₀ hreg hstate hfresh
  refine ⟨hsince, _, rfl, hwaits, ?_⟩
  rcases hlasts.moves hs₁ hundisturbed hafter with ⟨as, hlasts'⟩ | ⟨as, s, hs, hlasts', hending⟩
  · obtain ⟨hvigil, due, hawaits⟩ := hlasts'
    have htracked := ((hafter.inOrder hs₁).orderly c.client.id).tracked
    obtain ⟨hle, hdue, hattempts⟩ := hawaits.due_eq htracked rfl
    have ht := Multiset.mem_of_mem_filter (hawaits.waiting ▸ Multiset.mem_singleton_self _)
    exact ⟨as, s₂, hvigil, hvigil.attempts, .inl ⟨rfl, hattempts, due, (mem_waitingFor.1 ht).1, hle,
      hdue.trans (Confirmation.turn_eq hattempts)⟩⟩
  · obtain ⟨hvigil, due, hawaits⟩ := hlasts'
    exact ⟨as, s, hvigil, hvigil.attempts, .inr ⟨hending, hending.discards hs hawaits.suspends⟩⟩

/-- A script in which the broker lists the newcomer once more after it has left its group. -/
def lingering : Rehearsal.Script :=
  Rehearsal.Script.withPart {} Rehearsal.newcomer.handle
    { members := Std.ExtTreeMap.insert ∅ "t" [[Rehearsal.newcomer.clientId], []] }

/-- The newcomer's exit is confirmed by the second attempt, two intervals after it has left. -/
theorem confirmation_outcome_of_newcomer :
    ∃ s₀ s₁ s₂ c, Rehearsal.stage.run 0 (.initial (.prohibiting ["t"]) lingering)
        [.hook (.lifecycle Rehearsal.newcomer .start)] = some s₀ ∧
      s₁ = Rehearsal.stage.receive none s₀ (.lifecycle Rehearsal.newcomer (.subscribe "t")) ∧
      s₁.consumer? Rehearsal.newcomer.id = some c ∧ c.state = .suspending ∧
      Rehearsal.stage.run 0 s₁ [.pass 2000] = some s₂ ∧
      (s₂.consumer? Rehearsal.newcomer.id).map (fun c => (c.state, c.lastTransition)) =
        some (.suspended, some 2000) ∧
      ∃ t as s, t ∈ s₁.confirmations ∧ Rehearsal.stage.Vigil t s₁ as s ∧
        Rehearsal.stage.Ending t s₁.now as s s₂ := by
  have hrun : (Rehearsal.stage.run 0 (.initial (.prohibiting ["t"]) lingering)
      [.hook (.lifecycle Rehearsal.newcomer .start)]).bind (fun s₀ =>
        let s₁ := Rehearsal.stage.receive none s₀ (.lifecycle Rehearsal.newcomer (.subscribe "t"))
        (Rehearsal.stage.run 0 s₁ [.pass 2000]).map fun s₂ =>
          ((s₁.consumer? Rehearsal.newcomer.id).map fun c =>
              (c.state, decide (s₀.Suspends Rehearsal.newcomer.id (s₁.life Rehearsal.newcomer.id)
                c.epoch)),
            s₂.confirmations.isEmpty, s₂.received.all fun d => d.within.isNone,
            decide ((s₂.consumer? Rehearsal.newcomer.id).map (fun c =>
              (c.state, c.lastTransition)) = some (.suspended, some 2000)))) =
      some (some (.suspending, false), true, true, true) := by
    decide +kernel
  obtain ⟨s₀, hs₀, hrest⟩ := Option.bind_eq_some_iff.1 hrun
  obtain ⟨s₂, hs₂, hfacts⟩ := Option.map_eq_some_iff.1 hrest
  obtain ⟨hregistered, hfacts⟩ := Prod.mk.inj hfacts
  obtain ⟨hidle, hfacts⟩ := Prod.mk.inj hfacts
  obtain ⟨hquiet, hconfirmed⟩ := Prod.mk.inj hfacts
  obtain ⟨c, hreg, hboth⟩ := Option.map_eq_some_iff.1 hregistered
  obtain ⟨hstate, hfresh⟩ := Prod.mk.inj hboth
  obtain ⟨-, t, -, ht, as, s, hvigil, -, ⟨-, -, due, hwaits, -⟩ | ⟨hending, -⟩⟩ :=
    confirmation_outcome (run_moves _ hs₀) (.receive _) hreg hstate (of_decide_eq_false hfresh)
      (run_moves _ hs₂) fun d hd u hwithin => by
        have hnone := List.all_eq_true.1 hquiet d hd
        rw [hwithin] at hnone
        cases hnone
  · rw [List.isEmpty_iff.1 hidle] at hwaits
    cases hwaits
  · exact ⟨s₀, _, s₂, c, hs₀, rfl, hreg, hstate, hs₂, of_decide_eq_true hconfirmed, t, as, s, ht,
      hvigil, hending⟩

end Controller

end Embargo
