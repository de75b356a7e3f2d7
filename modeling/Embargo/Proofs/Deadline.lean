import Embargo.Proofs.Durations
import Embargo.Proofs.Vigil

/-!
# When a confirmation gives up

A suspension that is never confirmed is rolled back, and the configuration tells beforehand when:
all intervals after its beginning.  This holds in any run, also if hooks are delivered from inside
the queries of the confirmation, as long as none of them takes the consumer out of its suspension.

* `State.OnSchedule` — a suspension lasts, and its confirmation is awaited;
* `Controller.inquire` — what a confirmation that goes on finds out;
* `Controller.Verdict` — one turn of a confirmation, by what it has found out;
* `Controller.Verdict.now_eq`, `Controller.Verdict.outcome` — **every turn is taken on schedule**,
  and keeps the suspension there or ends it;
* `Controller.RollsBack`, `Controller.Confirms`, `Controller.Supersedes` — what ends a suspension,
  and `Controller.Over` — that this has happened;
* `Controller.LedBack` — what a confirmation that gives up leaves behind;
* `Controller.Move.onSchedule_or_ends`, `Controller.Moves.onSchedule_or_over` — **a suspension is on
  schedule until it is over**;
* `Controller.GivesUpAfter` — a confirmation gives up after a certain time;
* `Config.window_exact` — **the window of a configuration is that time**.
-/

namespace Embargo

/-- A confirmation that goes on at a time has been started at one time only. -/
theorem Confirmation.began_unique {config : Config} {began began' attempts : Nat}
    (h : turn config began attempts = turn config began' attempts) : began = began' := by
  rw [turn, turn] at h
  split at h
  · exact h
  · exact Nat.add_right_cancel h

variable {ω : Type}

/-- The suspension that a confirmation was started for at a time lasts, and the confirmation is
awaited; it may have made attempts since. -/
def State.OnSchedule (s : State ω) (t : Confirmation) (began : Nat) : Prop :=
  ∃ attempts due, (Moment.view (s, none) t.id).Awaits { t with attempts, due } began

theorem State.OnSchedule.suspends {s : State ω} {t : Confirmation} {began : Nat}
    (h : s.OnSchedule t began) : s.Suspends t.id t.life t.epoch := by
  obtain ⟨n, due, hawaits⟩ := h
  exact hawaits.suspends

namespace Controller

variable {k : Controller ω} {s s' s₁ s₂ : State ω} {t : Confirmation} {c : Consumer}
  {id : ConsumerId} {life epoch began attempts : Nat} {gone : Bool} {subject : Option Consumer}

/-! ### What a confirmation finds out -/

/-- What a confirmation that goes on finds out about its consumer, and the state in which it knows.
It asks nothing when its attempts are spent. -/
def inquire (k : Controller ω) (t : Confirmation) (c : Consumer) (s : State ω) : Bool × State ω :=
  if k.config.maxRetries.toNat ≤ t.attempts then (false, s) else k.isGone t c.topics.toList s

theorem inquire_of_spent (hspent : k.config.maxRetries.toNat ≤ t.attempts) :
    k.inquire t c s = (false, s) :=
  if_pos hspent

theorem inquire_of_left (hleft : t.attempts < k.config.maxRetries.toNat) :
    k.inquire t c s = k.isGone t c.topics.toList s :=
  if_neg (Nat.not_le.2 hleft)

theorem inquire_tidy (k : Controller ω) (t : Confirmation) (c : Consumer) (hs : s.Tidy) :
    (k.inquire t c s).2.Tidy := by
  rw [inquire]
  split
  · exact hs
  · exact ((Kept.tidy k).keptBy.isGone trivial c.topics.toList hs hs).2

theorem inquire_now (k : Controller ω) (t : Confirmation) (c : Consumer) (s : State ω) :
    (k.inquire t c s).2.now = s.now := by
  rw [inquire]
  split
  · rfl
  · exact (isGone_still k t c.topics.toList s).now

/-- Nothing that waits is taken away. -/
theorem inquire_waiting (k : Controller ω) (t : Confirmation) (c : Consumer) (s : State ω) :
    s.confirmations.length ≤ (k.inquire t c s).2.confirmations.length := by
  rw [inquire]
  split
  · exact Nat.le_refl _
  · obtain ⟨started, hwaiting, -⟩ := (isGone_still k t c.topics.toList s).waiting
    rw [hwaiting, List.length_append]
    exact Nat.le_add_right ..

/-- What a confirmation with attempts left does about what it has found out. -/
theorem proceed_of_inquired (hmore : t.attempts < k.config.maxRetries.toNat)
    (hlive : subject? t s = some c) (hfound : k.inquire t c s = (gone, s₁)) :
    k.proceed t s =
      if gone then k.conclude t true s₁
      else
        let told := s₁.report t.id (.stillListed t.client.clientId t.group (t.attempts + 1))
        if k.config.maxRetries.toNat ≤ t.attempts + 1 then k.conclude t false told
        else { told with
          confirmations := s₁.confirmations.insertIdx s.confirmations.length
            (t.again k.config s₁.now) } := by
  rw [inquire_of_left hmore] at hfound
  rw [proceed, if_neg (Nat.not_le.2 hmore), hlive]
  dsimp only
  rw [hfound]
  cases gone with
  | true => rfl
  | false => rfl

/-- A confirmation that has found its consumer gone ends. -/
theorem proceed_of_gone (hlive : subject? t s = some c) (hfound : k.inquire t c s = (true, s₁)) :
    k.proceed t s = k.conclude t true s₁ := by
  rcases Nat.lt_or_ge t.attempts k.config.maxRetries.toNat with hmore | hspent
  · rw [proceed_of_inquired hmore hlive hfound, if_pos rfl]
  · rw [inquire_of_spent hspent] at hfound
    cases hfound

/-- So does one that has not, after its last attempt; it may have reported that before. -/
theorem proceed_of_spent (hlive : subject? t s = some c) (hfound : k.inquire t c s = (false, s₁))
    (hspent : k.config.maxRetries.toNat ≤ t.attempts + 1) :
    ∃ s₂, s₁.Noted s₂ ∧ k.proceed t s = k.conclude t false s₂ := by
  rcases Nat.lt_or_ge t.attempts k.config.maxRetries.toNat with hmore | hnone
  · refine ⟨_, s₁.report_noted t.id
      (.stillListed t.client.clientId t.group (t.attempts + 1)), ?_⟩
    rw [proceed_of_inquired hmore hlive hfound, if_neg Bool.false_ne_true]
    exact if_pos hspent
  · rw [inquire_of_spent hnone] at hfound
    cases hfound
    exact ⟨s, .refl s, if_pos hnone⟩

/-- With attempts left it waits again. -/
theorem proceed_of_left (hlive : subject? t s = some c) (hfound : k.inquire t c s = (false, s₁))
    (hleft : t.attempts + 1 < k.config.maxRetries.toNat) :
    ∃ s₂, s₁.Noted s₂ ∧ k.proceed t s = { s₂ with
      confirmations := s₁.confirmations.insertIdx s.confirmations.length
        (t.again k.config s₁.now) } := by
  refine ⟨_, s₁.report_noted t.id (.stillListed t.client.clientId t.group (t.attempts + 1)), ?_⟩
  rw [proceed_of_inquired (Nat.lt_of_succ_lt hleft) hlive hfound, if_neg Bool.false_ne_true]
  exact if_neg (Nat.not_le.2 hleft)

/-! ### The turn of a confirmation -/

/-- It is the turn of the confirmation of a suspension, which has made so many attempts before.  It
has found its consumer gone, or not; and it is still about the registered consumer, or has been
superseded by what has been delivered from inside its queries. -/
inductive Verdict (k : Controller ω) (t : Confirmation) (s : State ω) :
    (attempts : Nat) → (gone : Bool) → (subject : Option Consumer) → State ω → Prop where
  | reached {limit : Option Nat} {u : Confirmation} {waiting : List Confirmation} {c : Consumer}
      {gone : Bool} {s₁ : State ω}
      (hnext : Confirmation.takeNext limit s.confirmations = some (u, waiting))
      (hid : u.id = t.id) (hfor : u.IsFor t.life t.epoch) (hlive : subject? u s = some c)
      (hfound : k.inquire u c { s with confirmations := waiting, now := max s.now u.due } =
        (gone, s₁)) :
      Verdict k t s u.attempts gone (subject? u s₁) (k.goOn u waiting s)

/-- The confirmation of a suspension gives up: its last attempt, if there was any, has been in vain,
and it leads its consumer back. -/
def RollsBack (k : Controller ω) (t : Confirmation) (s s' : State ω) : Prop :=
  ∃ attempts c, k.Verdict t s attempts false (some c) s' ∧
    k.config.maxRetries.toNat ≤ attempts + 1

/-- The confirmation of a suspension sees the exit: it has found its consumer gone. -/
def Confirms (k : Controller ω) (t : Confirmation) (s s' : State ω) : Prop :=
  ∃ attempts c, k.Verdict t s attempts true (some c) s'

/-- Something else ends a suspension than its confirmation: another move, or something that has been
delivered from inside a query. -/
def Supersedes (k : Controller ω) (t : Confirmation) (s s' : State ω) : Prop :=
  (k.Move s s' ∧ ¬k.TurnOf t s s') ∨ ∃ attempts gone, k.Verdict t s attempts gone none s'

theorem Verdict.turnOf (h : k.Verdict t s attempts gone subject s') : k.TurnOf t s s' := by
  cases h with
  | reached hnext hid hfor => exact ⟨_, _, _, hnext, hid, hfor, rfl⟩

/-- Every turn of a confirmation that is on schedule reaches a verdict. -/
theorem TurnOf.verdict (h : k.TurnOf t s s') (hs : k.InOrder s) (ht : s.OnSchedule t began) :
    ∃ attempts gone subject, k.Verdict t s attempts gone subject s' := by
  obtain ⟨limit, u, waiting, hnext, hid, hfor, rfl⟩ := h
  obtain ⟨n, due, hawaits⟩ := ht
  obtain rfl := eq_of_awaits hawaits hnext hid hfor
  obtain ⟨c, hview, -⟩ := hawaits.subject?_eq (hs.orderly t.id).sound
  exact ⟨_, _, _, .reached hnext rfl hfor ((subject?_view ..).symm.trans hview) rfl⟩

/-- **Every turn is taken on schedule.** -/
theorem Verdict.now_eq (h : k.Verdict t s attempts gone subject s') (hs : k.InOrder s)
    (ht : s.OnSchedule t began) : s'.now = began +
      min (attempts + 1) k.config.maxRetries.toNat * k.config.intervalMs.toNat := by
  obtain ⟨n, due, hawaits⟩ := ht
  obtain ⟨hle, hdue, hattempts⟩ := hawaits.due_eq (hs.orderly t.id).tracked rfl
  cases h with
  | reached hnext hid hfor hlive hfound =>
    obtain rfl := eq_of_awaits hawaits hnext hid hfor
    calc _ = max s.now due := (goOn_leads hs.tidy.keyed hnext).2
      _ = due := Nat.max_eq_right hle
      _ = _ := hdue.trans (Confirmation.turn_eq hattempts)

/-! ### What a turn leads to -/

/-- A confirmation that waits, and is not superseded, is awaited. -/
theorem InOrder.awaits (hs : k.InOrder s) (ht : t ∈ s.confirmations)
    (hlive : subject? t s = some c) : ∃ began, (Moment.view (s, none) t.id).Awaits t began := by
  have horderly := hs.orderly t.id
  have htask := mem_tasks_view ht
  have hlive' : (Moment.view (s, none) t.id).subject? t = some c :=
    (subject?_view ..).trans hlive
  obtain ⟨hreg, hlife, -, hepoch⟩ := View.of_subject? hlive'
  have hstarted := horderly.sound.startedBy htask hlive'
  have hpending : t ∈ (Moment.view (s, none) t.id).pending c :=
    Multiset.mem_filter.2 ⟨htask, hlife, hepoch.symm⟩
  have htracks := horderly.tracked.tracks c hreg
  rw [View.Tracks] at htracks
  split at htracks
  · rename_i hstate
    obtain ⟨u, began, hsame, hlast, -, -⟩ := htracks
    obtain rfl : t = u := Multiset.mem_singleton.1 (hsame ▸ hpending)
    refine ⟨began, hlife.symm, ⟨c, hreg, hstate, hepoch, hlast, hstarted⟩, ?_⟩
    rwa [View.pending, View.tasks_of_idle rfl, ← hlife, hepoch] at hsame
  · rw [htracks] at hpending
    exact absurd hpending (Multiset.notMem_zero t)

/-- A confirmation that waits again is on schedule, unless it has been superseded. -/
theorem InOrder.onSchedule_again (hs : k.InOrder s) (hlive : subject? t s = some c)
    (hwaits : t.again k.config t.due ∈ s.confirmations)
    (hdue : t.due = Confirmation.turn k.config began t.attempts)
    (hleft : t.attempts + 1 < k.config.maxRetries.toNat) : s.OnSchedule t began := by
  obtain ⟨began', hawaits⟩ := hs.awaits hwaits (c := c) hlive
  obtain ⟨-, hdue', -⟩ := hawaits.due_eq (hs.orderly t.id).tracked rfl
  obtain rfl := Confirmation.began_unique ((Confirmation.again_due hdue hleft).symm.trans hdue')
  exact ⟨_, _, hawaits⟩

/-- A suspension is told by its consumer. -/
theorem suspends_congr (hregistry : s'.registry = s.registry)
    (hdeparted : s'.departed = s.departed) :
    s'.Suspends id life epoch ↔ s.Suspends id life epoch := by
  rw [State.suspends_iff, State.suspends_iff, State.life, State.life, State.departedOf,
    State.departedOf, State.consumer?, State.consumer?, hregistry, hdeparted]

/-- A consumer that a confirmation is not about is not in its suspension. -/
theorem not_suspends_of_superseded (hs : s.Tidy) (hover : subject? t s = none) :
    ¬s.Suspends t.id t.life t.epoch := by
  rintro ⟨hlife, c, hreg, -, hepoch⟩
  have hrunning := hs.running t.id c hreg
  rw [subject?_eq] at hover
  refine Option.filter_eq_none_iff.1 hover c hreg ?_
  simp [hrunning, hepoch, show s.life t.id = t.life from hlife]

/-- A confirmation that has been superseded from inside its queries does nothing more. -/
theorem not_suspends_of_overtaken (hlive : subject? t s = some c)
    (hfound : k.inquire t c s = (gone, s₁)) (hs₁ : s₁.Tidy) (hover : subject? t s₁ = none) :
    ¬(k.proceed t s).Suspends t.id t.life t.epoch := by
  rcases Nat.lt_or_ge t.attempts k.config.maxRetries.toNat with hleft | hspent
  · rw [inquire_of_left hleft] at hfound
    obtain ⟨new, hnoted, -⟩ := proceed_noted hleft hlive hfound hover
    have hsame : (k.proceed t s).Suspends t.id t.life t.epoch ↔ s₁.Suspends t.id t.life t.epoch :=
      suspends_congr (congrArg State.registry hnoted :) (congrArg State.departed hnoted :)
    exact hsame.not.2 (not_suspends_of_superseded hs₁ hover)
  -- without an attempt to make nothing could have been delivered
  · rw [inquire_of_spent hspent] at hfound
    cases hfound
    cases hlive.symm.trans hover

/-- The end of a confirmation is the end of its suspension. -/
theorem not_suspends_of_ended {c' : Consumer} (hlive : subject? t s = some c)
    (hfound : k.inquire t c s = (gone, s₁)) (hstill : subject? t s₁ = some c')
    (hends : gone = true ∨ k.config.maxRetries.toNat ≤ t.attempts + 1) :
    ¬(k.proceed t s).Suspends t.id t.life t.epoch := by
  cases gone with
  | true =>
    rw [proceed_of_gone hlive hfound]
    obtain ⟨c'', hreg, hstate⟩ := state_of_conclude k hstill true
    exact not_suspends_of_state hreg hstate
  | false =>
    obtain ⟨s₂, ⟨new, rfl, -⟩, hconcludes⟩ :=
      proceed_of_spent hlive hfound (hends.resolve_left Bool.false_ne_true)
    replace hstill : subject? t { s₁ with log := new ++ s₁.log } = some c' := hstill
    rw [hconcludes]
    obtain ⟨c'', hreg, hstate⟩ := state_of_conclude k hstill false
    exact not_suspends_of_state hreg hstate

/-- A confirmation with attempts left waits for the next one, about the same consumer. -/
theorem waits_of_left {c' : Consumer} (hlive : subject? t s = some c)
    (hfound : k.inquire t c s = (false, s₁)) (hstill : subject? t s₁ = some c')
    (hleft : t.attempts + 1 < k.config.maxRetries.toNat) :
    t.again k.config s.now ∈ (k.proceed t s).confirmations ∧
      subject? t (k.proceed t s) = some c' := by
  have hnow := k.inquire_now t c s
  have hplace := k.inquire_waiting t c s
  rw [hfound] at hnow hplace
  obtain ⟨s₂, ⟨new, rfl, -⟩, hwaits⟩ := proceed_of_left hlive hfound hleft
  rw [hwaits, hnow]
  exact ⟨(List.mem_insertIdx hplace).2 (.inl rfl), hstill⟩

/-- **What a turn leads to**: the suspension lasts, and its confirmation stays on schedule; or it is
over. -/
theorem Verdict.outcome (h : k.Verdict t s attempts gone subject s') (hs : k.InOrder s)
    (ht : s.OnSchedule t began) :
    s'.OnSchedule t began ∨ ¬s'.Suspends t.id t.life t.epoch ∧
      (k.RollsBack t s s' ∨ k.Confirms t s s' ∨ k.Supersedes t s s') := by
  have hverdict := h
  have hs' := Move.inOrder h.turnOf.move hs
  obtain ⟨n, due, hawaits⟩ := ht
  cases h with
  | @reached limit u waiting c gone s₁ hnext hid hfor hlive hfound =>
    have hu := eq_of_awaits hawaits hnext hid hfor
    rw [← hu] at hawaits
    obtain ⟨hle, hdue, -⟩ := hawaits.due_eq (hs.orderly t.id).tracked rfl
    have hnow : max s.now u.due = u.due := Nat.max_eq_right hle
    replace hlive : subject? u { s with confirmations := waiting, now := max s.now u.due } =
      some c := hlive
    have hpicked := (Kept.tidy k).keptBy.pick hnext hs.tidy
    have hs₁ := k.inquire_tidy u c hpicked
    rw [hfound] at hs₁
    rw [← hid, ← hfor.1, ← hfor.2]
    cases hstill : subject? u s₁ with
    | none =>
      rw [hstill] at hverdict
      exact .inr ⟨not_suspends_of_overtaken hlive hfound hs₁ hstill,
        .inr (.inr (.inr ⟨_, _, hverdict⟩))⟩
    | some c' =>
      rw [hstill] at hverdict
      cases gone with
      | true =>
        exact .inr ⟨not_suspends_of_ended hlive hfound hstill (.inl rfl),
          .inr (.inl ⟨_, _, hverdict⟩)⟩
      | false =>
        rcases Nat.lt_or_ge (u.attempts + 1) k.config.maxRetries.toNat with hleft | hspent
        · obtain ⟨hwaits, hstill'⟩ := waits_of_left hlive hfound hstill hleft
          have hagain := hs'.onSchedule_again hstill' (hnow ▸ hwaits) hdue hleft
          subst hu
          exact .inl hagain
        · exact .inr ⟨not_suspends_of_ended hlive hfound hstill (.inr hspent),
            .inl ⟨_, _, hverdict, hspent⟩⟩

/-! ### The way back -/

/-- A confirmation that gives up says so. -/
theorem conclude_reports (k : Controller ω) (hlive : subject? t s = some c) :
    { time := s.now, who := some t.id,
      what := .notice (.confirmationTimedOut c.label k.config.maxRetries.toNat) } ∈
        (k.conclude t false s).log := by
  obtain ⟨tr, new, -, hlog, -⟩ := Program.run_log k.environment s.now ⟨t.client, t.life⟩
    (c.rollBack s.now) s.memory
    (s.report t.id (.confirmationTimedOut c.label k.config.maxRetries.toNat)).log
  rw [conclude_eq_run, hlive]
  show _ ∈ ((c.rollBack s.now).run k.environment s.now ⟨t.client, t.life⟩ s.memory
    (s.report t.id (.confirmationTimedOut c.label k.config.maxRetries.toNat)).log).2.2
  rw [hlog]
  exact List.mem_append_right new List.mem_cons_self

/-- What is found out about a consumer leaves it in its suspension, or has superseded the
confirmation. -/
theorem suspends_of_inquired {c' : Consumer} (hs : s.Tidy) (hlive : subject? t s = some c)
    (hsuspends : s.Suspends t.id t.life t.epoch) (hfound : k.inquire t c s = (gone, s₁))
    (hstill : subject? t s₁ = some c') : s₁.Suspends t.id t.life t.epoch := by
  rcases Nat.lt_or_ge t.attempts k.config.maxRetries.toNat with hmore | hspent
  · rw [inquire_of_left hmore] at hfound
    have hentitled : (Moment.view (s, some ⟨t, false⟩) t.id).Entitled t.id t :=
      .inl fun hnone => by cases (hlive.symm.trans (subject?_view ..).symm).trans hnone
    have hasked := (isGone_leads (k := k) c.topics.toList hs.keyed hentitled hs.keyed).2 t.id
    have hgoes := View.Reach.goesOn hasked
    rw [hfound] at hgoes
    by_contra hleft
    have hpast : (Moment.view (s₁, none) t.id).IsPast t.life t.epoch :=
      View.Suspends.isPast hsuspends hgoes hleft
    have hover := hpast.subject?_eq_none (t := t) ⟨rfl, rfl⟩
    cases ((subject?_view ..).symm.trans hover).symm.trans hstill
  · rw [inquire_of_spent hspent] at hfound
    cases hfound
    exact hsuspends

/-- The confirmation of a suspension has just given up, and has led its consumer back: into its
group, or no further than into suspension if it could not be registered. -/
def LedBack (k : Controller ω) (t : Confirmation) (s : State ω) : Prop :=
  ∃ (c c' : Consumer) (tr : Trace) (before : Log), c.state = .suspending ∧ c.epoch = t.epoch ∧
    ((tr = [(.register c.group, false)] ∧ c' = c.transition s.now .suspended) ∨
      ∃ ok, tr = [(.register c.group, true), (.rebalance, ok)] ∧
        c' = c.transition s.now .active) ∧
    s.consumer? t.id = some c' ∧
    Log.about t.id s.log = Program.Subject.entries ⟨t.client, t.life⟩ s.now tr ++ before ∧
    { time := s.now, who := some t.id,
      what := .notice (.confirmationTimedOut c.label k.config.maxRetries.toNat) } ∈ s.log

theorem ledBack_of_conclude (hlive : subject? t s = some c)
    (hsuspends : s.Suspends t.id t.life t.epoch) : k.LedBack t (k.conclude t false s) := by
  obtain ⟨tr, c', -, hyields, hturn⟩ := conclude_turn k hlive false
  have hreg := consumer?_of_subject? hlive
  obtain ⟨-, hstate, hepoch⟩ := (View.suspends_iff_of_eq_some hreg).1 hsuspends
  have hnow := hturn.now
  refine ⟨c, c', tr, _, hstate, hepoch, ?_, hturn.consumer, hnow ▸ hturn.record,
    hnow ▸ conclude_reports k hlive⟩
  exact hnow ▸ Consumer.rollBack_yields (hyields rfl)

/-- **A confirmation that gives up leads its consumer back.** -/
theorem Verdict.ledBack (h : k.Verdict t s attempts gone subject s') (hs : k.InOrder s)
    (ht : s.OnSchedule t began) (hlisted : gone = false) (hstill : subject = some c)
    (hspent : k.config.maxRetries.toNat ≤ attempts + 1) : k.LedBack t s' := by
  obtain ⟨n, due, hawaits⟩ := ht
  cases h with
  | @reached limit u waiting c₀ gone s₁ hnext hid hfor hlive hfound =>
    obtain rfl := eq_of_awaits hawaits hnext hid hfor
    subst hlisted
    replace hlive : subject? _ { s with confirmations := waiting, now := max s.now due } =
      some c₀ := hlive
    have hpicked := (Kept.tidy k).keptBy.pick hnext hs.tidy
    have hsuspends : s₁.Suspends t.id t.life t.epoch :=
      suspends_of_inquired (t := { t with attempts := n, due }) hpicked hlive hawaits.suspends
        hfound hstill
    obtain ⟨s₂, ⟨new, rfl, -⟩, hconcludes⟩ := proceed_of_spent hlive hfound hspent
    rw [goOn, hconcludes]
    exact ledBack_of_conclude hstill hsuspends

theorem RollsBack.ledBack (h : k.RollsBack t s s') (hs : k.InOrder s) (ht : s.OnSchedule t began) :
    k.LedBack t s' := by
  obtain ⟨attempts, c, hverdict, hspent⟩ := h
  exact hverdict.ledBack hs ht rfl rfl hspent

/-- **A confirmation that gives up does so on time.** -/
theorem RollsBack.now_eq (h : k.RollsBack t s s') (hs : k.InOrder s) (ht : s.OnSchedule t began) :
    s'.now = began + k.config.maxRetries.toNat * k.config.intervalMs.toNat := by
  obtain ⟨attempts, c, hverdict, hspent⟩ := h
  rw [hverdict.now_eq hs ht, Nat.min_eq_right hspent]

/-! ### In a run -/

/-- The suspension that a confirmation was started for has ended between two states. -/
inductive Over (k : Controller ω) (t : Confirmation) (s₁ s₂ : State ω) : Prop where
  | rolledBack {s s' : State ω} (hbefore : k.Moves s₁ s) (hends : k.RollsBack t s s')
      (hafter : k.Moves s' s₂)
  | confirmed {s s' : State ω} (hbefore : k.Moves s₁ s) (hends : k.Confirms t s s')
      (hafter : k.Moves s' s₂)
  | superseded {s s' : State ω} (hbefore : k.Moves s₁ s)
      (hsuspends : s.Suspends t.id t.life t.epoch) (hends : k.Supersedes t s s')
      (hleft : ¬s'.Suspends t.id t.life t.epoch) (hafter : k.Moves s' s₂)

theorem Over.tail {s₃ : State ω} (h : k.Over t s₁ s₂) (hlast : k.Move s₂ s₃) : k.Over t s₁ s₃ := by
  cases h with
  | rolledBack hbefore hends hafter => exact .rolledBack hbefore hends (hafter.tail hlast)
  | confirmed hbefore hends hafter => exact .confirmed hbefore hends (hafter.tail hlast)
  | superseded hbefore hsuspends hends hleft hafter =>
    exact .superseded hbefore hsuspends hends hleft (hafter.tail hlast)

/-- **A move leaves a suspension on schedule, or ends it.** -/
theorem Move.onSchedule_or_ends (h : k.Move s s') (hs : k.InOrder s) (ht : s.OnSchedule t began) :
    s'.OnSchedule t began ∨ ¬s'.Suspends t.id t.life t.epoch ∧
      (k.RollsBack t s s' ∨ k.Confirms t s s' ∨ k.Supersedes t s s') := by
  by_cases hturn : k.TurnOf t s s'
  · obtain ⟨attempts, gone, subject, hverdict⟩ := hturn.verdict hs ht
    exact hverdict.outcome hs ht
  · obtain ⟨n, due, hawaits⟩ := ht
    rcases h.lingers (t := { t with attempts := n, due }) hs hawaits hturn with hlingers | hpast
    · exact .inl ⟨n, due, hlingers.awaits⟩
    · exact .inr ⟨hpast.not_suspends, .inr (.inr (.inl ⟨h, hturn⟩))⟩

/-- **A suspension is on schedule until it is over**, and then it is so for good. -/
theorem Moves.onSchedule_or_over (h : k.Moves s₁ s₂) (hs : k.InOrder s₁)
    (ht : s₁.OnSchedule t began) : s₂.OnSchedule t began ∨
      k.Over t s₁ s₂ ∧ (Moment.view (s₂, none) t.id).IsPast t.life t.epoch := by
  induction h with
  | refl => exact .inl ht
  | @tail s s' hbefore hlast ih =>
    have hs' : k.InOrder s := Moves.inOrder hbefore hs
    rcases ih with hstill | ⟨hover, hpast⟩
    · have hsuspends := hstill.suspends
      refine (Move.onSchedule_or_ends hlast hs' hstill).imp_right fun hends => ⟨?_, ?_⟩
      · rcases hends with ⟨hleft, hends | hends | hends⟩
        · exact .rolledBack hbefore hends .refl
        · exact .confirmed hbefore hends .refl
        · exact .superseded hbefore hsuspends hends hleft .refl
      · exact Move.isPast hlast hs' hsuspends hends.1
    · refine .inr ⟨hover.tail hlast, hpast.goesOn ?_⟩
      exact View.Reach.goesOn ((Move.leads hlast hs'.tidy.keyed hs'.tidy.keyed).2 t.id)

/-- A confirmation that has its turn after all has been on schedule. -/
theorem Verdict.onSchedule (h : k.Verdict t s attempts gone subject s') (hbefore : k.Moves s₁ s)
    (hs : k.InOrder s₁) (ht : s₁.OnSchedule t began) : s.OnSchedule t began := by
  refine (Moves.onSchedule_or_over hbefore hs ht).resolve_right fun hover => ?_
  cases h with
  | reached hnext hid hfor hlive hfound =>
    have hnone := hover.2.subject?_eq_none hfor
    rw [← hid] at hnone
    cases ((subject?_view ..).symm.trans hnone).symm.trans hlive

/-! ### The time it takes -/

/-- While a suspension is on schedule its confirmation waits, and not beyond all its intervals. -/
theorem InOrder.waits_of_onSchedule (hs : k.InOrder s) (ht : s.OnSchedule t began) :
    ∃ u ∈ s.confirmations, u.id = t.id ∧ u.IsFor t.life t.epoch ∧ s.now ≤ u.due ∧
      u.due ≤ began + k.config.maxRetries.toNat * k.config.intervalMs.toNat := by
  obtain ⟨n, due, hawaits⟩ := ht
  obtain ⟨hle, hdue, hattempts⟩ := hawaits.due_eq (hs.orderly t.id).tracked rfl
  refine ⟨_, mem_of_awaits hawaits, rfl, ⟨rfl, rfl⟩, hle, ?_⟩
  calc due = began + min (n + 1) k.config.maxRetries.toNat * k.config.intervalMs.toNat :=
        hdue.trans (Confirmation.turn_eq hattempts)
    _ ≤ began + k.config.maxRetries.toNat * k.config.intervalMs.toNat :=
        Nat.add_le_add_left (Nat.mul_le_mul_right _ (Nat.min_le_right ..)) began

theorem now_of_pass {patience ms : Nat} (hkeyed : s.Keyed)
    (h : k.react patience s (.pass ms) = some s') : s'.now = s.now + ms := by
  rw [react, Option.bind_eq_some_iff] at h
  obtain ⟨s₁, htake, hsettle⟩ := h
  obtain ⟨hleads, hnow, -⟩ := advance_leads hkeyed htake
  obtain ⟨-, hnow', -⟩ := advance_leads (hleads hkeyed).1 hsettle
  rw [hnow', hnow, Nat.add_zero]

/-- So many milliseconds after a state, a confirmation gives up unless it has seen the exit. -/
structure GivesUpAfter (k : Controller ω) (t : Confirmation) (s₁ : State ω) (ms : Nat) : Prop where
  /-- It gives up at that time and at no other, and leads its consumer back. -/
  onTime : ∀ {s s' : State ω}, k.Moves s₁ s → k.RollsBack t s s' →
    s'.now = s₁.now + ms ∧ k.LedBack t s'
  /-- Until the suspension is over, the confirmation waits, and not beyond that time. -/
  awaited : ∀ {s₂ : State ω}, k.Moves s₁ s₂ → k.Over t s₁ s₂ ∨
    s₂.Suspends t.id t.life t.epoch ∧ ∃ u ∈ s₂.confirmations, u.id = t.id ∧
      u.IsFor t.life t.epoch ∧ s₂.now ≤ u.due ∧ u.due ≤ s₁.now + ms
  /-- When that time has passed, the suspension is over. -/
  elapsed : ∀ {patience : Nat} {s₂ : State ω}, k.react patience s₁ (.pass ms) = some s₂ →
    k.Over t s₁ s₂
  /-- That time does pass, unless clients keep the clock at work for ever, or commands do not
  return. -/
  passes : k.environment.Quiet ∨ 0 < k.config.intervalMs.toNat →
    ∃ patience s₂, k.react patience s₁ (.pass ms) = some s₂ ∧
      (k.environment.Prompt → s₂.stuck = s₁.stuck)

/-- **A confirmation that never sees the exit gives up when all its intervals have passed.** -/
theorem InOrder.givesUpAfter (hs : k.InOrder s₁) (ht : s₁.OnSchedule t s₁.now) :
    k.GivesUpAfter t s₁ (k.config.maxRetries.toNat * k.config.intervalMs.toNat) where
  onTime := fun {s s'} hbefore hends => by
    have hstill : s.OnSchedule t s₁.now := by
      obtain ⟨attempts, c, hverdict, -⟩ := hends
      exact hverdict.onSchedule hbefore hs ht
    have hs' : k.InOrder s := Moves.inOrder hbefore hs
    exact ⟨hends.now_eq hs' hstill, hends.ledBack hs' hstill⟩
  awaited := fun {s₂} hmoves => by
    rcases Moves.onSchedule_or_over hmoves hs ht with hstill | ⟨hover, -⟩
    · exact .inr ⟨hstill.suspends,
        (Moves.inOrder hmoves hs).waits_of_onSchedule hstill⟩
    · exact .inl hover
  elapsed := fun {patience s₂} hreact => by
    have hmoves := react_moves hreact
    rcases Moves.onSchedule_or_over hmoves hs ht with hstill | ⟨hover, -⟩
    -- nothing that is due by then waits any longer
    · obtain ⟨u, hu, -, -, -, hdue⟩ := (Moves.inOrder hmoves hs).waits_of_onSchedule hstill
      have hlate := (react_leads hs.tidy.keyed hreact).2 u hu
      rw [now_of_pass hs.tidy.keyed hreact] at hlate
      exact absurd hdue (Nat.not_le.2 hlate)
    · exact hover
  passes := fun hpossible => by
    rcases hpossible with hquiet | hinterval
    · obtain ⟨s₂, hreact⟩ := react_isSome_of_quiet hquiet 0 (.pass _)
        (within_of_tracked fun id => (hs.orderly id).tracked)
      exact ⟨0, s₂, hreact, fun henv => react_stuck henv hreact⟩
    · obtain ⟨patience, s₂, hreact⟩ := exists_react_eq_some hinterval s₁
        (Input.noConfusion : Input.pass _ ≠ .wait)
      exact ⟨patience, s₂, hreact, fun henv => react_stuck henv hreact⟩

variable {policy : Policy} {memory : ω}

/-- A suspension that has just begun is on schedule. -/
theorem Move.givesUpAfter {s₀ : State ω} (hbefore : k.Moves (.initial policy memory) s₀)
    (hmove : k.Move s₀ s₁) (hreg : s₁.consumer? id = some c) (hstate : c.state = .suspending)
    (hfresh : ¬s₀.Suspends id (s₁.life id) c.epoch) :
    c.lastTransition = some s₁.now ∧ ∃ t ∈ s₁.confirmations,
      t = .start k.config s₁.now (s₁.life id) c ∧
        k.GivesUpAfter t s₁ (k.config.maxRetries.toNat * k.config.intervalMs.toNat) := by
  have hs₀ : k.InOrder s₀ := Moves.inOrder hbefore (inOrder_initial k policy memory)
  have hs₁ : k.InOrder s₁ := Move.inOrder hmove hs₀
  obtain ⟨hsince, hwaits, -, due, hawaits⟩ := Move.lasts hmove hs₀ hreg hstate hfresh
  exact ⟨hsince, _, hwaits, rfl, hs₁.givesUpAfter ⟨0, due, hawaits⟩⟩

end Controller

/-- **The window of a configuration is the time that a confirmation takes which never sees the
exit.**  There is one unless its whole seconds overflow.  It is as many milliseconds as the interval
times the number of attempts, which is computed in seconds and nanoseconds with a carry.

In any run of a controller with that configuration, a suspension begins with a confirmation.  If it
ever gives up, that is exactly the window later, and it leads its consumer back; and once the window
has passed it has done so, or it has seen the exit, or something else has ended the suspension. -/
theorem Config.window_exact (config : Config) :
    (config.window? = none ↔
      UInt64.size ≤ config.intervalMs.toNat * config.maxRetries.toNat / 1000) ∧
    ∀ window, config.window? = some window →
      window.toNanos = config.intervalMs.toNat * config.maxRetries.toNat * nanosPerMilli ∧
      window.toMillis = config.intervalMs.toNat * config.maxRetries.toNat ∧
      -- how it is computed
      (config.intervalMs.toNat % 1000 * nanosPerMilli * config.maxRetries.toNat < UInt64.size ∧
        window.seconds = config.intervalMs.toNat / 1000 * config.maxRetries.toNat +
          config.intervalMs.toNat % 1000 * nanosPerMilli * config.maxRetries.toNat /
            nanosPerSecond ∧
        window.nanos = config.intervalMs.toNat % 1000 * nanosPerMilli * config.maxRetries.toNat %
          nanosPerSecond) ∧
      -- what it is the time of
      ∀ {ω : Type} (k : Controller ω), k.config = config → ∀ policy memory s₀ s₁ id c,
        k.Moves (.initial policy memory) s₀ → k.Move s₀ s₁ → s₁.consumer? id = some c →
        c.state = .suspending → ¬s₀.Suspends id (s₁.life id) c.epoch →
          c.lastTransition = some s₁.now ∧ ∃ t ∈ s₁.confirmations,
            t = .start config s₁.now (s₁.life id) c ∧ k.GivesUpAfter t s₁ window.toMillis := by
  refine ⟨window?_eq_none_iff, fun window hwindow => ?_⟩
  have hmillis := toMillis_of_window? hwindow
  refine ⟨window?_eq_some_iff.1 hwindow, hmillis, window?_parts hwindow, ?_⟩
  intro ω k hconfig policy memory s₀ s₁ id c hbefore hmove hreg hstate hfresh
  subst hconfig
  rw [hmillis, Nat.mul_comm]
  exact Controller.Move.givesUpAfter hbefore hmove hreg hstate hfresh

/-- A script in which the broker lists the newcomer for ever. -/
def staying : Rehearsal.Script :=
  Rehearsal.Script.withPart {} Rehearsal.newcomer.handle
    { members := Std.ExtTreeMap.insert ∅ "t" [[Rehearsal.newcomer.clientId]] }

/-- By default the newcomer is back five seconds after it has left. -/
theorem Config.window_exact_of_newcomer :
    ∃ window s₀ s₁ s₂ c, Rehearsal.stage.config.window? = some window ∧ window.toMillis = 5000 ∧
      Rehearsal.stage.run 0 (.initial (.prohibiting ["t"]) staying)
        [.hook (.lifecycle Rehearsal.newcomer .start)] = some s₀ ∧
      s₁ = Rehearsal.stage.receive none s₀ (.lifecycle Rehearsal.newcomer (.subscribe "t")) ∧
      s₁.consumer? Rehearsal.newcomer.id = some c ∧ c.state = .suspending ∧
      Rehearsal.stage.react 0 s₁ (.pass 5000) = some s₂ ∧
      (s₂.consumer? Rehearsal.newcomer.id).map (fun c => (c.state, c.lastTransition)) =
        some (.active, some 5000) ∧
      ∃ t ∈ s₁.confirmations, Rehearsal.stage.GivesUpAfter t s₁ 5000 ∧
        Rehearsal.stage.Over t s₁ s₂ := by
  have hrun : (Rehearsal.stage.run 0 (.initial (.prohibiting ["t"]) staying)
      [.hook (.lifecycle Rehearsal.newcomer .start)]).bind (fun s₀ =>
        let s₁ := Rehearsal.stage.receive none s₀ (.lifecycle Rehearsal.newcomer (.subscribe "t"))
        (Rehearsal.stage.react 0 s₁ (.pass 5000)).map fun s₂ =>
          ((s₁.consumer? Rehearsal.newcomer.id).map fun c =>
              (c.state, decide (s₀.Suspends Rehearsal.newcomer.id (s₁.life Rehearsal.newcomer.id)
                c.epoch)),
            decide ((s₂.consumer? Rehearsal.newcomer.id).map (fun c =>
              (c.state, c.lastTransition)) = some (.active, some 5000)))) =
      some (some (.suspending, false), true) := by
    decide +kernel
  obtain ⟨s₀, hs₀, hrest⟩ := Option.bind_eq_some_iff.1 hrun
  obtain ⟨s₂, hs₂, hfacts⟩ := Option.map_eq_some_iff.1 hrest
  obtain ⟨hregistered, hback⟩ := Prod.mk.inj hfacts
  obtain ⟨c, hreg, hboth⟩ := Option.map_eq_some_iff.1 hregistered
  obtain ⟨hstate, hfresh⟩ := Prod.mk.inj hboth
  have hwindow : Rehearsal.stage.config.window? = some ⟨5, 0, by decide, by decide⟩ := by decide
  obtain ⟨-, -, -, htime⟩ := (Config.window_exact Rehearsal.stage.config).2 _ hwindow
  obtain ⟨-, t, ht, -, hgivesUp⟩ := htime Rehearsal.stage rfl _ _ _ _ _ c
    (Controller.run_moves _ hs₀) (.receive _) hreg hstate (of_decide_eq_false hfresh)
  have hmillis : Duration.toMillis ⟨5, 0, by decide, by decide⟩ = 5000 := by decide
  rw [hmillis] at hgivesUp
  exact ⟨_, s₀, _, s₂, c, hwindow, hmillis, hs₀, rfl, hreg, hstate, hs₂, of_decide_eq_true hback,
    t, ht, hgivesUp, hgivesUp.elapsed hs₂⟩

end Embargo
