import Embargo.Proofs.Moves

/-!
# Changes before and after the start

Clients may report subscriptions and assignments before they start.  Such changes are cached, and
applied when the client starts; later ones are applied at once.  Whichever way a change goes, none
of them is lost, none counts twice, and they count in the order in which they were reported.

* `Reports`, `Delivery.reports` — what has been reported of an identity since its last shutdown;
* `Reports.changes` — the changes among it, `Reports.fresh?` — the consumer that the first start of
  a client makes;
* `Consumer.accept` — a change applied, or left out when it does not fit the mode;
* `Reports.registered?`, `Reports.waiting?` — what has to be registered, and what has to wait;
* `State.Handed` — **the invariant**: this is what is registered, and this is what waits;
* `State.Facing` — what is left of it while the latest report has not been dealt with;
* `Controller.Reachable.handoff_exact` — the same, told of the reports themselves.
-/

namespace Embargo

variable {ω : Type}

/-! ### What has been reported -/

/-- Reports of clients, the earliest first. -/
abbrev Reports := List (Client × LifecycleEvent)

/-- What a delivery reports of an identity. -/
def Delivery.report? (id : ConsumerId) : Delivery → Option (Client × LifecycleEvent)
  | .hook (.lifecycle client e) _ => if client.id = id then some (client, e) else none
  | _ => none

/-- What has been reported of an identity since its last shutdown, or since the beginning. -/
def Delivery.reports (id : ConsumerId) (received : List Delivery) : Reports :=
  ((received.filterMap (report? id)).takeWhile fun r => r.2 ≠ .shutdown).reverse

namespace Delivery

variable {id : ConsumerId} {d : Delivery} {received : List Delivery} {client : Client}
  {e : LifecycleEvent}

theorem reports_cons_of_none (received : List Delivery) (h : d.report? id = none) :
    reports id (d :: received) = reports id received := by
  rw [reports, List.filterMap_cons_none h]
  rfl

theorem reports_cons_of_shutdown (h : d.report? id = some (client, .shutdown)) :
    reports id (d :: received) = [] := by
  rw [reports, List.filterMap_cons_some h, List.takeWhile_cons_of_neg (by simp)]
  rfl

theorem reports_cons (h : d.report? id = some (client, e)) (he : e ≠ .shutdown) :
    reports id (d :: received) = reports id received ++ [(client, e)] := by
  rw [reports, List.filterMap_cons_some h, List.takeWhile_cons_of_pos (by simpa using he),
    List.reverse_cons]
  rfl

end Delivery

/-! ### Changes, one after the other -/

namespace Consumer

/-- A consumer after a change; one that does not fit its mode is left out. -/
def accept (c : Consumer) (change : Change) : Consumer :=
  match c.apply change with
  | .ok c' => c'
  | .error _ => c

theorem accept_of_ok {c c' : Consumer} {change : Change} (h : c.apply change = .ok c') :
    c.accept change = c' := by
  rw [accept, h]

theorem accept_of_error {c : Consumer} {change : Change} {error : Error}
    (h : c.apply change = .error error) : c.accept change = c := by
  rw [accept, h]

/-- A replay accepts one change after the other. -/
theorem replay_eq_foldl (changes : List Change) :
    ∀ c : Consumer, (c.replay changes).1 = changes.foldl accept c := by
  induction changes with
  | nil => exact fun c => rfl
  | cons change rest ih =>
    intro c
    rw [replay, List.foldl_cons]
    cases happly : c.apply change with
    | error error => rw [accept_of_error happly]; exact ih c
    | ok c' => rw [accept_of_ok happly]; exact ih c'

theorem claim_eq_error {c : Consumer} {requested : Mode} {error : Error}
    (h : c.claim requested = .error error) :
    ∃ current, error = .modeConflict c.id current requested := by
  rw [claim] at h
  cases hmode : c.mode with
  | none => rw [hmode] at h; cases h
  | some current =>
    rw [hmode] at h
    dsimp only at h
    split at h <;> cases h
    exact ⟨current, rfl⟩

/-- Changes are refused for no other reason than the mode. -/
theorem apply_eq_error {c : Consumer} {change : Change} {error : Error}
    (h : c.apply change = .error error) :
    ∃ current requested, error = .modeConflict c.id current requested := by
  cases change with
  | subscribe topic =>
    rw [apply, subscribe] at h
    split at h
    · rename_i hclaim
      cases h
      obtain ⟨current, rfl⟩ := claim_eq_error hclaim
      exact ⟨current, _, rfl⟩
    · cases h
  | unsubscribe topic =>
    rw [apply, unsubscribe] at h
    split at h <;> cases h
    exact ⟨_, _, rfl⟩
  | assign queues =>
    rw [apply, assign] at h
    split at h
    · rename_i hclaim
      cases h
      obtain ⟨current, rfl⟩ := claim_eq_error hclaim
      exact ⟨current, _, rfl⟩
    · cases h

/-- How far a consumer takes part does not matter for the changes that it accepts. -/
theorem pristine_accept (c : Consumer) (change : Change) :
    (c.accept change).pristine = c.pristine.accept change := by
  rcases c with ⟨client, group, mode, topics, assigned, paused, state, epoch, shutDown, last⟩
  -- a change meets no mode, its own mode, or the other one
  rcases mode with _ | (_ | _) <;> cases change <;> rfl

theorem pristine_foldl_accept (changes : List Change) : ∀ c : Consumer,
    (changes.foldl accept c).pristine = changes.foldl accept c.pristine := by
  induction changes with
  | nil => exact fun c => rfl
  | cons change rest ih => exact fun c => (ih _).trans (by rw [pristine_accept, List.foldl_cons])

theorem pristine_of_wrap {client : Client} {fresh : Consumer} (h : wrap client = .ok fresh) :
    fresh.pristine = fresh := by
  obtain ⟨group, mode, -, rfl⟩ := wrap_eq_ok h
  rfl

end Consumer

/-! ### What has to be registered, and what has to wait -/

namespace Reports

variable {reports : Reports} {client : Client} {e : LifecycleEvent} {fresh : Consumer}

/-- The changes among reports. -/
def changes (reports : Reports) : List Change :=
  reports.filterMap fun r => r.2.change?

/-- The consumer that a report makes: a start does, when the client can be taken over. -/
def made? : Client × LifecycleEvent → Option Consumer
  | (client, .start) => (Consumer.wrap client).toOption
  | _ => none

/-- The consumer that the first start makes. -/
def fresh? (reports : Reports) : Option Consumer :=
  reports.findSome? made?

/-- The consumer that has to be registered, as if it had never been driven. -/
def registered? (reports : Reports) : Option Consumer :=
  reports.fresh?.map fun fresh => reports.changes.foldl Consumer.accept fresh

/-- The first start makes a consumer when there is one, and none of those before it has. -/
theorem fresh?_eq_some : reports.fresh? = some fresh ↔ ∃ earlier client later,
    reports = earlier ++ (client, .start) :: later ∧
      (∀ other, (other, .start) ∈ earlier → (Consumer.wrap other).toOption = none) ∧
      Consumer.wrap client = .ok fresh := by
  rw [fresh?, List.findSome?_eq_some_iff]
  constructor
  · rintro ⟨earlier, ⟨client, e⟩, later, hreports, hmade, hearlier⟩
    cases e with
    | start =>
      refine ⟨earlier, client, later, hreports, fun other hother => hearlier _ hother, ?_⟩
      rw [made?] at hmade
      cases hwrap : Consumer.wrap client with
      | error error => rw [hwrap] at hmade; cases hmade
      | ok c => rw [hwrap] at hmade; cases hmade; rfl
    | _ => cases hmade
  · rintro ⟨earlier, client, later, hreports, hearlier, hwrap⟩
    refine ⟨earlier, (client, .start), later, hreports, by rw [made?, hwrap]; rfl, ?_⟩
    rintro ⟨other, e⟩ hother
    cases e with
    | start => exact hearlier other hother
    | _ => rfl

theorem fresh?_isSome : reports.fresh?.isSome ↔ ∃ client fresh, (client, .start) ∈ reports ∧
    Consumer.wrap client = .ok fresh := by
  rw [fresh?, List.findSome?_isSome_iff]
  constructor
  · rintro ⟨⟨client, e⟩, hmem, hmade⟩
    cases e with
    | start =>
      rw [made?] at hmade
      cases hwrap : Consumer.wrap client with
      | error error => rw [hwrap] at hmade; cases hmade
      | ok fresh => exact ⟨client, fresh, hmem, hwrap⟩
    | _ => cases hmade
  · rintro ⟨client, fresh, hmem, hwrap⟩
    exact ⟨_, hmem, by rw [made?, hwrap]; rfl⟩

/-- The changes that have to wait. -/
def waiting? (reports : Reports) : Option (List Change) :=
  if reports.fresh?.isSome ∨ reports.changes = [] then none else some reports.changes

theorem changes_snoc (reports : Reports) (client : Client) (e : LifecycleEvent) :
    (reports ++ [(client, e)]).changes = reports.changes ++ e.change?.toList := by
  rw [changes, List.filterMap_append, List.filterMap_cons, List.filterMap_nil]
  cases e.change? <;> rfl

theorem fresh?_snoc (reports : Reports) (r : Client × LifecycleEvent) :
    (reports ++ [r]).fresh? = reports.fresh?.or (made? r) := by
  rw [fresh?, List.findSome?_append, List.findSome?_singleton]
  rfl

theorem made?_of_ne_start (h : e ≠ .start) : made? (client, e) = none := by
  cases e with
  | start => exact absurd rfl h
  | _ => rfl

/-- A report that brings no change and makes no consumer, or comes after another one has made one,
changes nothing. -/
theorem snoc_of_idle (hmade : reports.fresh?.isSome ∨ made? (client, e) = none)
    (hchange : e.change? = none) :
    (reports ++ [(client, e)]).registered? = reports.registered? ∧
      (reports ++ [(client, e)]).waiting? = reports.waiting? := by
  have hfresh : (reports ++ [(client, e)]).fresh? = reports.fresh? := by
    rw [fresh?_snoc]
    rcases hmade with hsome | hnone
    · exact Option.or_of_isSome hsome
    · rw [hnone, Option.or_none]
  have hchanges : (reports ++ [(client, e)]).changes = reports.changes := by
    rw [changes_snoc, hchange]
    exact List.append_nil _
  exact ⟨by rw [registered?, registered?, hfresh, hchanges],
    by rw [waiting?, waiting?, hfresh, hchanges]⟩

/-- A change that is reported after the start is applied. -/
theorem snoc_of_fresh (client : Client) {change : Change} (hfresh : reports.fresh? = some fresh)
    (hchange : e.change? = some change) :
    (reports ++ [(client, e)]).registered? =
        reports.registered?.map (Consumer.accept · change) ∧
      (reports ++ [(client, e)]).waiting? = reports.waiting? := by
  have hsame : (reports ++ [(client, e)]).fresh? = some fresh := by
    rw [fresh?_snoc, hfresh, Option.some_or]
  refine ⟨?_, ?_⟩
  · rw [registered?, registered?, hsame, hfresh, changes_snoc, hchange, Option.toList_some]
    simp
  · rw [waiting?, waiting?, hsame, hfresh]
    simp

/-- A change that is reported before the start waits. -/
theorem snoc_of_free (client : Client) {change : Change} (hfresh : reports.fresh? = none)
    (hchange : e.change? = some change) :
    (reports ++ [(client, e)]).registered? = none ∧
      (reports ++ [(client, e)]).waiting? = some (reports.waiting?.getD [] ++ [change]) := by
  have hstart : e ≠ .start := fun h => by rw [h] at hchange; cases hchange
  have hsame : (reports ++ [(client, e)]).fresh? = none := by
    rw [fresh?_snoc, hfresh, Option.none_or, made?_of_ne_start hstart]
  refine ⟨by rw [registered?, hsame]; rfl, ?_⟩
  rw [waiting?, waiting?, hsame, hfresh, changes_snoc, hchange, Option.toList_some]
  by_cases hempty : reports.changes = [] <;> simp [hempty]

/-- The first start of a client that can be taken over finds all changes waiting. -/
theorem snoc_of_start (hfresh : reports.fresh? = none) (hwrap : Consumer.wrap client = .ok fresh) :
    (reports ++ [(client, LifecycleEvent.start)]).registered? =
        some ((reports.waiting?.getD []).foldl Consumer.accept fresh) ∧
      (reports ++ [(client, LifecycleEvent.start)]).waiting? = none := by
  have hmade : (reports ++ [(client, LifecycleEvent.start)]).fresh? = some fresh := by
    rw [fresh?_snoc, hfresh, Option.none_or, made?, hwrap]
    rfl
  have hchanges : (reports ++ [(client, LifecycleEvent.start)]).changes = reports.changes := by
    rw [changes_snoc]
    exact List.append_nil _
  refine ⟨?_, by rw [waiting?, hmade]; simp⟩
  rw [registered?, hmade, hchanges, waiting?, hfresh]
  by_cases hempty : reports.changes = [] <;> simp [hempty]

end Reports

/-! ### The invariant -/

/-- What has to be registered is registered, and what has to wait waits. -/
structure State.Handed (id : ConsumerId) (s : State ω) : Prop where
  registered : (s.consumer? id).map Consumer.pristine =
    (Delivery.reports id s.received).registered?
  waiting : s.cache.get? id = (Delivery.reports id s.received).waiting?

/-- A report is on record, but has not been dealt with: registered is and waits what the reports
before it lead to. -/
structure State.Facing (client : Client) (e : LifecycleEvent) (before : Reports) (s : State ω) :
    Prop where
  reports : Delivery.reports client.id s.received =
    if e = .shutdown then [] else before ++ [(client, e)]
  registered : (s.consumer? client.id).map Consumer.pristine = before.registered?
  waiting : s.cache.get? client.id = before.waiting?

namespace State

variable {s s' : State ω} {client : Client} {e : LifecycleEvent} {before : Reports}
  {change : Change} {c : Consumer}

theorem Handed.facing (hs : s.Handed client.id) (e : LifecycleEvent)
    (within : Option Confirmation) :
    ({ s with received := .hook (.lifecycle client e) within :: s.received } : State ω).Facing
      client e (Delivery.reports client.id s.received) where
  reports := by
    have hreport : (Delivery.hook (.lifecycle client e) within).report? client.id =
        some (client, e) := if_pos rfl
    by_cases he : e = .shutdown
    · subst he
      exact (Delivery.reports_cons_of_shutdown hreport).trans (if_pos rfl).symm
    · exact (Delivery.reports_cons hreport he).trans (if_neg he).symm
  registered := hs.registered
  waiting := hs.waiting

namespace Facing

theorem reports_eq (h : s.Facing client e before) (he : e ≠ .shutdown) :
    Delivery.reports client.id s.received = before ++ [(client, e)] :=
  h.reports.trans (if_neg he)

/-- A consumer is registered only when a start has made one. -/
theorem exists_fresh (h : s.Facing client e before) (hreg : s.consumer? client.id = some c) :
    ∃ fresh, before.fresh? = some fresh := by
  have hregistered := h.registered
  rw [hreg, Option.map_some, eq_comm, Reports.registered?, Option.map_eq_some_iff] at hregistered
  obtain ⟨fresh, hfresh, -⟩ := hregistered
  exact ⟨fresh, hfresh⟩

/-- And whenever a start has made one. -/
theorem fresh?_eq_none (h : s.Facing client e before) (hfree : s.consumer? client.id = none) :
    before.fresh? = none := by
  have hregistered := h.registered
  rwa [hfree, Option.map_none, eq_comm, Reports.registered?, Option.map_eq_none_iff]
    at hregistered

/-- A report that brings no change and makes no consumer needs no dealing with. -/
theorem handed_of_idle (h : s.Facing client e before) (he : e ≠ .shutdown)
    (hchange : e.change? = none)
    (hmade : before.fresh?.isSome ∨ Reports.made? (client, e) = none) : s.Handed client.id := by
  obtain ⟨hregistered, hwaiting⟩ := Reports.snoc_of_idle hmade hchange
  exact ⟨by rw [h.reports_eq he, hregistered, h.registered],
    by rw [h.reports_eq he, hwaiting, h.waiting]⟩

/-- The registered consumer has to accept what a report brings. -/
theorem registered?_of_change (h : s.Facing client e before) (hchange : e.change? = some change)
    (hreg : s.consumer? client.id = some c) :
    (Delivery.reports client.id s.received).registered? = some (c.accept change).pristine ∧
      s.cache.get? client.id = (Delivery.reports client.id s.received).waiting? := by
  have he : e ≠ .shutdown := fun heq => by rw [heq] at hchange; cases hchange
  obtain ⟨fresh, hfresh⟩ := h.exists_fresh hreg
  obtain ⟨hregistered, hwaiting⟩ := Reports.snoc_of_fresh client hfresh hchange
  rw [h.reports_eq he, hregistered, hwaiting, ← h.registered, hreg, Consumer.pristine_accept]
  exact ⟨rfl, h.waiting⟩

/-- What a report brings has to wait as long as nobody is registered. -/
theorem waiting?_of_change (h : s.Facing client e before) (hchange : e.change? = some change)
    (hfree : s.consumer? client.id = none) :
    (Delivery.reports client.id s.received).registered? = none ∧
      (Delivery.reports client.id s.received).waiting? =
        some ((s.cache.get? client.id).getD [] ++ [change]) := by
  have he : e ≠ .shutdown := fun heq => by rw [heq] at hchange; cases hchange
  rw [h.reports_eq he, h.waiting]
  exact Reports.snoc_of_free client (h.fresh?_eq_none hfree) hchange

/-- After a shutdown nobody may be registered, and nothing may wait. -/
theorem handed_of_shutdown (h : s.Facing client .shutdown before)
    (hfree : s'.consumer? client.id = none) (hempty : s'.cache.get? client.id = none)
    (hreceived : s'.received = s.received) : s'.Handed client.id := by
  have hreports : Delivery.reports client.id s'.received = [] := by
    rw [hreceived, h.reports, if_pos rfl]
  exact ⟨by rw [hfree, hreports]; rfl, by rw [hempty, hreports]; rfl⟩

end Facing

end State

namespace Controller

variable {k : Controller ω} {s s' : State ω} {id : ConsumerId}

theorem tended_handed (h : s.Tended s') (hs : s.Handed id) : s'.Handed id :=
  ⟨(h.consumers id).trans (h.received ▸ hs.registered), by rw [h.cache, hs.waiting, h.received]⟩

/-- What becomes of a hook that reports nothing of an identity leaves that identity alone. -/
theorem Treatment.elsewhere {h : Hook} {within : Option Confirmation}
    (htreated : k.Treatment s h s') (hs : s.Tidy)
    (hreport : (Delivery.hook h within).report? id = none) :
    (s'.consumer? id).map Consumer.pristine = (s.consumer? id).map Consumer.pristine ∧
      s'.cache.get? id = s.cache.get? id ∧ s'.received = s.received := by
  have hother : ∀ {client : Client} {e : LifecycleEvent}, h = .lifecycle client e →
      client.id ≠ id := by
    rintro client e rfl hid
    rw [Delivery.report?, if_pos hid] at hreport
    cases hreport
  have htended : ∀ {s₁ : State ω}, s₁.Tended s' →
      s₁.consumer? id = s.consumer? id → s₁.cache.get? id = s.cache.get? id →
      s₁.received = s.received →
      (s'.consumer? id).map Consumer.pristine = (s.consumer? id).map Consumer.pristine ∧
        s'.cache.get? id = s.cache.get? id ∧ s'.received = s.received := by
    intro s₁ h₁ hconsumer hcache hreceived
    exact ⟨by rw [h₁.consumers id, hconsumer], by rw [h₁.cache, hcache],
      h₁.received.trans hreceived⟩
  cases htreated with
  | rejected hwrap => exact htended (s.report_tended _ _) rfl rfl rfl
  | @restarted client fresh c hwrap hreg =>
    have hreport := s.report_tended client.id .startedTwice
    exact htended (hreport.trans (evaluate_tended k _ _ (hreport.tidy hs))) rfl rfl rfl
  | @enrolled client fresh hwrap hfree =>
    have hne := hother rfl
    refine htended ((enrol_tended client fresh s).trans
      (evaluate_tended k _ _ (enrol_tidy hwrap hs))) ?_ ?_ rfl
    · exact (consumer?_takeIn ..).trans (if_neg hne)
    · exact (Cache.get?_drain ..).trans (if_neg hne)
  | unusable hstart hshutdown hchange => exact htended (s.report_tended _ _) rfl rfl rfl
  | refused hchange hreg happly => exact htended (s.report_tended _ _) rfl rfl rfl
  | revised hchange hreg happly =>
    refine htended (evaluate_tended k _ _ (put_tidy hs hreg happly)) ?_ rfl rfl
    exact (State.consumer?_put ..).trans (if_neg (hother rfl))
  | cached hchange hfree =>
    exact htended (State.report_tended _ _ _) rfl
      ((Cache.get?_record ..).trans (if_neg (hother rfl))) rfl
  | unknown hfree =>
    exact htended (State.report_tended _ _ _) rfl
      ((Cache.get?_drain ..).trans (if_neg (hother rfl))) rfl
  | dismissed hreg =>
    exact ⟨by rw [consumer?_dismiss, if_neg (hother rfl)],
      (Cache.get?_drain ..).trans (if_neg (hother rfl)), rfl⟩
  | unreadable hdoc => exact ⟨rfl, rfl, rfl⟩
  | swept hpolicy => exact htended (updatePolicy_tended k _ hs) rfl rfl rfl

/-- What becomes of a report, seen from the identity that it is about. -/
theorem Treatment.handed {client : Client} {e : LifecycleEvent} {before : Reports}
    (htreated : k.Treatment s (.lifecycle client e) s') (hs : s.Tidy)
    (hfacing : s.Facing client e before) : s'.Handed client.id := by
  cases htreated with
  | rejected hwrap =>
    have hmade : Reports.made? (client, .start) = none := by
      rw [Reports.made?, hwrap]
      rfl
    exact tended_handed (s.report_tended _ _) (hfacing.handed_of_idle (by simp) rfl (.inr hmade))
  | restarted hwrap hreg =>
    obtain ⟨fresh, hmade⟩ := hfacing.exists_fresh hreg
    have hreport := s.report_tended client.id .startedTwice
    exact tended_handed (hreport.trans (evaluate_tended k _ _ (hreport.tidy hs)))
      (hfacing.handed_of_idle (by simp) rfl (.inl (Option.isSome_of_eq_some hmade)))
  | @enrolled _ fresh hwrap hreg =>
    obtain ⟨hregistered, hwaiting⟩ := Reports.snoc_of_start (hfacing.fresh?_eq_none hreg) hwrap
    have hreports := hfacing.reports_eq (by simp)
    refine tended_handed ((enrol_tended client fresh s).trans
      (evaluate_tended k _ _ (enrol_tidy hwrap hs))) ⟨?_, ?_⟩
    · show ((takeIn client.id _ s).consumer? client.id).map _ =
        (Delivery.reports client.id s.received).registered?
      rw [hreports, hregistered, consumer?_takeIn, if_pos rfl, caughtUp, hfacing.waiting,
        Consumer.replay_eq_foldl, Option.map_some, Consumer.pristine_foldl_accept,
        Consumer.pristine_of_wrap hwrap]
    · show (s.cache.drain client.id).2.get? client.id =
        (Delivery.reports client.id s.received).waiting?
      rw [hreports, hwaiting, Cache.get?_drain, if_pos rfl]
  | unusable hstart hshutdown hchange =>
    exact tended_handed (s.report_tended _ _) (hfacing.handed_of_idle hshutdown hchange
      (.inr (Reports.made?_of_ne_start hstart)))
  | @refused _ _ change c error hchange hreg happly =>
    obtain ⟨hregistered, hwaiting⟩ := hfacing.registered?_of_change hchange hreg
    refine tended_handed (s.report_tended _ _) ⟨?_, hwaiting⟩
    rw [hregistered, hreg, Consumer.accept_of_error happly]
    rfl
  | @revised _ _ change c c' hchange hreg happly =>
    obtain ⟨hregistered, hwaiting⟩ := hfacing.registered?_of_change hchange hreg
    refine tended_handed (evaluate_tended k _ _ (put_tidy hs hreg happly)) ⟨?_, hwaiting⟩
    show ((s.put client.id c').consumer? client.id).map _ =
      (Delivery.reports client.id s.received).registered?
    rw [hregistered, consumer?_put_self, Consumer.accept_of_ok happly]
    rfl
  | @cached _ _ change hchange hreg =>
    obtain ⟨hregistered, hwaiting⟩ := hfacing.waiting?_of_change hchange hreg
    refine tended_handed (State.report_tended _ _ _) ⟨?_, ?_⟩
    · show (s.consumer? client.id).map _ = (Delivery.reports client.id s.received).registered?
      rw [hregistered, hreg]
      rfl
    · show (s.cache.record client.id change).get? client.id =
        (Delivery.reports client.id s.received).waiting?
      rw [hwaiting, Cache.get?_record, if_pos rfl]
  | unknown hreg =>
    exact hfacing.handed_of_shutdown hreg ((Cache.get?_drain ..).trans (if_pos rfl)) rfl
  | dismissed hreg =>
    exact hfacing.handed_of_shutdown ((consumer?_dismiss ..).trans (if_pos rfl))
      ((Cache.get?_drain ..).trans (if_pos rfl)) rfl
  | swept hpolicy => cases hpolicy

theorem handed_kept (k : Controller ω) (id : ConsumerId) : k.Kept (State.Handed id) := by
  refine .of_tended (fun htended hs => tended_handed htended hs) (fun {s} within h hs hh => ?_)
    fun _ _ hs => ⟨hs.registered, hs.waiting⟩
  have htreated := receive_treated k within h hs
  have htidy : State.Tidy { s with received := .hook h within :: s.received } :=
    hs.of_eq rfl rfl
  cases hreport : (Delivery.hook h within).report? id with
  | none =>
    obtain ⟨hconsumer, hcache, hreceived⟩ := htreated.elsewhere htidy hreport
    have hsame := Delivery.reports_cons_of_none s.received hreport
    refine ⟨?_, ?_⟩
    · rw [hconsumer, hreceived, hsame]
      exact hh.registered
    · rw [hcache, hreceived, hsame]
      exact hh.waiting
  | some r =>
    cases h with
    | lifecycle client e =>
      rw [Delivery.report?] at hreport
      split at hreport
      · rename_i hid
        subst hid
        exact htreated.handed htidy (hh.facing e within)
      · cases hreport
    | _ => cases hreport

variable {policy : Policy} {memory : ω}

theorem Reachable.handed (h : k.Reachable policy memory s) (id : ConsumerId) : s.Handed id := by
  refine (handed_kept k id).reachable h ⟨?_, ?_⟩
  · rw [show (State.initial policy memory).consumer? id = none from
      congrArg View.consumer (Moment.view_initial policy memory id)]
    rfl
  · exact Cache.get?_empty id

/-- **Changes are neither lost nor doubled nor reordered on their way to a consumer.**  Of all that
has been reported of an identity since its last shutdown: a consumer is registered exactly when a
client has started that can be taken over.  It is the first such client's, and consumes what all
changes make of it in their order, before the start or after it; nothing waits any more.  As long as
no consumer is registered, exactly the changes wait.  The only changes that are left out are those
that do not fit the mode. -/
theorem Reachable.handoff_exact (h : k.Reachable policy memory s) (id : ConsumerId) :
    ((s.consumer? id).isSome ↔ ∃ client fresh,
      (client, .start) ∈ Delivery.reports id s.received ∧ Consumer.wrap client = .ok fresh) ∧
    (∀ c, s.consumer? id = some c → s.cache.get? id = none ∧
      ∃ earlier client later fresh accepted,
        Delivery.reports id s.received = earlier ++ (client, .start) :: later ∧
        (∀ other, (other, .start) ∈ earlier → (Consumer.wrap other).toOption = none) ∧
        Consumer.wrap client = .ok fresh ∧ c.client = client ∧
        accepted = (Delivery.reports id s.received).changes.foldl Consumer.accept fresh ∧
        c.mode = accepted.mode ∧ c.topics = accepted.topics ∧ c.assigned = accepted.assigned) ∧
    (s.consumer? id = none → s.cache.get? id =
      if (Delivery.reports id s.received).changes = [] then none
      else some (Delivery.reports id s.received).changes) ∧
    ∀ (c : Consumer) change error, c.apply change = .error error →
      ∃ current requested, error = .modeConflict c.id current requested := by
  obtain ⟨hregistered, hwaiting⟩ := h.handed id
  generalize Delivery.reports id s.received = reports at hregistered hwaiting
  have hsome : (s.consumer? id).isSome = reports.fresh?.isSome := by
    rw [← Option.isSome_map, hregistered, Reports.registered?, Option.isSome_map]
  refine ⟨?_, fun c hreg => ?_, fun hfree => ?_, fun c change error => Consumer.apply_eq_error⟩
  · rw [hsome]
    exact Reports.fresh?_isSome
  · rw [hreg, Option.map_some, eq_comm, Reports.registered?, Option.map_eq_some_iff] at hregistered
    obtain ⟨fresh, hfresh, hpristine⟩ := hregistered
    obtain ⟨earlier, client, later, hreports, hearlier, hwrap⟩ := Reports.fresh?_eq_some.1 hfresh
    have hclient : (reports.changes.foldl Consumer.accept fresh).client = client := by
      rw [← Consumer.replay_eq_foldl, (replay_frame ..).1, Consumer.client_of_wrap hwrap]
    refine ⟨?_, earlier, client, later, fresh, _, hreports, hearlier, hwrap, ?_, hpristine.symm,
      rfl, rfl, rfl⟩
    · rw [hwaiting, Reports.waiting?, hfresh]
      exact if_pos (.inl rfl)
    · rw [hpristine] at hclient
      exact hclient
  · have hnone : ¬reports.fresh?.isSome := by
      rw [← hsome, hfree]
      exact Bool.false_ne_true
    rw [hwaiting, Reports.waiting?]
    simp only [hnone, Bool.false_eq_true, false_or]

/-- The newcomer that has reported what it consumes before it starts: nothing waits for it any
more, and it does not consume the queues that do not fit it. -/
theorem Reachable.handoff_exact_of_newcomer :
    ∃ s c, Rehearsal.stage.run 0 (.initial (.prohibiting ["t"]) {}) Rehearsal.overture = some s ∧
      s.consumer? Rehearsal.newcomer.id = some c ∧ c.topics.toList = ["t"] ∧
      c.assigned.toList = [] ∧ s.cache.get? Rehearsal.newcomer.id = none := by
  have hrun : ((Rehearsal.stage.run 0 (.initial (.prohibiting ["t"]) {})
      Rehearsal.overture).bind fun s => (s.consumer? Rehearsal.newcomer.id).map fun c =>
        (c.topics.toList, c.assigned.toList)) = some (["t"], []) := by
    decide +kernel
  obtain ⟨s, hs, hc⟩ := Option.bind_eq_some_iff.1 hrun
  obtain ⟨c, hreg, hboth⟩ := Option.map_eq_some_iff.1 hc
  have hreachable : Rehearsal.stage.Reachable (.prohibiting ["t"]) {} s := Reachable.start.run hs
  exact ⟨s, c, hs, hreg, congrArg Prod.fst hboth, congrArg Prod.snd hboth,
    ((hreachable.handoff_exact Rehearsal.newcomer.id).2.1 c hreg).1⟩

end Controller

end Embargo
