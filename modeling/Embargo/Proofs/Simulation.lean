import Embargo.Proofs.Deliveries

/-!
# The controller takes the steps of its consumers

Seen from any one identity, whatever the controller does comes down to steps of that identity.  How
deliveries take effect is known; what is left are the confirmations, and the inputs of a run.

* `isGone_leads`, `conclude_leads`, `proceed_leads` — one lemma for each function that carries a
  confirmation out;
* `runUntil_leads`, `advance_leads` — time passes, and what is due is done;
* `react_leads` and `Reachable.reach` — **the simulation**: every input, and every run, leads from
  one moment to the other by steps.
-/

namespace Embargo

variable {ω : Type}

namespace Controller

variable {k : Controller ω} {s s' : State ω} {t : Confirmation}

/-! ### Polls -/

theorem report_leads (i : ConsumerId) (n : Notice) (s : State ω) (f : Option Poll) :
    k.Leads (s, f) (s.report i n, f) :=
  .of_view_eq fun id => view_happen rfl s f id

/-- A poll that is underway is seen from its own identity, and from no other one. -/
theorem poll_of_id_eq (s : State ω) {p : Poll} {i : ConsumerId} (h : p.task.id = i) :
    (Moment.view (s, some p) i).poll = some p := by
  show Option.filter (fun q : Poll => decide (q.task.id = i)) (some p) = some p
  rw [Option.filter_some, if_pos (decide_eq_true h)]

theorem poll_of_id_ne (s : State ω) {p : Poll} {i : ConsumerId} (h : i ≠ p.task.id) :
    (Moment.view (s, some p) i).poll = none := by
  show Option.filter (fun q : Poll => decide (q.task.id = i)) (some p) = none
  rw [Option.filter_some, if_neg (by simpa using fun heq => h heq.symm)]

/-- What the record gains by an event about a client. -/
theorem about_happen_of_id_eq (s : State ω) (who : Option ConsumerId) {what : Occurrence}
    {client : Client} {i : ConsumerId} (hwhat : what.client? = some client)
    (h : client.id = i) :
    Log.about i (s.happen who what).log =
      { time := s.now, who, what } :: Log.about i s.log :=
  Log.about_cons_of_id_eq (e := { time := s.now, who, what }) s.log hwhat h

theorem about_happen_of_id_ne (s : State ω) (who : Option ConsumerId) {what : Occurrence}
    {client : Client} {i : ConsumerId} (hwhat : what.client? = some client)
    (h : i ≠ client.id) : Log.about i (s.happen who what).log = Log.about i s.log :=
  Log.about_cons_of_id_ne (e := { time := s.now, who, what }) s.log hwhat fun heq => h heq.symm

/-- An event of a poll is a step of its identity, which no other identity can see. -/
theorem event_leads {what : Occurrence} {present present' : Bool} (memory : ω)
    (hwhat : what.client? = some t.client)
    (hstep : View.Step k.config t.id (Moment.view (s, some ⟨t, present⟩) t.id)
      { Moment.view (s, some ⟨t, present⟩) t.id with
        poll := some ⟨t, present'⟩
        record := { time := s.now, who := some t.id, what } :: Log.about t.id s.log }) :
    k.Leads (s, some ⟨t, present⟩)
      ({ s with memory }.happen (some t.id) what, some ⟨t, present'⟩) := by
  refine .of_step (i := t.id) (fun hkeyed => hkeyed) (fun _ => ?_) (fun _ id hid => ?_)
  · refine hstep.congr (View.ext rfl rfl rfl rfl rfl rfl ?_ ?_)
    · exact poll_of_id_eq _ rfl
    · exact about_happen_of_id_eq _ _ hwhat rfl
  · refine View.ext rfl rfl rfl rfl rfl rfl ?_ ?_
    · exact (poll_of_id_ne _ hid).trans (poll_of_id_ne s hid).symm
    · exact about_happen_of_id_ne _ _ hwhat hid

/-- The hooks that come from inside a poll are received by steps, and leave it entitled to go on. -/
theorem receiveAll_leads {present : Bool} (hooks : List Hook) :
    ∀ {s : State ω}, s.Keyed → (Moment.view (s, some ⟨t, present⟩) t.id).Entitled t.id t →
      k.Leads (s, some ⟨t, present⟩) (hooks.foldl (k.receive (some t)) s, some ⟨t, present⟩) ∧
        (Moment.view (hooks.foldl (k.receive (some t)) s, some ⟨t, present⟩) t.id).Entitled
          t.id t := by
  induction hooks with
  | nil => exact fun _ hentitled => ⟨.refl _ _, hentitled⟩
  | cons h hs ih =>
    intro s hkeyed hentitled
    have hfirst : k.Leads (s, some ⟨t, present⟩) (k.receive (some t) s h, some ⟨t, present⟩) :=
      receive_leads k (fun p hp => by cases hp; rfl) s h
    have hacts := deliver_acts k h (some t) (some ⟨t, present⟩)
      { s with received := .hook h (some t) :: s.received }
    have hentitled₁ := View.Effects.entitled (d := .hook h (some t)) rfl
      ((hacts.along hkeyed).2 t.id) hentitled
    obtain ⟨hrest, hentitled₂⟩ := ih (hfirst hkeyed).1 hentitled₁
    exact ⟨hfirst.trans hrest, hentitled₂⟩

/-- A query that fails leaves its poll with a consumer that counts as present. -/
theorem ask_error_leads {topic : String} {e : Error}
    (hentitled : (Moment.view (s, some ⟨t, false⟩) t.id).Entitled t.id t)
    (h : k.ask t topic s = (.error e, s')) :
    k.Leads (s, some ⟨t, false⟩) (s', some ⟨t, true⟩) := by
  rw [ask] at h
  split at h
  · cases h
    exact event_leads _ rfl (.ask topic false (poll_of_id_eq s rfl) hentitled)
  · cases h

/-- A query that is accepted lets hooks in and is answered; the poll goes on with what the answer
says. -/
theorem ask_ok_leads {topic : String} {members : List String}
    (hkeyed : s.Keyed) (hentitled : (Moment.view (s, some ⟨t, false⟩) t.id).Entitled t.id t)
    (h : k.ask t topic s = (.ok members, s')) :
    k.Leads (s, some ⟨t, false⟩) (s', some ⟨t, decide (t.client.clientId ∈ members)⟩) ∧
      (Moment.view (s', some ⟨t, false⟩) t.id).Entitled t.id t := by
  rw [ask] at h
  split at h
  · cases h
  · rename_i hooks memory hquery
    have hasked : k.Leads (s, some ⟨t, false⟩) ({ s with memory }.happen (some t.id)
        (.call t.client t.life (.findMembers topic t.group) true), some ⟨t, false⟩) :=
      event_leads memory rfl (.ask topic true (poll_of_id_eq s rfl) hentitled)
    have hentitledAsked : (Moment.view ({ s with memory }.happen (some t.id)
        (.call t.client t.life (.findMembers topic t.group) true), some ⟨t, false⟩) t.id).Entitled
          t.id t := hentitled
    obtain ⟨hlet, hentitled'⟩ := receiveAll_leads (k := k) hooks (hasked hkeyed).1 hentitledAsked
    dsimp only at h
    generalize hooks.foldl (k.receive (some t)) _ = s₂ at h hlet hentitled'
    cases h
    refine ⟨(hasked.trans hlet).trans ?_, hentitled'⟩
    exact event_leads _ rfl (.answer topic _ (poll_of_id_eq s₂ rfl))

/-- Asking for one topic after the other leads to what was found out. -/
theorem isGone_leads (topics : List String) :
    ∀ {s : State ω}, s.Keyed → (Moment.view (s, some ⟨t, false⟩) t.id).Entitled t.id t →
      k.Leads (s, some ⟨t, false⟩)
        ((k.isGone t topics s).2, some ⟨t, !(k.isGone t topics s).1⟩) := by
  induction topics with
  | nil => exact fun _ _ => .refl _ _
  | cons topic topics ih =>
    intro s hkeyed hentitled
    rw [isGone]
    rcases hask : k.ask t topic s with ⟨result, s₁⟩
    cases result with
    | error e => exact (ask_error_leads hentitled hask).trans (report_leads _ _ s₁ _)
    | ok members =>
      obtain ⟨hleads, hentitled₁⟩ := ask_ok_leads hkeyed hentitled hask
      by_cases hmem : t.client.clientId ∈ members
      · rw [decide_eq_true hmem] at hleads
        dsimp only
        rw [if_pos hmem]
        exact hleads
      · rw [decide_eq_false hmem] at hleads
        dsimp only
        rw [if_neg hmem]
        exact hleads.trans (ih (hleads hkeyed).1 hentitled₁)

theorem ask_still (k : Controller ω) (t : Confirmation) (topic : String) (s : State ω) :
    k.Still s (k.ask t topic s).2 := by
  rw [ask]
  split
  · exact .of_eq rfl rfl rfl
  · rename_i hooks memory hquery
    have hstill := receiveAll_still k (some t) hooks ({ s with memory }.happen (some t.id)
      (.call t.client t.life (.findMembers topic t.group) true))
    exact ⟨hstill.now, hstill.waiting, hstill.stuck⟩

theorem isGone_still (k : Controller ω) (t : Confirmation) (topics : List String) :
    ∀ s : State ω, k.Still s (k.isGone t topics s).2 := by
  induction topics with
  | nil => exact fun s => .of_eq rfl rfl rfl
  | cons topic topics ih =>
    intro s
    have hstill := ask_still k t topic s
    rw [isGone]
    rcases hask : k.ask t topic s with ⟨result, s₁⟩
    rw [hask] at hstill
    cases result with
    | error e => exact hstill.trans (.of_eq rfl rfl rfl)
    | ok members =>
      dsimp only
      split
      · exact hstill
      · exact hstill.trans (ih s₁)

/-! ### Ends of polls -/

/-- The end of a poll is a step of its identity, and lets the poll go. -/
theorem end_leads {p : Poll} (hkeyed' : s.Keyed → s'.Keyed)
    (hstep : s.Keyed → View.Step k.config p.task.id (Moment.view (s, some p) p.task.id)
      (Moment.view (s', none) p.task.id))
    (hother : ∀ id, id ≠ p.task.id →
      Moment.view (s', none) id = Moment.view (s, none) id) :
    k.Leads (s, some p) (s', none) := by
  refine .of_step (i := p.task.id) hkeyed' hstep fun _ id hid => ?_
  rw [hother id hid]
  exact View.ext rfl rfl rfl rfl rfl rfl (poll_of_id_ne s hid).symm rfl

/-- Whom a confirmation is about can be told from the view of its consumer. -/
theorem subject?_view (t : Confirmation) (s : State ω) (f : Option Poll) :
    (Moment.view (s, f) t.id).subject? t = subject? t s :=
  (subject?_eq t s).symm

theorem discard_leads {p : Poll} (hover : subject? p.task s = none) :
    k.Leads (s, some p) (s, none) :=
  end_leads (fun hkeyed => hkeyed)
    (fun _ => (View.Step.discard (poll_of_id_eq s rfl) ((subject?_view ..).trans hover)).congr rfl)
    fun _ _ => rfl

/-- The consumer that a confirmation is about is registered. -/
theorem consumer?_of_subject? {c : Consumer} (h : subject? t s = some c) :
    s.consumer? t.id = some c := by
  rw [subject?_eq, Option.filter_eq_some_iff] at h
  exact h.1

/-- The way back is one step of the consumer. -/
theorem rollBack_leads {c c' : Consumer} {memory : ω} {log : Log}
    (hover : k.config.maxRetries.toNat ≤ t.attempts + 1) (hlive : subject? t s = some c)
    (hrun : (c.rollBack s.now).run k.environment s.now ⟨t.client, t.life⟩ s.memory s.log =
      (c', memory, log)) :
    k.Leads (s, some ⟨t, true⟩)
      ({ s with registry := s.registry.replace t.id c', memory, log }, none) := by
  obtain ⟨tr, hyields, habout⟩ := Program.run_yields k.environment s.now ⟨t.client, t.life⟩
    (c.rollBack s.now) s.memory s.log
  rw [hrun] at hyields habout
  have hclient : c'.client = c.client := by
    rcases Consumer.rollBack_yields hyields with ⟨-, rfl⟩ | ⟨ok, -, rfl⟩ <;> rfl
  refine end_leads (fun hkeyed => ?_) (fun _ => ?_) fun id hid => ?_
  · exact keyed_replace hkeyed (consumer?_of_subject? hlive) hclient
  · refine (View.Step.rollBack (poll_of_id_eq s rfl) hover ((subject?_view ..).trans hlive)
        hyields).congr
      (View.ext rfl rfl rfl rfl ?_ rfl rfl ?_)
    · exact (consumer?_replace s t.id t.id c').trans (if_pos rfl)
    · exact (habout t.id).trans (congrArg (· ++ _) (if_pos rfl))
  · refine View.ext rfl rfl rfl rfl ?_ rfl rfl ?_
    · exact (consumer?_replace s t.id id c').trans (if_neg fun h => hid h.symm)
    · exact (habout id).trans (congrArg (· ++ _) (if_neg fun h => hid h.symm))

theorem conclude_now (k : Controller ω) (t : Confirmation) (gone : Bool) (s : State ω) :
    (k.conclude t gone s).now = s.now := by
  rw [conclude_eq_run]
  split
  · rfl
  · split <;> rfl

/-- The end of a confirmation is one step of its consumer. -/
theorem conclude_leads (gone : Bool)
    (hover : gone = false → k.config.maxRetries.toNat ≤ t.attempts + 1) :
    k.Leads (s, some ⟨t, !gone⟩) (k.conclude t gone s, none) := by
  rw [conclude_eq_run]
  cases hlive : subject? t s with
  | none => exact (discard_leads hlive).trans (report_leads _ _ s none)
  | some c =>
    cases gone with
    | true =>
      refine Moment.Along.trans (end_leads ?_ (fun _ => ?_) fun id hid => ?_)
        (report_leads _ _ _ none)
      · exact fun hkeyed => keyed_replace hkeyed (consumer?_of_subject? hlive) rfl
      · refine (View.Step.confirm (poll_of_id_eq s rfl) ((subject?_view ..).trans hlive)).congr
          (View.ext rfl rfl rfl rfl ?_ rfl rfl rfl)
        exact consumer?_put_self s t.id _
      · refine View.ext rfl rfl rfl rfl ?_ rfl rfl rfl
        exact (State.consumer?_put s t.id id _).trans (if_neg fun h => hid h.symm)
    | false =>
      have hreport := report_leads (k := k) t.id
        (.confirmationTimedOut c.label k.config.maxRetries.toNat) s (some ⟨t, true⟩)
      exact hreport.trans (rollBack_leads (hover rfl) hlive rfl)

/-! ### Steps of confirmations -/

/-- A confirmation waits again, behind those that have been waiting. -/
theorem retry_leads {place : Nat} (hplace : place ≤ s.confirmations.length)
    (hleft : t.attempts + 1 < k.config.maxRetries.toNat) :
    k.Leads (s, some ⟨t, true⟩)
      ({ s with
          confirmations := s.confirmations.insertIdx place (t.again k.config s.now) }, none) := by
  have hperm := List.perm_insertIdx (t.again k.config s.now) s.confirmations hplace
  refine end_leads (fun hkeyed => hkeyed) (fun _ => ?_) fun id hid => ?_
  · refine (View.Step.retry (poll_of_id_eq s rfl) hleft).congr
      (View.ext rfl rfl rfl rfl rfl ?_ rfl rfl)
    exact (waitingFor_perm hperm).trans (waitingFor_cons_of_id_eq _ rfl)
  · refine View.ext rfl rfl rfl rfl rfl ?_ rfl rfl
    exact (waitingFor_perm hperm).trans (waitingFor_cons_of_id_ne _ fun h => hid h.symm)

/-- A confirmation that has been picked asks, and ends or waits again; time stands still. -/
theorem proceed_leads (hkeyed : s.Keyed) :
    k.Leads (s, some ⟨t, decide (k.config.maxRetries.toNat ≤ t.attempts)⟩)
      (k.proceed t s, none) ∧ (k.proceed t s).now = s.now := by
  rw [proceed]
  by_cases hspent : k.config.maxRetries.toNat ≤ t.attempts
  · rw [if_pos hspent, decide_eq_true hspent]
    exact ⟨conclude_leads false fun _ => Nat.le_succ_of_le hspent, conclude_now ..⟩
  rw [if_neg hspent, decide_eq_false hspent]
  cases hlive : subject? t s with
  | none => exact ⟨(discard_leads hlive).trans (report_leads _ _ s none), rfl⟩
  | some c =>
    have hentitled : (Moment.view (s, some ⟨t, false⟩) t.id).Entitled t.id t :=
      .inl fun hnone => by cases (hlive.symm.trans (subject?_view ..).symm).trans hnone
    have hasked := isGone_leads (k := k) c.topics.toList hkeyed hentitled
    have hstill := isGone_still k t c.topics.toList s
    dsimp only
    rcases hgone : k.isGone t c.topics.toList s with ⟨gone, s₁⟩
    rw [hgone] at hasked hstill
    cases gone with
    | true =>
      exact ⟨hasked.trans (conclude_leads true fun h => by cases h),
        (conclude_now ..).trans hstill.now⟩
    | false =>
      have hreport := report_leads (k := k) t.id
        (.stillListed t.client.clientId t.group (t.attempts + 1)) s₁ (some ⟨t, true⟩)
      have hreported := hasked.trans hreport
      dsimp only
      split
      · rename_i hover
        exact ⟨hreported.trans (conclude_leads false fun _ => hover),
          (conclude_now ..).trans hstill.now⟩
      · rename_i hleft
        have hplace : s.confirmations.length ≤ s₁.confirmations.length := by
          obtain ⟨started, hwaiting, -⟩ := hstill.waiting
          rw [hwaiting, List.length_append]
          exact Nat.le_add_right ..
        exact ⟨hreported.trans
          (retry_leads hplace (Nat.lt_of_not_le hleft)), hstill.now⟩

/-- Time moves on to the confirmation that is next, and it is picked. -/
theorem pick_leads {limit : Option Nat} {waiting : List Confirmation}
    (hnext : Confirmation.takeNext limit s.confirmations = some (t, waiting)) :
    k.Leads (s, none) ({ s with confirmations := waiting, now := max s.now t.due },
      some ⟨t, decide (k.config.maxRetries.toNat ≤ t.attempts)⟩) := by
  obtain ⟨hperm, hmin, -⟩ := Confirmation.takeNext_eq_some hnext
  have hticked : k.Leads (s, none) ({ s with now := max s.now t.due }, none) := by
    refine .of_steps (fun hkeyed => hkeyed) fun id => .tick rfl (Nat.le_max_left ..) ?_
    rcases Nat.le_total t.due s.now with hle | hle
    · exact .inl (Nat.max_eq_left hle)
    · refine .inr fun u hu => (Nat.max_eq_right hle).symm ▸ hmin u ?_
      exact (List.mem_filter.1 hu).1
  refine hticked.trans
    (.of_step (i := t.id) (fun hkeyed => hkeyed) (fun _ => ?_) fun _ id hid => ?_)
  · refine (View.Step.pick rfl ((waitingFor_perm hperm).trans (waitingFor_cons_of_id_eq _ rfl))
      (Nat.le_max_right ..)).congr (View.ext rfl rfl rfl rfl rfl rfl ?_ rfl)
    exact poll_of_id_eq _ rfl
  · refine View.ext rfl rfl rfl rfl rfl ?_ (poll_of_id_ne _ hid) rfl
    refine ((waitingFor_perm hperm).trans (waitingFor_cons_of_id_ne _ ?_)).symm
    exact fun h => hid h.symm

/-- The confirmation that is next goes on. -/
theorem goOn_leads {limit : Option Nat} {waiting : List Confirmation} (hkeyed : s.Keyed)
    (hnext : Confirmation.takeNext limit s.confirmations = some (t, waiting)) :
    k.Leads (s, none) (k.goOn t waiting s, none) ∧
      (k.goOn t waiting s).now = max s.now t.due := by
  have hpicked := pick_leads (k := k) hnext
  obtain ⟨hproceeded, hnow⟩ := proceed_leads (k := k) (t := t) (hpicked hkeyed).1
  exact ⟨hpicked.trans hproceeded, hnow⟩

/-- All steps up to a limit lead on.  They leave none that is due by then, and time does not move
beyond the limit. -/
theorem runUntil_leads {limit : Option Nat} (fuel : Nat) :
    ∀ {s s' : State ω}, s.Keyed → k.runUntil limit fuel s = some s' →
      k.Leads (s, none) (s', none) ∧ Confirmation.takeNext limit s'.confirmations = none ∧
        ∀ l, limit = some l → s.now ≤ l → s'.now ≤ l := by
  induction fuel with
  | zero =>
    intro s s' _ h
    rw [runUntil] at h
    cases hnext : Confirmation.takeNext limit s.confirmations with
    | none => rw [hnext] at h; cases h; exact ⟨.refl _ _, hnext, fun _ _ hle => hle⟩
    | some r => rw [hnext] at h; cases h
  | succ fuel ih =>
    intro s s' hkeyed h
    rw [runUntil] at h
    cases hnext : Confirmation.takeNext limit s.confirmations with
    | none => rw [hnext] at h; cases h; exact ⟨.refl _ _, hnext, fun _ _ hle => hle⟩
    | some r =>
      rw [hnext] at h
      obtain ⟨hleads, hnow⟩ := goOn_leads (k := k) hkeyed hnext
      obtain ⟨hrest, hdone, hlimit⟩ := ih (hleads hkeyed).1 h
      refine ⟨hleads.trans hrest, hdone, fun l hl hle => hlimit l hl ?_⟩
      subst hl
      have hdue := (Confirmation.takeNext_eq_some hnext).2.2
      rw [hnow]
      exact Nat.max_le.2 ⟨hle, by simpa using hdue⟩

/-- When time has passed, no confirmation is left that is due. -/
theorem advance_leads {patience ms : Nat} (hkeyed : s.Keyed)
    (h : k.advance patience ms s = some s') :
    k.Leads (s, none) (s', none) ∧ s'.now = s.now + ms ∧
      ∀ t ∈ s'.confirmations, s'.now < t.due := by
  rw [advance, Option.map_eq_some_iff] at h
  obtain ⟨s₁, hrun, rfl⟩ := h
  obtain ⟨hleads, hdone, hlimit⟩ := runUntil_leads _ hkeyed hrun
  have hnow : max s₁.now (s.now + ms) = s.now + ms :=
    Nat.max_eq_right (hlimit _ rfl (Nat.le_add_right ..))
  have hlate : ∀ t ∈ s₁.confirmations, s.now + ms < t.due := by
    intro t ht
    have hnot := Confirmation.takeNext_eq_none.1 hdone t ht
    simpa using hnot
  refine ⟨hleads.trans (.of_steps (fun hkeyed => hkeyed) fun id =>
    .tick rfl (Nat.le_max_left ..) (.inr fun t ht => ?_)), hnow, fun t ht => ?_⟩
  · rw [hnow]
    exact Nat.le_of_lt (hlate t (List.mem_filter.1 ht).1)
  · show max s₁.now (s.now + ms) < t.due
    rw [hnow]
    exact hlate t ht

/-- When nothing is waited for any more, no confirmation is running. -/
theorem wait_leads {patience : Nat} (hkeyed : s.Keyed) (h : k.wait patience s = some s') :
    k.Leads (s, none) (s', none) ∧ s'.confirmations = [] := by
  obtain ⟨hleads, hdone, -⟩ := runUntil_leads _ hkeyed h
  refine ⟨hleads, List.eq_nil_iff_forall_not_mem.2 fun t ht => ?_⟩
  cases Confirmation.takeNext_eq_none.1 hdone t ht

/-! ### Inputs and runs -/

/-- An order of an operator is a delivery to the consumer that it is about. -/
theorem order_leads (k : Controller ω) (i : ConsumerId) (d : Decision) (s : State ω) :
    k.Leads (s, none) (k.drive d i { s with received := .order i d :: s.received }, none) :=
  Acts.leads (d := .order i d) (fun p hp => by cases hp) (drive_acts rfl)

theorem order_still (k : Controller ω) (i : ConsumerId) (d : Decision) (s : State ω) :
    k.Still s (k.drive d i { s with received := .order i d :: s.received }) :=
  have hstill := drive_still k i d { s with received := .order i d :: s.received }
  ⟨hstill.now, hstill.waiting, hstill.stuck⟩

theorem take_leads {patience : Nat} {i : Input} (hkeyed : s.Keyed)
    (h : k.take patience s i = some s') :
    k.Leads (s, none) (s', none) := by
  cases i with
  | hook hook =>
    cases h
    exact receive_leads k (fun p hp => by cases hp) s hook
  | drive id d =>
    cases h
    exact order_leads k id d s
  | pass ms => exact (advance_leads hkeyed h).1
  | wait => exact (wait_leads hkeyed h).1

/-- **Every input leads on by steps of the consumers**, and leaves no confirmation that is due. -/
theorem react_leads {patience : Nat} {i : Input} (hkeyed : s.Keyed)
    (h : k.react patience s i = some s') :
    k.Leads (s, none) (s', none) ∧ ∀ t ∈ s'.confirmations, s'.now < t.due := by
  rw [react, Option.bind_eq_some_iff] at h
  obtain ⟨s₁, htake, hsettle⟩ := h
  have htaken := take_leads hkeyed htake
  obtain ⟨hsettled, -, hdue⟩ := advance_leads (htaken hkeyed).1 hsettle
  exact ⟨htaken.trans hsettled, hdue⟩

theorem keyed_initial (policy : Policy) (memory : ω) : (State.initial policy memory).Keyed := by
  intro id c hc
  have hnone : (State.initial policy memory).consumer? id = none :=
    congrArg View.consumer (Moment.view_initial policy memory id)
  cases hnone.symm.trans hc

variable {policy : Policy} {memory : ω}

theorem Reachable.keyed (h : k.Reachable policy memory s) : s.Keyed := by
  induction h with
  | start => exact keyed_initial policy memory
  | step patience i _ hreact ih => exact ((react_leads ih (next_eq_some.1 hreact).1).1 ih).1

/-- **The simulation.**  Every state that runs lead to holds about every identity what steps of that
identity lead to. -/
theorem Reachable.reach (h : k.Reachable policy memory s) (id : ConsumerId) :
    View.Reach k.config id (View.initial policy) (Moment.view (s, none) id) := by
  induction h with
  | start => exact Moment.view_initial policy memory id ▸ .refl
  | step patience i hbefore hreact ih =>
    exact ih.trans (((react_leads hbefore.keyed (next_eq_some.1 hreact).1).1 hbefore.keyed).2 id)

/-- Any number of inputs leads on by steps of the consumers. -/
theorem run_leads {patience : Nat} (inputs : List Input) :
    ∀ {s s' : State ω}, s.Keyed → k.run patience s inputs = some s' →
      k.Leads (s, none) (s', none) := by
  induction inputs with
  | nil =>
    intro s s' _ h
    rw [run_nil, Option.some.injEq] at h
    exact h ▸ .refl _ _
  | cons i inputs ih =>
    intro s s' hkeyed h
    rw [run_cons, Option.bind_eq_some_iff] at h
    obtain ⟨s₁, hreact, hrun⟩ := h
    obtain ⟨hfirst, -⟩ := react_leads hkeyed (next_eq_some.1 hreact).1
    exact hfirst.trans (ih (hfirst hkeyed).1 hrun)

theorem runUntil_of_none (k : Controller ω) {limit : Option Nat} (fuel : Nat)
    (h : Confirmation.takeNext limit s.confirmations = none) :
    k.runUntil limit fuel s = some s := by
  cases fuel <;> rw [runUntil, h]

theorem runUntil_of_some (k : Controller ω) {limit : Option Nat} {t : Confirmation}
    {waiting : List Confirmation} (fuel : Nat)
    (h : Confirmation.takeNext limit s.confirmations = some (t, waiting)) :
    k.runUntil limit (fuel + 1) s = k.runUntil limit fuel (k.goOn t waiting s) := by
  rw [runUntil, h]

/-- When nothing is due, nothing happens at once. -/
theorem advance_of_settled (k : Controller ω) (patience : Nat)
    (h : ∀ t ∈ s.confirmations, s.now < t.due) : k.advance patience 0 s = some s := by
  have hnone : Confirmation.takeNext (some (s.now + 0)) s.confirmations = none :=
    Confirmation.takeNext_eq_none.2 fun t ht => by simpa using h t ht
  rw [advance, runUntil_of_none k _ hnone, Option.map_some, Nat.add_zero, Nat.max_self]

/-- Between the inputs of a run no confirmation is due. -/
theorem Reachable.settled (h : k.Reachable policy memory s) :
    ∀ t ∈ s.confirmations, s.now < t.due := by
  cases h with
  | start => intro t ht; cases ht
  | step patience i hbefore hreact => exact (react_leads hbefore.keyed (next_eq_some.1 hreact).1).2

end Controller

end Embargo
