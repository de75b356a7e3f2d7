import Embargo.Proofs.Representation
import Embargo.Proofs.Routes

/-!
# Blanks around topic names

Topic names reach the controller with blanks around them, in policies and in what clients report.
Policies are cleaned when they are put in force and subscriptions when they are reported, so that
decisions, which compare names as they are, come out as if blanks did not matter.  The queues of an
assignment are not cleaned: a topic with blanks around it is consumed there whatever the policy
says.

* `Hook.raw?`, `Delivery.lastPolicy` — the policy that was delivered last, as it was delivered;
* `Consumer.Consumes` — the topics that a consumer consumes, by its mode;
* `Policy.Names` — a policy lists the same name as some text, blanks apart;
* `Policy.decide_eq_suspend_iff_names` — what a decision comes to, in these terms;
* `Log.lastConsultation?`, `Log.lastDecision?` — the last question about an identity, and what the
  built-in handler answers to it;
* `Controller.UpToDate` — **the invariant**: the last question about a registered consumer was about
  the consumer as it is, under the policy in force;
* `Controller.Reachable.decides_by_name` — blanks do not decide, those of assigned queues apart;
* `Controller.exists_padded_queue_consumed` — a queue that is consumed for its blanks.
-/

namespace Embargo

variable {ω : Type}

/-! ### Policies as they are delivered -/

/-- The policy that a hook brings, as it was delivered: of a document, what is written in it. -/
def Hook.raw? : Hook → Option Policy
  | .policyUpdate p => some p
  | .policyDelivery p => some p
  | .policyDocument text => (Json.parse Policy.reader text).toOption
  | .lifecycle .. => none

namespace Delivery

/-- The policy that a delivery brings, as it was delivered. -/
def raw? : Delivery → Option Policy
  | .hook h _ => h.raw?
  | .order .. => none

/-- The policy that was delivered last, or the one from the beginning. -/
def lastPolicy (policy : Policy) (received : List Delivery) : Policy :=
  (received.findSome? raw?).getD policy

/-- Every route cleans what is delivered. -/
theorem map_normalized_raw? (d : Delivery) :
    d.raw?.map Policy.normalized = d.policy?.map Policy.normalized := by
  rcases d with ⟨h, within⟩ | _
  · cases h with
    | policyDocument text =>
      show (Json.parse Policy.reader text).toOption.map Policy.normalized =
        (Policy.ofDocument text).toOption.map Policy.normalized
      rw [Policy.ofDocument]
      cases Json.parse Policy.reader text with
      | error problem => rfl
      | ok p => exact congrArg some (Policy.normalized_normalized p).symm
    | _ => rfl
  · rfl

/-- The policy in force is the one that was delivered last, cleaned. -/
theorem policyInForce_eq (policy : Policy) (received : List Delivery) :
    policyInForce policy received = (lastPolicy policy received).normalized := by
  induction received with
  | nil => rfl
  | cons d received ih =>
    have hsame := map_normalized_raw? d
    rw [policyInForce, lastPolicy, List.findSome?_cons, List.findSome?_cons]
    cases hclean : d.policy? with
    | none =>
      rw [hclean, Option.map_none, Option.map_eq_none_iff] at hsame
      rw [hsame]
      exact ih
    | some p =>
      rw [hclean, Option.map_some, Option.map_eq_some_iff] at hsame
      obtain ⟨raw, hraw, heq⟩ := hsame
      rw [hraw]
      exact heq.symm

end Delivery

/-! ### Topics as they are consumed -/

/-- A change whose topics have no blanks around them; those of queues are taken as they come. -/
def Change.Trimmed : Change → Prop
  | .subscribe topic => Text.trim topic = topic
  | .unsubscribe topic => Text.trim topic = topic
  | .assign _ => True

theorem LifecycleEvent.trimmed_of_change? {e : LifecycleEvent} {change : Change}
    (h : e.change? = some change) : change.Trimmed := by
  cases e with
  | subscribe topic =>
    rw [change?] at h
    split at h
    · cases h
    · cases h
      exact Text.trim_trim topic
  | unsubscribe topic =>
    rw [change?] at h
    split at h
    · cases h
    · cases h
      exact Text.trim_trim topic
  | assign queues =>
    rw [change?] at h
    split at h
    · cases h
    · cases h
      trivial
  | start => cases h
  | shutdown => cases h

namespace Consumer

variable {client : Client} {history : List Operation} {c : Consumer} {change : Change}

/-- The topics that a consumer consumes: those that it has subscribed to, or those of the queues
that it was handed. -/
def Consumes (c : Consumer) (topic : String) : Prop :=
  match c.mode with
  | none => False
  | some .subscribe => topic ∈ c.topics
  | some .assign => ∃ q ∈ c.assigned, q.topic = topic

/-- What is subscribed to has no blanks around it. -/
def Trimmed (c : Consumer) : Prop :=
  c.mode ≠ some .assign → ∀ t ∈ c.topics, Text.trim t = t

/-- Whatever the mode, the topics on record are those that are consumed. -/
theorem Shaped.mem_topics (h : c.Shaped client history) {t : String} :
    t ∈ c.topics ↔ c.Consumes t := by
  rcases hmode : c.mode with _ | (_ | _)
  · rw [h.modeless hmode]
    simp [Consumes, hmode]
  · simp [Consumes, hmode]
  · rw [(h.assigned hmode).1]
    simp [Consumes, hmode]

/-- Changes lead from a consumer that fits together to one that does. -/
theorem Shaped.foldl_accept (changes : List Change) (h : c.Shaped client history) :
    ∃ later, (changes.foldl accept c).Shaped client later := by
  induction changes generalizing c history with
  | nil => exact ⟨history, h⟩
  | cons change rest ih =>
    rw [List.foldl_cons]
    cases happly : c.apply change with
    | error e =>
      rw [accept_of_error happly]
      exact ih h
    | ok c' =>
      have hop : c.operate 0 (.change change) = .ok c' := happly
      rw [accept_of_ok happly]
      exact ih (h.perform hop)

theorem Trimmed.accept (h : c.Trimmed) (hchange : change.Trimmed) : (c.accept change).Trimmed := by
  cases happly : c.apply change with
  | error e =>
    rw [accept_of_error happly]
    exact h
  | ok c' =>
    rw [accept_of_ok happly]
    cases change with
    | subscribe topic =>
      rw [apply, subscribe] at happly
      cases hclaim : c.claim .subscribe with
      | error e => rw [hclaim] at happly; cases happly
      | ok c₁ =>
        rw [hclaim] at happly
        cases happly
        obtain ⟨rfl, hmode⟩ := claim_eq_ok hclaim
        intro _ t ht
        simp only [Std.ExtTreeSet.mem_insert, Std.LawfulEqOrd.compare_eq_iff_eq] at ht
        rcases ht with rfl | ht
        · exact hchange
        · exact h (by rcases hmode with hmode | hmode <;> simp [hmode]) t ht
    | unsubscribe topic =>
      rw [apply, unsubscribe] at happly
      split at happly
      · cases happly
      · cases happly
        intro hmode t ht
        exact h hmode t (Std.ExtTreeSet.mem_erase.1 ht).2
    | assign queues =>
      rw [apply, assign] at happly
      cases hclaim : c.claim .assign with
      | error e => rw [hclaim] at happly; cases happly
      | ok c₁ =>
        rw [hclaim] at happly
        cases happly
        intro hmode
        exact absurd (congrArg Consumer.mode (claim_eq_ok hclaim).1) hmode

theorem Trimmed.foldl_accept {changes : List Change} (h : c.Trimmed)
    (hchanges : ∀ change ∈ changes, change.Trimmed) :
    (changes.foldl Consumer.accept c).Trimmed := by
  induction changes generalizing c with
  | nil => exact h
  | cons change rest ih =>
    obtain ⟨hfirst, hrest⟩ := List.forall_mem_cons.1 hchanges
    exact ih (h.accept hfirst) hrest

end Consumer

/-- What has been reported makes a consumer that fits together, and that has no topics with blanks
around them but those of its queues. -/
theorem Reports.shaped_and_trimmed {reports : Reports} {c : Consumer}
    (h : reports.registered? = some c) :
    (∃ client history, c.Shaped client history) ∧ c.Trimmed := by
  obtain ⟨fresh, hfresh, rfl⟩ := Option.map_eq_some_iff.1 h
  obtain ⟨earlier, client, later, -, -, hwrap⟩ := Reports.fresh?_eq_some.1 hfresh
  have hchanges : ∀ change ∈ reports.changes, change.Trimmed := by
    intro change hmem
    obtain ⟨r, -, hchange⟩ := List.mem_filterMap.1 hmem
    exact LifecycleEvent.trimmed_of_change? hchange
  have htrimmed : fresh.Trimmed := by
    obtain ⟨group, mode, -, rfl⟩ := Consumer.wrap_eq_ok hwrap
    intro _ t ht
    simp at ht
  exact ⟨⟨client, (Consumer.shaped_of_wrap hwrap).foldl_accept reports.changes⟩,
    htrimmed.foldl_accept hchanges⟩

/-! ### Decisions by name -/

namespace Policy

/-- A policy lists the same name as a text, blanks apart; blank texts are no names. -/
def Names (p : Policy) (t : String) : Prop :=
  Text.trim t ≠ "" ∧ ∃ u ∈ p.topics, Text.trim u = Text.trim t

/-- A cleaned policy lists exactly the names that have no blanks around them. -/
theorem mem_normalized_iff_names {p : Policy} {t : String} :
    t ∈ p.normalized.topics ↔ p.Names t ∧ Text.trim t = t := by
  rw [mem_normalized]
  constructor
  · rintro ⟨hne, u, hu, rfl⟩
    have htrim := Text.trim_trim u
    exact ⟨⟨by rwa [htrim], u, hu, htrim.symm⟩, htrim⟩
  · rintro ⟨⟨hne, u, hu, heq⟩, htrim⟩
    rw [htrim] at hne heq
    exact ⟨hne, u, hu, heq⟩

/-- A decision compares names as they are, which comes to comparing them without the blanks around
them wherever what is consumed has none. -/
theorem decide_eq_suspend_iff_names (p : Policy) {c : Consumer} {client : Client}
    {history : List Operation} (hshaped : c.Shaped client history) (htrimmed : c.Trimmed) :
    p.normalized.decide c.topics = .suspend ↔
      p.enabled = true ∧ ∃ t, c.Consumes t ∧ p.Names t ∧
        (c.mode = some .assign → Text.trim t = t) := by
  rw [decide_eq_suspend_iff, normalized_enabled]
  constructor
  · rintro ⟨henabled, t, ht, hlisted⟩
    obtain ⟨hnames, htrim⟩ := mem_normalized_iff_names.1 hlisted
    exact ⟨henabled, t, hshaped.mem_topics.1 ht, hnames, fun _ => htrim⟩
  · rintro ⟨henabled, t, hconsumes, hnames, hassign⟩
    have ht := hshaped.mem_topics.2 hconsumes
    have htrim : Text.trim t = t := by
      by_cases hmode : c.mode = some .assign
      · exact hassign hmode
      · exact htrimmed hmode t ht
    exact ⟨henabled, t, ht, mem_normalized_iff_names.2 ⟨hnames, htrim⟩⟩

end Policy

/-! ### The last question -/

/-- What the built-in handler answers to a question. -/
def Consultation.decision? (q : Consultation) : Option Decision :=
  match q.handler with
  | .builtin => some (q.policy.decide q.consumer.topics)
  | .custom _ => none

namespace Log

/-- The last question about an identity. -/
def lastConsultation? (id : ConsumerId) (log : Log) : Option Consultation :=
  log.consultations.find? fun q => q.who = some id

/-- What the built-in handler has decided last about an identity. -/
def lastDecision? (id : ConsumerId) (log : Log) : Option Decision :=
  (log.lastConsultation? id).bind Consultation.decision?

end Log

/-- Questions about an identity that are all the same are found. -/
theorem find?_who_eq_some {questions : List Consultation} {id : ConsumerId} {q : Consultation}
    (hmem : q ∈ questions) (hwho : q.who = some id)
    (hone : ∀ q' ∈ questions, q'.who = some id → q' = q) :
    (questions.find? fun q => q.who = some id) = some q := by
  cases hfound : questions.find? fun q => q.who = some id with
  | none =>
    rw [List.find?_eq_none] at hfound
    exact absurd (decide_eq_true hwho) (hfound q hmem)
  | some q' =>
    have hwho' : q'.who = some id := by simpa using List.find?_some hfound
    rw [hone q' (List.mem_of_find?_eq_some hfound) hwho']

namespace Controller

variable {k : Controller ω} {s s₁ s' : State ω} {id : ConsumerId} {h : Hook}

/-- The last question about each registered consumer was about the consumer as it is, under the
policy in force. -/
def UpToDate (k : Controller ω) (s : State ω) : Prop :=
  ∀ id c, s.consumer? id = some c → ∃ trigger, s.log.lastConsultation? id =
    some ⟨k.handler.name, some id, trigger, c.pristine, s.policy.current⟩

/-- Without questions everything stays up to date that does not change what consumers consume. -/
theorem UpToDate.of_silent (hs : k.UpToDate s) (hsilent : s.Silent s')
    (hsame : ∀ id c, s'.consumer? id = some c →
      (s.consumer? id).map Consumer.pristine = some c.pristine) : k.UpToDate s' := by
  intro id c hreg
  obtain ⟨c₀, hreg₀, hpristine⟩ := Option.map_eq_some_iff.1 (hsame id c hreg)
  obtain ⟨trigger, hlast⟩ := hs id c₀ hreg₀
  refine ⟨trigger, ?_⟩
  rw [Log.lastConsultation?, hsilent.consultations, hsilent.policy, ← hpristine]
  exact hlast

/-- Nothing changes but what is on record. -/
theorem UpToDate.of_registry_eq (hs : k.UpToDate s) (hsilent : s.Silent s')
    (hregistry : s'.registry = s.registry) : k.UpToDate s' := by
  refine hs.of_silent hsilent ?_
  intro id c hreg
  rw [State.consumer?, hregistry] at hreg
  rw [State.consumer?, hreg, Option.map_some]

theorem UpToDate.of_tended (hs : k.UpToDate s) (hsilent : s.Silent s') (htended : s.Tended s') :
    k.UpToDate s' := by
  refine hs.of_silent hsilent ?_
  intro id c hreg
  rw [← htended.consumers id, hreg, Option.map_some]

/-- Whatever becomes of one consumer, an evaluation brings it up to date. -/
theorem UpToDate.evaluate (hs : k.UpToDate s) (hsilent : s.Silent s₁) (htidy : s₁.Tidy)
    {i : ConsumerId} (hsame : ∀ id, i ≠ id → s₁.consumer? id = s.consumer? id) (trigger : Trigger) :
    k.UpToDate (k.evaluate trigger i s₁) := by
  intro id c hreg
  obtain ⟨c₁, hreg₁, hpristine⟩ := (evaluate_tended k trigger i htidy).consumer? hreg
  obtain ⟨hpolicy, hasked⟩ := evaluate_consultations k trigger i s₁
  rw [Log.lastConsultation?, hasked, hpolicy, hpristine]
  by_cases hid : i = id
  · subst hid
    refine ⟨trigger, ?_⟩
    rw [State.question?, hreg₁]
    exact List.find?_cons_of_pos (by simp)
  · obtain ⟨trigger', hlast⟩ := hs id c₁ ((hsame id hid).symm.trans hreg₁)
    refine ⟨trigger', ?_⟩
    have hother : ∀ q ∈ (s₁.question? k.handler.name trigger i).toList, q.who ≠ some id := by
      intro q hq
      obtain ⟨c₂, -, rfl⟩ := Option.map_eq_some_iff.1 (Option.mem_toList.1 hq)
      simpa using hid
    rw [List.find?_append, List.find?_eq_none.2 (by simpa using hother), Option.none_or,
      hsilent.consultations, hsilent.policy]
    exact hlast

/-- A sweep brings everybody up to date. -/
theorem upToDate_of_sweep (k : Controller ω) {ids : List ConsumerId} (htidy : s.Tidy)
    (hall : ∀ id, (s.consumer? id).isSome → id ∈ ids) : k.UpToDate (k.sweep ids s) := by
  intro id c hreg
  obtain ⟨c₁, hreg₁, hpristine⟩ := (sweep_tended k ids htidy).consumer? hreg
  obtain ⟨hpolicy, hasked⟩ := sweep_consultations k ids htidy
  refine ⟨.policyUpdate, ?_⟩
  have hquestion : s.question? k.handler.name .policyUpdate id =
      some ⟨k.handler.name, some id, .policyUpdate, c₁.pristine, s.policy.current⟩ := by
    rw [State.question?, hreg₁, Option.map_some]
  rw [Log.lastConsultation?, hasked, hpolicy, hpristine, List.find?_append]
  refine Option.or_eq_some_iff.2 (.inl (find?_who_eq_some ?_ rfl ?_))
  · rw [List.mem_reverse, List.mem_filterMap]
    exact ⟨id, hall id (Option.isSome_of_eq_some hreg₁), hquestion⟩
  · intro q hq hwho
    rw [List.mem_reverse, List.mem_filterMap] at hq
    obtain ⟨id', -, hq⟩ := hq
    -- a question about an identity is asked of that identity
    have hid : id' = id := by
      obtain ⟨c₂, -, rfl⟩ := Option.map_eq_some_iff.1 hq
      simpa using hwho
    rw [hid, hquestion] at hq
    exact (Option.some.inj hq).symm

/-- **Whatever becomes of a hook, the last questions are up to date afterwards.** -/
theorem Treatment.upToDate (htreated : k.Treatment s h s') (htidy : s.Tidy) (hs : k.UpToDate s) :
    k.UpToDate s' := by
  cases htreated with
  | rejected hwrap => exact hs.of_registry_eq (s.report_silent _ _) rfl
  | @restarted client _ _ hwrap hreg =>
    have hreport := s.report_tended client.id .startedTwice
    exact hs.evaluate (s.report_silent _ _) (hreport.tidy htidy) (fun _ _ => rfl) .start
  | @enrolled client fresh hwrap hfree =>
    have hnoted := enrol_noted client fresh s
    have htaken : s.Silent (takeIn client.id (caughtUp client.id fresh s) s) := ⟨rfl, rfl⟩
    refine hs.evaluate (htaken.trans hnoted.silent) (enrol_tidy hwrap htidy) ?_ .start
    intro id hid
    obtain ⟨new, heq, -⟩ := hnoted
    rw [heq]
    exact (consumer?_takeIn ..).trans (if_neg hid)
  | unusable hstart hshutdown hchange => exact hs.of_registry_eq (s.report_silent _ _) rfl
  | refused hchange hreg happly => exact hs.of_registry_eq (s.report_silent _ _) rfl
  | @revised client _ _ _ c' hchange hreg happly =>
    have hput : s.Silent (s.put client.id c') := ⟨rfl, rfl⟩
    refine hs.evaluate hput (put_tidy htidy hreg happly) ?_ _
    intro id hid
    rw [State.consumer?_put, if_neg hid]
  | cached hchange hfree => exact hs.of_registry_eq (.of_notice rfl rfl) rfl
  | unknown hfree => exact hs.of_registry_eq (.of_notice rfl rfl) rfl
  | @dismissed client c hreg =>
    refine hs.of_silent (.of_notice rfl rfl) ?_
    intro id c' hreg'
    rw [consumer?_dismiss] at hreg'
    split at hreg'
    · cases hreg'
    · rw [hreg', Option.map_some]
  | unreadable hdoc => exact hs
  | @swept _ p hpolicy =>
    refine upToDate_of_sweep k (htidy.of_eq rfl rfl) ?_
    intro id hsome
    exact (k.sweepOrder_perm _ _).mem_iff.2 (Registry.mem_ids.2 hsome)

/-- Everything keeps the last questions up to date. -/
theorem upToDate_kept (k : Controller ω) : k.Kept (UpToDate k) where
  receive := fun {s} within h htidy hs => by
    have hreceived : k.UpToDate { s with received := .hook h within :: s.received } :=
      hs.of_registry_eq ⟨rfl, rfl⟩ rfl
    exact (receive_treated k within h htidy).upToDate (htidy.of_eq rfl rfl) hreceived
  order := fun {s} id d htidy hs => by
    have hreceived : k.UpToDate { s with received := .order id d :: s.received } :=
      hs.of_registry_eq ⟨rfl, rfl⟩ rfl
    exact hreceived.of_tended (drive_silent k d id _) (drive_tended k id d htidy.keyed)
  utter := fun {s t what} memory hutters hs => by
    refine hs.of_registry_eq ?_ rfl
    cases hutters <;> exact ⟨rfl, rfl⟩
  conclude := fun {s t c} gone _ _ _ hs =>
    hs.of_tended (conclude_silent k t gone s) (conclude_tended k t gone s)
  elsewhere := fun {s} confirmations now hs => hs.of_registry_eq ⟨rfl, rfl⟩ rfl

variable {policy : Policy} {memory : ω} {c : Consumer}

/-- In every state that runs lead to, the last questions are up to date. -/
theorem Reachable.upToDate (hs : k.Reachable policy memory s) : k.UpToDate s := by
  refine (upToDate_kept k).reachable hs ?_
  intro id c hreg
  cases (congrArg View.consumer (Moment.view_initial policy memory id)).symm.trans hreg

/-- **Blanks around topic names do not decide**, those of assigned queues apart.  Whatever clients
have reported, before their start or after it, and by whichever route the last policy came: the
last decision about a registered consumer is to suspend it exactly when the policy, as it was
delivered, is enabled and lists, blanks apart, a topic that the consumer consumes.  A topic that it
consumes because it was handed a queue counts only when it has no blanks around it. -/
theorem Reachable.decides_by_name (hbuiltin : k.handler = .builtin)
    (hs : k.Reachable policy memory s) (hreg : s.consumer? id = some c) :
    ∃ d, s.log.lastDecision? id = some d ∧
      (d = .suspend ↔ (Delivery.lastPolicy policy s.received).enabled = true ∧
        ∃ t, c.Consumes t ∧ (Delivery.lastPolicy policy s.received).Names t ∧
          (c.mode = some .assign → Text.trim t = t)) := by
  obtain ⟨trigger, hlast⟩ := hs.upToDate id c hreg
  have hdecision : s.log.lastDecision? id =
      some ((Delivery.lastPolicy policy s.received).normalized.decide c.topics) := by
    rw [Log.lastDecision?, hlast, hs.asked_exactly.2, Delivery.policyInForce_eq, hbuiltin]
    rfl
  have hregistered := (hs.handed id).registered
  rw [hreg, Option.map_some] at hregistered
  -- mode, topics and queues do not depend on how the consumer has been driven
  obtain ⟨⟨client, history, hshaped⟩, htrimmed⟩ := Reports.shaped_and_trimmed hregistered.symm
  have hnames := Policy.decide_eq_suspend_iff_names (Delivery.lastPolicy policy s.received) hshaped
    htrimmed
  exact ⟨_, hdecision, hnames⟩

/-- The newcomer subscribes with blanks around its topic, and the policy has others around it. -/
theorem Reachable.decides_by_name_of_newcomer :
    ∃ s c, Rehearsal.stage.run 0 (.initial ⟨true, .ofList ["t  "]⟩ {}) Rehearsal.overture = some s ∧
      s.consumer? Rehearsal.newcomer.id = some c ∧
      s.log.lastDecision? Rehearsal.newcomer.id = some .suspend ∧
      ∃ t, c.Consumes t ∧ (Delivery.lastPolicy ⟨true, .ofList ["t  "]⟩ s.received).Names t := by
  have hrun : ((Rehearsal.stage.run 0 (.initial ⟨true, .ofList ["t  "]⟩ {})
      Rehearsal.overture).bind fun s => (s.consumer? Rehearsal.newcomer.id).map fun _ =>
        s.log.lastDecision? Rehearsal.newcomer.id) = some (some .suspend) := by
    decide +kernel
  obtain ⟨s, hs, hreg⟩ := Option.bind_eq_some_iff.1 hrun
  obtain ⟨c, hreg, hdecision⟩ := Option.map_eq_some_iff.1 hreg
  have hreachable : Rehearsal.stage.Reachable ⟨true, .ofList ["t  "]⟩ {} s :=
    Reachable.start.run hs
  obtain ⟨d, hd, hiff⟩ := hreachable.decides_by_name rfl hreg
  obtain ⟨-, t, hconsumes, hnames, -⟩ := hiff.1 (Option.some.inj (hd.symm.trans hdecision))
  exact ⟨s, c, hs, hreg, hdecision, t, hconsumes, hnames⟩

/-- A worker that is handed a queue whose topic is a prohibited name with blanks around it consumes
from that queue: the decision is to let it. -/
theorem exists_padded_queue_consumed :
    ∃ s c, Rehearsal.stage.run 0 (.initial (.prohibiting ["t"]) {})
        [.hook (.lifecycle Rehearsal.worker .start),
          .hook (.lifecycle Rehearsal.worker (.assign [⟨" t ", "b", 0⟩]))] = some s ∧
      s.consumer? Rehearsal.worker.id = some c ∧ c.Consumes " t " ∧
      (Delivery.lastPolicy (.prohibiting ["t"]) s.received).enabled = true ∧
      (Delivery.lastPolicy (.prohibiting ["t"]) s.received).Names " t " ∧
      s.log.lastDecision? Rehearsal.worker.id = some .resume := by
  have hrun : ((Rehearsal.stage.run 0 (.initial (.prohibiting ["t"]) {})
      [.hook (.lifecycle Rehearsal.worker .start),
        .hook (.lifecycle Rehearsal.worker (.assign [⟨" t ", "b", 0⟩]))]).bind fun s =>
      (s.consumer? Rehearsal.worker.id).map fun c =>
        (c.mode, c.assigned.toList, s.received.findSome? Delivery.raw?,
          s.log.lastDecision? Rehearsal.worker.id)) =
        some (some .assign, [⟨" t ", "b", 0⟩], none, some .resume) := by
    decide +kernel
  obtain ⟨s, hs, hreg⟩ := Option.bind_eq_some_iff.1 hrun
  obtain ⟨c, hreg, hall⟩ := Option.map_eq_some_iff.1 hreg
  simp only [Prod.mk.injEq] at hall
  obtain ⟨hmode, hassigned, hraw, hdecision⟩ := hall
  have hpolicy : Delivery.lastPolicy (.prohibiting ["t"]) s.received = .prohibiting ["t"] := by
    rw [Delivery.lastPolicy, hraw, Option.getD_none]
  have hconsumes : c.Consumes " t " := by
    have hmem : (⟨" t ", "b", 0⟩ : Queue) ∈ c.assigned := by
      rw [← Std.ExtTreeSet.mem_toList, hassigned, List.mem_singleton]
    simp only [Consumer.Consumes, hmode]
    exact ⟨_, hmem, rfl⟩
  have hnames : (Policy.prohibiting ["t"]).Names " t " :=
    ⟨by decide +kernel, "t", by decide +kernel, by decide +kernel⟩
  refine ⟨s, c, hs, hreg, hconsumes, ?_, ?_, hdecision⟩
  · rw [hpolicy]
    rfl
  · rw [hpolicy]
    exact hnames

end Controller

end Embargo
