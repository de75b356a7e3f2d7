import Embargo.Proofs.Moves
import Embargo.Proofs.Reentry

/-!
# What a confirmation does when it goes on

A confirmation that goes on asks for the topics that the consumer has at the moment, one after the
other, and stops as soon as it knows better than that the consumer is gone.  What comes of it is
told here for the case that nothing is delivered from inside its queries: then nothing of the
controller changes but what the confirmation itself does.

* `State.Undisturbed` — the case in question, told of what has been received;
* `Inquiry` — which queries are made, by what is answered to them;
* `Attempt` — one attempt, with its time, its topics and what came of its queries;
* `Confirmation.Turn` — the ways in which a confirmation goes on: it waits again, it confirms the
  exit, or it gives up and goes back;
* `Confirmation.TakesTurn` — what that leads to, as far as its consumer is concerned;
* `Controller.isGone_inquiry`, `Controller.conclude_turn` — what an attempt and the end of a
  confirmation come to;
* `Controller.proceed_turn` — **a confirmation that is not superseded takes its turn**.
-/

namespace Embargo

variable {ω : Type}

/-! ### Attempts -/

/-- Nothing has been delivered from inside a query that was made to confirm a suspension. -/
def State.Undisturbed (t : Confirmation) (s : State ω) : Prop :=
  ∀ d ∈ s.received, ∀ u, d.within = some u → ¬(u.id = t.id ∧ u.IsFor t.life t.epoch)

/-- Then nothing had been before. -/
theorem State.Undisturbed.mono {t : Confirmation} {s s' : State ω} (h : s'.Undisturbed t)
    (hreceived : ∀ d ∈ s.received, d ∈ s'.received) : s.Undisturbed t :=
  fun d hd => h d (hreceived d hd)

/-- What came of a query for a topic: the members that are listed, or nothing. -/
abbrev Reply := String × Option (List String)

/-- Topics are asked for in their order, until a query fails or lists the client; without that the
client is gone. -/
inductive Inquiry (clientId : String) :
    (topics : List String) → List Reply → (gone : Bool) → Prop where
  | done : Inquiry clientId [] [] true
  | failed {topic : String} {topics : List String} :
      Inquiry clientId (topic :: topics) [(topic, none)] false
  | listed {topic : String} {topics members : List String} (h : clientId ∈ members) :
      Inquiry clientId (topic :: topics) [(topic, some members)] false
  | next {topic : String} {topics members : List String} {replies : List Reply} {gone : Bool}
      (h : clientId ∉ members) : Inquiry clientId topics replies gone →
        Inquiry clientId (topic :: topics) ((topic, some members) :: replies) gone

namespace Inquiry

variable {clientId : String} {topics : List String} {replies : List Reply} {gone : Bool}

/-- **A client is gone just if no query has failed or listed it.** -/
theorem gone_iff (h : Inquiry clientId topics replies gone) :
    gone = true ↔ ∀ r ∈ replies, ∃ members, r.2 = some members ∧ clientId ∉ members := by
  induction h with
  | done => simp
  | failed => simp
  | listed h => simpa using h
  | next h _ ih => simpa [ih] using fun _ => h

/-- A client is not gone before all topics were asked for. -/
theorem asked_of_gone (h : Inquiry clientId topics replies true) :
    replies.map Prod.fst = topics := by
  generalize hgone : true = gone at h
  induction h with
  | done => rfl
  | failed => cases hgone
  | listed _ => cases hgone
  | next _ _ ih => exact congrArg _ (ih hgone)

end Inquiry

/-- One attempt of a confirmation. -/
structure Attempt where
  time : Nat
  topics : List String
  replies : List Reply
  gone : Bool

/-- An attempt is made for a consumer: for the topics that it has then, in increasing order. -/
structure Attempt.IsMade (a : Attempt) (c : Consumer) (now : Nat) : Prop where
  time : a.time = now
  topics : a.topics = c.topics.toList
  increasing : a.topics.Pairwise (· < ·)
  inquiry : Inquiry c.client.clientId a.topics a.replies a.gone

theorem TopicSet.toList_increasing (topics : TopicSet) : topics.toList.Pairwise (· < ·) := by
  have hordered : topics.toList.Pairwise fun a b => compare a b = .lt :=
    Std.ExtTreeSet.ordered_toList
  exact hordered.imp fun hlt => compareOfLessAndEq_eq_lt.1 hlt

namespace Confirmation

/-- What a query puts on record about a client, the latest first. -/
def entries (t : Confirmation) (now : Nat) (r : Reply) : Log :=
  match r.2 with
  | none =>
    [{ time := now, who := some t.id,
       what := .call t.client t.life (.findMembers r.1 t.group) false }]
  | some members =>
    [{ time := now, who := some t.id, what := .listing t.client t.life r.1 t.group members },
     { time := now, who := some t.id,
       what := .call t.client t.life (.findMembers r.1 t.group) true }]

/-- What an attempt puts on record about a client, the latest first. -/
def attempted (t : Confirmation) (a : Attempt) : Log :=
  a.replies.reverse.flatMap (t.entries a.time)

/-- How a confirmation goes on: whether it tries, what it calls, what becomes of the consumer, and
what goes on waiting. -/
inductive Turn (config : Config) (t : Confirmation) (c : Consumer) (now : Nat) :
    (tried : Option Attempt) → Trace → Consumer → (again : List Confirmation) → Prop where
  /-- The consumer is still listed, and not all attempts are spent. -/
  | waits {a : Attempt} (hmade : a.IsMade c now) (hlisted : a.gone = false)
      (hleft : t.attempts + 1 < config.maxRetries.toNat) :
      Turn config t c now (some a) [] c [t.again config now]
  | confirms {a : Attempt} (hmade : a.IsMade c now) (hgone : a.gone = true)
      (hleft : t.attempts < config.maxRetries.toNat) :
      Turn config t c now (some a) [] (c.transition now .suspended) []
  /-- All attempts are spent, if there were any. -/
  | givesUp {tried : Option Attempt} {tr : Trace} {c' : Consumer}
      (hmade : ∀ a ∈ tried, a.IsMade c now ∧ a.gone = false)
      (hspent : t.attempts + tried.toList.length = config.maxRetries.toNat)
      (hback : (c.rollBack now).Yields tr c') : Turn config t c now tried tr c' []

/-- What the turn of a confirmation leads to, seen from its consumer. -/
structure TakesTurn (t : Confirmation) (tried : Option Attempt) (tr : Trace) (c' : Consumer)
    (again : List Confirmation) (s s' : State ω) : Prop where
  now : s'.now = s.now
  life : s'.life t.id = s.life t.id
  consumer : s'.consumer? t.id = some c'
  confirmations : s'.confirmations = s.confirmations ++ again
  record : Log.about t.id s'.log = Program.Subject.entries ⟨t.client, t.life⟩ s.now tr ++
    (tried.toList.flatMap t.attempted ++ Log.about t.id s.log)

namespace TakesTurn

variable {t : Confirmation} {s s' : State ω} {tried : Option Attempt} {tr : Trace} {c' : Consumer}
  {again : List Confirmation}

/-- An attempt comes before what follows from it. -/
theorem after {a : Attempt} {memory : ω} {log : Log}
    (h : t.TakesTurn none tr c' again { s with memory, log } s')
    (habout : Log.about t.id log = t.attempted a ++ Log.about t.id s.log) :
    t.TakesTurn (some a) tr c' again s s' := by
  refine ⟨h.now, h.life, h.consumer, h.confirmations, h.record.trans ?_⟩
  simp [habout]

/-- Of a turn without calls, the attempt is on record. -/
theorem record_of_attempt {a : Attempt} (h : t.TakesTurn (some a) [] c' again s s') :
    Log.about t.id s'.log = t.attempted a ++ Log.about t.id s.log :=
  h.record.trans (by simp [Program.Subject.entries_nil])

/-- A report changes nothing about a turn. -/
theorem reported {n : Notice} (h : t.TakesTurn tried tr c' again (s.report t.id n) s') :
    t.TakesTurn tried tr c' again s s' := by
  refine ⟨h.now, h.life, h.consumer, h.confirmations, h.record.trans ?_⟩
  rw [show Log.about t.id (s.report t.id n).log = Log.about t.id s.log from
    Log.about_cons_of_none t.id s.log rfl]
  rfl

end TakesTurn

end Confirmation

namespace Controller

variable {k : Controller ω} {s : State ω} {t : Confirmation} {c : Consumer}

/-! ### What is asked -/

theorem receiveAll_received (k : Controller ω) (within : Option Confirmation) (hooks : List Hook)
    (s : State ω) : (hooks.foldl (k.receive within) s).received =
      (hooks.map fun h => .hook h within).reverse ++ s.received :=
  congrArg State.received (receiveAll_from_inside k within hooks s s.received)

/-- What has been received stays so when a client is asked. -/
theorem mem_received_ask (k : Controller ω) (t : Confirmation) (topic : String) {s : State ω}
    {d : Delivery} (hd : d ∈ s.received) : d ∈ (k.ask t topic s).2.received := by
  rcases hquery : k.environment.query s.memory s.now t.client topic t.group with ⟨result, memory⟩
  cases result with
  | error e =>
    rw [ask_of_refused hquery]
    exact hd
  | ok hooks =>
    rw [ask_of_accepted hquery]
    show d ∈ (hooks.foldl (k.receive (some t)) (accepted t topic memory s)).received
    rw [receiveAll_received]
    exact List.mem_append_right _ hd

/-- Whatever has been received when a client has been asked for one topic has been received when it
has been asked for all of them. -/
theorem mem_received_cons (k : Controller ω) (t : Confirmation) (topic : String)
    (topics : List String) : ∀ {s : State ω} {d : Delivery},
      d ∈ (k.ask t topic s).2.received → d ∈ (k.isGone t (topic :: topics) s).2.received := by
  induction topics generalizing topic with
  | nil =>
    intro s d hd
    rw [isGone]
    rcases hask : k.ask t topic s with ⟨_ | members, s₁⟩ <;> rw [hask] at hd
    · exact hd
    · dsimp only
      split <;> exact hd
  | cons next topics ih =>
    intro s d hd
    rw [isGone]
    rcases hask : k.ask t topic s with ⟨_ | members, s₁⟩ <;> rw [hask] at hd
    · exact hd
    · dsimp only
      split
      · exact hd
      · exact ih next (mem_received_ask k t next hd)

/-- A query during which nothing is delivered touches nothing but the memory of the client and the
record. -/
theorem ask_reply (topic : String) (hundisturbed : (k.ask t topic s).2.Undisturbed t) :
    ∃ memory log, (k.ask t topic s).2 = { s with memory, log } ∧
      Log.about t.id log =
        t.entries s.now (topic, (k.ask t topic s).1.toOption) ++ Log.about t.id s.log := by
  rcases hquery : k.environment.query s.memory s.now t.client topic t.group with ⟨result, memory⟩
  cases result with
  | error e =>
    rw [ask_of_refused hquery]
    exact ⟨_, _, rfl, Log.about_cons_of_id_eq s.log rfl rfl⟩
  | ok hooks =>
    rw [ask_of_accepted hquery] at hundisturbed ⊢
    have hnone : hooks = [] := by
      refine List.eq_nil_iff_forall_not_mem.2 fun h hmem =>
        hundisturbed (.hook h (some t)) ?_ t rfl ⟨rfl, rfl, rfl⟩
      show _ ∈ (hooks.foldl (k.receive (some t)) (accepted t topic memory s)).received
      rw [receiveAll_received]
      exact List.mem_append_left _ (List.mem_reverse.2 (List.mem_map_of_mem hmem))
    subst hnone
    refine ⟨_, _, rfl, (Log.about_cons_of_id_eq _ rfl rfl).trans (congrArg _ ?_)⟩
    exact Log.about_cons_of_id_eq s.log rfl rfl

/-- **What an attempt comes to**: one query after the other, as far as it takes. -/
theorem isGone_inquiry (topics : List String) :
    ∀ {s : State ω}, (k.isGone t topics s).2.Undisturbed t → ∃ replies memory log,
      Inquiry t.client.clientId topics replies (k.isGone t topics s).1 ∧
      (k.isGone t topics s).2 = { s with memory, log } ∧
      Log.about t.id log = replies.reverse.flatMap (t.entries s.now) ++ Log.about t.id s.log := by
  induction topics with
  | nil => exact fun {s} _ => ⟨[], s.memory, s.log, .done, rfl, rfl⟩
  | cons topic topics ih =>
    intro s hundisturbed
    have hbefore := hundisturbed.mono fun d hd => mem_received_cons k t topic topics hd
    obtain ⟨memory, log, hasked, habout⟩ := ask_reply topic hbefore
    rw [isGone] at hundisturbed ⊢
    rcases hask : k.ask t topic s with ⟨result, s₁⟩
    rw [hask] at hasked habout hundisturbed
    dsimp only at hasked habout hundisturbed
    subst hasked
    cases result with
    | error e =>
      replace habout : Log.about t.id log =
          t.entries s.now (topic, none) ++ Log.about t.id s.log := habout
      refine ⟨[(topic, none)], memory, _, .failed, rfl, ?_⟩
      exact (Log.about_cons_of_none _ _ rfl).trans (habout.trans (by simp))
    | ok members =>
      replace habout : Log.about t.id log =
          t.entries s.now (topic, some members) ++ Log.about t.id s.log := habout
      dsimp only at hundisturbed ⊢
      split
      · rename_i hlisted
        exact ⟨[(topic, some members)], memory, log, .listed hlisted, rfl, habout.trans (by simp)⟩
      · rename_i hother
        rw [if_neg hother] at hundisturbed
        obtain ⟨replies, memory', log', hinquiry, hrest, habout'⟩ := ih hundisturbed
        refine ⟨(topic, some members) :: replies, memory', log', .next hother hinquiry, hrest, ?_⟩
        rw [habout', show Log.about t.id ({ s with memory, log } : State ω).log = _ from habout]
        simp

/-! ### How it ends -/

/-- **The end of a confirmation is the end of its turn**: its consumer has become suspended without
any call, or has been led back. -/
theorem conclude_turn (k : Controller ω) (hlive : subject? t s = some c) (gone : Bool) :
    ∃ tr c', (gone = true → tr = [] ∧ c' = c.transition s.now .suspended) ∧
      (gone = false → (c.rollBack s.now).Yields tr c') ∧
      t.TakesTurn none tr c' [] s (k.conclude t gone s) := by
  rw [conclude_eq_run, hlive]
  cases gone with
  | true =>
    refine ⟨[], c.transition s.now .suspended, fun _ => ⟨rfl, rfl⟩, fun h => (by cases h), rfl, rfl,
      ?_, (List.append_nil _).symm, Log.about_cons_of_none t.id s.log rfl⟩
    exact (State.consumer?_put ..).trans (if_pos rfl)
  | false =>
    obtain ⟨tr, hyields, habout⟩ := Program.run_yields k.environment s.now ⟨t.client, t.life⟩
      (c.rollBack s.now) s.memory
      (s.report t.id (.confirmationTimedOut c.label k.config.maxRetries.toNat)).log
    refine ⟨tr, _, fun h => (by cases h), fun _ => hyields, rfl, rfl,
      (consumer?_replace ..).trans (if_pos rfl), (List.append_nil _).symm, (habout t.id).trans ?_⟩
    rw [if_pos (show t.client.id = t.id from rfl)]
    exact congrArg _ (Log.about_cons_of_none t.id s.log rfl)

/-- To wait again is the end of a turn, too. -/
theorem requeue_turn (hlive : subject? t s = some c) (u : Confirmation) :
    t.TakesTurn none [] c [u] s
      { s with confirmations := s.confirmations.insertIdx s.confirmations.length u } :=
  ⟨rfl, rfl, consumer?_of_subject? hlive, List.insertIdx_length_self, rfl⟩

/-- Without any attempts to make, a confirmation gives up at once. -/
theorem spent_turn (hlive : subject? t s = some c) (hspent : k.config.maxRetries.toNat ≤ t.attempts)
    (hattempts : t.attempts = 0 ∨ t.attempts < k.config.maxRetries.toNat) :
    ∃ tr c', t.Turn k.config c s.now none tr c' [] ∧
      t.TakesTurn none tr c' [] s (k.conclude t false s) := by
  obtain ⟨tr, c', -, hback, hturn⟩ := conclude_turn k hlive false
  refine ⟨tr, c', .givesUp (fun a ha => by cases ha) ?_ (hback rfl), hturn⟩
  rcases hattempts with hzero | hleft
  · rw [hzero] at hspent ⊢
    exact (Nat.le_zero.1 hspent).symm
  · exact absurd hspent (Nat.not_le.2 hleft)

/-- After an attempt in vain a confirmation gives up if it was the last one, and otherwise waits
again. -/
theorem listed_turn {a : Attempt} (hlive : subject? t s = some c) (hmade : a.IsMade c s.now)
    (hlisted : a.gone = false) (hleft : t.attempts < k.config.maxRetries.toNat) (n : Notice) :
    ∃ tr c' again, t.Turn k.config c s.now (some a) tr c' again ∧
      t.TakesTurn none tr c' again s
        (if k.config.maxRetries.toNat ≤ (t.again k.config s.now).attempts then
          k.conclude (t.again k.config s.now) false (s.report t.id n)
        else { s.report t.id n with
          confirmations := s.confirmations.insertIdx s.confirmations.length
            (t.again k.config s.now) }) := by
  split
  · rename_i hlast
    obtain ⟨tr, c', -, hback, hturn⟩ :=
      conclude_turn k (t := t.again k.config s.now) (s := s.report t.id n) hlive false
    have hended : t.TakesTurn none tr c' [] (s.report t.id n) _ :=
      ⟨hturn.now, hturn.life, hturn.consumer, hturn.confirmations, hturn.record⟩
    refine ⟨tr, c', [], .givesUp (fun b hb => ?_) ?_ (hback rfl), hended.reported⟩
    · cases hb
      exact ⟨hmade, hlisted⟩
    · exact Nat.le_antisymm hleft hlast
  · rename_i hmore
    have hrequeued := requeue_turn (s := s.report t.id n) hlive (t.again k.config s.now)
    exact ⟨_, c, _, .waits hmade hlisted (Nat.not_le.1 hmore), hrequeued.reported⟩

/-- Nothing is received any more when a client has been asked. -/
theorem received_proceed (hleft : t.attempts < k.config.maxRetries.toNat)
    (hlive : subject? t s = some c) :
    (k.proceed t s).received = (k.isGone t c.topics.toList s).2.received := by
  rw [proceed, if_neg (Nat.not_le.2 hleft), hlive]
  dsimp only
  rcases k.isGone t c.topics.toList s with ⟨gone, s₁⟩
  cases gone with
  | true => exact (conclude_tended k t true s₁).received
  | false =>
    dsimp only
    split
    · exact (conclude_tended k _ false _).received
    · rfl

/-- **A confirmation that is not superseded takes its turn.** -/
theorem proceed_turn (hundisturbed : (k.proceed t s).Undisturbed t) (hlive : subject? t s = some c)
    (hclient : c.client = t.client)
    (hattempts : t.attempts = 0 ∨ t.attempts < k.config.maxRetries.toNat) :
    ∃ tried tr c' again, t.Turn k.config c s.now tried tr c' again ∧
      t.TakesTurn tried tr c' again s (k.proceed t s) := by
  by_cases hspent : k.config.maxRetries.toNat ≤ t.attempts
  · obtain ⟨tr, c', hturn, htaken⟩ := spent_turn hlive hspent hattempts
    rw [proceed, if_pos hspent]
    exact ⟨none, tr, c', [], hturn, htaken⟩
  have hleft : t.attempts < k.config.maxRetries.toNat := Nat.not_le.1 hspent
  obtain ⟨replies, memory, log, hinquiry, hstate, habout⟩ :=
    isGone_inquiry c.topics.toList (k := k) (t := t) (s := s) fun d hd =>
      hundisturbed d (received_proceed hleft hlive ▸ hd)
  rw [proceed, if_neg hspent, hlive]
  dsimp only
  rcases hgone : k.isGone t c.topics.toList s with ⟨gone, s₁⟩
  rw [hgone] at hinquiry hstate
  dsimp only at hinquiry hstate
  subst hstate
  have hmade : Attempt.IsMade ⟨s.now, c.topics.toList, replies, gone⟩ c s.now :=
    ⟨rfl, rfl, c.topics.toList_increasing, hclient ▸ hinquiry⟩
  have hrecord : Log.about t.id log =
      t.attempted ⟨s.now, c.topics.toList, replies, gone⟩ ++ Log.about t.id s.log := habout
  cases gone with
  | true =>
    obtain ⟨tr, c', hend, -, htaken⟩ := conclude_turn k (s := { s with memory, log }) hlive true
    obtain ⟨rfl, rfl⟩ := hend rfl
    exact ⟨_, _, _, _, .confirms hmade rfl hleft, htaken.after hrecord⟩
  | false =>
    obtain ⟨tr, c', again, hturn, htaken⟩ := listed_turn (s := { s with memory, log }) hlive hmade
      rfl hleft (.stillListed t.client.clientId t.group (t.attempts + 1))
    exact ⟨_, tr, c', again, hturn, htaken.after hrecord⟩

end Controller

end Embargo
