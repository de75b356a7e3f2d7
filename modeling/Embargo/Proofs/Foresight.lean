import Embargo.Proofs.Handoff
import Embargo.Rehearsal.Cast

/-!
# What the cache foretells

While changes wait for a consumer, the cache can be asked what they amount to so far: the topics
subscribed, and the latest assignment.  It answers without knowing of modes, while the consumer,
once it starts, leaves out whatever does not fit the mode that its first claim has fixed.  The view
that goes with that mode is right nevertheless, and the other one is of no use to the consumer.

* `Cache.Use`, `Cache.used` — what is done to a cache, and the cache after it;
* `Cache.recorded` — the changes recorded since they were last taken out; `Cache.get?_used` — these
  are what waits;
* `Change.claimed?`, `ConsumerKind.modeAfter` — the mode that changes fix;
* `Consumer.foldl_accept_of_subscribing`, `Consumer.foldl_accept_of_assigning` — what changes make
  of a consumer whose mode is fixed, `Consumer.foldl_accept_of_modeless` — and of one that chooses;
* `Cache.foretells` — **what the cache tells of a consumer is what the consumer becomes**.
-/

namespace Embargo

/-! ### What waits -/

namespace Cache

/-- What can be done to a cache. -/
inductive Use where
  | record (id : ConsumerId) (change : Change)
  | drain (id : ConsumerId)
  deriving DecidableEq, Repr

/-- A cache after it has been used once. -/
def use (s : Cache) : Use → Cache
  | .record id change => s.record id change
  | .drain id => (s.drain id).2

/-- A cache that was empty, after all its uses. -/
def used (uses : List Use) : Cache := uses.foldl use empty

/-- The changes recorded for a consumer, when there were some already, after one more use. -/
def Use.recorded (id : ConsumerId) (changes : List Change) : Use → List Change
  | .record id' change => if id' = id then changes ++ [change] else changes
  | .drain id' => if id' = id then [] else changes

/-- The changes recorded for a consumer since they were last taken out, in their order. -/
def recorded (id : ConsumerId) (uses : List Use) : List Change :=
  uses.foldl (Use.recorded id) []

variable {id : ConsumerId} {s : Cache} {changes : List Change} {uses : List Use}

/-- Nothing waits, rather than an empty list of changes. -/
def waiting? (changes : List Change) : Option (List Change) :=
  if changes = [] then none else some changes

theorem waiting?_append (changes : List Change) (change : Change) :
    waiting? (changes ++ [change]) = some (changes ++ [change]) :=
  if_neg (by simp)

theorem getD_waiting? (changes : List Change) : (waiting? changes).getD [] = changes := by
  rw [waiting?]
  split
  · rename_i hnil
    exact hnil.symm
  · rfl

theorem get?_use (h : s.get? id = waiting? changes) (u : Use) :
    (s.use u).get? id = waiting? (u.recorded id changes) := by
  cases u with
  | record id' change =>
    rw [use, get?_record, Use.recorded]
    split
    · rename_i hid
      rw [hid, h, getD_waiting?, waiting?_append]
    · exact h
  | drain id' =>
    rw [use, get?_drain, Use.recorded]
    split
    · rfl
    · exact h

/-- **What waits for a consumer is what was recorded for it**, whatever was done for others. -/
theorem get?_used (id : ConsumerId) (uses : List Use) :
    (used uses).get? id = waiting? (recorded id uses) := by
  have huses : ∀ (s : Cache) (changes : List Change), s.get? id = waiting? changes →
      (uses.foldl use s).get? id = waiting? (uses.foldl (Use.recorded id) changes) := by
    induction uses with
    | nil => exact fun _ _ h => h
    | cons u rest ih => exact fun _ _ h => ih _ _ (get?_use h u)
  exact huses empty [] (get?_empty id)

/-- What has been taken out is gone, until something new is recorded. -/
theorem recorded_drain {later : List Use} (h : ∀ change, Use.record id change ∉ later) :
    recorded id (uses ++ .drain id :: later) = [] := by
  rw [recorded, List.foldl_append, List.foldl_cons, Use.recorded, if_pos rfl]
  induction later with
  | nil => rfl
  | cons u rest ih =>
    have hkept : u.recorded id [] = [] := by
      cases u with
      | record id' change =>
        refine if_neg fun hid => h change ?_
        rw [← hid]
        exact List.mem_cons_self
      | drain id' => exact ite_self _
    rw [List.foldl_cons, hkept]
    exact ih fun change hmem => h change (List.mem_cons_of_mem _ hmem)

end Cache

/-! ### The mode that changes fix -/

/-- The mode that a change fixes; dropping a topic fixes none. -/
def Change.claimed? : Change → Option Mode
  | .subscribe _ => some .subscribe
  | .unsubscribe _ => none
  | .assign _ => some .assign

/-- The mode of a consumer of a kind after changes: pull clients have the one that is claimed
first. -/
def ConsumerKind.modeAfter (changes : List Change) : ConsumerKind → Option Mode
  | .push => some .subscribe
  | .pull => changes.findSome? Change.claimed?

/-- Whoever does not subscribe after changes has chosen by them. -/
theorem ConsumerKind.findSome?_claimed? {kind : ConsumerKind} {changes : List Change}
    {m : Option Mode} (h : kind.modeAfter changes = m) (hm : m ≠ some .subscribe) :
    changes.findSome? Change.claimed? = m := by
  cases kind with
  | push => exact absurd h.symm hm
  | pull => exact h

/-- Where queues are claimed first, there are queues. -/
theorem Cache.exists_queuesOf?_of_claimed {changes : List Change}
    (h : changes.findSome? Change.claimed? = some .assign) :
    ∃ queues, changes.reverse.findSome? queuesOf? = some queues := by
  obtain ⟨change, hmem, hclaimed⟩ := List.exists_of_findSome?_eq_some h
  rw [← Option.isSome_iff_exists, List.findSome?_isSome_iff]
  refine ⟨change, List.mem_reverse.2 hmem, ?_⟩
  cases change with
  | assign queues => rfl
  | _ => cases hclaimed

/-! ### What changes make of a consumer -/

namespace Consumer

variable {c : Consumer} {changes : List Change}

/-- A consumer that was handed queues. -/
def handed (c : Consumer) (queues : List Queue) : Consumer :=
  { c with
    mode := some .assign
    assigned := QueueSet.ofList queues
    topics := (QueueSet.ofList queues).topics }

theorem accept_of_subscribing (h : c.mode = some .subscribe) (change : Change) :
    c.accept change = { c with topics := Cache.topicsAfter c.topics change } := by
  rcases c with ⟨client, group, mode, topics, assigned, paused, state, epoch, shutDown, last⟩
  cases h
  cases change <;> rfl

/-- A subscribing consumer follows its subscriptions, and is handed nothing. -/
theorem foldl_accept_of_subscribing (h : c.mode = some .subscribe) :
    changes.foldl accept c = { c with topics := changes.foldl Cache.topicsAfter c.topics } := by
  induction changes generalizing c with
  | nil => rfl
  | cons change rest ih =>
    rw [List.foldl_cons, List.foldl_cons, accept_of_subscribing h]
    exact ih h

/-- The latest assignment is the latest one of the later changes, if there is one among them. -/
theorem findSome?_queuesOf?_cons (change : Change) (rest : List Change) :
    (change :: rest).reverse.findSome? Cache.queuesOf? =
      (rest.reverse.findSome? Cache.queuesOf?).or (Cache.queuesOf? change) := by
  rw [List.reverse_cons, List.findSome?_append, List.findSome?_singleton]

theorem accept_of_assigning (h : c.mode = some .assign) (change : Change) :
    c.accept change = ((Cache.queuesOf? change).map c.handed).getD c := by
  rcases c with ⟨client, group, mode, topics, assigned, paused, state, epoch, shutDown, last⟩
  cases h
  cases change <;> rfl

/-- A consumer with queues has those that it was handed last. -/
theorem foldl_accept_of_assigning (h : c.mode = some .assign) :
    changes.foldl accept c =
      ((changes.reverse.findSome? Cache.queuesOf?).map c.handed).getD c := by
  induction changes generalizing c with
  | nil => rfl
  | cons change rest ih =>
    rw [List.foldl_cons, accept_of_assigning h, findSome?_queuesOf?_cons]
    cases change with
    | assign queues =>
      refine (ih rfl).trans ?_
      cases rest.reverse.findSome? Cache.queuesOf? <;> rfl
    | _ =>
      refine (ih h).trans ?_
      cases rest.reverse.findSome? Cache.queuesOf? <;> rfl

/-- A consumer without topics has none to drop. -/
theorem accept_unsubscribe (htopics : c.topics = ∅) (topic : String) :
    c.accept (.unsubscribe topic) = c := by
  have hsame : c.topics.erase topic = c.topics := by
    rw [htopics]
    simp
  by_cases hmode : c.mode = some .assign
  · exact accept_of_error (by rw [apply, unsubscribe, if_pos hmode])
  · refine accept_of_ok ?_
    rw [apply, unsubscribe, if_neg hmode, hsame]

/-- Nothing becomes of changes that claim nothing. -/
theorem foldl_accept_of_unclaimed (htopics : c.topics = ∅)
    (h : changes.findSome? Change.claimed? = none) : changes.foldl accept c = c := by
  induction changes with
  | nil => rfl
  | cons change rest ih =>
    rw [List.findSome?_cons] at h
    cases change with
    | unsubscribe topic =>
      rw [List.foldl_cons, accept_unsubscribe htopics]
      exact ih h
    | _ => cases h

/-- The first claim fixes the mode. -/
theorem accept_of_claimed (hmode : c.mode = none) {change : Change} {m : Mode}
    (h : change.claimed? = some m) : c.accept change = { c with mode := some m }.accept change := by
  rcases c with ⟨client, group, mode, topics, assigned, paused, state, epoch, shutDown, last⟩
  cases hmode
  cases change <;> cases h <;> rfl

/-- **A consumer that chooses with its first claim might have chosen before**: what it drops until
then it does not have in either mode. -/
theorem foldl_accept_of_modeless (hmode : c.mode = none) (htopics : c.topics = ∅) :
    changes.foldl accept c =
      changes.foldl accept { c with mode := changes.findSome? Change.claimed? } := by
  induction changes with
  | nil => rw [List.findSome?_nil, ← hmode]
  | cons change rest ih =>
    rw [List.foldl_cons, List.foldl_cons, List.findSome?_cons]
    cases change with
    | unsubscribe topic =>
      rw [accept_unsubscribe htopics]
      -- the mode of a consumer is none of its topics
      have hsame := fun mode => accept_unsubscribe (c := { c with mode := mode }) htopics topic
      exact ih.trans (congrArg (rest.foldl accept) (hsame _).symm)
    | _ => rw [accept_of_claimed hmode rfl]; rfl

/-! ### What becomes of a client that has just been taken over -/

section Fresh

variable {client : Client} (h : wrap client = .ok c)
include h

theorem topics_of_wrap : c.topics = ∅ := by
  obtain ⟨group, mode, -, rfl⟩ := wrap_eq_ok h
  rfl

theorem assigned_of_wrap : c.assigned = ∅ := by
  obtain ⟨group, mode, -, rfl⟩ := wrap_eq_ok h
  rfl

/-- To begin with, push clients subscribe and pull clients have not chosen. -/
theorem mode_of_wrap_eq : c.mode = client.kind.modeAfter [] := by
  rw [wrap] at h
  split at h
  · cases h
  · split at h
    · cases h
    · cases h
      cases client.kind <;> rfl

/-- It might as well have its mode from the beginning. -/
theorem replay_of_wrap : (c.replay changes).1 =
    changes.foldl accept { c with mode := client.kind.modeAfter changes } := by
  have hmode := mode_of_wrap_eq h
  rw [replay_eq_foldl]
  cases hkind : client.kind with
  | push =>
    rw [hkind] at hmode
    rw [ConsumerKind.modeAfter, ← show c.mode = some .subscribe from hmode]
  | pull =>
    rw [hkind] at hmode
    exact foldl_accept_of_modeless hmode (topics_of_wrap h)

theorem replay_of_subscribing (hmode : client.kind.modeAfter changes = some .subscribe) :
    (c.replay changes).1 =
      { c with mode := some .subscribe, topics := changes.foldl Cache.topicsAfter ∅ } := by
  rw [replay_of_wrap h, hmode, foldl_accept_of_subscribing rfl, topics_of_wrap h]

theorem replay_of_assigning (hmode : client.kind.modeAfter changes = some .assign) :
    ∃ queues, changes.reverse.findSome? Cache.queuesOf? = some queues ∧
      (c.replay changes).1 = c.handed queues := by
  obtain ⟨queues, hqueues⟩ := Cache.exists_queuesOf?_of_claimed
    (ConsumerKind.findSome?_claimed? hmode (by decide))
  refine ⟨queues, hqueues, ?_⟩
  rw [replay_of_wrap h, hmode, foldl_accept_of_assigning rfl, hqueues]
  rfl

theorem replay_of_modeless (hmode : client.kind.modeAfter changes = none) :
    (c.replay changes).1 = { c with mode := none } := by
  rw [replay_of_wrap h, hmode]
  refine foldl_accept_of_unclaimed ?_ (ConsumerKind.findSome?_claimed? hmode (by decide))
  show c.topics = ∅
  exact topics_of_wrap h

end Fresh

end Consumer

/-! ### The two views -/

namespace Cache

variable {id : ConsumerId} {s : Cache} {changes : List Change}

theorem subscribedTopics?_eq (h : s.get? id = some changes) :
    s.subscribedTopics? id = some (changes.foldl topicsAfter ∅) := by
  rw [subscribedTopics?, h, Option.map_some]

theorem assignedQueues?_eq (h : s.get? id = some changes) :
    s.assignedQueues? id = changes.reverse.findSome? queuesOf? := by
  rw [assignedQueues?, h, Option.bind_some]

/-- Where nothing is claimed, there are neither topics nor queues. -/
theorem views_of_unclaimed (h : changes.findSome? Change.claimed? = none) :
    changes.foldl topicsAfter ∅ = ∅ ∧ changes.reverse.findSome? queuesOf? = none := by
  induction changes with
  | nil => exact ⟨rfl, rfl⟩
  | cons change rest ih =>
    rw [List.findSome?_cons] at h
    cases change with
    | unsubscribe topic =>
      obtain ⟨htopics, hqueues⟩ := ih h
      refine ⟨?_, ?_⟩
      · rw [List.foldl_cons, topicsAfter, show (∅ : TopicSet).erase topic = ∅ by simp, htopics]
      · rw [Consumer.findSome?_queuesOf?_cons, hqueues]
        rfl
    | _ => cases h

/-- **What the cache tells of a consumer is what the consumer becomes.**  Whatever has been recorded
and taken out, for this consumer and for others: what can be taken out for it are the changes
recorded since it was done last, in their order, and then nothing more until another one is
recorded.  And if there are any, then the consumer that replays them, and leaves out those that
fail, agrees with the view that goes with its mode.  One that subscribes, being a push client or
having claimed topics first, has the topics subscribed so far, and no queue; one that has claimed
queues first has those of the latest assignment, and their topics; and where nothing is claimed, the
views are as empty as the consumer. -/
theorem foretells {client : Client} {fresh : Consumer} (h : Consumer.wrap client = .ok fresh)
    (uses : List Use) :
    ((used uses).drain client.id).1 = waiting? (recorded client.id uses) ∧
    (∀ later, (∀ change, Use.record client.id change ∉ later) →
      ((used (uses ++ .drain client.id :: later)).drain client.id).1 = none) ∧
    ∀ changes w, ((used uses).drain client.id).1 = some changes → (fresh.replay changes).1 = w →
      w.mode = client.kind.modeAfter changes ∧
      (w.mode = some .subscribe →
        (used uses).subscribedTopics? client.id = some w.topics ∧ w.assigned = ∅) ∧
      (w.mode = some .assign →
        ∃ queues, (used uses).assignedQueues? client.id = some queues ∧
          w.assigned = QueueSet.ofList queues ∧ w.topics = w.assigned.topics) ∧
      (w.mode = none →
        (used uses).subscribedTopics? client.id = some ∅ ∧ w.topics = ∅ ∧
        (used uses).assignedQueues? client.id = none ∧ w.assigned = ∅) := by
  refine ⟨get?_used client.id uses, fun later hlater => ?_, fun changes w hchanges hw => ?_⟩
  · rw [drain_fst, get?_used, recorded_drain hlater]
    rfl
  rw [subscribedTopics?_eq hchanges, assignedQueues?_eq hchanges]
  have htopics := Consumer.topics_of_wrap h
  have hassigned := Consumer.assigned_of_wrap h
  cases hmode : client.kind.modeAfter changes with
  | none =>
    obtain ⟨hnotopic, hnoqueue⟩ :=
      views_of_unclaimed (ConsumerKind.findSome?_claimed? hmode (by decide))
    rw [Consumer.replay_of_modeless h hmode] at hw
    subst hw
    exact ⟨rfl, by simp, by simp, fun _ => ⟨congrArg some hnotopic, htopics, hnoqueue, hassigned⟩⟩
  | some m =>
    cases m with
    | subscribe =>
      rw [Consumer.replay_of_subscribing h hmode] at hw
      subst hw
      exact ⟨rfl, fun _ => ⟨rfl, hassigned⟩, by simp, by simp⟩
    | assign =>
      obtain ⟨queues, hqueues, hreplay⟩ := Consumer.replay_of_assigning h hmode
      rw [hreplay] at hw
      subst hw
      exact ⟨rfl, by simp [Consumer.handed], fun _ => ⟨queues, hqueues, rfl, rfl⟩,
        by simp [Consumer.handed]⟩

/-- Before the worker starts it drops a topic that it does not have, is handed a queue, asks for a
topic in vain, and is handed another queue twice over; the newcomer's topic does not concern it. -/
def prologue : List Use :=
  [.record Rehearsal.worker.id (.subscribe "s"), .drain Rehearsal.worker.id,
    .record Rehearsal.worker.id (.unsubscribe "t"),
    .record Rehearsal.worker.id (.assign [⟨"t", "b", 0⟩]),
    .record Rehearsal.newcomer.id (.subscribe "n"),
    .record Rehearsal.worker.id (.subscribe "u"),
    .record Rehearsal.worker.id (.assign [⟨"v", "b", 1⟩, ⟨"v", "b", 1⟩])]

/-- The changes of the prologue that wait for the worker. -/
def prologueChanges : List Change :=
  [.unsubscribe "t", .assign [⟨"t", "b", 0⟩], .subscribe "u",
    .assign [⟨"v", "b", 1⟩, ⟨"v", "b", 1⟩]]

/-- The worker will have the queue that it was handed last, which the cache names twice. -/
theorem foretells_of_worker :
    ∃ fresh w, Consumer.wrap Rehearsal.worker = .ok fresh ∧
      ((used prologue).drain Rehearsal.worker.id).1 = some prologueChanges ∧
      (fresh.replay prologueChanges).1 = w ∧ w.mode = some .assign ∧
      (used prologue).assignedQueues? Rehearsal.worker.id =
        some [⟨"v", "b", 1⟩, ⟨"v", "b", 1⟩] ∧
      w.assigned = QueueSet.ofList [⟨"v", "b", 1⟩, ⟨"v", "b", 1⟩] ∧
      w.topics = w.assigned.topics ∧
      ((used (prologue ++ .drain Rehearsal.worker.id ::
        [.record Rehearsal.newcomer.id (.subscribe "m")])).drain Rehearsal.worker.id).1 = none := by
  obtain ⟨fresh, hwrap⟩ : ∃ fresh, Consumer.wrap Rehearsal.worker = .ok fresh := ⟨_, rfl⟩
  obtain ⟨hdrained, honce, hviews⟩ := foretells hwrap prologue
  have hchanges : ((used prologue).drain Rehearsal.worker.id).1 = some prologueChanges := hdrained
  obtain ⟨hmode, -, hassigning, -⟩ := hviews _ _ hchanges rfl
  obtain ⟨queues, hqueues, hassigned, htopics⟩ := hassigning hmode
  have hlast : (used prologue).assignedQueues? Rehearsal.worker.id =
      some [⟨"v", "b", 1⟩, ⟨"v", "b", 1⟩] := assignedQueues?_eq hchanges
  cases hlast.symm.trans hqueues
  refine ⟨fresh, _, hwrap, hchanges, rfl, hmode, hlast, hassigned, htopics, honce _ ?_⟩
  intro change hmem
  cases List.mem_singleton.1 hmem

end Cache

end Embargo
