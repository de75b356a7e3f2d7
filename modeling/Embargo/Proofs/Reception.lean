import Embargo.Proofs.Tending

/-!
# What becomes of hooks

A hook does one of a few things.  It may be of no use; it may bring a change, which is applied or
cached; a client may come or go; and there may be a new policy.  Here all of these are told apart
once, with what leads to each and what the state is afterwards.

* `LifecycleEvent.change?`, `Hook.policy?` — what a hook brings;
* `Controller.enrol` — a client is registered with the changes that have waited for it;
* `Controller.Treatment` — the table of all that can become of a hook;
* `Controller.deliver_treated` — **every hook is dealt with as the table says**;
* `Controller.deliver_tidy`, `receive_tidy` — and leaves a tidy state tidy.
-/

namespace Embargo

variable {ω : Type}

/-- The change that an event brings, if it names every topic it needs.  Topics are taken without
blanks at their ends. -/
def LifecycleEvent.change? : LifecycleEvent → Option Change
  | .subscribe topic =>
      if Text.isBlankText topic then none else some (.subscribe (Text.trim topic))
  | .unsubscribe topic =>
      if Text.isBlankText topic then none else some (.unsubscribe (Text.trim topic))
  | .assign queues =>
      if queues.any fun q => Text.isBlankText q.topic then none else some (.assign queues)
  | .start => none
  | .shutdown => none

namespace Controller

variable {k : Controller ω} {s s' : State ω}

/-! ### Coming and going -/

/-- A consumer is registered, and nothing waits for it any more. -/
def takeIn (id : ConsumerId) (c : Consumer) (s : State ω) : State ω :=
  { s with registry := s.registry.replace id c, cache := (s.cache.drain id).2 }

/-- A consumer as the changes that wait for it make it. -/
def caughtUp (id : ConsumerId) (fresh : Consumer) (s : State ω) : Consumer :=
  (fresh.replay ((s.cache.get? id).getD [])).1

/-- A client is registered, and the changes that have waited for it are applied. -/
def enrol (client : Client) (fresh : Consumer) (s : State ω) : State ω :=
  (replay client.id ((s.cache.get? client.id).getD [])
    (takeIn client.id fresh s)).report client.id (.started fresh.label)

/-- A registered consumer is removed, and what has waited for it is dropped. -/
def dismiss (id : ConsumerId) (c : Consumer) (s : State ω) : State ω :=
  { s with
    cache := (s.cache.drain id).2
    registry := (s.registry.remove id).2
    departed := s.departedWith id c }.report id (.removed c.label)

/-- Applying changes comes to what they make of the consumer, and notices. -/
theorem replay_noted {i : ConsumerId} {c : Consumer} (changes : List Change)
    (hreg : s.consumer? i = some c) :
    (s.put i (c.replay changes).1).Noted (replay i changes s) := by
  rw [replay, hreg]
  dsimp only
  generalize s.put i (c.replay changes).1 = s₁
  induction (c.replay changes).2 generalizing s₁ with
  | nil => exact .refl s₁
  | cons r rs ih =>
    cases r with
    | ok => exact ih s₁
    | error e => exact (s₁.report_noted i (.cachedChangeDropped e)).trans (ih _)

theorem consumer?_dismiss (id id' : ConsumerId) (c : Consumer) (s : State ω) :
    (dismiss id c s).consumer? id' = if id = id' then none else s.consumer? id' :=
  Registry.lookup_remove s.registry id id'

theorem life_dismiss (id : ConsumerId) (c : Consumer) (s : State ω) :
    (dismiss id c s).life id = s.life id + 1 :=
  (s.length_departedWith id id c).trans (if_pos rfl)

theorem consumer?_takeIn (id id' : ConsumerId) (c : Consumer) (s : State ω) :
    (takeIn id c s).consumer? id' = if id = id' then some c else s.consumer? id' :=
  Registry.lookup_replace s.registry id id' c

/-- To enrol a client comes to registering it as the changes that have waited for it make it. -/
theorem enrol_noted (client : Client) (fresh : Consumer) (s : State ω) :
    (takeIn client.id (caughtUp client.id fresh s) s).Noted (enrol client fresh s) := by
  have hreg : (takeIn client.id fresh s).consumer? client.id = some fresh :=
    (consumer?_takeIn ..).trans (if_pos rfl)
  have hput : (takeIn client.id fresh s).put client.id (caughtUp client.id fresh s) =
      takeIn client.id (caughtUp client.id fresh s) s := by
    rw [State.put, takeIn, Registry.replace_replace]
    rfl
  exact hput ▸ (replay_noted _ hreg).trans (State.report_noted ..)

theorem enrol_tended (client : Client) (fresh : Consumer) (s : State ω) :
    (takeIn client.id (caughtUp client.id fresh s) s).Tended (enrol client fresh s) :=
  (enrol_noted client fresh s).tended

/-! ### What each hook comes to -/

theorem start_of_error (k : Controller ω) {client : Client} {error : Error}
    (hwrap : Consumer.wrap client = .error error) (s : State ω) :
    k.start client s = s.report client.id (.notWrapped client.instanceName error) := by
  rw [start_outside, hwrap]

theorem start_of_registered (k : Controller ω) {client : Client} {fresh c : Consumer}
    (hwrap : Consumer.wrap client = .ok fresh) (hreg : s.consumer? client.id = some c) :
    k.start client s = k.evaluate .start client.id (s.report client.id .startedTwice) := by
  have hregister : s.registry.register client.id fresh = (some c, s.registry) := by
    rw [Registry.register, show s.registry.lookup client.id = some c from hreg]
  simp only [start_outside, hwrap, hregister]

theorem start_of_free (k : Controller ω) {client : Client} {fresh : Consumer}
    (hwrap : Consumer.wrap client = .ok fresh) (hfree : s.consumer? client.id = none) :
    k.start client s = k.evaluate .start client.id (enrol client fresh s) := by
  have hregister : s.registry.register client.id fresh =
      (none, s.registry.replace client.id fresh) := by
    rw [Registry.register, show s.registry.lookup client.id = none from hfree]
    rfl
  simp only [start_outside, hwrap, hregister]
  rfl

/-- A change is applied to the registered consumer, or refused. -/
theorem change_of_registered (k : Controller ω) {i : ConsumerId} {c : Consumer} (change : Change)
    (hs : s.Tidy) (hreg : s.consumer? i = some c) :
    k.change i change s =
      match c.apply change with
      | .error error => s.report i (.changeRefused change.trigger error)
      | .ok c' => k.evaluate change.trigger i (s.put i c') := by
  rw [Controller.change_outside, hreg]
  dsimp only
  rw [hs.running _ c hreg]
  exact if_neg Bool.false_ne_true

/-- A change for nobody is cached: nobody registers the consumer in the meantime. -/
theorem change_of_free (k : Controller ω) {i : ConsumerId} (change : Change) (hs : s.Tidy)
    (hfree : s.consumer? i = none) :
    k.change i change s =
      ({ s with cache := s.cache.record i change }.report i (.changeCached change.trigger)) := by
  rw [Controller.change_outside, hfree]
  generalize hs₁ : ({ s with cache := s.cache.record i change }.report i
    (.changeCached change.trigger)) = s₁
  have hrivals : letRivalsIn i s₁ = s₁ := by
    have hnone : s₁.rivals = [] := hs₁ ▸ hs.unrivalled
    rw [letRivalsIn, hnone]
    cases s₁
    cases hnone
    rfl
  have hfree₁ : s₁.consumer? i = none := hs₁ ▸ hfree
  dsimp only
  rw [hs₁, hrivals, hfree₁]

/-- A registered consumer that is shut down is removed. -/
theorem shutdown_of_registered {client : Client} {c : Consumer}
    (hreg : s.consumer? client.id = some c) :
    (shutdown client s).2 = dismiss client.id c s := by
  rw [shutdown_outside]
  dsimp only [drain]
  rw [show s.registry.remove client.id = (some c, (s.registry.remove client.id).2) from
    Prod.ext hreg rfl]
  rfl

theorem shutdown_of_free {client : Client} (hfree : s.consumer? client.id = none) :
    (shutdown client s).2 =
      ({ s with cache := (s.cache.drain client.id).2 }.report client.id .unknownShutdown) := by
  rw [shutdown_outside]
  dsimp only [drain]
  rw [show s.registry.remove client.id = (none, (s.registry.remove client.id).2) from
    Prod.ext hfree rfl]

/-! ### The table -/

/-- All that can become of a hook. -/
inductive Treatment (k : Controller ω) (s : State ω) : Hook → State ω → Prop where
  -- a client starts
  | rejected {client : Client} {error : Error} (hwrap : Consumer.wrap client = .error error) :
      Treatment k s (.lifecycle client .start)
        (s.report client.id (.notWrapped client.instanceName error))
  | restarted {client : Client} {fresh c : Consumer} (hwrap : Consumer.wrap client = .ok fresh)
      (hreg : s.consumer? client.id = some c) :
      Treatment k s (.lifecycle client .start)
        (k.evaluate .start client.id (s.report client.id .startedTwice))
  | enrolled {client : Client} {fresh : Consumer} (hwrap : Consumer.wrap client = .ok fresh)
      (hfree : s.consumer? client.id = none) :
      Treatment k s (.lifecycle client .start)
        (k.evaluate .start client.id (enrol client fresh s))
  -- a client changes what it consumes
  | unusable {client : Client} {e : LifecycleEvent} {n : Notice} (hstart : e ≠ .start)
      (hshutdown : e ≠ .shutdown) (hchange : e.change? = none) :
      Treatment k s (.lifecycle client e) (s.report client.id n)
  | refused {client : Client} {e : LifecycleEvent} {change : Change} {c : Consumer} {error : Error}
      (hchange : e.change? = some change) (hreg : s.consumer? client.id = some c)
      (happly : c.apply change = .error error) :
      Treatment k s (.lifecycle client e)
        (s.report client.id (.changeRefused change.trigger error))
  | revised {client : Client} {e : LifecycleEvent} {change : Change} {c c' : Consumer}
      (hchange : e.change? = some change) (hreg : s.consumer? client.id = some c)
      (happly : c.apply change = .ok c') :
      Treatment k s (.lifecycle client e)
        (k.evaluate change.trigger client.id (s.put client.id c'))
  | cached {client : Client} {e : LifecycleEvent} {change : Change}
      (hchange : e.change? = some change) (hfree : s.consumer? client.id = none) :
      Treatment k s (.lifecycle client e)
        ({ s with cache := s.cache.record client.id change }.report client.id
          (.changeCached change.trigger))
  -- a client shuts down
  | unknown {client : Client} (hfree : s.consumer? client.id = none) :
      Treatment k s (.lifecycle client .shutdown)
        ({ s with cache := (s.cache.drain client.id).2 }.report client.id .unknownShutdown)
  | dismissed {client : Client} {c : Consumer} (hreg : s.consumer? client.id = some c) :
      Treatment k s (.lifecycle client .shutdown) (dismiss client.id c s)
  -- there is a new policy
  | unreadable {text : String} {error : Error} (hdoc : Policy.ofDocument text = .error error) :
      Treatment k s (.policyDocument text) s
  | swept {h : Hook} {p : Policy} (hpolicy : h.policy? = some p) :
      Treatment k s h (k.updatePolicy p s)

theorem start_treated (k : Controller ω) (client : Client) (s : State ω) :
    k.Treatment s (.lifecycle client .start) (k.start client s) := by
  cases hwrap : Consumer.wrap client with
  | error error => exact start_of_error k hwrap s ▸ .rejected hwrap
  | ok fresh =>
    cases hreg : s.consumer? client.id with
    | some c => exact start_of_registered k hwrap hreg ▸ .restarted hwrap hreg
    | none => exact start_of_free k hwrap hreg ▸ .enrolled hwrap hreg

/-- A change that is brought is applied or cached. -/
theorem change_treated (k : Controller ω) {client : Client} {e : LifecycleEvent} {change : Change}
    (hchange : e.change? = some change) (hs : s.Tidy) :
    k.Treatment s (.lifecycle client e) (k.change client.id change s) := by
  cases hreg : s.consumer? client.id with
  | none => exact change_of_free k change hs hreg ▸ .cached hchange hreg
  | some c =>
    rw [change_of_registered k change hs hreg]
    cases happly : c.apply change with
    | error error => exact .refused hchange hreg happly
    | ok c' => exact .revised hchange hreg happly

theorem shutdown_treated (k : Controller ω) (client : Client) (s : State ω) :
    k.Treatment s (.lifecycle client .shutdown) (shutdown client s).2 := by
  cases hreg : s.consumer? client.id with
  | none => exact shutdown_of_free hreg ▸ .unknown hreg
  | some c => exact shutdown_of_registered hreg ▸ .dismissed hreg

/-- What is neither a coming nor a going brings a change, or is of no use. -/
theorem lifecycle_eq (k : Controller ω) (client : Client) {e : LifecycleEvent}
    (hstart : e ≠ .start) (hshutdown : e ≠ .shutdown) (s : State ω) :
    ∃ n, k.lifecycle client e s =
      e.change?.elim (s.report client.id n) fun change => k.change client.id change s := by
  cases e with
  | start => exact absurd rfl hstart
  | shutdown => exact absurd rfl hshutdown
  | subscribe topic =>
    refine ⟨.topicMissing (LifecycleEvent.subscribe topic).name, ?_⟩
    rw [lifecycle_subscribe, LifecycleEvent.change?]
    split <;> rfl
  | unsubscribe topic =>
    refine ⟨.topicMissing (LifecycleEvent.unsubscribe topic).name, ?_⟩
    rw [lifecycle_unsubscribe, LifecycleEvent.change?]
    split <;> rfl
  | assign queues =>
    refine ⟨.queueTopicMissing, ?_⟩
    rw [lifecycle_assign, LifecycleEvent.change?]
    split <;> rfl

/-- What a client reports is dealt with as the table says. -/
theorem lifecycle_treated (k : Controller ω) (client : Client) (e : LifecycleEvent)
    (hs : s.Tidy) : k.Treatment s (.lifecycle client e) (k.lifecycle client e s) := by
  by_cases hstart : e = .start
  · subst hstart
    exact start_treated k client s
  by_cases hshutdown : e = .shutdown
  · subst hshutdown
    exact shutdown_treated k client s
  obtain ⟨n, hbrought⟩ := lifecycle_eq k client hstart hshutdown s
  rw [hbrought]
  cases hchange : e.change? with
  | none => exact .unusable hstart hshutdown hchange
  | some change => exact change_treated k hchange hs

/-- **Every hook is dealt with as the table says.** -/
theorem deliver_treated (k : Controller ω) (h : Hook) (hs : s.Tidy) :
    k.Treatment s h (k.deliver s h) := by
  cases h with
  | lifecycle client e => exact lifecycle_treated k client e hs
  | policyUpdate p => exact .swept rfl
  | policyDelivery p => exact .swept rfl
  | policyDocument text =>
    rw [deliver_policyDocument, updatePolicyDocument_outside]
    cases hdoc : Policy.ofDocument text with
    | error error => exact .unreadable hdoc
    | ok p => exact .swept (by rw [Hook.policy?, hdoc]; rfl)

/-! ### Tidy states -/

/-- Whoever is registered in place of others has to be tidy. -/
theorem tidy_replace (hs : s.Tidy) {i : ConsumerId} {c : Consumer} (hid : c.client.id = i)
    (hrunning : c.shutDown = false) (hregistry : s'.registry = s.registry.replace i c)
    (hrivals : s'.rivals = s.rivals) : s'.Tidy := by
  have hlookup : ∀ id, s'.consumer? id = if i = id then some c else s.consumer? id := by
    intro id
    rw [State.consumer?, hregistry, consumer?_replace]
  refine ⟨fun id c' hreg => ?_, fun id c' hreg => ?_, hrivals.trans hs.unrivalled⟩
  · rw [hlookup] at hreg
    split at hreg
    · cases hreg
      exact hid.trans ‹_›
    · exact hs.keyed id c' hreg
  · rw [hlookup] at hreg
    split at hreg
    · cases hreg
      exact hrunning
    · exact hs.running id c' hreg

theorem takeIn_tidy {i : ConsumerId} {c : Consumer} (hs : s.Tidy) (hid : c.client.id = i)
    (hrunning : c.shutDown = false) : (takeIn i c s).Tidy :=
  tidy_replace hs hid hrunning rfl rfl

theorem dismiss_tidy (id : ConsumerId) (c : Consumer) (hs : s.Tidy) : (dismiss id c s).Tidy := by
  refine ⟨fun id' c' hreg => ?_, fun id' c' hreg => ?_, hs.unrivalled⟩
  · rw [consumer?_dismiss] at hreg
    split at hreg
    · cases hreg
    · exact hs.keyed id' c' hreg
  · rw [consumer?_dismiss] at hreg
    split at hreg
    · cases hreg
    · exact hs.running id' c' hreg

/-- A replay touches neither the client nor whether it runs. -/
theorem replay_frame (changes : List Change) : ∀ c : Consumer,
    (c.replay changes).1.client = c.client ∧ (c.replay changes).1.shutDown = c.shutDown := by
  induction changes with
  | nil => exact fun c => ⟨rfl, rfl⟩
  | cons change rest ih =>
    intro c
    rw [Consumer.replay]
    cases happly : c.apply change with
    | error e => exact ih c
    | ok c₁ =>
      obtain ⟨mode, topics, assigned, rfl, -⟩ := Consumer.apply_frame happly
      exact ih _

theorem enrol_tidy {client : Client} {fresh : Consumer} (hwrap : Consumer.wrap client = .ok fresh)
    (hs : s.Tidy) : (enrol client fresh s).Tidy := by
  obtain ⟨hclient, hrunning⟩ := replay_frame ((s.cache.get? client.id).getD []) fresh
  refine (enrol_tended client fresh s).tidy (takeIn_tidy hs ?_ ?_)
  · rw [caughtUp, hclient, Consumer.client_of_wrap hwrap]
  · obtain ⟨group, mode, -, rfl⟩ := Consumer.wrap_eq_ok hwrap
    exact hrunning

theorem put_tidy {i : ConsumerId} {c c' : Consumer} {change : Change} (hs : s.Tidy)
    (hreg : s.consumer? i = some c) (happly : c.apply change = .ok c') : (s.put i c').Tidy := by
  obtain ⟨mode, topics, assigned, rfl, -⟩ := Consumer.apply_frame happly
  exact tidy_replace (c := { c with mode, topics, assigned }) hs (hs.keyed i c hreg)
    (hs.running i c hreg) rfl rfl

/-- Whatever becomes of a hook, a tidy state stays tidy. -/
theorem Treatment.tidy {h : Hook} (htreated : k.Treatment s h s') (hs : s.Tidy) : s'.Tidy := by
  have hevaluated : ∀ {trigger : Trigger} {i : ConsumerId} {s₁ : State ω}, s₁.Tidy →
      (k.evaluate trigger i s₁).Tidy := fun hs₁ => (evaluate_tended k _ _ hs₁).tidy hs₁
  cases htreated with
  | restarted hwrap hreg => exact hevaluated (hs.of_eq rfl rfl)
  | enrolled hwrap hfree => exact hevaluated (enrol_tidy hwrap hs)
  | revised hchange hreg happly => exact hevaluated (put_tidy hs hreg happly)
  | dismissed hreg => exact dismiss_tidy _ _ hs
  | swept hpolicy => exact (updatePolicy_tended k _ hs).tidy hs
  | _ => exact hs.of_eq rfl rfl

theorem receive_treated (k : Controller ω) (within : Option Confirmation) (h : Hook)
    (hs : s.Tidy) :
    k.Treatment { s with received := .hook h within :: s.received } h (k.receive within s h) :=
  deliver_treated k h (hs.of_eq rfl rfl)

theorem receive_tidy (k : Controller ω) (within : Option Confirmation) (h : Hook) (hs : s.Tidy) :
    (k.receive within s h).Tidy :=
  (receive_treated k within h hs).tidy (hs.of_eq rfl rfl)

end Controller

end Embargo
