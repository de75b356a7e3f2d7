import Embargo.Proofs.Deliveries

/-!
# What evaluations come to

Under the built-in handler an evaluation carries out what the policy in force wants of a consumer.
Whatever leads to the evaluation of a registered consumer does nothing else to it, but for the
change or the policy that it brings.

* `View.Evaluated` — an evaluation, seen from the consumer;
* `Hook.Evaluates` — the hooks after which a registered consumer is evaluated;
* `Controller.Relates` — every evaluation leads along a relation of views;
* `Controller.sweep_related`, `deliver_related` — then so does every sweep, and every such hook;
* `Controller.deliver_evaluated` — **every such hook comes to one evaluation**.
-/

namespace Embargo

/-- An evaluation by the policy in force: the registered consumer makes the transition that the
policy wants. -/
def View.Evaluated (config : Config) (v v' : View) : Prop :=
  ∃ (c : Consumer) (tr : Trace) (o : Outcome), v.consumer = some c ∧
    c.Transit v.now (v.policy.decide c.topics) tr o ∧ v' = v.driven config c tr o

/-- The hooks after which a registered consumer is evaluated: it starts once more, it makes a change
that is accepted, or there is a new policy. -/
inductive Hook.Evaluates (id : ConsumerId) (c : Consumer) : Hook → Prop where
  | restart {client : Client} {c' : Consumer} (hid : client.id = id)
      (hwrap : Consumer.wrap client = .ok c') : Evaluates id c (.lifecycle client .start)
  | subscribe {client : Client} {topic : String} {c' : Consumer} (hid : client.id = id)
      (htopic : Text.isBlankText topic = false)
      (happly : c.apply (.subscribe (Text.trim topic)) = .ok c') :
      Evaluates id c (.lifecycle client (.subscribe topic))
  | unsubscribe {client : Client} {topic : String} {c' : Consumer} (hid : client.id = id)
      (htopic : Text.isBlankText topic = false)
      (happly : c.apply (.unsubscribe (Text.trim topic)) = .ok c') :
      Evaluates id c (.lifecycle client (.unsubscribe topic))
  | assign {client : Client} {queues : List Queue} {c' : Consumer} (hid : client.id = id)
      (htopics : (queues.any fun q => Text.isBlankText q.topic) = false)
      (happly : c.apply (.assign queues) = .ok c') :
      Evaluates id c (.lifecycle client (.assign queues))
  | policyUpdate (p : Policy) : Evaluates id c (.policyUpdate p)
  | policyDelivery (p : Policy) : Evaluates id c (.policyDelivery p)
  | policyDocument {text : String} {p : Policy} (hdoc : Policy.ofDocument text = .ok p) :
      Evaluates id c (.policyDocument text)

namespace Controller

variable {ω : Type} {k : Controller ω} {s : State ω} {id : ConsumerId} {c c' : Consumer}
  {f : Option Poll} {R : View → View → Prop}

/-! ### Single evaluations -/

/-- The built-in handler reports and drives. -/
theorem evaluate_eq (hbuiltin : k.handler = .builtin) (hreg : s.consumer? id = some c)
    (trigger : Trigger) :
    k.evaluate trigger id s = k.drive (s.policy.current.decide c.topics) id
      (s.happen (some id) (.evaluation .builtin trigger c s.policy.current)) := by
  rw [evaluate_outside, hreg]
  simp only [consult, hbuiltin, Handler.plan, Handler.name, follow_drive, follow_stop]
  split <;> rfl

/-- An evaluation, seen from the consumer that is evaluated. -/
theorem evaluate_evaluated (hbuiltin : k.handler = .builtin) (hkeyed : s.Keyed)
    (hreg : s.consumer? id = some c) (trigger : Trigger) (f : Option Poll) :
    View.Evaluated k.config (Moment.view (s, f) id)
      (Moment.view (k.evaluate trigger id s, f) id) := by
  obtain ⟨tr, o, htransit, hview⟩ := drive_view k (s.policy.current.decide c.topics)
    (s := s.happen (some id) (.evaluation .builtin trigger c s.policy.current)) hkeyed hreg f
  rw [view_happen rfl] at hview
  exact ⟨c, tr, o, hreg, htransit, evaluate_eq hbuiltin hreg trigger ▸ hview⟩

/-- Every evaluation of a consumer leads along a relation of views. -/
def Relates (k : Controller ω) (id : ConsumerId) (f : Option Poll)
    (R : View → View → Prop) : Prop :=
  ∀ {s : State ω} {c : Consumer} (trigger : Trigger), s.Keyed → s.consumer? id = some c →
    R (Moment.view (s, f) id) (Moment.view (k.evaluate trigger id s, f) id)

theorem relates_evaluated (hbuiltin : k.handler = .builtin) (id : ConsumerId) (f : Option Poll) :
    k.Relates id f (View.Evaluated k.config) :=
  fun trigger hkeyed hreg => evaluate_evaluated hbuiltin hkeyed hreg trigger f

/-! ### Sweeps -/

/-- A sweep over others cannot be seen. -/
theorem sweep_view_of_not_mem {ids : List ConsumerId} (hkeyed : s.Keyed) (hid : id ∉ ids)
    (f : Option Poll) : Moment.view (k.sweep ids s, f) id = Moment.view (s, f) id :=
  (sweep_acts (P := (· ∈ ids)) ids (fun _ hi => hi) s).view_eq hkeyed hid

/-- A sweep comes to one evaluation of every consumer that it visits. -/
theorem sweep_related (hrelates : k.Relates id f R) (hrunning : c.shutDown = false)
    (ids : List ConsumerId) :
    ∀ {s : State ω}, ids.Nodup → id ∈ ids → s.Keyed → s.consumer? id = some c →
      R (Moment.view (s, f) id) (Moment.view (k.sweep ids s, f) id) := by
  induction ids with
  | nil => exact fun _ hmem => by cases hmem
  | cons i is ih =>
    intro s hnodup hmem hkeyed hreg
    obtain ⟨hfirst, hrest⟩ := List.nodup_cons.1 hnodup
    have hacts : k.Acts (· = i) f s (k.revisit s i) := revisit_acts rfl
    have hkeyed' : (k.revisit s i).Keyed := (hacts.along hkeyed).1
    show R _ (Moment.view (k.sweep is (k.revisit s i), f) id)
    rcases List.mem_cons.1 hmem with rfl | hlater
    · rw [sweep_view_of_not_mem hkeyed' hfirst]
      have hrevisit : k.revisit s id = k.evaluate .policyUpdate id s := by
        simp only [revisit_outside, hreg, hrunning]
        rfl
      rw [hrevisit]
      exact hrelates .policyUpdate hkeyed hreg
    · have hview : Moment.view (k.revisit s i, f) id = Moment.view (s, f) id :=
        hacts.view_eq hkeyed fun heq => hfirst (heq ▸ hlater)
      have hreg' : (k.revisit s i).consumer? id = some c :=
        (congrArg View.consumer hview).trans hreg
      exact hview ▸ ih hrest hlater hkeyed' hreg'

/-- Whoever is registered is visited. -/
theorem mem_sweepOrder (k : Controller ω) (hreg : s.consumer? id = some c) (n : Nat) :
    id ∈ k.sweepOrder n s.registry.ids ∧ (k.sweepOrder n s.registry.ids).Nodup := by
  have hperm := k.sweepOrder_perm n s.registry.ids
  refine ⟨hperm.mem_iff.2 (Registry.mem_ids.2 ?_), hperm.nodup_iff.2 (Registry.nodup_ids _)⟩
  exact Option.isSome_of_eq_some hreg

/-! ### Hooks -/

/-- A policy that is put in force, seen from a consumer. -/
theorem updatePolicy_related (hrelates : k.Relates id f R) (hkeyed : s.Keyed)
    (hreg : s.consumer? id = some c) (hrunning : c.shutDown = false) (p : Policy) :
    R { Moment.view (s, f) id with policy := p.normalized }
      (Moment.view (k.updatePolicy p s, f) id) := by
  obtain ⟨hmem, hnodup⟩ := mem_sweepOrder k hreg s.sweeps
  have hswept := sweep_related (s :=
    { (install p s).happen none (.notice (.sweepStarted (install p s).registry.size)) with
      sweeps := s.sweeps + 1 }) hrelates hrunning _ hnodup hmem hkeyed hreg
  exact hswept

theorem updatePolicy_evaluated (hbuiltin : k.handler = .builtin) (hkeyed : s.Keyed)
    (hreg : s.consumer? id = some c) (hrunning : c.shutDown = false) (p : Policy)
    (f : Option Poll) :
    View.Evaluated k.config { Moment.view (s, f) id with policy := p.normalized }
      (Moment.view (k.updatePolicy p s, f) id) :=
  updatePolicy_related (relates_evaluated hbuiltin id f) hkeyed hreg hrunning p

/-- A change that is accepted, seen from its consumer. -/
theorem change_related (hrelates : k.Relates id f R) (hkeyed : s.Keyed)
    (hreg : s.consumer? id = some c) (hrunning : c.shutDown = false) {change : Change}
    (happly : c.apply change = .ok c') :
    R { Moment.view (s, f) id with consumer := some c' }
      (Moment.view (k.change id change s, f) id) := by
  have hchange : k.change id change s = k.evaluate change.trigger id (s.put id c') := by
    simp only [Controller.change_outside, hreg, hrunning, happly]
    rfl
  have hput : k.Acts (· = id) f s (s.put id c') := put_acts rfl hreg happly
  have hview : Moment.view (s.put id c', f) id =
      { Moment.view (s, f) id with consumer := some c' } :=
    View.ext rfl rfl rfl rfl (consumer?_put_self s id c') rfl rfl rfl
  rw [hchange, ← hview]
  exact hrelates _ (hput.along hkeyed).1 (consumer?_put_self s id c')

/-- A hook after which a registered consumer is evaluated leads along whatever relation its
evaluations lead along, from the policy that is in force then, and with the change that the hook
brings. -/
theorem deliver_related (hrelates : k.Relates id f R) (hkeyed : s.Keyed)
    (hreg : s.consumer? id = some c) (hrunning : c.shutDown = false) {hook : Hook}
    (hevaluates : hook.Evaluates id c) :
    ∃ p c', (c' = c ∨ ∃ change, c.apply change = .ok c') ∧
      R { Moment.view (s, f) id with policy := p, consumer := some c' }
        (Moment.view (k.deliver s hook, f) id) := by
  have hsame : ∀ p, ({ Moment.view (s, f) id with policy := p } : View) =
      { Moment.view (s, f) id with policy := p, consumer := some c } :=
    fun p => View.ext rfl rfl rfl rfl hreg rfl rfl rfl
  cases hevaluates with
  | @restart client c' hid hwrap =>
    subst hid
    have hstart : k.start client s =
        k.evaluate .start client.id (s.report client.id .startedTwice) := by
      have hlookup : s.registry.lookup client.id = some c := hreg
      simp only [start_outside, hwrap, Registry.register, hlookup]
    refine ⟨s.policy.current, c, .inl rfl, ?_⟩
    have hevaluated := hrelates (s := s.report client.id .startedTwice) .start hkeyed hreg
    rw [← hstart, State.report, view_happen rfl] at hevaluated
    exact (hsame s.policy.current) ▸ hevaluated
  | @subscribe client topic c' hid htopic happly =>
    subst hid
    refine ⟨s.policy.current, c', .inr ⟨_, happly⟩, ?_⟩
    rw [deliver_lifecycle, lifecycle_subscribe, htopic]
    exact change_related hrelates hkeyed hreg hrunning happly
  | @unsubscribe client topic c' hid htopic happly =>
    subst hid
    refine ⟨s.policy.current, c', .inr ⟨_, happly⟩, ?_⟩
    rw [deliver_lifecycle, lifecycle_unsubscribe, htopic]
    exact change_related hrelates hkeyed hreg hrunning happly
  | @assign client queues c' hid htopics happly =>
    subst hid
    refine ⟨s.policy.current, c', .inr ⟨_, happly⟩, ?_⟩
    rw [deliver_lifecycle, lifecycle_assign, htopics]
    exact change_related hrelates hkeyed hreg hrunning happly
  | policyUpdate p =>
    exact ⟨p.normalized, c, .inl rfl,
      hsame _ ▸ updatePolicy_related hrelates hkeyed hreg hrunning p⟩
  | policyDelivery p =>
    exact ⟨p.normalized, c, .inl rfl,
      hsame _ ▸ updatePolicy_related hrelates hkeyed hreg hrunning p⟩
  | @policyDocument text p hdoc =>
    refine ⟨p.normalized, c, .inl rfl, ?_⟩
    rw [deliver_policyDocument, updatePolicyDocument_outside, hdoc]
    exact hsame _ ▸ updatePolicy_related hrelates hkeyed hreg hrunning p

/-- **A hook after which a registered consumer is evaluated comes to one evaluation of it.** -/
theorem deliver_evaluated (hbuiltin : k.handler = .builtin) (hkeyed : s.Keyed)
    (hreg : s.consumer? id = some c) (hrunning : c.shutDown = false) {hook : Hook}
    (hevaluates : hook.Evaluates id c) (f : Option Poll) :
    ∃ p c', (c' = c ∨ ∃ change, c.apply change = .ok c') ∧
      View.Evaluated k.config { Moment.view (s, f) id with policy := p, consumer := some c' }
        (Moment.view (k.deliver s hook, f) id) :=
  deliver_related (relates_evaluated hbuiltin id f) hkeyed hreg hrunning hevaluates

end Controller

end Embargo
