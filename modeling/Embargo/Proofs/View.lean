import Embargo.Controller.Run
import Embargo.Proofs.Trace
import Mathlib.Data.Multiset.Filter

/-!
# One consumer at a time

A controller serves many consumers, but what happens to one of them can be told without the others.
This file projects a state of the controller to one identity and says which steps the projection can
take; everything that is proved about single consumers is proved about these steps.

* `Poll` — a confirmation that is being carried out, which waits nowhere;
* `View` — what a state of the controller holds about one identity;
* `Delivery.concerns` — whether what reaches the controller is about an identity;
* `View.Effect` — what a delivery can do to one consumer, with its guards;
* `View.Step` — everything that can happen to one consumer: deliveries with all their effects, the
  passing of time, and its confirmations, which poll, settle, retry or roll back;
* `View.Reach` — any number of steps.

The steps of different identities are interleaved by the controller; that it takes no others is the
subject of the simulation that builds on this file.
-/

namespace Embargo

/-! ### What reaches the controller -/

namespace Delivery

/-- Whether a delivery is about an identity.  A policy is about all of them, unless it is a document
that cannot be read. -/
def concerns (id : ConsumerId) : Delivery → Prop
  | .hook (.lifecycle client _) _ => client.id = id
  | .hook (.policyUpdate _) _ => True
  | .hook (.policyDelivery _) _ => True
  | .hook (.policyDocument text) _ => ∃ p, Policy.ofDocument text = .ok p
  | .order id' _ => id' = id

/-- The confirmation from inside whose query it came. -/
def within : Delivery → Option Confirmation
  | .hook _ within => within
  | .order .. => none

end Delivery

/-! ### Views -/

/-- A confirmation that is being carried out. -/
structure Poll where
  task : Confirmation
  /-- Whether the consumer has to count as a member of its group still. -/
  present : Bool

/-- What a state of the controller holds about one identity. -/
@[ext] structure View where
  now : Nat
  policy : Policy
  received : List Delivery
  life : Nat
  consumer : Option Consumer
  /-- The confirmations that wait. -/
  waiting : Multiset Confirmation
  /-- The confirmation that is being carried out, if it is one of this identity. -/
  poll : Option Poll
  /-- What the record says about the client, the latest event first. -/
  record : Log

namespace View

/-- All confirmations that are running. -/
def tasks (v : View) : Multiset Confirmation :=
  match v.poll with
  | none => v.waiting
  | some p => p.task ::ₘ v.waiting

/-- The consumer that a confirmation is about, unless the confirmation is superseded. -/
def subject? (v : View) (t : Confirmation) : Option Consumer :=
  v.consumer.filter fun c => t.life = v.life && !c.shutDown && c.epoch = t.epoch

/-- Whether a confirmation has been disturbed: a delivery about the consumer has come from inside
one of its own queries. -/
def Disturbed (id : ConsumerId) (v : View) (t : Confirmation) : Prop :=
  ∃ d ∈ v.received, d.concerns id ∧ d.within = some t

/-- A confirmation asks as long as it is not superseded, and goes on asking when it has been
superseded from inside its own queries. -/
def Entitled (id : ConsumerId) (v : View) (t : Confirmation) : Prop :=
  v.subject? t ≠ none ∨ v.Disturbed id t

/-! ### Steps -/

/-- The view after a transition of its consumer: the consumer as it has become, with a confirmation
if it has left its group, and its calls on record. -/
abbrev driven (config : Config) (v : View) (c : Consumer) (tr : Trace) (o : Outcome) : View :=
  { v with
    consumer := some o.consumer
    waiting :=
      if o.leaving then Confirmation.start config v.now v.life o.consumer ::ₘ v.waiting
      else v.waiting
    record := Program.Subject.entries ⟨c.client, v.life⟩ v.now tr ++ v.record }

/-- What can happen to one consumer while a delivery that is about it is dealt with. -/
inductive Effect (config : Config) (id : ConsumerId) : View → View → Prop where
  | install {v : View} (p : Policy) : Effect config id v { v with policy := p }
  | register {v : View} {client : Client} {c : Consumer} (hfree : v.consumer = none)
      (hid : client.id = id) (hwrap : Consumer.wrap client = .ok c) :
      Effect config id v { v with consumer := some c }
  | revise {v : View} {c c' : Consumer} {change : Change} (hreg : v.consumer = some c)
      (happly : c.apply change = .ok c') : Effect config id v { v with consumer := some c' }
  | remove {v : View} {c : Consumer} (hreg : v.consumer = some c) :
      Effect config id v { v with consumer := none, life := v.life + 1 }
  | drive {v : View} {c : Consumer} {d : Decision} {tr : Trace} {o : Outcome}
      (hreg : v.consumer = some c) (htransit : c.Transit v.now d tr o) :
      Effect config id v (driven config v c tr o)

/-- Any number of effects, but none on an identity that they are not about. -/
abbrev Effects (config : Config) (about : Prop) (id : ConsumerId) : View → View → Prop :=
  Relation.ReflTransGen fun v v' => about ∧ Effect config id v v'

/-- Everything that can happen to one consumer. -/
inductive Step (config : Config) (id : ConsumerId) : View → View → Prop where
  /-- Something is delivered and dealt with.  During a poll it comes from inside the poll. -/
  | deliver {v v' : View} (d : Delivery) (hwithin : ∀ p, v.poll = some p → d.within = some p.task)
      (heffects : Effects config (d.concerns id) id { v with received := d :: v.received } v') :
      Step config id v v'
  /-- Time moves on while nothing is carried out, but not beyond a confirmation that waits. -/
  | tick {v : View} {now : Nat} (hidle : v.poll = none) (hle : v.now ≤ now)
      (hdue : now = v.now ∨ ∀ t ∈ v.waiting, now ≤ t.due) : Step config id v { v with now }
  -- a confirmation goes on
  | pick {v : View} {t : Confirmation} {rest : Multiset Confirmation} (hidle : v.poll = none)
      (hwaiting : v.waiting = t ::ₘ rest) (hdue : t.due ≤ v.now) :
      Step config id v
        { v with waiting := rest, poll := some ⟨t, decide (config.maxRetries.toNat ≤ t.attempts)⟩ }
  | ask {v : View} {t : Confirmation} (topic : String) (ok : Bool)
      (hpoll : v.poll = some ⟨t, false⟩) (hentitled : v.Entitled id t) :
      Step config id v
        { v with
          poll := some ⟨t, !ok⟩
          record :=
            { time := v.now, who := some id,
              what := .call t.client t.life (.findMembers topic t.group) ok } :: v.record }
  | answer {v : View} {t : Confirmation} (topic : String) (members : List String)
      (hpoll : v.poll = some ⟨t, false⟩) :
      Step config id v
        { v with
          poll := some ⟨t, decide (t.client.clientId ∈ members)⟩
          record :=
            { time := v.now, who := some id,
              what := .listing t.client t.life topic t.group members } :: v.record }
  -- a confirmation ends, or waits again
  | discard {v : View} {p : Poll} (hpoll : v.poll = some p) (hover : v.subject? p.task = none) :
      Step config id v { v with poll := none }
  | confirm {v : View} {t : Confirmation} {c : Consumer} (hpoll : v.poll = some ⟨t, false⟩)
      (hlive : v.subject? t = some c) :
      Step config id v
        { v with poll := none, consumer := some (c.transition v.now .suspended) }
  | retry {v : View} {t : Confirmation} (hpoll : v.poll = some ⟨t, true⟩)
      (hleft : t.attempts + 1 < config.maxRetries.toNat) :
      Step config id v
        { v with poll := none, waiting := t.again config v.now ::ₘ v.waiting }
  | rollBack {v : View} {t : Confirmation} {c c' : Consumer} {tr : Trace}
      (hpoll : v.poll = some ⟨t, true⟩) (hover : config.maxRetries.toNat ≤ t.attempts + 1)
      (hlive : v.subject? t = some c) (hyields : (c.rollBack v.now).Yields tr c') :
      Step config id v
        { v with
          poll := none
          consumer := some c'
          record := Program.Subject.entries ⟨t.client, t.life⟩ v.now tr ++ v.record }

/-! ### What steps lead to -/

theorem Effect.received_eq {config : Config} {id : ConsumerId} {v v' : View}
    (h : Effect config id v v') : v'.received = v.received := by
  cases h <;> rfl

theorem Effect.congr {config : Config} {id : ConsumerId} {v w w' : View}
    (h : Effect config id v w) (heq : w' = w) : Effect config id v w' :=
  heq ▸ h

theorem Step.congr {config : Config} {id : ConsumerId} {v w w' : View}
    (h : Step config id v w) (heq : w' = w) : Step config id v w' :=
  heq ▸ h

/-- Any number of steps. -/
abbrev Reach (config : Config) (id : ConsumerId) : View → View → Prop :=
  Relation.ReflTransGen (Step config id)

/-- What every effect keeps, any number of effects keeps. -/
theorem Effects.keeps {config : Config} {about : Prop} {id : ConsumerId} {P : View → Prop}
    {v v' : View} (heffect : ∀ {v v' : View}, Effect config id v v' → P v → P v')
    (h : Effects config about id v v') (hv : P v) : P v' := by
  induction h with
  | refl => exact hv
  | tail _ hlast ih => exact heffect hlast.2 ih

theorem Effects.received_eq {config : Config} {about : Prop} {id : ConsumerId} {v v' : View}
    (h : Effects config about id v v') : v'.received = v.received :=
  h.keeps (P := fun w => w.received = v.received) (fun heffect hw => heffect.received_eq.trans hw)
    rfl

/-- Nothing has effects on a consumer that it is not about. -/
theorem Effects.eq_of_not {config : Config} {about : Prop} {id : ConsumerId} {v v' : View}
    (habout : ¬about) (h : Effects config about id v v') : v' = v := by
  induction h with
  | refl => rfl
  | tail _ hlast _ => exact absurd hlast.1 habout

/-- What is delivered during a poll disturbs it, or leaves the consumer alone. -/
theorem Effects.entitled {config : Config} {id : ConsumerId} {v v' : View} {t : Confirmation}
    {d : Delivery} (hwithin : d.within = some t)
    (h : Effects config (d.concerns id) id { v with received := d :: v.received } v')
    (hentitled : v.Entitled id t) : v'.Entitled id t := by
  by_cases hd : d.concerns id
  · exact .inr ⟨d, h.received_eq ▸ List.mem_cons_self, hd, hwithin⟩
  · rw [Effects.eq_of_not hd h]
    exact hentitled.imp_right fun ⟨d', hd', hrest⟩ => ⟨d', List.mem_cons_of_mem d hd', hrest⟩

/-- Nothing is taken off the record, and nothing that has been received is forgotten. -/
theorem Step.grows {config : Config} {id : ConsumerId} {v v' : View} (h : Step config id v v') :
    ∃ new later, v'.record = new ++ v.record ∧ v'.received = later ++ v.received := by
  cases h with
  | deliver d hwithin heffects =>
    have hrecord := heffects.keeps (P := fun w => ∃ new, w.record = new ++ v.record)
      (fun heffect ⟨new, hnew⟩ => by
        cases heffect with
        | drive => exact ⟨_ ++ new, (congrArg (_ ++ ·) hnew).trans (List.append_assoc ..).symm⟩
        | _ => exact ⟨new, hnew⟩) ⟨[], rfl⟩
    obtain ⟨new, hnew⟩ := hrecord
    exact ⟨new, [d], hnew, heffects.received_eq⟩
  | ask => exact ⟨[_], [], rfl, rfl⟩
  | answer => exact ⟨[_], [], rfl, rfl⟩
  | rollBack => exact ⟨_, [], rfl, rfl⟩
  | _ => exact ⟨[], [], rfl, rfl⟩

/-- What every step keeps, any number of steps keeps. -/
theorem Reach.keeps {config : Config} {id : ConsumerId} {P : View → Prop} {v v' : View}
    (hstep : ∀ {v v' : View}, Step config id v v' → P v → P v') (h : Reach config id v v')
    (hv : P v) : P v' := by
  induction h with
  | refl => exact hv
  | tail _ hlast ih => exact hstep hlast ih

theorem Reach.grows {config : Config} {id : ConsumerId} {v v' : View} (h : Reach config id v v') :
    ∃ new later, v'.record = new ++ v.record ∧ v'.received = later ++ v.received := by
  induction h with
  | refl => exact ⟨[], [], rfl, rfl⟩
  | tail _ hlast ih =>
    obtain ⟨new, later, hrecord, hreceived⟩ := ih
    obtain ⟨newer, latest, hrecord', hreceived'⟩ := hlast.grows
    exact ⟨newer ++ new, latest ++ later, by rw [hrecord', hrecord, List.append_assoc],
      by rw [hreceived', hreceived, List.append_assoc]⟩

end View

/-! ### The views of a state -/

/-- A state of the controller, and the confirmation that is being carried out in it. -/
abbrev Moment (ω : Type) := State ω × Option Poll

/-- The confirmations of a list that belong to an identity. -/
def waitingFor (id : ConsumerId) (ts : List Confirmation) : Multiset Confirmation :=
  ts.filter fun t => t.id = id

theorem mem_waitingFor {id : ConsumerId} {ts : List Confirmation} {t : Confirmation} :
    t ∈ waitingFor id ts ↔ t ∈ ts ∧ t.id = id := by
  rw [waitingFor, Multiset.mem_coe, List.mem_filter, decide_eq_true_iff]

theorem waitingFor_perm {id : ConsumerId} {ts us : List Confirmation} (h : ts.Perm us) :
    waitingFor id ts = waitingFor id us :=
  Multiset.coe_eq_coe.2 (h.filter _)

theorem waitingFor_cons_of_id_eq {id : ConsumerId} {t : Confirmation} (ts : List Confirmation)
    (h : t.id = id) : waitingFor id (t :: ts) = t ::ₘ waitingFor id ts := by
  rw [waitingFor, List.filter_cons_of_pos (by simpa using h)]
  rfl

theorem waitingFor_cons_of_id_ne {id : ConsumerId} {t : Confirmation} (ts : List Confirmation)
    (h : t.id ≠ id) : waitingFor id (t :: ts) = waitingFor id ts := by
  rw [waitingFor, List.filter_cons_of_neg (by simpa using h)]
  rfl

/-- What a moment holds about one identity. -/
def Moment.view {ω : Type} (m : Moment ω) (id : ConsumerId) : View where
  now := m.1.now
  policy := m.1.policy.current
  received := m.1.received
  life := m.1.life id
  consumer := m.1.consumer? id
  waiting := waitingFor id m.1.confirmations
  poll := m.2.filter fun p => p.task.id = id
  record := Log.about id m.1.log

/-- The view of an identity before anything has happened. -/
def View.initial (policy : Policy) : View where
  now := 0
  policy := policy.normalized
  received := []
  life := 0
  consumer := none
  waiting := 0
  poll := none
  record := []

theorem Moment.view_initial {ω : Type} (policy : Policy) (memory : ω) (id : ConsumerId) :
    Moment.view (State.initial policy memory, none) id = View.initial policy := by
  simp [Moment.view, View.initial, State.initial, State.life, State.departedOf, State.consumer?,
    Registry.lookup, Log.about, waitingFor]

end Embargo
