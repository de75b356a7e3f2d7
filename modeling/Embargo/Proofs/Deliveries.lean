import Embargo.Proofs.View

/-!
# What is delivered takes effect on the consumers it is about

The functions of the controller work on a state that holds all consumers.  Seen from any one
identity, what they do with a delivery comes down to effects on that identity; mostly to none.

* `State.Keyed` — every consumer is registered under the identity of its client;
* `Moment.Along` — one moment leads to another along a relation of views, seen from every identity;
* `Controller.Acts` — a state leads to another one by effects on some consumers only;
* `drive_acts`, `evaluate_acts`, … — one lemma for each function that deals with deliveries;
* `drive_view` — what carrying out a decision comes to, exactly;
* `receive_leads` — a delivery, with all its effects, is one step of every identity.
-/

namespace Embargo

/-- Every consumer is registered under the identity of its client. -/
def State.Keyed {ω : Type} (s : State ω) : Prop :=
  ∀ id c, s.consumer? id = some c → c.client.id = id

variable {ω : Type}

/-! ### Leading from one moment to another -/

/-- Seen from every identity, one moment leads to another along a relation. -/
def Moment.Along (R : ConsumerId → View → View → Prop) (m m' : Moment ω) : Prop :=
  m.1.Keyed → m'.1.Keyed ∧ ∀ id, Relation.ReflTransGen (R id) (m.view id) (m'.view id)

namespace Moment.Along

variable {R : ConsumerId → View → View → Prop} {m m' m'' : Moment ω}

theorem refl (R : ConsumerId → View → View → Prop) (m : Moment ω) : Along R m m :=
  fun hkeyed => ⟨hkeyed, fun _ => .refl⟩

theorem trans (h : Along R m m') (h' : Along R m' m'') : Along R m m'' := by
  intro hkeyed
  obtain ⟨hkeyed', hreach⟩ := h hkeyed
  obtain ⟨hkeyed'', hreach'⟩ := h' hkeyed'
  exact ⟨hkeyed'', fun id => (hreach id).trans (hreach' id)⟩

/-- What no view can see leads nowhere. -/
theorem of_view_eq (h : ∀ id, m'.view id = m.view id) : Along R m m' := by
  intro hkeyed
  refine ⟨fun id c hc => hkeyed id c ?_, fun id => ?_⟩
  · show (m.view id).consumer = some c
    rw [← h id]
    exact hc
  · rw [h id]

/-- One step of one identity, which no other identity can see. -/
theorem of_step {i : ConsumerId} (hkeyed' : m.1.Keyed → m'.1.Keyed)
    (hstep : m.1.Keyed → R i (m.view i) (m'.view i))
    (hother : m.1.Keyed → ∀ id, id ≠ i → m'.view id = m.view id) : Along R m m' := by
  intro hkeyed
  refine ⟨hkeyed' hkeyed, fun id => ?_⟩
  by_cases hid : id = i
  · subst hid
    exact .single (hstep hkeyed)
  · rw [hother hkeyed id hid]

/-- One step that every identity takes. -/
theorem of_steps (hkeyed' : m.1.Keyed → m'.1.Keyed)
    (hstep : ∀ id, R id (m.view id) (m'.view id)) : Along R m m' :=
  fun hkeyed => ⟨hkeyed' hkeyed, fun id => .single (hstep id)⟩

end Moment.Along

namespace Controller

variable {k : Controller ω}

/-- Time stands still, and the confirmations that wait go on waiting; those that join them have just
been started.  If commands return, nothing gets stuck. -/
structure Still (k : Controller ω) (s s' : State ω) : Prop where
  now : s'.now = s.now
  waiting : ∃ started, s'.confirmations = s.confirmations ++ started ∧
    ∀ t ∈ started, ∃ life c, t = Confirmation.start k.config s.now life c
  stuck : k.environment.Prompt → s'.stuck = s.stuck

/-- A state leads to another one while a delivery is dealt with: by effects on the consumers that it
is about. -/
structure Acts (k : Controller ω) (P : ConsumerId → Prop) (f : Option Poll) (s s' : State ω) :
    Prop where
  along : Moment.Along (fun id v v' => P id ∧ View.Effect k.config id v v') (s, f) (s', f)
  still : k.Still s s'

variable {P : ConsumerId → Prop} {f : Option Poll} {s s' s'' : State ω} {id : ConsumerId}

theorem Still.of_eq (hnow : s'.now = s.now) (h : s'.confirmations = s.confirmations)
    (hstuck : s'.stuck = s.stuck) : k.Still s s' :=
  ⟨hnow, ⟨[], h.trans (List.append_nil _).symm, fun t ht => by cases ht⟩, fun _ => hstuck⟩

theorem Still.trans (h : k.Still s s') (h' : k.Still s' s'') : k.Still s s'' := by
  obtain ⟨started, hwaiting, hstarted⟩ := h.waiting
  obtain ⟨started', hwaiting', hstarted'⟩ := h'.waiting
  refine ⟨h'.now.trans h.now, ⟨started ++ started', ?_, fun t ht => ?_⟩,
    fun henv => (h'.stuck henv).trans (h.stuck henv)⟩
  · rw [hwaiting', hwaiting, List.append_assoc]
  · rcases List.mem_append.1 ht with hfirst | hsecond
    · exact hstarted t hfirst
    · exact h.now ▸ hstarted' t hsecond

theorem Acts.refl (k : Controller ω) (P : ConsumerId → Prop) (f : Option Poll) (s : State ω) :
    k.Acts P f s s :=
  ⟨.refl _ _, .of_eq rfl rfl rfl⟩

theorem Acts.trans (h : k.Acts P f s s') (h' : k.Acts P f s' s'') : k.Acts P f s s'' :=
  ⟨h.along.trans h'.along, h.still.trans h'.still⟩

theorem Acts.of_view_eq (h : ∀ id, Moment.view (s', f) id = Moment.view (s, f) id)
    (hconfirmations : s'.confirmations = s.confirmations) (hstuck : s'.stuck = s.stuck) :
    k.Acts P f s s' :=
  ⟨.of_view_eq h, .of_eq (congrArg View.now (h default)) hconfirmations hstuck⟩

/-- One act after the other. -/
theorem Acts.foldl {β : Type} {step : State ω → β → State ω} (bs : List β)
    (hstep : ∀ b ∈ bs, ∀ s, k.Acts P f s (step s b)) :
    ∀ s : State ω, k.Acts P f s (bs.foldl step s) := by
  induction bs with
  | nil => exact fun s => .refl k P f s
  | cons b bs ih =>
    intro s
    exact (hstep b List.mem_cons_self s).trans
      (ih (fun b' hb' => hstep b' (List.mem_cons_of_mem b hb')) _)

/-- Whoever nothing is about cannot see it. -/
theorem Acts.view_eq (h : k.Acts P f s s') (hkeyed : s.Keyed) (hid : ¬P id) :
    Moment.view (s', f) id = Moment.view (s, f) id :=
  View.Effects.eq_of_not hid ((h.along hkeyed).2 id)

/-! ### What no view can see -/

/-- Nothing but calls and the answers of the broker is seen of the record. -/
theorem view_happen {who : Option ConsumerId} {what : Occurrence} (hwhat : what.client? = none)
    (s : State ω) (f : Option Poll) (id : ConsumerId) :
    Moment.view (s.happen who what, f) id = Moment.view (s, f) id :=
  View.ext rfl rfl rfl rfl rfl rfl rfl (Log.about_cons_of_none id s.log hwhat)

theorem happen_acts {who : Option ConsumerId} {what : Occurrence} (hwhat : what.client? = none)
    (s : State ω) (f : Option Poll) : k.Acts P f s (s.happen who what) :=
  .of_view_eq (fun id => view_happen hwhat s f id) rfl rfl

theorem report_acts (i : ConsumerId) (n : Notice) (s : State ω) (f : Option Poll) :
    k.Acts P f s (s.report i n) :=
  happen_acts rfl s f

theorem remember_acts (memory : ω) (s : State ω) (f : Option Poll) :
    k.Acts P f s { s with memory } :=
  .of_view_eq (fun _ => rfl) rfl rfl

/-! ### Transitions -/

theorem consumer?_replace (s : State ω) (i id : ConsumerId) (c : Consumer) :
    (s.registry.replace i c).lookup id = if i = id then some c else s.consumer? id :=
  Registry.lookup_replace s.registry i id c

theorem keyed_replace {i : ConsumerId} {c c' : Consumer} (hkeyed : s.Keyed)
    (hc : s.consumer? i = some c) (hclient : c'.client = c.client) :
    ∀ id c₁, (s.registry.replace i c').lookup id = some c₁ → c₁.client.id = id := by
  intro id c₁ hc₁
  rw [consumer?_replace] at hc₁
  by_cases hid : i = id
  · rw [if_pos hid] at hc₁
    cases hc₁
    rw [hclient, ← hid]
    exact hkeyed i c hc
  · rw [if_neg hid] at hc₁
    exact hkeyed id c₁ hc₁

/-- Carrying out a decision puts the outcome of a transition in the place of the consumer, with a
confirmation if it has left its group, and records what was called. -/
theorem drive_eq (k : Controller ω) {i : ConsumerId} {c : Consumer} (d : Decision)
    (hc : s.consumer? i = some c) :
    ∃ (tr : Trace) (o : Outcome) (memory : ω) (stuck : Bool) (log : Log),
      c.Transit s.now d tr o ∧
      (∀ id, Log.about id log =
        (if c.client.id = id then Program.Subject.entries ⟨c.client, s.life i⟩ s.now tr else []) ++
          Log.about id s.log) ∧
      k.drive d i s =
        { s with
          registry := s.registry.replace i o.consumer
          confirmations :=
            if o.leaving then
              s.confirmations ++ [Confirmation.start k.config s.now (s.life i) o.consumer]
            else s.confirmations
          memory
          stuck
          log } := by
  obtain ⟨tr, hyields, habout⟩ := Program.run_yields k.environment s.now ⟨c.client, s.life i⟩
    (c.drive s.now d) s.memory s.log
  exact ⟨tr, _, _, _, _, Consumer.transit_of_yields hyields, habout, by rw [drive_eq_run, hc]⟩

theorem drive_keyed (k : Controller ω) (i : ConsumerId) (d : Decision) (hkeyed : s.Keyed) :
    (k.drive d i s).Keyed := by
  cases hc : s.consumer? i with
  | none =>
    rw [drive_eq_run, hc]
    exact hkeyed
  | some c =>
    obtain ⟨tr, o, memory, stuck, log, htransit, -, heq⟩ := drive_eq k d hc
    rw [heq]
    exact keyed_replace hkeyed hc htransit.client_eq

theorem drive_still (k : Controller ω) (i : ConsumerId) (d : Decision) (s : State ω) :
    k.Still s (k.drive d i s) := by
  cases hc : s.consumer? i with
  | none =>
    rw [drive_eq_run, hc]
    exact .of_eq rfl rfl rfl
  | some c =>
    have hstuck : k.environment.Prompt → (k.drive d i s).stuck = s.stuck := by
      intro henv
      rw [drive_eq_run, hc]
      dsimp only
      rw [Program.waits_of_prompt henv, Bool.or_false]
    obtain ⟨tr, o, memory, stuck, log, -, -, heq⟩ := drive_eq k d hc
    refine ⟨by rw [heq], ?_, hstuck⟩
    rw [heq]
    cases o.leaving with
    | false => exact ⟨[], (List.append_nil _).symm, fun t ht => by cases ht⟩
    | true => exact ⟨[_], rfl, fun t ht => ⟨_, _, List.mem_singleton.1 ht⟩⟩

/-- Carrying out a decision, seen from the consumer that it is about. -/
theorem drive_view (k : Controller ω) {i : ConsumerId} {c : Consumer} (d : Decision)
    (hkeyed : s.Keyed) (hc : s.consumer? i = some c) (f : Option Poll) :
    ∃ (tr : Trace) (o : Outcome), c.Transit s.now d tr o ∧
      Moment.view (k.drive d i s, f) i = (Moment.view (s, f) i).driven k.config c tr o := by
  obtain ⟨tr, o, memory, stuck, log, htransit, habout, heq⟩ := drive_eq k d hc
  refine ⟨tr, o, htransit, ?_⟩
  rw [heq]
  refine View.ext rfl rfl rfl rfl ?_ ?_ rfl ?_
  · show (s.registry.replace i o.consumer).lookup i = some o.consumer
    rw [consumer?_replace, if_pos rfl]
  · show waitingFor i (if o.leaving then _ else _) = if o.leaving then _ else _
    cases o.leaving with
    | false => rfl
    | true =>
      rw [if_pos rfl, if_pos rfl, waitingFor_perm (List.perm_append_singleton _ _),
        waitingFor_cons_of_id_eq]
      · rfl
      · rw [Confirmation.id, Confirmation.start, htransit.client_eq]
        exact hkeyed i c hc
  · show Log.about i log = _
    rw [habout i, if_pos (hkeyed i c hc)]
    rfl

/-- Carrying out a decision cannot be seen from anybody else. -/
theorem drive_view_of_ne (k : Controller ω) {i id : ConsumerId} (d : Decision) (hkeyed : s.Keyed)
    (hid : id ≠ i) (f : Option Poll) :
    Moment.view (k.drive d i s, f) id = Moment.view (s, f) id := by
  cases hc : s.consumer? i with
  | none => rw [drive_eq_run, hc]
  | some c =>
    obtain ⟨tr, o, memory, stuck, log, htransit, habout, heq⟩ := drive_eq k d hc
    have hne : c.client.id ≠ id := fun h => hid (h.symm.trans (hkeyed i c hc))
    rw [heq]
    refine View.ext rfl rfl rfl rfl ?_ ?_ rfl ?_
    · show (s.registry.replace i o.consumer).lookup id = s.consumer? id
      rw [consumer?_replace, if_neg fun h => hid h.symm]
    · show waitingFor id (if o.leaving then _ else _) = waitingFor id s.confirmations
      cases o.leaving with
      | false => rfl
      | true =>
        rw [if_pos rfl, waitingFor_perm (List.perm_append_singleton _ _), waitingFor_cons_of_id_ne]
        rw [Confirmation.id, Confirmation.start, htransit.client_eq]
        exact hne
    · show Log.about id log = Log.about id s.log
      rw [habout id, if_neg hne, List.nil_append]

/-- Carrying out a decision is one effect on the consumer that it is about. -/
theorem drive_acts {i : ConsumerId} {d : Decision} (hi : P i) : k.Acts P f s (k.drive d i s) := by
  cases hc : s.consumer? i with
  | none =>
    rw [drive_eq_run, hc]
    exact .refl k P f s
  | some c =>
    refine ⟨.of_step (i := i) (drive_keyed k i d) (fun hkeyed => ⟨hi, ?_⟩)
      fun hkeyed id hid => drive_view_of_ne k d hkeyed hid f, drive_still k i d s⟩
    obtain ⟨tr, o, htransit, hview⟩ := drive_view k d hkeyed hc f
    have heffect : View.Effect k.config i (Moment.view (s, f) i) _ :=
      .drive (show _ = some c from hc) htransit
    exact heffect.congr hview

/-! ### Evaluations -/

theorem follow_acts {i : ConsumerId} (hi : P i) (plan : Plan) :
    ∀ s : State ω, k.Acts P f s (k.follow i plan s) := by
  induction plan with
  | stop => exact fun s => .refl k P f s
  | drive d next ih =>
    intro s
    have hdrive : k.Acts P f s (k.drive d i s) := drive_acts hi
    rw [follow_drive]
    cases (k.drive d i s).consumer? i with
    | none => exact hdrive
    | some c => exact hdrive.trans (ih c _)

theorem evaluate_acts {i : ConsumerId} (trigger : Trigger) (hi : P i) :
    k.Acts P f s (k.evaluate trigger i s) := by
  rw [evaluate_outside]
  cases s.consumer? i with
  | none => exact .refl k P f s
  | some c =>
    have hasked : k.Acts P f s
        { s.happen (some i) (.evaluation k.handler.name trigger c s.policy.current) with
          memory := (k.handler.plan s.memory trigger c s.policy.current).2 } :=
      (happen_acts rfl s f).trans (remember_acts _ _ f)
    exact hasked.trans (follow_acts hi _ _)

/-! ### Changes of what a consumer consumes -/

/-- A change that is accepted is one step of the consumer. -/
theorem put_acts {i : ConsumerId} {c c' : Consumer} {change : Change} (hi : P i)
    (hc : s.consumer? i = some c) (happly : c.apply change = .ok c') :
    k.Acts P f s (s.put i c') := by
  obtain ⟨mode, topics, assigned, hframe, -⟩ := Consumer.apply_frame happly
  have hclient : c'.client = c.client := by rw [hframe]
  refine ⟨.of_step (i := i) ?_ ?_ ?_, .of_eq rfl rfl rfl⟩
  · intro hkeyed id c₁ hc₁
    rw [State.consumer?_put] at hc₁
    by_cases hid : i = id
    · rw [if_pos hid] at hc₁
      cases hc₁
      rw [hclient, ← hid]
      exact hkeyed i c hc
    · rw [if_neg hid] at hc₁
      exact hkeyed id c₁ hc₁
  · intro _
    have heffect : View.Effect k.config i (Moment.view (s, f) i) _ :=
      .revise (show _ = some c from hc) happly
    refine ⟨hi, heffect.congr (View.ext rfl rfl rfl rfl ?_ rfl rfl rfl)⟩
    exact (State.consumer?_put s i i c').trans (if_pos rfl)
  · intro _ id hid
    refine View.ext rfl rfl rfl rfl ?_ rfl rfl rfl
    exact (State.consumer?_put s i id c').trans (if_neg fun h => hid h.symm)

/-- Of two puts only the second one can be seen. -/
theorem view_put_put (s : State ω) (f : Option Poll) (i id : ConsumerId) (c c' : Consumer) :
    Moment.view ((s.put i c).put i c', f) id = Moment.view (s.put i c', f) id := by
  refine View.ext rfl rfl rfl rfl ?_ rfl rfl rfl
  show ((s.put i c).put i c').consumer? id = (s.put i c').consumer? id
  rw [State.consumer?_put, State.consumer?_put, State.consumer?_put]
  by_cases hid : i = id
  · rw [if_pos hid, if_pos hid]
  · rw [if_neg hid, if_neg hid, if_neg hid]

/-- Putting the registered consumer in its own place cannot be seen. -/
theorem view_put_self {i : ConsumerId} {c : Consumer} (hc : s.consumer? i = some c)
    (f : Option Poll) (id : ConsumerId) :
    Moment.view (s.put i c, f) id = Moment.view (s, f) id := by
  refine View.ext rfl rfl rfl rfl ?_ rfl rfl rfl
  show (s.put i c).consumer? id = s.consumer? id
  rw [State.consumer?_put]
  by_cases hid : i = id
  · rw [if_pos hid, ← hid, hc]
  · rw [if_neg hid]

theorem consumer?_put_self (s : State ω) (i : ConsumerId) (c : Consumer) :
    (s.put i c).consumer? i = some c :=
  (State.consumer?_put s i i c).trans (if_pos rfl)

theorem put_replay_acts {i : ConsumerId} (hi : P i) (changes : List Change) :
    ∀ {s : State ω} {c : Consumer}, s.consumer? i = some c →
      k.Acts P f s (s.put i (c.replay changes).1) := by
  induction changes with
  | nil =>
    intro s c hc
    exact .of_view_eq (view_put_self hc f) rfl rfl
  | cons change rest ih =>
    intro s c hc
    rw [Consumer.replay]
    cases happly : c.apply change with
    | error e => exact ih hc
    | ok c₁ =>
      have hput : k.Acts P f s (s.put i c₁) := put_acts hi hc happly
      have hrest := ih (consumer?_put_self s i c₁)
      exact (hput.trans hrest).trans
        (.of_view_eq (fun id => (view_put_put s f i id _ _).symm) rfl rfl)

theorem replay_acts {i : ConsumerId} (hi : P i) (changes : List Change) :
    k.Acts P f s (replay i changes s) := by
  rw [replay]
  cases hc : s.consumer? i with
  | none => exact .refl k P f s
  | some c =>
    -- the reports about changes that did not fit cannot be seen
    refine (put_replay_acts hi changes hc).trans (.foldl _ (fun r _ s => ?_) _)
    cases r with
    | error e => exact report_acts i _ s f
    | ok => exact .refl k P f s

theorem drain_acts (i : ConsumerId) (s : State ω) (f : Option Poll) :
    k.Acts P f s (drain i s).2 :=
  .of_view_eq (fun _ => rfl) rfl rfl

/-! ### Coming and going -/

/-- Registering a client is one step of its identity. -/
theorem register_acts {client : Client} {c : Consumer} {registry : Registry Consumer}
    (hi : P client.id) (hwrap : Consumer.wrap client = .ok c)
    (hregister : s.registry.register client.id c = (none, registry)) :
    k.Acts P f s { s with registry } := by
  have hfree : s.consumer? client.id = none := by
    show s.registry.lookup client.id = none
    rw [Registry.register] at hregister
    cases hlookup : s.registry.lookup client.id with
    | none => rfl
    | some present => rw [hlookup] at hregister; cases hregister
  have hlookup : ∀ id, registry.lookup id = if client.id = id then some c else s.consumer? id := by
    intro id
    have h := Registry.lookup_register s.registry client.id id c
    rw [hregister, show s.registry.lookup client.id = none from hfree] at h
    exact h
  refine ⟨.of_step (i := client.id) ?_ ?_ ?_, .of_eq rfl rfl rfl⟩
  · intro hkeyed id c₁ hc₁
    change registry.lookup id = some c₁ at hc₁
    rw [hlookup] at hc₁
    by_cases hid : client.id = id
    · rw [if_pos hid] at hc₁
      cases hc₁
      rw [Consumer.client_of_wrap hwrap, hid]
    · rw [if_neg hid] at hc₁
      exact hkeyed id c₁ hc₁
  · intro _
    have heffect : View.Effect k.config client.id (Moment.view (s, f) client.id) _ :=
      .register hfree rfl hwrap
    refine ⟨hi, heffect.congr (View.ext rfl rfl rfl rfl ?_ rfl rfl rfl)⟩
    exact (hlookup client.id).trans (if_pos rfl)
  · intro _ id hid
    refine View.ext rfl rfl rfl rfl ?_ rfl rfl rfl
    exact (hlookup id).trans (if_neg fun h => hid h.symm)

theorem start_acts {client : Client} (hi : P client.id) : k.Acts P f s (k.start client s) := by
  rw [start_outside]
  cases hwrap : Consumer.wrap client with
  | error e => exact report_acts _ _ s f
  | ok c =>
    dsimp only
    rcases hregister : s.registry.register client.id c with ⟨present, registry⟩
    cases present with
    | some present =>
      have hreport : k.Acts P f s (s.report client.id .startedTwice) := report_acts _ _ s f
      exact hreport.trans (evaluate_acts _ hi)
    | none =>
      have hdrained : k.Acts P f s (drain client.id { s with registry }).2 :=
        (register_acts hi hwrap hregister).trans (drain_acts _ _ f)
      have hreplayed := hdrained.trans (replay_acts hi
        ((drain client.id { s with registry }).1.getD []))
      have hreported := hreplayed.trans (report_acts client.id (.started c.label) _ f)
      exact hreported.trans (evaluate_acts _ hi)

/-- Removing a consumer is one step of its identity. -/
theorem remove_acts {i : ConsumerId} {c : Consumer} (hi : P i) (hc : s.consumer? i = some c) :
    k.Acts P f s { s with
      registry := (s.registry.remove i).2, departed := s.departedWith i c } := by
  refine ⟨.of_step (i := i) ?_ ?_ ?_, .of_eq rfl rfl rfl⟩
  · intro hkeyed id c₁ hc₁
    change (s.registry.remove i).2.lookup id = some c₁ at hc₁
    rw [Registry.lookup_remove] at hc₁
    by_cases hid : i = id
    · rw [if_pos hid] at hc₁
      cases hc₁
    · rw [if_neg hid] at hc₁
      exact hkeyed id c₁ hc₁
  · intro _
    have heffect : View.Effect k.config i (Moment.view (s, f) i) _ :=
      .remove (show _ = some c from hc)
    refine ⟨hi, heffect.congr (View.ext rfl rfl rfl ?_ ?_ rfl rfl rfl)⟩
    · exact (s.length_departedWith i i c).trans (if_pos rfl)
    · exact (Registry.lookup_remove s.registry i i).trans (if_pos rfl)
  · intro _ id hid
    have hne : ¬i = id := fun h => hid h.symm
    refine View.ext rfl rfl rfl ?_ ?_ rfl rfl rfl
    · exact (s.length_departedWith i id c).trans (if_neg hne)
    · exact (Registry.lookup_remove s.registry i id).trans (if_neg hne)

theorem shutdown_acts {client : Client} (hi : P client.id) :
    k.Acts P f s (shutdown client s).2 := by
  have hdrained : k.Acts P f s (drain client.id s).2 := drain_acts _ s f
  rw [shutdown_outside]
  dsimp only
  cases hc : s.consumer? client.id with
  | none =>
    rw [show (drain client.id s).2.registry.remove client.id
      = (none, ((drain client.id s).2.registry.remove client.id).2) from Prod.ext hc rfl]
    exact hdrained.trans (report_acts _ _ _ f)
  | some c =>
    rw [show (drain client.id s).2.registry.remove client.id
      = (some c, ((drain client.id s).2.registry.remove client.id).2) from Prod.ext hc rfl]
    exact (hdrained.trans (remove_acts hi hc)).trans (report_acts _ _ _ f)

/-! ### Hooks of a client -/

/-- A rival of a hook registers its client, if nobody else was faster. -/
theorem letIn_acts {rival : Rival} (hi : P rival.client.id) : k.Acts P f s (letIn s rival) := by
  rw [letIn]
  cases hwrap : Consumer.wrap rival.client with
  | error e => exact .refl k P f s
  | ok c =>
    dsimp only
    have hregistered :
        k.Acts P f s { s with registry := (s.registry.register rival.client.id c).2 } := by
      rcases hregister : s.registry.register rival.client.id c with ⟨present, registry⟩
      cases present with
      | none => exact register_acts hi hwrap hregister
      | some present =>
        rw [Registry.register] at hregister
        cases hlookup : s.registry.lookup rival.client.id with
        | none => rw [hlookup] at hregister; cases hregister
        | some _ => rw [hlookup] at hregister; cases hregister; exact .refl k P f s
    split
    · exact hregistered.trans (drain_acts _ _ f)
    · exact hregistered

theorem letRivalsIn_acts {i : ConsumerId} (hi : P i) : k.Acts P f s (letRivalsIn i s) := by
  rw [letRivalsIn, List.partition_eq_filter_filter]
  dsimp only
  have hdue : k.Acts P f s
      { s with rivals := s.rivals.filter (not ∘ fun rival => decide (rival.client.id = i)) } :=
    .of_view_eq (fun _ => rfl) rfl rfl
  refine hdue.trans (.foldl _ (fun r hr s => letIn_acts ?_) _)
  have hid : r.client.id = i := by simpa using (List.mem_filter.1 hr).2
  exact hid ▸ hi

theorem change_acts {i : ConsumerId} {c : Change} (hi : P i) : k.Acts P f s (k.change i c s) := by
  rw [change_outside]
  cases hc : s.consumer? i with
  | some consumer =>
    dsimp only
    split
    · exact report_acts _ _ s f
    · cases happly : consumer.apply c with
      | error e => exact report_acts _ _ s f
      | ok consumer' =>
        have hput : k.Acts P f s (s.put i consumer') := put_acts hi hc happly
        exact hput.trans (evaluate_acts _ hi)
  | none =>
    dsimp only
    have hrecorded : k.Acts P f s { s with cache := s.cache.record i c } :=
      .of_view_eq (fun _ => rfl) rfl rfl
    have hcached := hrecorded.trans (report_acts i (.changeCached c.trigger) _ f)
    have hrivals := hcached.trans (letRivalsIn_acts hi)
    split
    · exact hrivals
    · split
      · rename_i heq
        have hdrain := hrivals.trans (drain_acts i _ f)
        rw [heq] at hdrain
        exact hdrain
      · rename_i changes s₂ heq
        have hdrain := hrivals.trans (drain_acts i _ f)
        rw [heq] at hdrain
        exact (hdrain.trans (replay_acts hi changes)).trans (evaluate_acts _ hi)

theorem lifecycle_acts {client : Client} {e : LifecycleEvent} (hi : P client.id) :
    k.Acts P f s (k.lifecycle client e s) := by
  cases e with
  | start => exact start_acts hi
  | subscribe topic =>
    rw [lifecycle_subscribe]
    split
    · exact report_acts _ _ s f
    · exact change_acts hi
  | unsubscribe topic =>
    rw [lifecycle_unsubscribe]
    split
    · exact report_acts _ _ s f
    · exact change_acts hi
  | assign queues =>
    rw [lifecycle_assign]
    split
    · exact report_acts _ _ s f
    · exact change_acts hi
  | shutdown => exact shutdown_acts hi

/-! ### Policies -/

theorem revisit_acts {i : ConsumerId} (hi : P i) : k.Acts P f s (k.revisit s i) := by
  rw [revisit_outside]
  split
  · exact .refl k P f s
  · split
    · exact report_acts _ _ s f
    · exact evaluate_acts _ hi

theorem sweep_acts (ids : List ConsumerId) (hall : ∀ i ∈ ids, P i) (s : State ω) :
    k.Acts P f s (k.sweep ids s) :=
  .foldl ids (fun i hi _ => revisit_acts (hall i hi)) s

/-- Putting a policy in force is one effect on every identity. -/
theorem install_acts (hall : ∀ i, P i) (p : Policy) : k.Acts P f s (install p s) := by
  have hhappen : k.Acts P f s (s.happen none (.notice (.policyUpdated p.normalized.enabled))) :=
    happen_acts rfl s f
  exact hhappen.trans ⟨.of_steps (fun hkeyed => hkeyed) fun id =>
    ⟨hall id, .install p.normalized⟩, .of_eq rfl rfl rfl⟩

theorem updatePolicy_acts (hall : ∀ i, P i) (p : Policy) : k.Acts P f s (k.updatePolicy p s) := by
  have hinstall : k.Acts P f s (install p s) := install_acts hall p
  have hstarted : k.Acts P f s
      ((install p s).happen none (.notice (.sweepStarted (install p s).registry.size))) :=
    hinstall.trans (happen_acts rfl _ f)
  have hcounted : k.Acts P f s
      { (install p s).happen none (.notice (.sweepStarted (install p s).registry.size)) with
        sweeps := (install p s).sweeps + 1 } :=
    hstarted.trans (.of_view_eq (fun _ => rfl) rfl rfl)
  exact hcounted.trans (sweep_acts _ (fun i _ => hall i) _)

/-! ### Any hook -/

/-- What is delivered takes effect by effects on the identities that it is about. -/
theorem deliver_acts (k : Controller ω) (h : Hook) (within : Option Confirmation)
    (f : Option Poll) (s : State ω) :
    k.Acts (fun i => (Delivery.hook h within).concerns i) f s (k.deliver s h) := by
  cases h with
  | lifecycle client e => exact lifecycle_acts rfl
  | policyUpdate p => exact updatePolicy_acts (fun _ => trivial) p
  | policyDelivery p => exact updatePolicy_acts (fun _ => trivial) p
  | policyDocument text =>
    rw [deliver_policyDocument, updatePolicyDocument_outside]
    cases hdoc : Policy.ofDocument text with
    | error e => exact .refl k _ f s
    | ok p => exact updatePolicy_acts (fun _ => ⟨p, hdoc⟩) p

/-! ### Receiving -/

/-- Seen from every identity, one moment leads to another by steps. -/
abbrev Leads (k : Controller ω) (m m' : Moment ω) : Prop :=
  Moment.Along (View.Step k.config) m m'

/-- A delivery and its effects are one step.  When it comes from inside a poll, it has to be
recorded as coming from there. -/
theorem Acts.leads {d : Delivery} (hwithin : ∀ p, f = some p → d.within = some p.task)
    (h : k.Acts (fun i => d.concerns i) f { s with received := d :: s.received } s') :
    k.Leads (s, f) (s', f) := by
  intro hkeyed
  obtain ⟨hkeyed', heffects⟩ := h.along hkeyed
  refine ⟨hkeyed', fun id => .single (.deliver d (fun p hp => ?_) (heffects id))⟩
  exact hwithin p (Option.mem_filter_iff.1 hp).1

theorem receive_leads (k : Controller ω) {within : Option Confirmation}
    (hwithin : ∀ p, f = some p → within = some p.task) (s : State ω) (h : Hook) :
    k.Leads (s, f) (k.receive within s h, f) :=
  Acts.leads (d := .hook h within) hwithin (deliver_acts k h within f _)

/-- What is received has effects on whoever it is about, and is on record from the beginning. -/
theorem receive_effects (k : Controller ω) (within : Option Confirmation) (h : Hook)
    (hkeyed : s.Keyed) (id : ConsumerId) :
    View.Effects k.config ((Delivery.hook h within).concerns id) id
      { Moment.view (s, f) id with received := .hook h within :: s.received }
      (Moment.view (k.receive within s h, f) id) :=
  have hacts := deliver_acts k h within f { s with received := .hook h within :: s.received }
  (hacts.along hkeyed).2 id

/-- And so has what an operator orders. -/
theorem order_effects (k : Controller ω) (i : ConsumerId) (d : Decision) (hkeyed : s.Keyed)
    (id : ConsumerId) :
    View.Effects k.config ((Delivery.order i d).concerns id) id
      { Moment.view (s, f) id with received := .order i d :: s.received }
      (Moment.view (k.drive d i { s with received := .order i d :: s.received }, f) id) :=
  have hacts : k.Acts (fun j => (Delivery.order i d).concerns j) f
      { s with received := .order i d :: s.received } (k.drive d i _) := drive_acts rfl
  (hacts.along hkeyed).2 id

theorem receive_still (k : Controller ω) (within : Option Confirmation) (s : State ω) (h : Hook) :
    k.Still s (k.receive within s h) :=
  have hstill :=
    (deliver_acts k h within none { s with received := .hook h within :: s.received }).still
  ⟨hstill.now, hstill.waiting, hstill.stuck⟩

theorem receiveAll_still (k : Controller ω) (within : Option Confirmation) (hooks : List Hook) :
    ∀ s : State ω, k.Still s (hooks.foldl (k.receive within) s) := by
  induction hooks with
  | nil => exact fun s => .of_eq rfl rfl rfl
  | cons h hs ih => exact fun s => (receive_still k within s h).trans (ih _)

end Controller

end Embargo
