import Embargo.Proofs.Portrait
import Embargo.Proofs.Mirroring

/-!
# Confirmations of one consumer

A confirmation concerns one consumer, and so does everything that its client delivers while it is
asked for members.  Confirmations of all consumers wait in one list, from which the next one is
taken; what waits for one consumer is taken in the same order as if nothing else waited.

* `ask_alike`, `isGone_alike`, `conclude_alike`, `proceed_alike` — a poll does the same wherever its
  consumer looks the same, and touches nobody else (`…_onlyTouches`);
* `Confirmation.takeNext_filter` — what goes on first of all goes on first of some;
* `State.Steady` — a state in which nothing that waits is late;
* `State.alone`, `State.OnlyAwaits` — a state in which one consumer waits, and nobody else;
* `Controller.goOn_alike` — **a confirmation goes on in the same way wherever its consumer looks the
  same**, at whatever time.
-/

namespace Embargo

variable {σ : Type}

/-- What a client delivers while it is asked for members is meant for itself alone. -/
theorem Environment.Discreet.isFor {each : Environment σ} (hdiscreet : each.Discreet)
    {own own' : σ} {now : Nat} {client : Client} {topic group : String} {hooks : List Hook}
    (hquery : each.query own now client topic group = (.ok hooks, own')) {h : Hook}
    (hmem : h ∈ hooks) (id : ConsumerId) : h.isFor id = decide (client.id = id) := by
  obtain ⟨other, e, rfl, hid⟩ := hdiscreet _ _ _ _ _ _ _ hquery h hmem
  rw [Hook.isFor, hid]

namespace Controller

variable {config : Config} {each : Environment σ} {k k' : Controller (ConsumerId → σ)}
  {s s' r : State (ConsumerId → σ)} {t : Confirmation} {id : ConsumerId}

/-! ### Polls -/

theorem Impartial.query_eq (hk : k.Impartial config each) (t : Confirmation) (topic : String)
    (s : State (ConsumerId → σ)) :
    k.environment.query s.memory s.now t.client topic t.group =
      ((each.query (s.memory t.id) s.now t.client topic t.group).1,
        (s.remember t.id (each.query (s.memory t.id) s.now t.client topic t.group).2).memory) := by
  rw [hk.separate]
  rfl

theorem receiveAll_onlyTouches (hk : k.Impartial config each) (within : Option Confirmation)
    (hooks : List Hook) (hown : ∀ h ∈ hooks, ∀ id, id ≠ t.id → h.isFor id = false) :
    ∀ {s : State (ConsumerId → σ)}, s.Tidy →
      s.OnlyTouches t.id (hooks.foldl (k.receive within) s) := by
  induction hooks with
  | nil => exact fun {s} _ => .refl t.id s
  | cons h hs ih =>
    intro s htidy
    have hfirst : s.OnlyTouches t.id (k.receive within s h) := fun id hid =>
      portrait_receive hk within (hown h List.mem_cons_self id hid) htidy
    exact hfirst.trans (ih (fun h' hmem => hown h' (List.mem_cons_of_mem h hmem))
      (receive_tidy k within h htidy))

theorem receiveAll_alike (hk : k.Impartial config each) (hk' : k'.Impartial config each)
    (within : Option Confirmation) (hooks : List Hook) (hown : ∀ h ∈ hooks, h.isFor id = true) :
    ∀ {s r : State (ConsumerId → σ)}, s.Tidy → r.Tidy → s.Alike id r →
      (hooks.foldl (k.receive within) s).Alike id (hooks.foldl (k'.receive within) r) := by
  induction hooks with
  | nil => exact fun _ _ halike => halike
  | cons h hs ih =>
    intro s r htidy htidy' halike
    exact ih (fun h' hmem => hown h' (List.mem_cons_of_mem h hmem)) (receive_tidy k within h htidy)
      (receive_tidy k' within h htidy')
      (receive_alike hk hk' within within (hown h List.mem_cons_self) htidy htidy' halike)

theorem Impartial.answered_eq (hk : k.Impartial config each) (t : Confirmation) (topic : String)
    (s : State (ConsumerId → σ)) :
    k.answered t topic s =
      let (members, own) := each.members (s.memory t.id) s.now t.client topic t.group
      (.ok members, (s.remember t.id own).happen (some t.id)
        (.listing t.client t.life topic t.group members)) := by
  rw [answered, hk.separate]
  rfl

theorem answered_onlyTouches (hk : k.Impartial config each) (t : Confirmation) (topic : String)
    (s : State (ConsumerId → σ)) : s.OnlyTouches t.id (k.answered t topic s).2 := by
  rw [hk.answered_eq]
  exact (s.remember_onlyTouches t.id _).trans (State.happen_onlyTouches _ _ _)

theorem answered_alike (hk : k.Impartial config each) (hk' : k'.Impartial config each)
    (topic : String) (h : s.Alike t.id r) :
    (k'.answered t topic r).1 = (k.answered t topic s).1 ∧
      (k.answered t topic s).2.Alike t.id (k'.answered t topic r).2 := by
  rw [hk.answered_eq, hk'.answered_eq, h.memory, h.now]
  exact ⟨rfl, (h.remember _).happen _⟩

theorem ask_onlyTouches (hk : k.Impartial config each) (t : Confirmation) (topic : String)
    (hs : s.Tidy) : s.OnlyTouches t.id (k.ask t topic s).2 := by
  have hquery := hk.query_eq t topic s
  rcases hown : each.query (s.memory t.id) s.now t.client topic t.group with ⟨result, own⟩
  rw [hown] at hquery
  have hremembered := s.remember_onlyTouches t.id own
  cases result with
  | error e =>
    rw [ask_of_refused hquery]
    exact hremembered.trans (State.happen_onlyTouches _ _ _)
  | ok hooks =>
    rw [ask_of_accepted hquery]
    have hasked : s.OnlyTouches t.id (accepted t topic (s.remember t.id own).memory s) :=
      hremembered.trans (State.happen_onlyTouches _ _ _)
    have htidy : (accepted t topic (s.remember t.id own).memory s).Tidy := hs.of_eq rfl rfl
    have hothers : ∀ h ∈ hooks, ∀ id, id ≠ t.id → h.isFor id = false := fun h hmem id hid =>
      (hk.discreet.isFor hown hmem id).trans (decide_eq_false fun heq => hid heq.symm)
    exact (hasked.trans (receiveAll_onlyTouches hk (some t) hooks hothers htidy)).trans
      (answered_onlyTouches hk t topic _)

theorem ask_alike (hk : k.Impartial config each) (hk' : k'.Impartial config each)
    (topic : String) (hs : s.Tidy) (hr : r.Tidy) (h : s.Alike t.id r) :
    (k'.ask t topic r).1 = (k.ask t topic s).1 ∧
      (k.ask t topic s).2.Alike t.id (k'.ask t topic r).2 := by
  have hquery := hk.query_eq t topic s
  have hquery' := hk'.query_eq t topic r
  rw [h.memory, h.now] at hquery'
  rcases hown : each.query (s.memory t.id) s.now t.client topic t.group with ⟨result, own⟩
  rw [hown] at hquery hquery'
  rw [← h.now] at hquery'
  cases result with
  | error e =>
    rw [ask_of_refused hquery, ask_of_refused hquery']
    exact ⟨rfl, (h.remember own).happen _⟩
  | ok hooks =>
    rw [ask_of_accepted hquery, ask_of_accepted hquery']
    have hasked : (accepted t topic (s.remember t.id own).memory s).Alike t.id
        (accepted t topic (r.remember t.id own).memory r) := (h.remember own).happen _
    have hfor : ∀ h ∈ hooks, h.isFor t.id = true := fun h hmem =>
      (hk.discreet.isFor hown hmem t.id).trans (decide_eq_true rfl)
    exact answered_alike hk hk' topic
      (receiveAll_alike hk hk' (some t) hooks hfor (hs.of_eq rfl rfl) (hr.of_eq rfl rfl) hasked)

theorem ask_tidy (k : Controller (ConsumerId → σ)) (t : Confirmation) (topic : String)
    (hs : s.Tidy) : (k.ask t topic s).2.Tidy :=
  ((Kept.tidy k).keptBy.ask trivial topic hs hs).2

theorem isGone_tidy (k : Controller (ConsumerId → σ)) (t : Confirmation) (topics : List String)
    (hs : s.Tidy) : (k.isGone t topics s).2.Tidy :=
  ((Kept.tidy k).keptBy.isGone trivial topics hs hs).2

theorem isGone_onlyTouches (hk : k.Impartial config each) (t : Confirmation)
    (topics : List String) : ∀ {s : State (ConsumerId → σ)}, s.Tidy →
      s.OnlyTouches t.id (k.isGone t topics s).2 := by
  induction topics with
  | nil => exact fun {s} _ => .refl t.id s
  | cons topic topics ih =>
    intro s hs
    have hasked := ask_onlyTouches hk t topic hs
    have htidy := ask_tidy k t topic hs
    rw [isGone]
    rcases hask : k.ask t topic s with ⟨result, s₁⟩
    rw [hask] at hasked htidy
    cases result with
    | error e => exact hasked.trans (s₁.report_onlyTouches t.id _)
    | ok members =>
      dsimp only
      split
      · exact hasked
      · exact hasked.trans (ih htidy)

theorem isGone_alike (hk : k.Impartial config each) (hk' : k'.Impartial config each)
    (topics : List String) : ∀ {s r : State (ConsumerId → σ)}, s.Tidy → r.Tidy → s.Alike t.id r →
      (k'.isGone t topics r).1 = (k.isGone t topics s).1 ∧
        (k.isGone t topics s).2.Alike t.id (k'.isGone t topics r).2 := by
  induction topics with
  | nil => exact fun _ _ halike => ⟨rfl, halike⟩
  | cons topic topics ih =>
    intro s r hs hr halike
    obtain ⟨hresult, hasked⟩ := ask_alike hk hk' topic hs hr halike
    have htidy := ask_tidy k t topic hs
    have htidy' := ask_tidy k' t topic hr
    rw [isGone, isGone]
    rcases hask : k.ask t topic s with ⟨result, s₁⟩
    rcases hask' : k'.ask t topic r with ⟨result', r₁⟩
    rw [hask, hask'] at hresult hasked
    rw [hask] at htidy
    rw [hask'] at htidy'
    obtain rfl : result = result' := hresult.symm
    cases result with
    | error e => exact ⟨rfl, hasked.report _⟩
    | ok members =>
      dsimp only
      split
      · exact ⟨rfl, hasked⟩
      · exact ih htidy htidy' hasked

/-! ### Ends of polls -/

theorem subject?_eq_of_alike (h : s.Alike t.id r) : subject? t r = subject? t s := by
  rw [subject?_eq, subject?_eq, h.consumer?, h.life]

/-- The way back concerns a consumer and its client, and nothing else. -/
theorem conclude_alone (hk : k.Impartial config each) {c : Consumer}
    (hlive : subject? t s = some c) :
    k.conclude t false s =
      let (c', own, new) := (c.rollBack s.now).run each s.now ⟨t.client, t.life⟩ (s.memory t.id) []
      ((s.report t.id (.confirmationTimedOut c.label config.maxRetries.toNat)).remember t.id
        own).amend t.id c' new := by
  rw [conclude_eq_run, hlive, hk.config_eq, hk.separate]
  dsimp only
  rw [if_neg Bool.false_ne_true, Program.run_separate, Program.waits_of_prompt hk.prompt.separate,
    Bool.or_false]
  rfl

theorem conclude_onlyTouches (hk : k.Impartial config each) (t : Confirmation) (gone : Bool)
    (s : State (ConsumerId → σ)) : s.OnlyTouches t.id (k.conclude t gone s) := by
  cases hlive : subject? t s with
  | none =>
    rw [conclude_eq_run, hlive]
    exact s.report_onlyTouches t.id _
  | some c =>
    cases gone with
    | true =>
      rw [conclude_eq_run, hlive]
      exact (s.put_onlyTouches t.id _).trans (State.report_onlyTouches _ _ _)
    | false =>
      rw [conclude_alone hk hlive]
      have hwho := Program.run_who each s.now ⟨t.client, t.life⟩ (c.rollBack s.now) (s.memory t.id)
      exact ((s.report_onlyTouches t.id _).trans (State.remember_onlyTouches _ _ _)).trans
        (State.amend_onlyTouches _ _ hwho)

theorem conclude_alike (hk : k.Impartial config each) (hk' : k'.Impartial config each)
    (gone : Bool) (h : s.Alike t.id r) :
    (k.conclude t gone s).Alike t.id (k'.conclude t gone r) := by
  cases hlive : subject? t s with
  | none =>
    rw [conclude_eq_run, conclude_eq_run, subject?_eq_of_alike h, hlive]
    exact h.report _
  | some c =>
    have hlive' := (subject?_eq_of_alike h).trans hlive
    cases gone with
    | true =>
      rw [conclude_eq_run, conclude_eq_run, hlive, hlive', h.now]
      exact (h.put _).report _
    | false =>
      rw [conclude_alone hk hlive, conclude_alone hk' hlive', h.now, h.memory]
      exact ((h.report _).remember _).amend _ _

/-! ### Steps of confirmations -/

/-- What is inserted behind the first part of a list. -/
theorem insertIdx_length_append {α : Type} (l m : List α) (a : α) :
    (l ++ m).insertIdx l.length a = l ++ a :: m := by
  induction l with
  | nil => rfl
  | cons b l ih => exact congrArg (b :: ·) ih

/-- A confirmation that waits again touches nobody else. -/
theorem requeue_onlyTouches {started : List Confirmation} {u : Confirmation} (hu : u.id = t.id)
    (hs' : s'.confirmations = s.confirmations ++ started) :
    s'.OnlyTouches t.id
      { s' with confirmations := s'.confirmations.insertIdx s.confirmations.length u } := by
  intro id hid
  refine Portrait.ext rfl rfl rfl rfl ?_ rfl rfl
  dsimp only [State.portrait]
  rw [hs', insertIdx_length_append, List.filter_append, List.filter_append, List.filter_cons_of_neg]
  rw [hu, decide_eq_true_eq]
  exact fun h => hid h.symm

/-- It waits behind the confirmations of its consumer that were waiting, and before those that have
been started in the meantime. -/
theorem requeue_alike {s₁ r₁ : State (ConsumerId → σ)} {started started' : List Confirmation}
    (u : Confirmation) (h : s.Alike id r) (h₁ : s₁.Alike id r₁)
    (hs₁ : s₁.confirmations = s.confirmations ++ started)
    (hr₁ : r₁.confirmations = r.confirmations ++ started') :
    State.Alike id
      { s₁ with confirmations := s₁.confirmations.insertIdx s.confirmations.length u }
      { r₁ with confirmations := r₁.confirmations.insertIdx r.confirmations.length u } := by
  have hwaiting := h₁.waiting
  rw [hs₁, hr₁, List.filter_append, List.filter_append, h.waiting] at hwaiting
  have hstarted := List.append_cancel_left hwaiting
  refine ⟨h₁.now, Portrait.ext h₁.policy h₁.consumer? h₁.life h₁.cached ?_ h₁.memory h₁.record⟩
  dsimp only [State.portrait]
  rw [hs₁, hr₁, insertIdx_length_append, insertIdx_length_append, List.filter_append,
    List.filter_append, h.waiting, List.filter_cons, List.filter_cons, hstarted]

theorem proceed_tidy (k : Controller (ConsumerId → σ)) (t : Confirmation) (hs : s.Tidy) :
    (k.proceed t s).Tidy := by
  have hconcluded : ∀ {s : State (ConsumerId → σ)} (gone : Bool), s.Tidy →
      (k.conclude t gone s).Tidy := fun gone hs => (conclude_tended k t gone _).tidy hs
  rw [proceed]
  split
  · exact hconcluded false hs
  · cases subject? t s with
    | none => exact hs.of_eq rfl rfl
    | some c =>
      have htidy := isGone_tidy k t c.topics.toList hs
      dsimp only
      rcases hgone : k.isGone t c.topics.toList s with ⟨gone, s₁⟩
      rw [hgone] at htidy
      cases gone with
      | true => exact hconcluded true htidy
      | false =>
        dsimp only
        split
        · exact hconcluded (s := s₁.report _ _) false (htidy.of_eq rfl rfl)
        · exact htidy.of_eq rfl rfl

theorem proceed_onlyTouches (hk : k.Impartial config each) (t : Confirmation) (hs : s.Tidy) :
    s.OnlyTouches t.id (k.proceed t s) := by
  rw [proceed]
  split
  · exact conclude_onlyTouches hk t false s
  · cases subject? t s with
    | none => exact s.report_onlyTouches t.id _
    | some c =>
      have hasked := isGone_onlyTouches hk t c.topics.toList hs
      obtain ⟨-, ⟨started, hwaiting, -⟩, -⟩ := isGone_still k t c.topics.toList s
      dsimp only
      rcases hgone : k.isGone t c.topics.toList s with ⟨gone, s₁⟩
      rw [hgone] at hasked hwaiting
      cases gone with
      | true => exact hasked.trans (conclude_onlyTouches hk t true s₁)
      | false =>
        have hreported := hasked.trans (s₁.report_onlyTouches t.id
          (.stillListed t.client.clientId t.group (t.attempts + 1)))
        dsimp only
        split
        · exact hreported.trans (conclude_onlyTouches hk (t.again k.config s₁.now) false _)
        · exact hreported.trans
            (requeue_onlyTouches (s := s) (u := t.again k.config s₁.now) rfl hwaiting)

/-- **A step of a confirmation does the same wherever its consumer looks the same.** -/
theorem proceed_alike (hk : k.Impartial config each) (hk' : k'.Impartial config each) (hs : s.Tidy)
    (hr : r.Tidy) (h : s.Alike t.id r) : (k.proceed t s).Alike t.id (k'.proceed t r) := by
  rw [proceed, proceed, subject?_eq_of_alike h, hk.config_eq, hk'.config_eq]
  split
  · exact conclude_alike hk hk' false h
  · cases subject? t s with
    | none => exact h.report _
    | some c =>
      obtain ⟨hresult, hasked⟩ := isGone_alike hk hk' c.topics.toList hs hr h
      obtain ⟨-, ⟨started, hwaiting, -⟩, -⟩ := isGone_still k t c.topics.toList s
      obtain ⟨-, ⟨started', hwaiting', -⟩, -⟩ := isGone_still k' t c.topics.toList r
      dsimp only
      rcases hgone : k.isGone t c.topics.toList s with ⟨gone, s₁⟩
      rcases hgone' : k'.isGone t c.topics.toList r with ⟨gone', r₁⟩
      rw [hgone, hgone'] at hresult hasked
      rw [hgone] at hwaiting
      rw [hgone'] at hwaiting'
      obtain rfl : gone = gone' := hresult.symm
      cases gone with
      | true => exact conclude_alike hk hk' true hasked
      | false =>
        have hnow : r₁.now = s₁.now := hasked.now
        have hreported := hasked.report
          (.stillListed t.client.clientId t.group (t.attempts + 1))
        dsimp only
        rw [hnow]
        split
        · exact conclude_alike hk hk' (t := t.again config s₁.now) false hreported
        · exact requeue_alike (t.again config s₁.now) h hreported hwaiting hwaiting'

end Controller

/-! ### Which confirmation goes on first -/

namespace Confirmation

variable {limit limit' : Option Nat} {ts before after rest : List Confirmation} {t : Confirmation}
  {p : Confirmation → Bool}

/-- The one that goes on first waits behind later ones only. -/
theorem takeNext_split (h : takeNext limit ts = some (t, rest)) :
    ∃ before after, ts = before ++ t :: after ∧ rest = before ++ after ∧
      ∀ u ∈ before, t.due < u.due := by
  induction ts generalizing rest with
  | nil => cases h
  | cons u us ih =>
    rw [takeNext] at h
    cases hnext : takeNext limit us with
    | none =>
      rw [hnext] at h
      by_cases hu : limit.all (u.due ≤ ·)
      · simp only [hu, if_true, Option.some.injEq, Prod.mk.injEq] at h
        obtain ⟨rfl, rfl⟩ := h
        exact ⟨[], us, rfl, rfl, fun _ hw => absurd hw List.not_mem_nil⟩
      · simp [hu] at h
    | some next =>
      rw [hnext] at h
      by_cases hlt : next.1.due < u.due
      · simp only [hlt, if_true, Option.some.injEq, Prod.mk.injEq] at h
        obtain ⟨rfl, rfl⟩ := h
        obtain ⟨before, after, rfl, hrest, hlater⟩ := ih hnext
        refine ⟨u :: before, after, rfl, by rw [hrest, List.cons_append], fun w hw => ?_⟩
        rcases List.mem_cons.1 hw with rfl | hw
        · exact hlt
        · exact hlater w hw
      · simp only [hlt, if_false, Option.some.injEq, Prod.mk.injEq] at h
        obtain ⟨rfl, rfl⟩ := h
        exact ⟨[], us, rfl, rfl, fun _ hw => absurd hw List.not_mem_nil⟩

/-- One that waits behind later ones, and that none goes on before, goes on first. -/
theorem takeNext_of_split (hlater : ∀ u ∈ before, t.due < u.due)
    (hafter : ∀ u ∈ after, t.due ≤ u.due) (hlimit : limit.all (t.due ≤ ·) = true) :
    takeNext limit (before ++ t :: after) = some (t, before ++ after) := by
  induction before with
  | nil =>
    rw [List.nil_append, takeNext]
    cases hnext : takeNext limit after with
    | none => exact if_pos hlimit
    | some next =>
      obtain ⟨hperm, -, -⟩ := takeNext_eq_some hnext
      exact if_neg (Nat.not_lt.2 (hafter _ (hperm.mem_iff.2 List.mem_cons_self)))
  | cons u us ih =>
    rw [List.cons_append, takeNext, ih fun w hw => hlater w (List.mem_cons_of_mem u hw)]
    exact if_pos (hlater u List.mem_cons_self)

/-- The one that goes on first does so within any other limit that it meets. -/
theorem takeNext_within (h : takeNext limit ts = some (t, rest))
    (hlimit : limit'.all (t.due ≤ ·) = true) : takeNext limit' ts = some (t, rest) := by
  obtain ⟨-, hmin, -⟩ := takeNext_eq_some h
  obtain ⟨before, after, rfl, rfl, hlater⟩ := takeNext_split h
  exact takeNext_of_split hlater (fun u hu =>
    hmin u (List.mem_append_right before (List.mem_cons_of_mem t hu))) hlimit

/-- When none of many goes on within the limit, none of some does. -/
theorem takeNext_filter_eq_none (h : takeNext limit ts = none) :
    takeNext limit (ts.filter p) = none :=
  takeNext_eq_none.2 fun t ht => takeNext_eq_none.1 h t (List.mem_filter.1 ht).1

/-- The one that goes on first of many goes on first of those among which it is. -/
theorem takeNext_filter (h : takeNext limit ts = some (t, rest)) (ht : p t = true) :
    takeNext limit (ts.filter p) = some (t, rest.filter p) := by
  obtain ⟨-, hmin, hlimit⟩ := takeNext_eq_some h
  obtain ⟨before, after, rfl, rfl, hlater⟩ := takeNext_split h
  rw [List.filter_append, List.filter_cons_of_pos ht, List.filter_append]
  refine takeNext_of_split (fun u hu => hlater u (List.mem_filter.1 hu).1) (fun u hu => ?_) hlimit
  exact hmin u (List.mem_append_right before (List.mem_cons_of_mem t (List.mem_filter.1 hu).1))

/-- Taking one out leaves the others in their order. -/
theorem filter_takeNext (h : takeNext limit ts = some (t, rest)) (ht : p t = false) :
    rest.filter p = ts.filter p := by
  obtain ⟨before, after, rfl, rfl, -⟩ := takeNext_split h
  rw [List.filter_append, List.filter_append, List.filter_cons_of_neg (by simp [ht])]

end Confirmation

/-! ### Steps in time -/

namespace State

/-- A tidy state in which nothing that waits is late. -/
structure Steady (s : State (ConsumerId → σ)) : Prop where
  tidy : s.Tidy
  timely : ∀ t ∈ s.confirmations, s.now ≤ t.due

/-- The state in which only the confirmations of one consumer wait. -/
def alone (s : State (ConsumerId → σ)) (id : ConsumerId) : State (ConsumerId → σ) :=
  { s with confirmations := s.confirmations.filter fun t => t.id = id }

variable {s s' r : State (ConsumerId → σ)} {id : ConsumerId}

/-- Nobody but one consumer waits. -/
def OnlyAwaits (id : ConsumerId) (s : State (ConsumerId → σ)) : Prop :=
  ∀ t ∈ s.confirmations, t.id = id

theorem OnlyAwaits.filter_eq (h : s.OnlyAwaits id) :
    s.confirmations.filter (fun t => t.id = id) = s.confirmations :=
  List.filter_eq_self.2 fun t ht => decide_eq_true (h t ht)

/-- Where only one consumer is touched the confirmations of others are those that were waiting. -/
theorem OnlyTouches.mem_confirmations (h : s.OnlyTouches id s') {t : Confirmation}
    (ht : t ∈ s'.confirmations) : t.id = id ∨ t ∈ s.confirmations := by
  by_cases hid : t.id = id
  · exact .inl hid
  · have hwaiting : s'.confirmations.filter (fun u => u.id = t.id) =
        s.confirmations.filter fun u => u.id = t.id := congrArg Portrait.waiting (h t.id hid)
    have hmem : t ∈ s.confirmations.filter fun u => u.id = t.id :=
      hwaiting ▸ List.mem_filter.2 ⟨ht, decide_eq_true rfl⟩
    exact .inr (List.mem_filter.1 hmem).1

theorem OnlyTouches.onlyAwaits (h : s.OnlyTouches id s') (hs : s.OnlyAwaits id) :
    s'.OnlyAwaits id :=
  fun t ht => (h.mem_confirmations ht).elim (fun hid => hid) (hs t)

theorem alone_onlyAwaits (s : State (ConsumerId → σ)) (id : ConsumerId) :
    (s.alone id).OnlyAwaits id :=
  fun _ ht => of_decide_eq_true (List.mem_filter.1 ht).2

theorem portrait_alone (s : State (ConsumerId → σ)) (id : ConsumerId) :
    (s.alone id).portrait id = s.portrait id :=
  Portrait.ext rfl rfl rfl rfl (s.alone_onlyAwaits id).filter_eq rfl rfl

theorem Steady.alone (h : s.Steady) (id : ConsumerId) : (s.alone id).Steady :=
  ⟨h.tidy.of_eq rfl rfl, fun t ht => h.timely t (List.mem_filter.1 ht).1⟩

end State

namespace Controller

variable {config : Config} {each : Environment σ} {k k' : Controller (ConsumerId → σ)}
  {s s' r : State (ConsumerId → σ)} {t : Confirmation} {id : ConsumerId} {limit : Option Nat}
  {waiting waiting' : List Confirmation}

/-- What has just been started is not late. -/
theorem le_due_start (config : Config) (now life : Nat) (c : Consumer) :
    now ≤ (Confirmation.start config now life c).due := by
  rw [Confirmation.start]
  split
  · exact Nat.le_refl _
  · exact Nat.le_add_right ..

/-- A confirmation that goes on in time leaves nothing late. -/
theorem goOn_steady (k : Controller (ConsumerId → σ)) (hs : s.Steady)
    (hnext : Confirmation.takeNext limit s.confirmations = some (t, waiting)) :
    (k.goOn t waiting s).Steady := by
  obtain ⟨hperm, hmin, -⟩ := Confirmation.takeNext_eq_some hnext
  obtain ⟨again, started, hleft, hwaiting⟩ := goOn_waiting k t waiting s
  refine ⟨proceed_tidy k t (hs.tidy.of_eq rfl rfl), fun u hu => ?_⟩
  rw [(goOn_leads hs.tidy.keyed hnext).2]
  rcases List.mem_append.1 (hwaiting.mem_iff.1 hu) with hagain | hrest
  · rcases hleft.asksAgain with rfl | ⟨rfl, -⟩
    · cases hagain
    · rw [List.mem_singleton.1 hagain]
      exact Nat.le_add_right ..
  · rcases List.mem_append.1 hrest with hold | hstarted
    · have hmem := hperm.mem_iff.2 (List.mem_cons_of_mem t hold)
      exact Nat.max_le.2 ⟨hs.timely u hmem, hmin u hmem⟩
    · obtain ⟨-, life, c, rfl⟩ := hleft.wasAsked u hstarted
      exact le_due_start ..

/-- The consumer of a confirmation that goes on is the only one that is touched. -/
theorem goOn_onlyTouches (hk : k.Impartial config each) (hs : s.Tidy)
    (hnext : Confirmation.takeNext limit s.confirmations = some (t, waiting)) :
    s.OnlyTouches t.id (k.goOn t waiting s) := by
  have hpicked : s.OnlyTouches t.id
      { s with confirmations := waiting, now := max s.now t.due } := fun id hid =>
    Portrait.ext rfl rfl rfl rfl
      (Confirmation.filter_takeNext hnext (decide_eq_false fun h => hid h.symm)) rfl rfl
  exact hpicked.trans (proceed_onlyTouches hk t (hs.of_eq rfl rfl))

/-- **A confirmation goes on in the same way wherever its consumer looks the same**, whatever time
it was before. -/
theorem goOn_alike (hk : k.Impartial config each) (hk' : k'.Impartial config each) (hs : s.Steady)
    (hr : r.Steady) (h : r.portrait t.id = s.portrait t.id)
    (hnext : Confirmation.takeNext limit s.confirmations = some (t, waiting))
    (hnext' : Confirmation.takeNext limit r.confirmations = some (t, waiting')) :
    (k.goOn t waiting s).Alike t.id (k'.goOn t waiting' r) := by
  have htime : ∀ {s : State (ConsumerId → σ)} {waiting : List Confirmation}, s.Steady →
      Confirmation.takeNext limit s.confirmations = some (t, waiting) → max s.now t.due = t.due :=
    fun hs hnext => Nat.max_eq_right (hs.timely t
      ((Confirmation.takeNext_eq_some hnext).1.mem_iff.2 List.mem_cons_self))
  have hown := Confirmation.takeNext_filter (p := fun u => u.id = t.id) hnext (decide_eq_true rfl)
  have hown' := Confirmation.takeNext_filter (p := fun u => u.id = t.id) hnext' (decide_eq_true rfl)
  have hwaiting : r.confirmations.filter (fun u => u.id = t.id) =
      s.confirmations.filter fun u => u.id = t.id := congrArg Portrait.waiting h
  rw [hwaiting, hown, Option.some.injEq, Prod.mk.injEq] at hown'
  have hpicked : State.Alike t.id { s with confirmations := waiting, now := max s.now t.due }
      { r with confirmations := waiting', now := max r.now t.due } := by
    refine ⟨(htime hr hnext').trans (htime hs hnext).symm, ?_⟩
    show { r.portrait t.id with waiting := waiting'.filter fun u => u.id = t.id } =
      { s.portrait t.id with waiting := waiting.filter fun u => u.id = t.id }
    rw [h, hown'.2]
  exact proceed_alike hk hk' (hs.tidy.of_eq rfl rfl) (hr.tidy.of_eq rfl rfl) hpicked

end Controller

end Embargo
