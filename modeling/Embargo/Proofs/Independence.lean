import Embargo.Proofs.Solitude
import Embargo.Rehearsal.Cast
import Mathlib.Algebra.BigOperators.Group.Finset.Basic
import Mathlib.Algebra.Order.BigOperators.Group.Finset

/-!
# Consumers are independent

The steps that a run takes for one consumer are those that it would take if there were nobody else.
So whether and where a run ends can be told from each consumer by itself, and what becomes of one
depends neither on the others nor on the order in which they are visited.

* `Controller.runUntil_solo` — the steps of one consumer among those of all;
* `Controller.exists_runUntil_of_alone` — when every consumer comes to an end by itself, all of them
  do; `Controller.runUntil_alike` — and then always to the same end;
* `Controller.advance_solo`, `advance_alike`, `wait_alike` — the same for time that passes;
* `Controller.inputsOf` — the inputs of a run without those that are meant for others;
* `Controller.react_solo`, `react_alike` — one input; `run_solo`, `run_alike` — many;
* `Controller.consumers_independent` — **consumers are independent**.
-/

namespace Embargo

variable {σ : Type}

namespace Controller

variable {config : Config} {each : Environment σ} {k k' : Controller (ConsumerId → σ)}
  {s s' r r' : State (ConsumerId → σ)} {t : Confirmation} {id : ConsumerId} {limit : Option Nat}
  {waiting : List Confirmation}

/-! ### The steps of one consumer among those of all -/

/-- With no more than so much fuel two runs come to the same. -/
theorem runUntil_unique {fuel fuel' : Nat} (h : k.runUntil limit fuel s = some r)
    (h' : k.runUntil limit fuel' s = some r') : r' = r :=
  Option.some.inj ((runUntil_mono (Nat.le_max_right fuel fuel') h').symm.trans
    (runUntil_mono (Nat.le_max_left fuel fuel') h))

theorem runUntil_steady (fuel : Nat) : ∀ {s s' : State (ConsumerId → σ)}, s.Steady →
    k.runUntil limit fuel s = some s' → s'.Steady := by
  induction fuel with
  | zero =>
    intro s s' hs h
    rw [runUntil] at h
    split at h
    · exact Option.some.inj h ▸ hs
    · cases h
  | succ fuel ih =>
    intro s s' hs h
    rw [runUntil] at h
    split at h
    · exact Option.some.inj h ▸ hs
    · rename_i hnext
      exact ih (goOn_steady k hs hnext) h

/-- **The steps of one consumer are those that it would take by itself.**  From a state in which it
looks the same and nobody else waits, they lead to the same in no more steps. -/
theorem runUntil_solo (hk : k.Impartial config each) (hk' : k'.Impartial config each)
    (fuel : Nat) : ∀ {s s' r : State (ConsumerId → σ)}, s.Steady → r.Steady → r.OnlyAwaits id →
      r.portrait id = s.portrait id → k.runUntil limit fuel s = some s' →
      ∃ n r', n ≤ fuel ∧ k'.runUntil limit n r = some r' ∧ r'.portrait id = s'.portrait id ∧
        r.OnlyTouches id r' := by
  -- when nothing is left to do at all, nothing is left for this consumer
  have hdone : ∀ {fuel : Nat} {s r : State (ConsumerId → σ)}, r.OnlyAwaits id →
      r.portrait id = s.portrait id → Confirmation.takeNext limit s.confirmations = none →
      ∃ n r', n ≤ fuel ∧ k'.runUntil limit n r = some r' ∧ r'.portrait id = s.portrait id ∧
        r.OnlyTouches id r' := by
    intro fuel s r honly h hnext
    have hwaiting : r.confirmations = s.confirmations.filter fun t => t.id = id :=
      honly.filter_eq.symm.trans (congrArg Portrait.waiting h)
    refine ⟨0, r, Nat.zero_le _, runUntil_of_none k' 0 ?_, h, .refl id r⟩
    exact hwaiting ▸ Confirmation.takeNext_filter_eq_none hnext
  induction fuel with
  | zero =>
    intro s s' r hs hr honly h hrun
    rw [runUntil] at hrun
    split at hrun
    · exact Option.some.inj hrun ▸ hdone honly h ‹_›
    · cases hrun
  | succ fuel ih =>
    intro s s' r hs hr honly h hrun
    rcases hnext : Confirmation.takeNext limit s.confirmations with _ | ⟨t, waiting⟩
    · rw [runUntil_of_none k _ hnext] at hrun
      exact Option.some.inj hrun ▸ hdone honly h hnext
    rw [runUntil_of_some k _ hnext] at hrun
    have hs₁ := goOn_steady k hs hnext
    by_cases hid : t.id = id
    · subst hid
      have hwaiting : r.confirmations = s.confirmations.filter fun u => u.id = t.id :=
        honly.filter_eq.symm.trans (congrArg Portrait.waiting h)
      have hnext' := Confirmation.takeNext_filter (p := fun u => u.id = t.id) hnext
        (decide_eq_true rfl)
      rw [← hwaiting] at hnext'
      have htouched := goOn_onlyTouches hk' hr.tidy hnext'
      obtain ⟨n, r', hn, hrun', hportrait, hothers⟩ := ih hs₁ (goOn_steady k' hr hnext')
        (htouched.onlyAwaits honly) (goOn_alike hk hk' hs hr h hnext hnext').portrait hrun
      exact ⟨n + 1, r', Nat.succ_le_succ hn, runUntil_of_some k' n hnext' ▸ hrun', hportrait,
        htouched.trans hothers⟩
    -- somebody else goes on
    · have hsame := (goOn_onlyTouches hk hs.tidy hnext) id fun heq => hid heq.symm
      obtain ⟨n, r', hn, hrest⟩ := ih hs₁ hr honly (h.trans hsame.symm) hrun
      exact ⟨n, r', Nat.le_succ_of_le hn, hrest⟩

/-- What leads to an end leads to one by itself, wherever the consumer looks the same. -/
theorem exists_runUntil_alone (hk : k.Impartial config each) (hk' : k'.Impartial config each)
    {fuel : Nat} (hs : s.Steady) (hr : r.Steady) (h : r.portrait id = s.portrait id)
    (hrun : k.runUntil limit fuel s = some s') :
    ∃ r', k'.runUntil limit fuel (r.alone id) = some r' ∧ r'.portrait id = s'.portrait id := by
  obtain ⟨n, r', hle, hown, hsame, -⟩ := runUntil_solo hk hk' fuel hs (hr.alone id)
    (r.alone_onlyAwaits id) ((r.portrait_alone id).trans h) hrun
  exact ⟨r', runUntil_mono hle hown, hsame⟩

/-- **When every consumer comes to an end by itself, all of them do.** -/
theorem exists_runUntil_of_alone (hk : k.Impartial config each) (ids : Finset ConsumerId)
    (fuel : ConsumerId → Nat) (hs : s.Steady) (hids : ∀ t ∈ s.confirmations, t.id ∈ ids)
    (halone : ∀ id ∈ ids, ∃ r, k.runUntil limit (fuel id) (s.alone id) = some r) :
    ∃ n s', k.runUntil limit n s = some s' := by
  -- what goes on first takes one of the steps that its consumer has to take by itself
  induction hn : ∑ id ∈ ids, fuel id using Nat.strong_induction_on generalizing s fuel with
  | _ n ih =>
    rcases hnext : Confirmation.takeNext limit s.confirmations with _ | ⟨t, waiting⟩
    · exact ⟨0, s, runUntil_of_none k 0 hnext⟩
    have hmem : t.id ∈ ids :=
      hids t ((Confirmation.takeNext_eq_some hnext).1.mem_iff.2 List.mem_cons_self)
    have hnext' : Confirmation.takeNext limit (s.alone t.id).confirmations =
        some (t, waiting.filter fun u => u.id = t.id) :=
      Confirmation.takeNext_filter hnext (decide_eq_true rfl)
    obtain ⟨r, hown⟩ := halone t.id hmem
    cases hfuel : fuel t.id with
    | zero =>
      rw [hfuel, runUntil, hnext'] at hown
      cases hown
    | succ m =>
      rw [hfuel, runUntil_of_some k m hnext'] at hown
      have hs₁ := goOn_steady k hs hnext
      have htouched := goOn_onlyTouches hk hs.tidy hnext
      have hfewer : ∑ id ∈ ids, Function.update fuel t.id m id < n := by
        refine hn ▸ Finset.sum_lt_sum (fun id _ => ?_) ⟨t.id, hmem, ?_⟩
        · by_cases hid : id = t.id
          · rw [hid, Function.update_self, hfuel]
            exact Nat.le_succ m
          · rw [Function.update_of_ne hid]
        · rw [Function.update_self, hfuel]
          exact Nat.lt_succ_self m
      have hids₁ : ∀ u ∈ (k.goOn t waiting s).confirmations, u.id ∈ ids := fun u hu =>
        (htouched.mem_confirmations hu).elim (fun hid => hid ▸ hmem) (hids u)
      have halone₁ : ∀ id ∈ ids, ∃ r, k.runUntil limit (Function.update fuel t.id m id)
          ((k.goOn t waiting s).alone id) = some r := by
        intro id hid
        by_cases heq : id = t.id
        · subst heq
          have hportrait := (goOn_alike hk hk (hs.alone t.id) hs (s.portrait_alone t.id).symm
            hnext' hnext).portrait
          obtain ⟨r', hown', -⟩ := exists_runUntil_alone hk hk (goOn_steady k (hs.alone _) hnext')
            hs₁ hportrait hown
          exact ⟨r', (Function.update_self t.id m fuel).symm ▸ hown'⟩
        · obtain ⟨r₁, hother⟩ := halone id hid
          obtain ⟨r', hother', -⟩ := exists_runUntil_alone hk hk (hs.alone id) hs₁
            ((htouched id heq).trans (s.portrait_alone id).symm) hother
          exact ⟨r', (Function.update_of_ne heq m fuel).symm ▸ hother'⟩
      obtain ⟨n', s', hrun⟩ := ih _ hfewer (Function.update fuel t.id m) hs₁ hids₁ halone₁ rfl
      exact ⟨n' + 1, s', runUntil_of_some k n' hnext ▸ hrun⟩

/-- **All steps come to the same wherever all consumers look the same**, in whichever order
confirmations of different consumers wait. -/
theorem runUntil_alike (hk : k.Impartial config each) (hk' : k'.Impartial config each) {fuel : Nat}
    (hs : s.Steady) (hr : r.Steady) (h : ∀ id, r.portrait id = s.portrait id)
    (hrun : k.runUntil limit fuel s = some s') :
    ∃ n r', k'.runUntil limit n r = some r' ∧ ∀ id, r'.portrait id = s'.portrait id := by
  have halone : ∀ id, ∃ q, k'.runUntil limit fuel (r.alone id) = some q ∧
      q.portrait id = s'.portrait id := fun id => exists_runUntil_alone hk hk' hs hr (h id) hrun
  obtain ⟨n, r', hrun'⟩ := exists_runUntil_of_alone hk'
    (r.confirmations.map Confirmation.id).toFinset (fun _ => fuel) hr
    (fun t ht => List.mem_toFinset.2 (List.mem_map_of_mem ht))
    fun id _ => (halone id).imp fun _ hq => hq.1
  refine ⟨n, r', hrun', fun id => ?_⟩
  obtain ⟨q, hq, hsame⟩ := halone id
  have hitself : r.portrait id = r.portrait id := rfl
  obtain ⟨q', hq', hsame'⟩ := exists_runUntil_alone hk' hk' hr hr hitself hrun'
  obtain rfl := runUntil_unique hq hq'
  exact hsame'.symm.trans hsame

/-! ### Time passes -/

theorem advance_of_runUntil {fuel ms : Nat}
    (h : k.runUntil (some (s.now + ms)) fuel s = some s') :
    k.advance fuel ms s = some { s' with now := max s'.now (s.now + ms) } := by
  have hbudget : fuel ≤ k.budget fuel s := Nat.le_add_left ..
  rw [advance, runUntil_mono hbudget h, Option.map_some]

/-- While time passes a consumer does what it would do by itself. -/
theorem advance_solo (hk : k.Impartial config each) (hk' : k'.Impartial config each)
    {patience ms : Nat} (hs : s.Steady) (hr : r.Steady) (honly : r.OnlyAwaits id)
    (h : s.Alike id r) (hadvance : k.advance patience ms s = some s') :
    ∃ n r', k'.advance n ms r = some r' ∧ s'.Alike id r' ∧ r.OnlyTouches id r' := by
  have hnow := (advance_leads hs.tidy.keyed hadvance).2.1
  rw [advance, Option.map_eq_some_iff] at hadvance
  obtain ⟨s₁, hrun, rfl⟩ := hadvance
  obtain ⟨n, r₁, -, hrun', hsame, hothers⟩ :=
    runUntil_solo hk hk' _ hs hr honly h.portrait hrun
  rw [← h.now] at hrun'
  have hadvance' := advance_of_runUntil hrun'
  have hnow' := (advance_leads hr.tidy.keyed hadvance').2.1
  exact ⟨n, _, hadvance', ⟨hnow'.trans ((congrArg (· + ms) h.now).trans hnow.symm), hsame⟩, hothers⟩

/-- While time passes all consumers do the same, wherever they look the same. -/
theorem advance_alike (hk : k.Impartial config each) (hk' : k'.Impartial config each)
    {patience ms : Nat} (hs : s.Steady) (hr : r.Steady) (h : ∀ id, s.Alike id r)
    (hadvance : k.advance patience ms s = some s') :
    ∃ n r', k'.advance n ms r = some r' ∧ ∀ id, s'.Alike id r' := by
  have hnow := (advance_leads hs.tidy.keyed hadvance).2.1
  rw [advance, Option.map_eq_some_iff] at hadvance
  obtain ⟨s₁, hrun, rfl⟩ := hadvance
  obtain ⟨n, r₁, hrun', hsame⟩ := runUntil_alike hk hk' hs hr (fun id => (h id).portrait) hrun
  rw [← (h default).now] at hrun'
  have hadvance' := advance_of_runUntil hrun'
  have hnow' := (advance_leads hr.tidy.keyed hadvance').2.1
  exact ⟨n, _, hadvance', fun id =>
    ⟨hnow'.trans ((congrArg (· + ms) (h id).now).trans hnow.symm), hsame id⟩⟩

/-- What comes to an end does so within the time that it takes. -/
theorem runUntil_within (fuel : Nat) : ∀ {s s' : State (ConsumerId → σ)}, s.Steady →
    k.runUntil none fuel s = some s' →
      s.now ≤ s'.now ∧ ∀ l, s'.now ≤ l → k.runUntil (some l) fuel s = some s' := by
  have hdone : ∀ {fuel : Nat} {s : State (ConsumerId → σ)},
      Confirmation.takeNext none s.confirmations = none → s.now ≤ s.now ∧
        ∀ l, s.now ≤ l → k.runUntil (some l) fuel s = some s := by
    intro fuel s hnext
    refine ⟨Nat.le_refl _, fun l _ => runUntil_of_none k fuel ?_⟩
    exact Confirmation.takeNext_eq_none.2 fun t ht => absurd
      (Confirmation.takeNext_eq_none.1 hnext t ht) Bool.noConfusion
  induction fuel with
  | zero =>
    intro s s' hs h
    rw [runUntil] at h
    split at h
    · exact Option.some.inj h ▸ hdone ‹_›
    · cases h
  | succ fuel ih =>
    intro s s' hs h
    rcases hnext : Confirmation.takeNext none s.confirmations with _ | ⟨t, waiting⟩
    · rw [runUntil_of_none k _ hnext] at h
      exact Option.some.inj h ▸ hdone hnext
    rw [runUntil_of_some k _ hnext] at h
    obtain ⟨hle, hwithin⟩ := ih (goOn_steady k hs hnext) h
    rw [(goOn_leads hs.tidy.keyed hnext).2, Nat.max_le] at hle
    refine ⟨hle.1, fun l hl => ?_⟩
    have hdue : (some l).all (t.due ≤ ·) = true := decide_eq_true (hle.2.trans hl)
    rw [runUntil_of_some k fuel (Confirmation.takeNext_within hnext hdue)]
    exact hwithin l hl

/-- When nothing is left to wait for, the limit made no difference. -/
theorem runUntil_none_of_nil (fuel : Nat) : ∀ {s : State (ConsumerId → σ)},
    k.runUntil limit fuel s = some s' → s'.confirmations = [] →
      k.runUntil none fuel s = some s' := by
  induction fuel with
  | zero =>
    intro s h hnil
    rw [runUntil] at h
    split at h
    · cases h
      exact runUntil_of_none k 0 (hnil ▸ rfl)
    · cases h
  | succ fuel ih =>
    intro s h hnil
    rcases hnext : Confirmation.takeNext limit s.confirmations with _ | ⟨t, waiting⟩
    · rw [runUntil_of_none k _ hnext] at h
      cases h
      exact runUntil_of_none k _ (hnil ▸ rfl)
    · rw [runUntil_of_some k _ hnext] at h
      rw [runUntil_of_some k _ (Confirmation.takeNext_within hnext rfl)]
      exact ih h hnil

/-- To wait is to let the time pass that it takes. -/
theorem advance_of_wait {patience : Nat} (hs : s.Steady) (h : k.wait patience s = some s') :
    ∃ n, k.advance n (s'.now - s.now) s = some s' := by
  obtain ⟨hle, hwithin⟩ := runUntil_within _ hs h
  have hlimit : s.now + (s'.now - s.now) = s'.now := Nat.add_sub_cancel' hle
  refine ⟨_, (advance_of_runUntil (hlimit.symm ▸ hwithin _ (Nat.le_refl _))).trans ?_⟩
  rw [hlimit, Nat.max_self]

/-- To wait takes no longer wherever all consumers look the same. -/
theorem wait_le (hk : k.Impartial config each) (hk' : k'.Impartial config each) {patience : Nat}
    (hs : s.Steady) (hr : r.Steady) (h : ∀ id, s.Alike id r)
    (hwait : k.wait patience s = some s') :
    ∃ n r', k'.wait n r = some r' ∧ r'.now ≤ s'.now ∧
      ∀ id, r'.portrait id = s'.portrait id := by
  obtain ⟨hle, hwithin⟩ := runUntil_within _ hs hwait
  obtain ⟨n, r', hrun, hsame⟩ := runUntil_alike hk hk' hs hr (fun id => (h id).portrait)
    (hwithin s'.now (Nat.le_refl _))
  have hnil : r'.confirmations = [] := by
    refine List.eq_nil_iff_forall_not_mem.2 fun t ht => ?_
    have hwaiting : r'.confirmations.filter (fun u => u.id = t.id) =
        s'.confirmations.filter fun u => u.id = t.id := congrArg Portrait.waiting (hsame t.id)
    rw [(wait_leads hs.tidy.keyed hwait).2] at hwaiting
    have hmem : t ∈ r'.confirmations.filter fun u => u.id = t.id :=
      List.mem_filter.2 ⟨ht, decide_eq_true rfl⟩
    rw [hwaiting] at hmem
    cases hmem
  refine ⟨n, r', ?_, ?_, hsame⟩
  · exact runUntil_mono (Nat.le_add_left n _) (runUntil_none_of_nil n hrun hnil)
  · exact (runUntil_leads n hr.tidy.keyed hrun).2.2 _ rfl ((h default).now ▸ hle)

theorem wait_alike (hk : k.Impartial config each) (hk' : k'.Impartial config each) {patience : Nat}
    (hs : s.Steady) (hr : r.Steady) (h : ∀ id, s.Alike id r)
    (hwait : k.wait patience s = some s') :
    ∃ n r', k'.wait n r = some r' ∧ ∀ id, s'.Alike id r' := by
  obtain ⟨n, r', hwait', hle, hsame⟩ := wait_le hk hk' hs hr h hwait
  -- nor does it take longer the other way round
  obtain ⟨m, s₁, hwait₁, hle', -⟩ := wait_le hk' hk hr hs (fun id => (h id).symm) hwait'
  obtain rfl := runUntil_unique hwait hwait₁
  exact ⟨n, r', hwait', fun id => ⟨Nat.le_antisymm hle hle', hsame id⟩⟩

end Controller

/-! ### Inputs that are meant for one consumer -/

/-- What an input that takes so long is to one consumer: nothing when it is meant for another one;
to wait is to let the time pass. -/
def Input.part (id : ConsumerId) (elapsed : Nat) : Input → List Input
  | .hook h => if h.isFor id then [.hook h] else []
  | .drive id' d => if id' = id then [.drive id' d] else []
  | .pass ms => [.pass ms]
  | .wait => [.pass elapsed]

/-- The inputs of a run without those that are meant for other consumers.  Policies and the time
that passes remain. -/
def Controller.inputsOf {ω : Type} (k : Controller ω) (patience : Nat) (id : ConsumerId) :
    State ω → List Input → List Input
  | _, [] => []
  | s, i :: is =>
      match k.next patience s i with
      | none => []
      | some s' => i.part id (s'.now - s.now) ++ inputsOf k patience id s' is

/-- What is left of a part of a run is a part of what is left of the run. -/
theorem Controller.inputsOf_append {ω : Type} (k : Controller ω) (patience : Nat)
    (id : ConsumerId) (is js : List Input) : ∀ {s s' : State ω}, k.run patience s is = some s' →
      k.inputsOf patience id s (is ++ js) =
        k.inputsOf patience id s is ++ k.inputsOf patience id s' js := by
  induction is with
  | nil =>
    intro s s' h
    rw [run_nil, Option.some.injEq] at h
    exact h ▸ rfl
  | cons i is ih =>
    intro s s' h
    rw [run_cons, Option.bind_eq_some_iff] at h
    obtain ⟨s₁, hnext, hrest⟩ := h
    rw [List.cons_append, inputsOf, inputsOf, hnext]
    dsimp only
    rw [ih hrest, List.append_assoc]

/-- Nobody is registered or waits but one consumer. -/
def State.LeftTo (id : ConsumerId) (s : State (ConsumerId → σ)) : Prop :=
  ∀ i, i ≠ id → (s.portrait i).consumer = none ∧ (s.portrait i).waiting = []

namespace State

variable {s s' : State (ConsumerId → σ)} {id : ConsumerId}

theorem LeftTo.onlyAwaits (h : s.LeftTo id) : s.OnlyAwaits id := by
  intro t ht
  by_contra hid
  have hmem : t ∈ s.confirmations.filter fun u => u.id = t.id :=
    List.mem_filter.2 ⟨ht, decide_eq_true rfl⟩
  rw [show s.confirmations.filter (fun u => u.id = t.id) = [] from (h t.id hid).2] at hmem
  cases hmem

theorem OnlyTouches.leftTo (h : s.OnlyTouches id s') (hs : s.LeftTo id) : s'.LeftTo id :=
  fun i hi => (h i hi).symm ▸ hs i hi

theorem leftTo_initial (policy : Policy) (memory : ConsumerId → σ) (id : ConsumerId) :
    (State.initial policy memory).LeftTo id :=
  fun _ _ => ⟨Registry.lookup_empty _, rfl⟩

end State

namespace Controller

variable {config : Config} {each : Environment σ} {k k' : Controller (ConsumerId → σ)}
  {s s' s₁ r r₁ : State (ConsumerId → σ)} {id : ConsumerId} {policy : Policy}
  {memory : ConsumerId → σ} {patience : Nat}

/-! ### Single inputs -/

theorem Still.timely (h : k.Still s s') (hs : ∀ t ∈ s.confirmations, s.now ≤ t.due) :
    ∀ t ∈ s'.confirmations, s'.now ≤ t.due := by
  obtain ⟨hnow, ⟨started, hwaiting, hstarted⟩, -⟩ := h
  intro t ht
  rw [hnow]
  rw [hwaiting] at ht
  rcases List.mem_append.1 ht with hold | hnew
  · exact hs t hold
  · obtain ⟨life, c, rfl⟩ := hstarted t hnew
    exact le_due_start ..

theorem receive_steady (k : Controller (ConsumerId → σ)) (h : Hook) (hs : s.Steady) :
    (k.receive none s h).Steady :=
  ⟨receive_tidy k none h hs.tidy, (receive_still k none s h).timely hs.timely⟩

theorem order_steady (k : Controller (ConsumerId → σ)) (i : ConsumerId) (d : Decision)
    (hs : s.Steady) : (k.drive d i { s with received := .order i d :: s.received }).Steady :=
  ⟨(Kept.tidy k).order i d hs.tidy hs.tidy, (order_still k i d s).timely hs.timely⟩

theorem advance_steady {ms : Nat} (hs : s.Steady) (h : k.advance patience ms s = some s') :
    s'.Steady := by
  have hdue := (advance_leads hs.tidy.keyed h).2.2
  rw [advance, Option.map_eq_some_iff] at h
  obtain ⟨s₁, hrun, rfl⟩ := h
  exact ⟨(runUntil_steady _ hs hrun).tidy.of_eq rfl rfl, fun t ht => Nat.le_of_lt (hdue t ht)⟩

theorem wait_steady (hs : s.Steady) (h : k.wait patience s = some s') : s'.Steady :=
  runUntil_steady _ hs h

theorem Reachable.steady (h : k.Reachable policy memory s) : s.Steady :=
  ⟨h.inOrder.tidy, fun t ht => Nat.le_of_lt (h.settled t ht)⟩

theorem order_onlyTouches (hk : k.Impartial config each) (i : ConsumerId) (d : Decision)
    (hs : s.Tidy) :
    s.OnlyTouches i (k.drive d i { s with received := .order i d :: s.received }) :=
  drive_onlyTouches hk d (s := { s with received := .order i d :: s.received }) hs.keyed

theorem order_alike (hk : k.Impartial config each) (hk' : k'.Impartial config each)
    (d : Decision) (hs : s.Tidy) (hr : r.Tidy) (h : s.Alike id r) :
    (k.drive d id { s with received := .order id d :: s.received }).Alike id
      (k'.drive d id { r with received := .order id d :: r.received }) :=
  drive_alike hk hk' d (s := { s with received := .order id d :: s.received })
    (r := { r with received := .order id d :: r.received }) hs.keyed hr.keyed ⟨h.now, h.portrait⟩

/-- A hook that is meant for others leaves a consumer as it is. -/
theorem receive_alike_of_other (hk : k.Impartial config each) {h : Hook}
    (hfor : h.isFor id = false) (hs : s.Tidy) : s.Alike id (k.receive none s h) :=
  ⟨(receive_still k none s h).now, portrait_receive hk none hfor hs⟩

theorem order_alike_of_ne (hk : k.Impartial config each) {i : ConsumerId} (hid : i ≠ id)
    (d : Decision) (hs : s.Tidy) :
    s.Alike id (k.drive d i { s with received := .order i d :: s.received }) :=
  ⟨(order_still k i d s).now, order_onlyTouches hk i d hs id fun heq => hid heq.symm⟩

/-- A hook that is meant for the only consumer registers nobody else. -/
theorem receive_leftTo (hk : k.Impartial config each) {h : Hook} (hfor : h.isFor id = true)
    (hs : s.Tidy) (hleft : s.LeftTo id) : (k.receive none s h).LeftTo id := by
  have hs₁ : State.Tidy { s with received := .hook h none :: s.received } := hs.of_eq rfl rfl
  have hpolicy : ∀ p,
      (k.updatePolicy p { s with received := .hook h none :: s.received }).LeftTo id := by
    intro p i hi
    have hfree : s.consumer? i = none := (hleft i hi).1
    rw [portrait_updatePolicy hk p i hs₁, revisit_outside,
      show (announced p { s with received := .hook h none :: s.received }).consumer? i = none
        from hfree, portrait_announced]
    exact hleft i hi
  cases h with
  | lifecycle client e =>
    obtain rfl : client.id = id := of_decide_eq_true hfor
    have htouched : s.OnlyTouches client.id (k.receive none s (.lifecycle client e)) :=
      (receive_treated k none (.lifecycle client e) hs).onlyTouches hk hs₁
    exact htouched.leftTo hleft
  | policyUpdate p => exact hpolicy p
  | policyDelivery p => exact hpolicy p
  | policyDocument text =>
    rw [receive, deliver_policyDocument, updatePolicyDocument_outside]
    cases Policy.ofDocument text with
    | error e => exact hleft
    | ok p => exact hpolicy p

/-- After an input that both have taken, what is due is done. -/
theorem react_of_both (hk : k.Impartial config each) (hk' : k'.Impartial config each) {i : Input}
    {n : Nat} (hs₁ : s₁.Steady) (hr : r.stuck = false) (hr₁ : r₁.Steady) (h : s₁.Alike id r₁)
    (hleft : r₁.LeftTo id) (htake : k'.take n r i = some r₁)
    (hsettle : k.settle patience s₁ = some s') :
    ∃ m r', k'.run m r [i] = some r' ∧ s'.Alike id r' ∧ r'.LeftTo id := by
  obtain ⟨m, r', hsettle', halike, hothers⟩ :=
    advance_solo hk hk' hs₁ hr₁ hleft.onlyAwaits h hsettle
  refine ⟨max n m, r', ?_, halike, hothers.leftTo hleft⟩
  rw [run_cons, next_eq_react hk'.environment_prompt hr, react,
    take_mono (Nat.le_max_left n m) htake, Option.bind_some, settle,
    advance_mono (Nat.le_max_right n m) hsettle', Option.bind_some, run_nil]

/-- After an input that is meant for others, nothing is due for a consumer by itself. -/
theorem react_of_other (hk : k.Impartial config each) (hk' : k'.Impartial config each)
    (hs₁ : s₁.Steady) (hr : k'.Reachable policy memory r) (h : s₁.Alike id r)
    (hleft : r.LeftTo id) (hsettle : k.settle patience s₁ = some s') :
    ∃ m r', k'.run m r [] = some r' ∧ s'.Alike id r' ∧ r'.LeftTo id := by
  obtain ⟨m, r', hsettle', halike, -⟩ :=
    advance_solo hk hk' hs₁ hr.steady hleft.onlyAwaits h hsettle
  rw [advance_of_settled k' m hr.settled, Option.some.injEq] at hsettle'
  exact ⟨0, r, rfl, hsettle' ▸ halike, hleft⟩

/-- To wait is to let the time pass that it takes. -/
theorem react_of_wait (hs : s.Steady) (h : k.react patience s .wait = some s') :
    ∃ n, k.react n s (.pass (s'.now - s.now)) = some s' := by
  rw [react, Option.bind_eq_some_iff] at h
  obtain ⟨s₁, hwait, hsettle⟩ := h
  have hnil := (wait_leads hs.tidy.keyed hwait).2
  have hsettled : ∀ t ∈ s₁.confirmations, s₁.now < t.due := hnil ▸ fun t ht => by cases ht
  rw [settle, advance_of_settled k patience hsettled, Option.some.injEq] at hsettle
  subst hsettle
  obtain ⟨n, hpass⟩ := advance_of_wait hs hwait
  exact ⟨n, by rw [react, take, hpass, Option.bind_some, settle, advance_of_settled k n hsettled]⟩

/-- **An input does to a consumer what its part of that input does to the consumer by itself.** -/
theorem react_solo (hk : k.Impartial config each) (hk' : k'.Impartial config each) {i : Input}
    (hs : s.Steady) (hr : k'.Reachable policy memory r) (h : s.Alike id r)
    (hleft : r.LeftTo id) (hreact : k.react patience s i = some s') :
    ∃ m r', k'.run m r (i.part id (s'.now - s.now)) = some r' ∧ s'.Alike id r' ∧ r'.LeftTo id := by
  have hpass : ∀ {patience ms : Nat}, k.react patience s (.pass ms) = some s' →
      ∃ m r', k'.run m r [.pass ms] = some r' ∧ s'.Alike id r' ∧ r'.LeftTo id := by
    intro patience ms hreact
    rw [react, Option.bind_eq_some_iff] at hreact
    obtain ⟨s₁, htake, hsettle⟩ := hreact
    obtain ⟨n, r₁, htake', halike, hothers⟩ :=
      advance_solo hk hk' hs hr.steady hleft.onlyAwaits h htake
    exact react_of_both hk hk' (advance_steady hs htake) hr.not_stuck
      (advance_steady hr.steady htake') halike (hothers.leftTo hleft) htake' hsettle
  cases i with
  | pass ms => exact hpass hreact
  | wait =>
    obtain ⟨n, hreact'⟩ := react_of_wait hs hreact
    exact hpass hreact'
  | hook hook =>
    have hs₁ := receive_steady k hook hs
    rw [Input.part]
    cases hfor : hook.isFor id with
    | true =>
      exact react_of_both (n := 0) hk hk' hs₁ hr.not_stuck (receive_steady k' hook hr.steady)
        (receive_alike hk hk' none none hfor hs.tidy hr.steady.tidy h)
        (receive_leftTo hk' hfor hr.steady.tidy hleft) rfl hreact
    | false =>
      have hsame := receive_alike_of_other hk hfor hs.tidy
      exact react_of_other hk hk' hs₁ hr (hsame.symm.trans h) hleft hreact
  | drive i d =>
    have hs₁ := order_steady k i d hs
    rw [Input.part]
    by_cases hid : i = id
    · subst hid
      rw [if_pos rfl]
      exact react_of_both (n := 0) hk hk' hs₁ hr.not_stuck (order_steady k' i d hr.steady)
        (order_alike hk hk' d hs.tidy hr.steady.tidy h)
        ((order_onlyTouches hk' i d hr.steady.tidy).leftTo hleft) rfl hreact
    · rw [if_neg hid]
      have hsame := order_alike_of_ne hk hid d hs.tidy
      exact react_of_other hk hk' hs₁ hr (hsame.symm.trans h) hleft hreact

/-- What an input brings with it does the same to all consumers, wherever all of them look the
same. -/
theorem take_alike (hk : k.Impartial config each) (hk' : k'.Impartial config each) {i : Input}
    (hs : s.Steady) (hr : r.Steady) (h : ∀ id, s.Alike id r)
    (htake : k.take patience s i = some s₁) :
    ∃ n r₁, k'.take n r i = some r₁ ∧ s₁.Steady ∧ r₁.Steady ∧ ∀ id, s₁.Alike id r₁ := by
  cases i with
  | hook hook =>
    cases htake
    refine ⟨0, _, rfl, receive_steady k hook hs, receive_steady k' hook hr, fun id => ?_⟩
    cases hfor : hook.isFor id with
    | true => exact receive_alike hk hk' none none hfor hs.tidy hr.tidy (h id)
    | false =>
      exact (receive_alike_of_other hk hfor hs.tidy).symm.trans
        ((h id).trans (receive_alike_of_other hk' hfor hr.tidy))
  | drive i d =>
    cases htake
    refine ⟨0, _, rfl, order_steady k i d hs, order_steady k' i d hr, fun id => ?_⟩
    by_cases hid : i = id
    · subst hid
      exact order_alike hk hk' d hs.tidy hr.tidy (h i)
    · exact (order_alike_of_ne hk hid d hs.tidy).symm.trans
        ((h id).trans (order_alike_of_ne hk' hid d hr.tidy))
  | pass ms =>
    obtain ⟨n, r₁, htake', halike⟩ := advance_alike hk hk' hs hr h htake
    exact ⟨n, r₁, htake', advance_steady hs htake, advance_steady hr htake', halike⟩
  | wait =>
    obtain ⟨n, r₁, htake', halike⟩ := wait_alike hk hk' hs hr h htake
    exact ⟨n, r₁, htake', wait_steady hs htake, wait_steady hr htake', halike⟩

/-- **An input does the same to all consumers**, wherever all of them look the same. -/
theorem react_alike (hk : k.Impartial config each) (hk' : k'.Impartial config each) {i : Input}
    (hs : s.Steady) (hr : r.Steady) (h : ∀ id, s.Alike id r)
    (hreact : k.react patience s i = some s') :
    ∃ n r', k'.react n r i = some r' ∧ ∀ id, s'.Alike id r' := by
  rw [react, Option.bind_eq_some_iff] at hreact
  obtain ⟨s₁, htake, hsettle⟩ := hreact
  obtain ⟨n, r₁, htake', hs₁, hr₁, halike⟩ := take_alike hk hk' hs hr h htake
  obtain ⟨m, r', hsettle', halike'⟩ := advance_alike hk hk' hs₁ hr₁ halike hsettle
  refine ⟨max n m, r', ?_, halike'⟩
  rw [react, take_mono (Nat.le_max_left n m) htake', Option.bind_some, settle,
    advance_mono (Nat.le_max_right n m) hsettle']

/-! ### Runs -/

/-- More patience leads to the same state. -/
theorem run_mono {more : Nat} (hle : patience ≤ more) (inputs : List Input) :
    ∀ {s s' : State (ConsumerId → σ)}, k.run patience s inputs = some s' →
      k.run more s inputs = some s' := by
  induction inputs with
  | nil => exact fun h => h
  | cons i is ih =>
    intro s s' h
    rw [run_cons, Option.bind_eq_some_iff] at h ⊢
    obtain ⟨s₁, hnext, hrun⟩ := h
    exact ⟨s₁, next_mono hle hnext, ih hrun⟩

/-- A run does to a consumer what the inputs that are meant for it do to it by itself. -/
theorem run_solo (hk : k.Impartial config each) (hk' : k'.Impartial config each)
    (inputs : List Input) : ∀ {s s' r : State (ConsumerId → σ)}, k.Reachable policy memory s →
      k'.Reachable policy memory r → s.Alike id r → r.LeftTo id →
      k.run patience s inputs = some s' →
      ∃ n r', k'.run n r (k.inputsOf patience id s inputs) = some r' ∧ s'.Alike id r' := by
  induction inputs with
  | nil =>
    intro s s' r _ _ h _ hrun
    rw [run_nil, Option.some.injEq] at hrun
    exact ⟨0, r, rfl, hrun ▸ h⟩
  | cons i is ih =>
    intro s s' r hs hr h hleft hrun
    rw [run_cons, Option.bind_eq_some_iff] at hrun
    obtain ⟨s₁, hnext, hrest⟩ := hrun
    obtain ⟨n, r₁, hfirst, halike, hleft₁⟩ :=
      react_solo hk hk' hs.steady hr h hleft (next_eq_some.1 hnext).1
    obtain ⟨m, r', hsecond, halike'⟩ :=
      ih (.step patience i hs hnext) (hr.run hfirst) halike hleft₁ hrest
    refine ⟨max n m, r', ?_, halike'⟩
    rw [inputsOf, hnext]
    dsimp only
    rw [run_append, run_mono (Nat.le_max_left n m) _ hfirst, Option.bind_some,
      run_mono (Nat.le_max_right n m) _ hsecond]

/-- A run does the same to all consumers, wherever all of them look the same. -/
theorem run_alike (hk : k.Impartial config each) (hk' : k'.Impartial config each)
    (inputs : List Input) : ∀ {s s' r : State (ConsumerId → σ)}, k.Reachable policy memory s →
      k'.Reachable policy memory r → (∀ id, s.Alike id r) → k.run patience s inputs = some s' →
      ∃ n r', k'.run n r inputs = some r' ∧ ∀ id, s'.Alike id r' := by
  induction inputs with
  | nil =>
    intro s s' r _ _ h hrun
    rw [run_nil, Option.some.injEq] at hrun
    exact ⟨0, r, rfl, hrun ▸ h⟩
  | cons i is ih =>
    intro s s' r hs hr h hrun
    rw [run_cons, Option.bind_eq_some_iff] at hrun
    obtain ⟨s₁, hnext, hrest⟩ := hrun
    obtain ⟨n, r₁, hfirst, halike⟩ :=
      react_alike hk hk' hs.steady hr.steady h (next_eq_some.1 hnext).1
    rw [← next_eq_react hk'.environment_prompt hr.not_stuck] at hfirst
    obtain ⟨m, r', hsecond, halike'⟩ :=
      ih (.step patience i hs hnext) (.step n i hr hfirst) halike hrest
    refine ⟨max n m, r', ?_, halike'⟩
    rw [run_cons, next_mono (Nat.le_max_left n m) hfirst, Option.bind_some,
      run_mono (Nat.le_max_right n m) _ hsecond]

/-- The controller whose sweeps visit the registered consumers in this order. -/
def sweeping (k : Controller (ConsumerId → σ)) (order : Nat → List ConsumerId → List ConsumerId)
    (hperm : ∀ n ids, (order n ids).Perm ids) : Controller (ConsumerId → σ) :=
  { k with sweepOrder := order, sweepOrder_perm := hperm }

theorem Impartial.sweeping (hk : k.Impartial config each)
    {order : Nat → List ConsumerId → List ConsumerId} (hperm : ∀ n ids, (order n ids).Perm ids) :
    (k.sweeping order hperm).Impartial config each :=
  ⟨hk.config_eq, hk.builtin, hk.separate, hk.discreet, hk.prompt⟩

/-- **Consumers are independent**, when decisions are taken by the policy alone and clients keep to
themselves.  After each input of a run every consumer is where it would be, with the same record of
calls, had nothing been reported of any other one; and where it would be had sweeps visited the
consumers in any other order. -/
theorem consumers_independent (hk : k.Impartial config each) {inputs before : List Input}
    (hrun : k.run patience (.initial policy memory) inputs = some s')
    (hbefore : before <+: inputs) :
    ∃ s, k.run patience (.initial policy memory) before = some s ∧
      (∀ id, k.inputsOf patience id (.initial policy memory) before <+:
          k.inputsOf patience id (.initial policy memory) inputs ∧
        ∃ n r, k.run n (.initial policy memory)
          (k.inputsOf patience id (.initial policy memory) before) = some r ∧ s.Alike id r) ∧
      ∀ order hperm, ∃ n r,
        (k.sweeping order hperm).run n (.initial policy memory) before = some r ∧
          ∀ id, s.Alike id r := by
  obtain ⟨after, rfl⟩ := hbefore
  rw [run_append, Option.bind_eq_some_iff] at hrun
  obtain ⟨s, hfirst, -⟩ := hrun
  refine ⟨s, hfirst, fun id => ⟨?_, ?_⟩, fun order hperm => ?_⟩
  · rw [inputsOf_append k patience id before after hfirst]
    exact List.prefix_append ..
  · have hleft := State.leftTo_initial policy memory id
    exact run_solo hk hk before .start .start (.refl id _) hleft hfirst
  · exact run_alike hk (hk.sweeping hperm) before .start .start (fun id => .refl id _) hfirst

/-- Clients that count what is asked of them, with a broker that lists nobody. -/
def counting : Environment Nat where
  command := fun n _ _ _ => { result := .ok (), delivered := [], memory := n + 1 }
  query := fun n _ _ _ _ => (.ok [], n + 1)
  members := fun n _ _ _ _ => ([], n)

/-- The controller of such clients. -/
def counted : Controller (ConsumerId → Nat) where
  environment := counting.separate

/-- What two clients report until the newcomer has left its group and the worker has its queues
paused. -/
def duet : List Input :=
  Rehearsal.entrance ++ Rehearsal.shift ++ [.wait]

/-- Three of the six inputs are left to the newcomer by itself, before the worker shuts down. -/
theorem consumers_independent_of_two :
    ∃ s, counted.run 0 (.initial (.prohibiting ["t"]) fun _ => 0) duet = some s ∧
      s.memory Rehearsal.newcomer.id = 4 ∧ s.memory Rehearsal.worker.id = 3 ∧
      (counted.inputsOf 0 Rehearsal.newcomer.id (.initial (.prohibiting ["t"]) fun _ => 0)
        duet).length = 3 ∧
      (∀ id, counted.inputsOf 0 id (.initial (.prohibiting ["t"]) fun _ => 0) duet <+:
          counted.inputsOf 0 id (.initial (.prohibiting ["t"]) fun _ => 0)
            (duet ++ [.hook (.lifecycle Rehearsal.worker .shutdown)]) ∧
        ∃ n r, counted.run n (.initial (.prohibiting ["t"]) fun _ => 0)
          (counted.inputsOf 0 id (.initial (.prohibiting ["t"]) fun _ => 0) duet) = some r ∧
            s.Alike id r) ∧
      ∀ order hperm, ∃ n r, (counted.sweeping order hperm).run n
        (.initial (.prohibiting ["t"]) fun _ => 0) duet = some r ∧ ∀ id, s.Alike id r := by
  have hall : (counted.run 0 (.initial (.prohibiting ["t"]) fun _ => 0)
      (duet ++ [.hook (.lifecycle Rehearsal.worker .shutdown)])).isSome = true := by
    decide +kernel
  have hcounts : (counted.run 0 (.initial (.prohibiting ["t"]) fun _ => 0) duet).map (fun s =>
      (s.memory Rehearsal.newcomer.id, s.memory Rehearsal.worker.id)) = some (4, 3) := by
    decide +kernel
  have hinputs : (counted.inputsOf 0 Rehearsal.newcomer.id
      (.initial (.prohibiting ["t"]) fun _ => 0) duet).length = 3 := by
    decide +kernel
  have hcounted : counted.Impartial {} counting :=
    { config_eq := rfl
      builtin := rfl
      separate := rfl
      discreet := fun _ _ _ _ _ _ _ hquery h hmem => by
        cases hquery
        cases hmem
      prompt := fun _ _ _ _ h hmem => by cases hmem }
  obtain ⟨s', hs'⟩ := Option.isSome_iff_exists.1 hall
  obtain ⟨s, hs, halone, hordered⟩ :=
    consumers_independent hcounted hs' (List.prefix_append duet _)
  rw [hs, Option.map_some, Option.some.injEq, Prod.mk.injEq] at hcounts
  exact ⟨s, hs, hcounts.1, hcounts.2, hinputs, halone, hordered⟩

end Controller

end Embargo
