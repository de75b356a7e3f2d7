import Embargo.Proofs.Evaluations
import Embargo.Proofs.Moves

/-!
# Portraits of consumers

All consumers share one state: one registry, one cache, one policy, one list of confirmations that
wait.  The portrait of a consumer is what such a state holds about it.  Where clients keep to
themselves, whatever is done for one consumer shows in its own portrait only, and what becomes of
that portrait depends on nothing else.

* `Environment.separate` — clients that know of the calls made on them, and of nothing else;
* `Controller.Impartial` — a controller of such clients that decides by the policy alone;
* `State.portrait` — what a state holds about a consumer; `State.Alike` — two states in which it
  looks the same;
* `State.OnlyTouches` — between two states nothing has happened to anybody else;
* `…_onlyTouches` and `…_alike` — one lemma of each kind for every function of the controller:
  whom it touches, and that it does the same wherever that consumer looks the same;
* `Controller.portrait_updatePolicy_eq` — a sweep does the same to a consumer in whichever order it
  visits them all;
* `Controller.portrait_receive`, `receive_alike` — **hooks touch those that they are meant for, and
  do the same to them wherever they look the same**.
-/

namespace Embargo

variable {σ : Type}

/-! ### Clients that keep to themselves -/

/-- Clients each of which has a memory of its own, by their identities. -/
def Environment.separate (each : Environment σ) : Environment (ConsumerId → σ) where
  command := fun memory now client c =>
    let answer := each.command (memory client.id) now client c
    { result := answer.result
      delivered := answer.delivered
      memory := Function.update memory client.id answer.memory }
  query := fun memory now client topic group =>
    let (accepted, own) := each.query (memory client.id) now client topic group
    (accepted, Function.update memory client.id own)
  members := fun memory now client topic group =>
    let (members, own) := each.members (memory client.id) now client topic group
    (members, Function.update memory client.id own)

/-- What clients deliver while they are asked for members is about themselves.  What they report
while they carry out commands is skipped, whomever it is about. -/
def Environment.Discreet (each : Environment σ) : Prop :=
  ∀ memory now client topic group hooks memory',
    each.query memory now client topic group = (.ok hooks, memory') →
      ∀ h ∈ hooks, ∃ other e, h = .lifecycle other e ∧ other.id = client.id

/-- A controller that decides by the policy alone, for clients that keep to themselves, and leave
policies to others.  The order in which sweeps visit consumers is left open. -/
structure Controller.Impartial (config : Config) (each : Environment σ)
    (k : Controller (ConsumerId → σ)) : Prop where
  config_eq : k.config = config
  builtin : k.handler = .builtin
  separate : k.environment = each.separate
  discreet : each.Discreet
  prompt : each.Prompt

/-- Clients that leave policies to others do so, too, when they keep to themselves. -/
theorem Environment.Prompt.separate {each : Environment σ} (h : each.Prompt) :
    each.separate.Prompt :=
  fun memory now client c => h (memory client.id) now client c

theorem Controller.Impartial.environment_prompt {config : Config} {each : Environment σ}
    {k : Controller (ConsumerId → σ)} (hk : k.Impartial config each) : k.environment.Prompt :=
  hk.separate ▸ hk.prompt.separate

namespace Program

variable {α : Type}

/-- A run does not depend on what has been put on record before. -/
theorem run_append (env : Environment σ) (now : Nat) (s : Subject) (p : Program α) :
    ∀ (memory : σ) (log : Log), p.run env now s memory log =
      ((p.run env now s memory []).1, (p.run env now s memory []).2.1,
        (p.run env now s memory []).2.2 ++ log) := by
  induction p with
  | done a => exact fun memory log => rfl
  | note n rest ih =>
    intro memory log
    rw [run, run, ih, ih _ [_], List.append_assoc]
    rfl
  | call own c next ih =>
    intro memory log
    dsimp only [run]
    rw [ih _ _ (_ ++ log), ih _ _ (_ ++ []), List.append_assoc, List.append_nil]

/-- A run for a client that keeps to itself is a run of this client alone. -/
theorem run_separate (each : Environment σ) (now : Nat) (s : Subject) (p : Program α) :
    ∀ (memory : ConsumerId → σ) (log : Log), p.run each.separate now s memory log =
      ((p.run each now s (memory s.client.id) []).1,
        Function.update memory s.client.id (p.run each now s (memory s.client.id) []).2.1,
        (p.run each now s (memory s.client.id) []).2.2 ++ log) := by
  induction p with
  | done a => exact fun memory log => congrArg (a, ·, log) (Function.update_eq_self ..).symm
  | note n rest ih =>
    intro memory log
    rw [run, run, ih, run_append each now s rest _ [_], List.append_assoc]
    rfl
  | call own c next ih =>
    intro memory log
    dsimp only [run]
    rw [ih, run_append each now s (next _) _ (_ ++ []), List.append_nil]
    simp only [Environment.separate, Function.update_self, Function.update_idem,
      List.append_assoc]

/-- All that a run puts on record is about the consumer that it runs for. -/
theorem run_who (env : Environment σ) (now : Nat) (s : Subject) (p : Program α) :
    ∀ memory, ∀ e ∈ (p.run env now s memory []).2.2, e.who = some s.client.id := by
  induction p with
  | done a => exact fun memory e he => absurd he List.not_mem_nil
  | note n rest ih =>
    intro memory e he
    rw [run, run_append] at he
    rcases List.mem_append.1 he with he | he
    · exact ih memory e he
    · rw [List.mem_singleton.1 he]
  | call own c next ih =>
    intro memory e he
    rw [run, run_append] at he
    rcases List.mem_append.1 he with he | he
    · exact ih _ _ e he
    · rw [List.append_nil, List.mem_reverse, commandEvents, List.mem_cons] at he
      rcases he with rfl | hskipped
      · rfl
      · obtain ⟨hook, rfl⟩ := eq_of_mem_skipped hskipped
        rfl

end Program

/-! ### Portraits -/

namespace Log

/-- What a record says of one consumer. -/
def concerning (id : ConsumerId) (l : Log) : Log :=
  l.filter fun e => e.who = some id

theorem concerning_append (id : ConsumerId) (l m : Log) :
    concerning id (l ++ m) = concerning id l ++ concerning id m :=
  List.filter_append l m

theorem concerning_eq_nil {id : ConsumerId} {l : Log} (h : ∀ e ∈ l, e.who ≠ some id) :
    concerning id l = [] :=
  List.filter_eq_nil_iff.2 fun e he => by simpa using h e he

theorem concerning_cons_self (id : ConsumerId) (l : Log) (time : Nat) (what : Occurrence) :
    concerning id (⟨time, some id, what⟩ :: l) = ⟨time, some id, what⟩ :: concerning id l :=
  List.filter_cons_of_pos (decide_eq_true rfl)

theorem concerning_cons_of_ne {id : ConsumerId} {who : Option ConsumerId} (l : Log) (time : Nat)
    (what : Occurrence) (h : who ≠ some id) :
    concerning id (⟨time, who, what⟩ :: l) = concerning id l :=
  List.filter_cons_of_neg (by simpa using h)

end Log

/-- What a state holds about one consumer. -/
@[ext] structure Portrait (σ : Type) where
  /-- The policy in force, which is the same for all. -/
  policy : Policy.Store
  consumer : Option Consumer
  life : Nat
  /-- The changes that wait for it to start. -/
  cached : Option (List Change)
  /-- Its confirmations, in the order in which they wait. -/
  waiting : List Confirmation
  /-- What its client remembers. -/
  memory : σ
  /-- All that was put on record about it, calls and their times included, the latest first. -/
  record : Log

namespace State

variable {s s' s'' r r' : State (ConsumerId → σ)} {id i : ConsumerId}

/-- The portrait of a consumer. -/
def portrait (s : State (ConsumerId → σ)) (id : ConsumerId) : Portrait σ where
  policy := s.policy
  consumer := s.consumer? id
  life := s.life id
  cached := s.cache.get? id
  waiting := s.confirmations.filter fun t => t.id = id
  memory := s.memory id
  record := s.log.concerning id

/-- Two states at the same time in which a consumer looks the same. -/
structure Alike (id : ConsumerId) (s r : State (ConsumerId → σ)) : Prop where
  now : r.now = s.now
  portrait : r.portrait id = s.portrait id

namespace Alike

theorem refl (id : ConsumerId) (s : State (ConsumerId → σ)) : s.Alike id s := ⟨rfl, rfl⟩

theorem symm (h : s.Alike id r) : r.Alike id s := ⟨h.now.symm, h.portrait.symm⟩

theorem trans (h : s.Alike id s') (h' : s'.Alike id s'') : s.Alike id s'' :=
  ⟨h'.now.trans h.now, h'.portrait.trans h.portrait⟩

theorem policy (h : s.Alike id r) : r.policy = s.policy := congrArg Portrait.policy h.portrait

theorem consumer? (h : s.Alike id r) : r.consumer? id = s.consumer? id :=
  congrArg Portrait.consumer h.portrait

theorem life (h : s.Alike id r) : r.life id = s.life id := congrArg Portrait.life h.portrait

theorem cached (h : s.Alike id r) : r.cache.get? id = s.cache.get? id :=
  congrArg Portrait.cached h.portrait

theorem waiting (h : s.Alike id r) :
    r.confirmations.filter (fun t => t.id = id) = s.confirmations.filter fun t => t.id = id :=
  congrArg Portrait.waiting h.portrait

theorem memory (h : s.Alike id r) : r.memory id = s.memory id :=
  congrArg Portrait.memory h.portrait

theorem record (h : s.Alike id r) : r.log.concerning id = s.log.concerning id :=
  congrArg Portrait.record h.portrait

end Alike

/-- Between two states nothing has happened to anybody but one consumer. -/
def OnlyTouches (i : ConsumerId) (s s' : State (ConsumerId → σ)) : Prop :=
  ∀ id, id ≠ i → s'.portrait id = s.portrait id

theorem OnlyTouches.refl (i : ConsumerId) (s : State (ConsumerId → σ)) : s.OnlyTouches i s :=
  fun _ _ => rfl

theorem OnlyTouches.trans (h : s.OnlyTouches i s') (h' : s'.OnlyTouches i s'') :
    s.OnlyTouches i s'' :=
  fun id hid => (h' id hid).trans (h id hid)

/-! ### Small changes -/

/-- What is said of a consumer shows in its portrait. -/
theorem portrait_happen (s : State (ConsumerId → σ)) (i : ConsumerId) (what : Occurrence) :
    (s.happen (some i) what).portrait i =
      { s.portrait i with record := ⟨s.now, some i, what⟩ :: (s.portrait i).record } := by
  exact Portrait.ext rfl rfl rfl rfl rfl rfl (Log.concerning_cons_self ..)

theorem happen_onlyTouches (s : State (ConsumerId → σ)) (i : ConsumerId) (what : Occurrence) :
    s.OnlyTouches i (s.happen (some i) what) := by
  intro id hid
  refine Portrait.ext rfl rfl rfl rfl rfl rfl (Log.concerning_cons_of_ne _ _ _ ?_)
  exact fun h => hid (Option.some.inj h).symm

theorem Alike.happen (h : s.Alike i r) (what : Occurrence) :
    (s.happen (some i) what).Alike i (r.happen (some i) what) :=
  ⟨h.now, by rw [portrait_happen, portrait_happen, h.now, h.portrait]⟩

theorem report_onlyTouches (s : State (ConsumerId → σ)) (i : ConsumerId) (n : Notice) :
    s.OnlyTouches i (s.report i n) :=
  happen_onlyTouches s i (.notice n)

theorem Alike.report (h : s.Alike i r) (n : Notice) : (s.report i n).Alike i (r.report i n) :=
  h.happen (.notice n)

/-- What is said of nobody shows in no portrait. -/
theorem portrait_happen_none (s : State (ConsumerId → σ)) (what : Occurrence) (id : ConsumerId) :
    (s.happen none what).portrait id = s.portrait id := by
  exact Portrait.ext rfl rfl rfl rfl rfl rfl
    (Log.concerning_cons_of_ne s.log s.now what (Option.some_ne_none id).symm)

theorem portrait_put (s : State (ConsumerId → σ)) (i : ConsumerId) (c : Consumer) :
    (s.put i c).portrait i = { s.portrait i with consumer := some c } :=
  Portrait.ext rfl ((consumer?_put ..).trans (if_pos rfl)) rfl rfl rfl rfl rfl

theorem put_onlyTouches (s : State (ConsumerId → σ)) (i : ConsumerId) (c : Consumer) :
    s.OnlyTouches i (s.put i c) := fun _ hid =>
  Portrait.ext rfl ((consumer?_put ..).trans (if_neg fun h => hid h.symm)) rfl rfl rfl rfl rfl

theorem Alike.put (h : s.Alike i r) (c : Consumer) : (s.put i c).Alike i (r.put i c) :=
  ⟨h.now, by rw [portrait_put, portrait_put, h.portrait]⟩

/-- A client remembers something else. -/
def remember (s : State (ConsumerId → σ)) (i : ConsumerId) (own : σ) : State (ConsumerId → σ) :=
  { s with memory := Function.update s.memory i own }

theorem remember_onlyTouches (s : State (ConsumerId → σ)) (i : ConsumerId) (own : σ) :
    s.OnlyTouches i (s.remember i own) := fun _ hid =>
  Portrait.ext rfl rfl rfl rfl rfl (Function.update_of_ne hid ..) rfl

theorem Alike.remember (h : s.Alike i r) (own : σ) :
    (s.remember i own).Alike i (r.remember i own) := by
  have hmemory : ∀ s : State (ConsumerId → σ), (s.remember i own).memory i = own :=
    fun s => Function.update_self ..
  exact ⟨h.now, Portrait.ext h.policy h.consumer? h.life h.cached h.waiting
    ((hmemory r).trans (hmemory s).symm) h.record⟩

/-- What a program leads to: another consumer in the place of the registered one, and events. -/
def amend (s : State (ConsumerId → σ)) (i : ConsumerId) (c : Consumer) (new : Log) :
    State (ConsumerId → σ) :=
  { s.put i c with log := new ++ s.log }

theorem amend_onlyTouches (s : State (ConsumerId → σ)) {i : ConsumerId} (c : Consumer) {new : Log}
    (hnew : ∀ e ∈ new, e.who = some i) : s.OnlyTouches i (s.amend i c new) := by
  intro id hid
  refine Portrait.ext rfl (s.put_onlyTouches i c id hid ▸ rfl) rfl rfl rfl rfl ?_
  refine (Log.concerning_append ..).trans (congrArg (· ++ _) (Log.concerning_eq_nil fun e he => ?_))
  rw [hnew e he]
  exact fun h => hid (Option.some.inj h).symm

theorem Alike.amend (h : s.Alike i r) (c : Consumer) (new : Log) :
    (s.amend i c new).Alike i (r.amend i c new) := by
  have hput := h.put c
  refine ⟨h.now, Portrait.ext h.policy hput.consumer? h.life h.cached h.waiting h.memory ?_⟩
  exact (Log.concerning_append ..).trans ((congrArg (_ ++ ·) h.record).trans
    (Log.concerning_append ..).symm)

/-- Confirmations wait behind all others. -/
def await (s : State (ConsumerId → σ)) (started : List Confirmation) : State (ConsumerId → σ) :=
  { s with confirmations := s.confirmations ++ started }

theorem await_onlyTouches (s : State (ConsumerId → σ)) {started : List Confirmation}
    (hstarted : ∀ t ∈ started, t.id = i) : s.OnlyTouches i (s.await started) := by
  intro id hid
  have hothers : started.filter (fun t => t.id = id) = [] :=
    List.filter_eq_nil_iff.2 fun t ht => by
      rw [hstarted t ht, decide_eq_true_eq]
      exact fun h => hid h.symm
  refine Portrait.ext rfl rfl rfl rfl ?_ rfl rfl
  exact (List.filter_append ..).trans ((congrArg (_ ++ ·) hothers).trans (List.append_nil _))

theorem Alike.await (h : s.Alike i r) (started : List Confirmation) :
    (s.await started).Alike i (r.await started) := by
  refine ⟨h.now, Portrait.ext h.policy h.consumer? h.life h.cached ?_ h.memory h.record⟩
  exact (List.filter_append ..).trans ((congrArg (· ++ _) h.waiting).trans
    (List.filter_append ..).symm)

/-! ### Coming and going -/

theorem takeIn_onlyTouches (i : ConsumerId) (c : Consumer) (s : State (ConsumerId → σ)) :
    s.OnlyTouches i (Controller.takeIn i c s) := fun _ hid =>
  Portrait.ext rfl ((Controller.consumer?_takeIn ..).trans (if_neg fun h => hid h.symm)) rfl
    ((Cache.get?_drain ..).trans (if_neg fun h => hid h.symm)) rfl rfl rfl

theorem Alike.takeIn (h : s.Alike i r) (c : Consumer) :
    (Controller.takeIn i c s).Alike i (Controller.takeIn i c r) := by
  have hconsumer : ∀ s : State (ConsumerId → σ), (Controller.takeIn i c s).consumer? i = some c :=
    fun s => (Controller.consumer?_takeIn i i c s).trans (if_pos rfl)
  have hcached : ∀ s : State (ConsumerId → σ), (Controller.takeIn i c s).cache.get? i = none :=
    fun s => (Cache.get?_drain s.cache i i).trans (if_pos rfl)
  exact ⟨h.now, Portrait.ext h.policy ((hconsumer r).trans (hconsumer s).symm) h.life
    ((hcached r).trans (hcached s).symm) h.waiting h.memory h.record⟩

end State

/-! ### Transitions -/

/-- What carrying out a decision comes to for a consumer of a client that keeps to itself: the
outcome, what the client remembers, and what is put on record. -/
def Consumer.driveAlone (each : Environment σ) (now : Nat) (d : Decision) (life : Nat) (own : σ)
    (c : Consumer) : Outcome × σ × Log :=
  (c.drive now d).run each now ⟨c.client, life⟩ own []

namespace Controller

variable {config : Config} {each : Environment σ} {k k' : Controller (ConsumerId → σ)}
  {s s' r : State (ConsumerId → σ)} {i id : ConsumerId}

/-- **Carrying out a decision** concerns a consumer and its client, and nothing else. -/
theorem drive_alone (hk : k.Impartial config each) (d : Decision) {c : Consumer}
    (hreg : s.consumer? i = some c) (hclient : c.client.id = i) :
    k.drive d i s =
      let (o, own, new) := c.driveAlone each s.now d (s.life i) (s.memory i)
      ((s.remember i own).amend i o.consumer new).await
        (if o.leaving then [Confirmation.start config s.now (s.life i) o.consumer] else []) := by
  subst hclient
  rw [drive_eq_run, hreg, hk.config_eq, hk.separate]
  dsimp only
  rw [Program.run_separate, Program.waits_of_prompt hk.prompt.separate, Bool.or_false,
    Consumer.driveAlone]
  dsimp only [State.await, State.amend, State.remember, State.put]
  split
  · rfl
  · rw [List.append_nil]

/-- What a transition leads to stays with the client of the consumer. -/
theorem driveAlone_client (each : Environment σ) (now : Nat) (d : Decision) (life : Nat) (own : σ)
    (c : Consumer) : (c.driveAlone each now d life own).1.consumer.client = c.client := by
  obtain ⟨tr, hyields, -⟩ := Program.run_yields each now ⟨c.client, life⟩ (c.drive now d) own []
  exact (Consumer.transit_of_yields hyields).client_eq

theorem driveAlone_who (each : Environment σ) (now : Nat) (d : Decision) (life : Nat) (own : σ)
    (c : Consumer) : ∀ e ∈ (c.driveAlone each now d life own).2.2, e.who = some c.client.id :=
  Program.run_who each now ⟨c.client, life⟩ (c.drive now d) own

theorem drive_onlyTouches (hk : k.Impartial config each) (d : Decision) (hkeyed : s.Keyed) :
    s.OnlyTouches i (k.drive d i s) := by
  cases hreg : s.consumer? i with
  | none =>
    rw [drive_eq_run, hreg]
    exact .refl i s
  | some c =>
    have hclient := hkeyed i c hreg
    have hclient' := driveAlone_client each s.now d (s.life i) (s.memory i) c
    have hwho := driveAlone_who each s.now d (s.life i) (s.memory i) c
    rw [drive_alone hk d hreg hclient]
    generalize c.driveAlone each s.now d (s.life i) (s.memory i) = result at hclient' hwho
    obtain ⟨o, own, new⟩ := result
    rw [hclient] at hwho
    refine ((s.remember_onlyTouches i own).trans (State.amend_onlyTouches _ o.consumer hwho)).trans
      (State.await_onlyTouches _ fun t ht => ?_)
    split at ht
    · rw [List.mem_singleton.1 ht]
      exact (congrArg Client.id hclient').trans hclient
    · cases ht

theorem drive_alike (hk : k.Impartial config each) (hk' : k'.Impartial config each) (d : Decision)
    (hs : s.Keyed) (hr : r.Keyed) (h : s.Alike i r) :
    (k.drive d i s).Alike i (k'.drive d i r) := by
  cases hreg : s.consumer? i with
  | none =>
    rw [drive_eq_run, drive_eq_run, h.consumer?, hreg]
    exact h
  | some c =>
    have hreg' := h.consumer?.trans hreg
    rw [drive_alone hk d hreg (hs i c hreg), drive_alone hk' d hreg' (hr i c hreg'), h.now, h.life,
      h.memory]
    exact ((h.remember _).amend _ _).await _

/-! ### Evaluations -/

theorem evaluate_onlyTouches (hk : k.Impartial config each) (trigger : Trigger)
    (hkeyed : s.Keyed) : s.OnlyTouches i (k.evaluate trigger i s) := by
  cases hreg : s.consumer? i with
  | none =>
    rw [evaluate_outside, hreg]
    exact .refl i s
  | some c =>
    rw [evaluate_eq hk.builtin hreg trigger]
    exact (s.happen_onlyTouches i _).trans (drive_onlyTouches hk _ hkeyed)

theorem evaluate_alike (hk : k.Impartial config each) (hk' : k'.Impartial config each)
    (trigger : Trigger) (hs : s.Keyed) (hr : r.Keyed) (h : s.Alike i r) :
    (k.evaluate trigger i s).Alike i (k'.evaluate trigger i r) := by
  cases hreg : s.consumer? i with
  | none =>
    rw [evaluate_outside, evaluate_outside, h.consumer?, hreg]
    exact h
  | some c =>
    rw [evaluate_eq hk.builtin hreg trigger,
      evaluate_eq hk'.builtin (h.consumer?.trans hreg) trigger, h.policy]
    exact drive_alike hk hk' _ (s := s.happen (some i) _) (r := r.happen (some i) _) hs hr
      (h.happen _)

/-! ### What clients report -/

/-- Applying the changes that have waited touches nobody else. -/
theorem replay_onlyTouches (changes : List Change) (s : State (ConsumerId → σ)) :
    s.OnlyTouches i (replay i changes s) := by
  rw [replay]
  cases s.consumer? i with
  | none => exact .refl i s
  | some c =>
    have hput := s.put_onlyTouches i (c.replay changes).1
    dsimp only
    generalize s.put i (c.replay changes).1 = s₁ at hput
    induction (c.replay changes).2 generalizing s₁ with
    | nil => exact hput
    | cons result results ih =>
      cases result with
      | ok => exact ih s₁ hput
      | error e => exact ih _ (hput.trans (s₁.report_onlyTouches i _))

theorem replay_alike (changes : List Change) (h : s.Alike i r) :
    (replay i changes s).Alike i (replay i changes r) := by
  rw [replay, replay, h.consumer?]
  cases s.consumer? i with
  | none => exact h
  | some c =>
    have hput := h.put (c.replay changes).1
    dsimp only
    generalize s.put i (c.replay changes).1 = s₁ at hput
    generalize r.put i (c.replay changes).1 = r₁ at hput
    induction (c.replay changes).2 generalizing s₁ r₁ with
    | nil => exact hput
    | cons result results ih =>
      cases result with
      | ok => exact ih s₁ r₁ hput
      | error e => exact ih _ _ (hput.report _)

theorem enrol_onlyTouches (client : Client) (fresh : Consumer) (s : State (ConsumerId → σ)) :
    s.OnlyTouches client.id (enrol client fresh s) :=
  ((s.takeIn_onlyTouches client.id fresh).trans (replay_onlyTouches _ _)).trans
    (State.report_onlyTouches _ _ _)

theorem enrol_alike (client : Client) (fresh : Consumer) (h : s.Alike client.id r) :
    (enrol client fresh s).Alike client.id (enrol client fresh r) := by
  rw [enrol, enrol, h.cached]
  exact (replay_alike _ (h.takeIn fresh)).report _

theorem record_onlyTouches (change : Change) (s : State (ConsumerId → σ)) :
    s.OnlyTouches i { s with cache := s.cache.record i change } := fun _ hid =>
  Portrait.ext rfl rfl rfl ((Cache.get?_record ..).trans (if_neg fun h => hid h.symm)) rfl rfl rfl

theorem record_alike (change : Change) (h : s.Alike i r) :
    State.Alike i { s with cache := s.cache.record i change }
      { r with cache := r.cache.record i change } := by
  have hcached : ∀ s : State (ConsumerId → σ), (s.cache.record i change).get? i =
      some ((s.cache.get? i).getD [] ++ [change]) :=
    fun s => (Cache.get?_record ..).trans (if_pos rfl)
  refine ⟨h.now, Portrait.ext h.policy h.consumer? h.life ?_ h.waiting h.memory h.record⟩
  exact (hcached r).trans (h.cached ▸ (hcached s).symm)

theorem drain_onlyTouches (s : State (ConsumerId → σ)) :
    s.OnlyTouches i { s with cache := (s.cache.drain i).2 } := fun _ hid =>
  Portrait.ext rfl rfl rfl ((Cache.get?_drain ..).trans (if_neg fun h => hid h.symm)) rfl rfl rfl

theorem drain_alike (h : s.Alike i r) :
    State.Alike i { s with cache := (s.cache.drain i).2 }
      { r with cache := (r.cache.drain i).2 } := by
  have hcached : ∀ s : State (ConsumerId → σ), (s.cache.drain i).2.get? i = none :=
    fun s => (Cache.get?_drain ..).trans (if_pos rfl)
  exact ⟨h.now, Portrait.ext h.policy h.consumer? h.life ((hcached r).trans (hcached s).symm)
    h.waiting h.memory h.record⟩

theorem dismiss_onlyTouches (i : ConsumerId) (c : Consumer) (s : State (ConsumerId → σ)) :
    s.OnlyTouches i (dismiss i c s) := by
  intro id hid
  have hne : i ≠ id := fun h => hid h.symm
  refine Portrait.ext rfl ?_ ?_ (drain_onlyTouches s id hid ▸ rfl) rfl rfl ?_
  · exact (consumer?_dismiss i id c s).trans (if_neg hne)
  · exact (s.length_departedWith i id c).trans (if_neg hne)
  · exact Log.concerning_cons_of_ne s.log s.now _ fun h => hne (Option.some.inj h)

theorem dismiss_alike (c : Consumer) (h : s.Alike i r) :
    (dismiss i c s).Alike i (dismiss i c r) := by
  have hconsumer : ∀ s : State (ConsumerId → σ), (dismiss i c s).consumer? i = none :=
    fun s => (consumer?_dismiss i i c s).trans (if_pos rfl)
  have hlife : (dismiss i c r).life i = (dismiss i c s).life i := by
    rw [life_dismiss, life_dismiss, h.life]
  have hremoved : State.Alike i
      { s with
        cache := (s.cache.drain i).2
        registry := (s.registry.remove i).2
        departed := s.departedWith i c }
      { r with
        cache := (r.cache.drain i).2
        registry := (r.registry.remove i).2
        departed := r.departedWith i c } :=
    ⟨h.now, Portrait.ext h.policy ((hconsumer r).trans (hconsumer s).symm) hlife
      (drain_alike h).cached h.waiting h.memory h.record⟩
  exact hremoved.report _

/-- What a client reports touches nobody else. -/
theorem Treatment.onlyTouches (hk : k.Impartial config each) {client : Client} {e : LifecycleEvent}
    (htreated : k.Treatment s (.lifecycle client e) s') (hs : s.Tidy) :
    s.OnlyTouches client.id s' := by
  have hevaluated : ∀ {trigger : Trigger} {s₁ : State (ConsumerId → σ)}, s₁.Keyed →
      s₁.OnlyTouches client.id (k.evaluate trigger client.id s₁) :=
    fun hkeyed => evaluate_onlyTouches hk _ hkeyed
  cases htreated with
  | rejected hwrap => exact s.report_onlyTouches client.id _
  | restarted hwrap hreg =>
    have hkeyed : (s.report client.id .startedTwice).Keyed := hs.keyed
    exact (s.report_onlyTouches client.id _).trans (hevaluated hkeyed)
  | enrolled hwrap hfree =>
    exact (enrol_onlyTouches client _ s).trans (hevaluated (enrol_tidy hwrap hs).keyed)
  | unusable => exact s.report_onlyTouches client.id _
  | refused => exact s.report_onlyTouches client.id _
  | revised hchange hreg happly =>
    exact (s.put_onlyTouches client.id _).trans (hevaluated (put_tidy hs hreg happly).keyed)
  | cached => exact (record_onlyTouches _ s).trans (State.report_onlyTouches _ _ _)
  | unknown => exact (drain_onlyTouches s).trans (State.report_onlyTouches _ _ _)
  | dismissed => exact dismiss_onlyTouches client.id _ s
  | swept hpolicy => cases hpolicy

theorem start_alike (hk : k.Impartial config each) (hk' : k'.Impartial config each)
    {client : Client} (hs : s.Tidy) (hr : r.Tidy) (h : s.Alike client.id r) :
    (k.start client s).Alike client.id (k'.start client r) := by
  cases hwrap : Consumer.wrap client with
  | error error =>
    rw [start_of_error k hwrap, start_of_error k' hwrap]
    exact h.report _
  | ok fresh =>
    cases hreg : s.consumer? client.id with
    | some c =>
      rw [start_of_registered k hwrap hreg,
        start_of_registered k' hwrap (h.consumer?.trans hreg)]
      exact evaluate_alike hk hk' _ hs.keyed hr.keyed (h.report _)
    | none =>
      rw [start_of_free k hwrap hreg, start_of_free k' hwrap (h.consumer?.trans hreg)]
      exact evaluate_alike hk hk' _ (enrol_tidy hwrap hs).keyed (enrol_tidy hwrap hr).keyed
        (enrol_alike client fresh h)

theorem change_alike (hk : k.Impartial config each) (hk' : k'.Impartial config each)
    (change : Change) (hs : s.Tidy) (hr : r.Tidy) (h : s.Alike i r) :
    (k.change i change s).Alike i (k'.change i change r) := by
  cases hreg : s.consumer? i with
  | none =>
    rw [change_of_free k change hs hreg, change_of_free k' change hr (h.consumer?.trans hreg)]
    exact (record_alike change h).report _
  | some c =>
    have hreg' := h.consumer?.trans hreg
    rw [change_of_registered k change hs hreg, change_of_registered k' change hr hreg']
    cases happly : c.apply change with
    | error error => exact h.report _
    | ok c' =>
      exact evaluate_alike hk hk' _ (put_tidy hs hreg happly).keyed
        (put_tidy hr hreg' happly).keyed (h.put c')

theorem shutdown_alike {client : Client} (h : s.Alike client.id r) :
    (shutdown client s).2.Alike client.id (shutdown client r).2 := by
  cases hreg : s.consumer? client.id with
  | none =>
    rw [shutdown_of_free hreg, shutdown_of_free (h.consumer?.trans hreg)]
    exact (drain_alike h).report _
  | some c =>
    rw [shutdown_of_registered hreg, shutdown_of_registered (h.consumer?.trans hreg)]
    exact dismiss_alike c h

/-- What a client reports is dealt with in the same way wherever its consumer looks the same. -/
theorem lifecycle_alike (hk : k.Impartial config each) (hk' : k'.Impartial config each)
    {client : Client} (e : LifecycleEvent) (hs : s.Tidy) (hr : r.Tidy)
    (h : s.Alike client.id r) :
    (k.lifecycle client e s).Alike client.id (k'.lifecycle client e r) := by
  cases e with
  | start => exact start_alike hk hk' hs hr h
  | shutdown => exact shutdown_alike h
  | subscribe topic =>
    rw [lifecycle_subscribe, lifecycle_subscribe]
    split
    · exact h.report _
    · exact change_alike hk hk' _ hs hr h
  | unsubscribe topic =>
    rw [lifecycle_unsubscribe, lifecycle_unsubscribe]
    split
    · exact h.report _
    · exact change_alike hk hk' _ hs hr h
  | assign queues =>
    rw [lifecycle_assign, lifecycle_assign]
    split
    · exact h.report _
    · exact change_alike hk hk' _ hs hr h

/-! ### Policies -/

theorem revisit_onlyTouches (hk : k.Impartial config each) (hkeyed : s.Keyed) :
    s.OnlyTouches i (k.revisit s i) := by
  rw [revisit_outside]
  split
  · exact .refl i s
  · split
    · exact s.report_onlyTouches i _
    · exact evaluate_onlyTouches hk _ hkeyed

theorem revisit_alike (hk : k.Impartial config each) (hk' : k'.Impartial config each)
    (hs : s.Keyed) (hr : r.Keyed) (h : s.Alike i r) :
    (k.revisit s i).Alike i (k'.revisit r i) := by
  rw [revisit_outside, revisit_outside, h.consumer?]
  split
  · exact h
  · split
    · exact h.report _
    · exact evaluate_alike hk hk' _ hs hr h

theorem portrait_sweep_of_not_mem (hk : k.Impartial config each) (ids : List ConsumerId) :
    ∀ {s : State (ConsumerId → σ)}, id ∉ ids → s.Tidy →
      (k.sweep ids s).portrait id = s.portrait id := by
  induction ids with
  | nil => exact fun _ _ => rfl
  | cons i is ih =>
    intro s hid hs
    exact (ih (List.not_mem_of_not_mem_cons hid) ((revisit_tended k i hs).tidy hs)).trans
      (revisit_onlyTouches hk hs.keyed id (List.ne_of_not_mem_cons hid))

/-- **Whom a sweep visits before and after makes no difference** to a consumer that it visits. -/
theorem portrait_sweep_of_mem (hk : k.Impartial config each) (ids : List ConsumerId) :
    ∀ {s : State (ConsumerId → σ)}, ids.Nodup → id ∈ ids → s.Tidy →
      (k.sweep ids s).portrait id = (k.revisit s id).portrait id := by
  induction ids with
  | nil => exact fun _ hid => absurd hid List.not_mem_nil
  | cons i is ih =>
    intro s hnodup hid hs
    obtain ⟨hi, hrest⟩ := List.nodup_cons.1 hnodup
    have hs₁ := (revisit_tended k i hs).tidy hs
    by_cases heq : id = i
    · subst heq
      exact portrait_sweep_of_not_mem hk is hi hs₁
    · have hmem := (List.mem_cons.1 hid).resolve_left heq
      have hfirst : s.Alike id (k.revisit s i) :=
        ⟨(revisit_acts (P := fun _ => True) (f := none) trivial).still.now,
          revisit_onlyTouches hk hs.keyed id heq⟩
      exact (ih hrest hmem hs₁).trans (revisit_alike hk hk hs.keyed hs₁.keyed hfirst).portrait

/-- The state in which the sweep for a new policy begins. -/
def announced (p : Policy) (s : State (ConsumerId → σ)) : State (ConsumerId → σ) :=
  { (install p s).happen none (.notice (.sweepStarted (install p s).registry.size)) with
    sweeps := s.sweeps + 1 }

theorem portrait_announced (p : Policy) (s : State (ConsumerId → σ)) (id : ConsumerId) :
    (announced p s).portrait id =
      { s.portrait id with policy := (s.policy.replace p.normalized).2 } := by
  have hhappened := ((install p s).portrait_happen_none
    (.notice (.sweepStarted (install p s).registry.size)) id).trans (congrArg
      (fun q : Portrait σ => { q with policy := (s.policy.replace p.normalized).2 })
      (s.portrait_happen_none (.notice (.policyUpdated p.normalized.enabled)) id))
  exact hhappened

/-- A new policy reaches every consumer as if there were no other ones. -/
theorem portrait_updatePolicy (hk : k.Impartial config each) (p : Policy) (id : ConsumerId)
    (hs : s.Tidy) :
    (k.updatePolicy p s).portrait id = (k.revisit (announced p s) id).portrait id := by
  have htidy : (announced p s).Tidy := hs.of_eq rfl rfl
  cases hreg : s.consumer? id with
  | some c =>
    obtain ⟨hmem, hnodup⟩ := mem_sweepOrder k hreg s.sweeps
    exact portrait_sweep_of_mem hk _ (s := announced p s) hnodup hmem htidy
  | none =>
    have hmem : id ∉ k.sweepOrder s.sweeps s.registry.ids := by
      rw [(k.sweepOrder_perm ..).mem_iff, Registry.mem_ids,
        show s.registry.lookup id = none from hreg]
      exact Bool.false_ne_true
    rw [revisit_outside, show (announced p s).consumer? id = none from hreg]
    exact portrait_sweep_of_not_mem hk _ (s := announced p s) hmem htidy

/-- **A new policy does the same to a consumer wherever it looks the same**, whichever other
consumers there are, and in whichever order they are visited. -/
theorem portrait_updatePolicy_eq (hk : k.Impartial config each) (hk' : k'.Impartial config each)
    (p : Policy) (hs : s.Tidy) (hr : r.Tidy) (h : s.Alike id r) :
    (k'.updatePolicy p r).portrait id = (k.updatePolicy p s).portrait id := by
  have hannounced : (announced p s).Alike id (announced p r) :=
    ⟨h.now, by rw [portrait_announced, portrait_announced, h.portrait, h.policy]⟩
  rw [portrait_updatePolicy hk' p id hr, portrait_updatePolicy hk p id hs]
  have hs₁ : (announced p s).Keyed := hs.keyed
  have hr₁ : (announced p r).Keyed := hr.keyed
  exact (revisit_alike hk hk' hs₁ hr₁ hannounced).portrait

end Controller

/-! ### Hooks -/

/-- Whether a hook is meant for a consumer.  Policies are meant for all. -/
def Hook.isFor (id : ConsumerId) : Hook → Bool
  | .lifecycle client _ => client.id = id
  | .policyUpdate _ => true
  | .policyDelivery _ => true
  | .policyDocument _ => true

namespace Controller

variable {config : Config} {each : Environment σ} {k k' : Controller (ConsumerId → σ)}
  {s s' r : State (ConsumerId → σ)} {i id : ConsumerId}

/-- A hook that is not meant for a consumer does not touch it. -/
theorem portrait_receive (hk : k.Impartial config each) (within : Option Confirmation) {h : Hook}
    (hfor : h.isFor id = false) (hs : s.Tidy) :
    (k.receive within s h).portrait id = s.portrait id := by
  cases h with
  | lifecycle client e =>
    have htreated := receive_treated k within (.lifecycle client e) hs
    have htouched := htreated.onlyTouches hk (hs.of_eq rfl rfl)
    exact htouched id fun heq => of_decide_eq_false hfor heq.symm
  | policyUpdate p => cases hfor
  | policyDelivery p => cases hfor
  | policyDocument text => cases hfor

/-- **A hook that is meant for a consumer does the same to it wherever it looks the same.** -/
theorem receive_alike (hk : k.Impartial config each) (hk' : k'.Impartial config each)
    (within within' : Option Confirmation) {h : Hook} (hfor : h.isFor id = true) (hs : s.Tidy)
    (hr : r.Tidy) (halike : s.Alike id r) :
    (k.receive within s h).Alike id (k'.receive within' r h) := by
  have hs₁ : State.Tidy { s with received := .hook h within :: s.received } := hs.of_eq rfl rfl
  have hr₁ : State.Tidy { r with received := .hook h within' :: r.received } := hr.of_eq rfl rfl
  have halike₁ : State.Alike id { s with received := .hook h within :: s.received }
      { r with received := .hook h within' :: r.received } := ⟨halike.now, halike.portrait⟩
  refine ⟨?_, ?_⟩
  · rw [(receive_still k' within' r h).now, (receive_still k within s h).now, halike.now]
  · cases h with
    | lifecycle client e =>
      obtain rfl : client.id = id := of_decide_eq_true hfor
      exact (lifecycle_alike hk hk' e hs₁ hr₁ halike₁).portrait
    | policyUpdate p => exact portrait_updatePolicy_eq hk hk' p hs₁ hr₁ halike₁
    | policyDelivery p => exact portrait_updatePolicy_eq hk hk' p hs₁ hr₁ halike₁
    | policyDocument text =>
      rw [receive, receive, deliver_policyDocument, deliver_policyDocument,
        updatePolicyDocument_outside, updatePolicyDocument_outside]
      cases Policy.ofDocument text with
      | error e => exact halike₁.portrait
      | ok p => exact portrait_updatePolicy_eq hk hk' p hs₁ hr₁ halike₁

end Controller

end Embargo
