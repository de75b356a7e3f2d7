import Embargo.Proofs.Coherence

/-!
# What holds of a consumer, whatever is done to it

Seven kinds of operation share the mode, the topics and the queues of a consumer, and they do not
all fix the mode: a pull client that drops a topic before it has any still chooses.  Here no
controller takes part; a history is any list of operations, each at its own time.

* `Change.mode`, `Operation.mode?` — the mode that an operation is meant for;
* `Consumer.operate_eq_error_iff` — an operation fails when it meets the opposite mode, and only
  then;
* `Consumer.afterAll`, `Consumer.performed` — the consumer after a history, and the operations of
  the history that did not fail;
* `Consumer.Shaped` — **the invariant**: mode, topics and queues fit together, and the queues are
  those of the last assignment performed;
* `Consumer.Shaped.perform` — every operation that is performed keeps it;
* `Consumer.representation` — the whole of it, for every client and every history.
-/

namespace Embargo

/-- The mode that a change is meant for. -/
def Change.mode : Change → Mode
  | .subscribe _ => .subscribe
  | .unsubscribe _ => .subscribe
  | .assign _ => .assign

namespace Operation

/-- The mode that an operation is meant for. -/
def mode? : Operation → Option Mode
  | .change c => some c.mode
  | _ => none

/-- The queues that an operation hands over. -/
def queues? : Operation → Option (List Queue)
  | .change (.assign queues) => some queues
  | _ => none

/-- Whether an operation begins a new epoch. -/
def isTurn : Operation → Bool
  | .transition _ => true
  | .markShutDown => true
  | _ => false

end Operation

namespace Consumer

variable {client : Client} {c c' : Consumer} {now : Nat} {op : Operation} {m : Mode}

/-! ### When an operation fails -/

theorem claim_eq_error_iff {requested : Mode} {e : Error} : c.claim requested = .error e ↔
    ∃ current, c.mode = some current ∧ current ≠ requested ∧
      e = .modeConflict c.id current requested := by
  rw [claim]
  cases hmode : c.mode with
  | none => simp
  | some current =>
    by_cases hcurrent : current = requested
    · simp [hcurrent]
    · simp [hcurrent, eq_comm (a := e)]

/-- A consumer refuses a change that is meant for the mode it does not have. -/
theorem apply_eq_error_iff {change : Change} {e : Error} : c.apply change = .error e ↔
    ∃ current, c.mode = some current ∧ current ≠ change.mode ∧
      e = .modeConflict c.id current change.mode := by
  cases change with
  | subscribe topic =>
    show c.subscribe topic = .error e ↔ _
    rw [Change.mode, ← claim_eq_error_iff, subscribe]
    cases c.claim .subscribe <;> simp
  | assign queues =>
    show c.assign queues = .error e ↔ _
    rw [Change.mode, ← claim_eq_error_iff, assign]
    cases c.claim .assign <;> simp
  | unsubscribe topic =>
    -- it fixes no mode, so that it does not ask for one either
    show c.unsubscribe topic = .error e ↔ _
    rw [Change.mode, unsubscribe]
    rcases hmode : c.mode with _ | (_ | _) <;> simp [eq_comm]

/-- **An operation fails when it is meant for one mode and meets the other**, and for no other
reason. -/
theorem operate_eq_error_iff {e : Error} : c.operate now op = .error e ↔
    ∃ current requested, c.mode = some current ∧ op.mode? = some requested ∧
      current ≠ requested ∧ e = .modeConflict c.id current requested := by
  cases op with
  | change change =>
    show c.apply change = .error e ↔ _
    rw [apply_eq_error_iff]
    simp [Operation.mode?]
  | _ => simp [operate, Operation.mode?]

theorem after_of_ok (h : c.operate now op = .ok c') : c.after now op = c' := by
  simp only [after, h]

theorem after_of_error {e : Error} (h : c.operate now op = .error e) : c.after now op = c := by
  simp only [after, h]

/-! ### One operation -/

/-- A change leaves state and epoch alone, and only fixes a mode that is not fixed yet. -/
theorem operate_change {change : Change} (h : c.operate now (.change change) = .ok c') :
    c'.client = c.client ∧ c'.state = c.state ∧ c'.epoch = c.epoch ∧
      (c.mode = none ∨ c'.mode = c.mode) := by
  have happly : c.apply change = .ok c' := h
  obtain ⟨mode, topics, assigned, rfl, hmode⟩ := apply_frame happly
  exact ⟨rfl, rfl, rfl, hmode⟩

/-- A mode that is fixed stays. -/
theorem mode_after (h : c.mode = some m) : (c.after now op).mode = some m := by
  cases hop : c.operate now op with
  | error e => rw [after_of_error hop, h]
  | ok c' =>
    rw [after_of_ok hop]
    cases op with
    | change change =>
      obtain ⟨-, -, -, hnone | hmode⟩ := operate_change hop
      · rw [h] at hnone
        cases hnone
      · rw [hmode, h]
    | _ => cases hop; exact h

/-- Only transitions move a consumer to another state. -/
theorem state_after (h : ∀ state, op ≠ .transition state) : (c.after now op).state = c.state := by
  cases hop : c.operate now op with
  | error e => rw [after_of_error hop]
  | ok c' =>
    rw [after_of_ok hop]
    cases op with
    | change change => exact (operate_change hop).2.1
    | transition state => exact absurd rfl (h state)
    | _ => cases hop; rfl

/-- Transitions and the shutdown begin an epoch, nothing else does. -/
theorem epoch_after : (c.after now op).epoch = c.epoch + if op.isTurn then 1 else 0 := by
  cases hop : c.operate now op with
  | error e =>
    rw [after_of_error hop]
    cases op with
    | change change => simp [Operation.isTurn]
    | _ => cases hop
  | ok c' =>
    rw [after_of_ok hop]
    cases op with
    | change change => simp [Operation.isTurn, (operate_change hop).2.2.1]
    | _ => cases hop; rfl

/-! ### Histories -/

/-- A consumer after operations, each at its own time; those that fail leave it as it is. -/
def afterAll (c : Consumer) (ops : List (Nat × Operation)) : Consumer :=
  ops.foldl (fun c op => c.after op.1 op.2) c

/-- The operations among these that a consumer performs: those that do not fail. -/
def performed (c : Consumer) : List (Nat × Operation) → List Operation
  | [] => []
  | (now, op) :: rest =>
      match c.operate now op with
      | .error _ => c.performed rest
      | .ok c => op :: c.performed rest

theorem afterAll_cons (c : Consumer) (op : Nat × Operation) (rest : List (Nat × Operation)) :
    c.afterAll (op :: rest) = (c.after op.1 op.2).afterAll rest := rfl

/-- The mode is fixed once for all. -/
theorem mode_afterAll (ops : List (Nat × Operation)) (h : c.mode = some m) :
    (c.afterAll ops).mode = some m := by
  induction ops generalizing c with
  | nil => exact h
  | cons op rest ih =>
    rw [afterAll_cons]
    exact ih (mode_after h)

/-- The epoch counts the transitions and the shutdowns. -/
theorem epoch_afterAll (ops : List (Nat × Operation)) :
    (c.afterAll ops).epoch = c.epoch + ops.countP (·.2.isTurn) := by
  induction ops generalizing c with
  | nil => rfl
  | cons op rest ih =>
    rw [afterAll_cons, ih, epoch_after, List.countP_cons]
    omega

/-! ### The invariant -/

/-- Mode, topics and queues of a consumer of a client fit together, and with the operations that
it has performed. -/
structure Shaped (client : Client) (history : List Operation) (c : Consumer) : Prop where
  client_eq : c.client = client
  push : client.kind = .push → c.mode = some .subscribe
  modeless : c.mode = none → c.topics = ∅
  unassigned : c.mode ≠ some .assign → c.assigned = ∅
  /-- In the mode `assign` the topics are those of the queues, and the queues are those that the
  last assignment handed over. -/
  assigned : c.mode = some .assign → c.topics = c.assigned.topics ∧
    ∃ queues, history.reverse.findSome? Operation.queues? = some queues ∧
      c.assigned = QueueSet.ofList queues

theorem shaped_of_wrap (h : wrap client = .ok c) : c.Shaped client [] := by
  have hpush := mode_of_wrap h
  obtain ⟨group, mode, hmode, rfl⟩ := wrap_eq_ok h
  exact {
    client_eq := rfl
    push := hpush
    modeless := by intro _; rfl
    unassigned := by intro _; rfl
    assigned := by intro hassign; exact absurd hassign hmode }

variable {history : List Operation}

/-- An operation that hands over no queues is not the last one that does. -/
theorem findSome?_queues?_snoc (h : op.queues? = none) :
    (history ++ [op]).reverse.findSome? Operation.queues? =
      history.reverse.findSome? Operation.queues? := by
  rw [List.reverse_append, List.reverse_singleton, List.singleton_append, List.findSome?_cons, h]

/-- An operation that touches neither mode nor topics nor queues keeps the invariant. -/
theorem Shaped.of_eq (h : c.Shaped client history) (hclient : c'.client = c.client)
    (hmode : c'.mode = c.mode) (htopics : c'.topics = c.topics)
    (hassigned : c'.assigned = c.assigned) (hop : op.queues? = none) :
    c'.Shaped client (history ++ [op]) where
  client_eq := hclient.trans h.client_eq
  push := by rw [hmode]; exact h.push
  modeless := by rw [hmode, htopics]; exact h.modeless
  unassigned := by rw [hmode, hassigned]; exact h.unassigned
  assigned := by
    rw [hmode, htopics, hassigned, findSome?_queues?_snoc hop]
    exact h.assigned

/-- A consumer that is not in the mode `assign` has the invariant as soon as it has no queues. -/
theorem Shaped.of_subscribing (hclient : c.client = client) (hmode : c.mode = some .subscribe)
    (hassigned : c.assigned = ∅) : c.Shaped client history where
  client_eq := hclient
  push := by intro _; exact hmode
  modeless := by rw [hmode]; simp
  unassigned := by intro _; exact hassigned
  assigned := by rw [hmode]; simp

/-- **Every operation that is performed keeps the invariant.** -/
theorem Shaped.perform (h : c.Shaped client history) (hop : c.operate now op = .ok c') :
    c'.Shaped client (history ++ [op]) := by
  cases op with
  | markPaused | markResumed | markShutDown | transition =>
    cases hop
    exact h.of_eq rfl rfl rfl rfl rfl
  | change change =>
    replace hop : c.apply change = .ok c' := hop
    cases change with
    | subscribe topic =>
      rw [apply, subscribe] at hop
      cases hclaim : c.claim .subscribe with
      | error e => rw [hclaim] at hop; cases hop
      | ok c₁ =>
        rw [hclaim] at hop
        cases hop
        obtain ⟨rfl, hmode⟩ := claim_eq_ok hclaim
        have hunassigned : c.assigned = ∅ := by
          apply h.unassigned
          rcases hmode with hmode | hmode <;> simp [hmode]
        exact .of_subscribing h.client_eq rfl hunassigned
    | unsubscribe topic =>
      rw [apply, unsubscribe] at hop
      split at hop
      · cases hop
      · rename_i hmode
        cases hop
        -- what is dropped from no topics leaves no topics
        exact {
          client_eq := h.client_eq
          push := h.push
          modeless := by
            intro hnone
            show c.topics.erase topic = ∅
            rw [h.modeless hnone]
            simp
          unassigned := h.unassigned
          assigned := by intro hassign; exact absurd hassign hmode }
    | assign queues =>
      rw [apply, assign] at hop
      cases hclaim : c.claim .assign with
      | error e => rw [hclaim] at hop; cases hop
      | ok c₁ =>
        rw [hclaim] at hop
        cases hop
        obtain ⟨rfl, hmode⟩ := claim_eq_ok hclaim
        exact {
          client_eq := h.client_eq
          push := by
            -- the mode of a push client is fixed from the beginning, and it is the other one
            intro hkind
            rcases hmode with hmode | hmode
            · cases hmode.symm.trans (h.push hkind)
            · cases hmode.symm.trans (h.push hkind)
          modeless := by intro hnone; cases hnone
          unassigned := by intro hassign; exact absurd rfl hassign
          assigned := by
            intro _
            refine ⟨rfl, queues, ?_, rfl⟩
            rw [List.reverse_append]
            rfl }

/-- A history keeps the invariant, step by step. -/
theorem Shaped.afterAll (ops : List (Nat × Operation)) (h : c.Shaped client history) :
    (c.afterAll ops).Shaped client (history ++ c.performed ops) := by
  induction ops generalizing c history with
  | nil =>
    rw [performed, List.append_nil]
    exact h
  | cons op rest ih =>
    obtain ⟨now, op⟩ := op
    rw [afterAll_cons]
    cases hop : c.operate now op with
    | error e =>
      simpa only [performed, hop, after_of_error hop] using ih h
    | ok c' =>
      simpa only [performed, hop, after_of_ok hop, List.append_assoc, List.singleton_append]
        using ih (h.perform hop)

/-! ### Every client, every history -/

/-- **What is done to a consumer never breaks its representation**, whatever it is and whenever it
is done: the mode is fixed once, and for push clients from the beginning; topics and queues fit the
mode; nothing fails but what meets the opposite mode, and that changes nothing; state and epoch are
moved by nothing but what is meant to move them. -/
theorem representation {c₀ : Consumer} (h : wrap client = .ok c₀)
    (ops : List (Nat × Operation)) :
    (c₀.afterAll ops).Shaped client (c₀.performed ops) ∧
    (∀ mode, (c₀.afterAll ops).mode = some mode →
      ∀ later, (c₀.afterAll (ops ++ later)).mode = some mode) ∧
    (∀ now op e, (c₀.afterAll ops).operate now op = .error e ↔
      ∃ current requested, (c₀.afterAll ops).mode = some current ∧
        op.mode? = some requested ∧ current ≠ requested ∧
        e = .modeConflict client.id current requested) ∧
    (∀ now op e, (c₀.afterAll ops).operate now op = .error e →
      c₀.afterAll (ops ++ [(now, op)]) = c₀.afterAll ops) ∧
    (∀ now op, (∀ state, op ≠ .transition state) →
      (c₀.afterAll (ops ++ [(now, op)])).state = (c₀.afterAll ops).state) ∧
    (c₀.afterAll ops).epoch = ops.countP (·.2.isTurn) := by
  have happend : ∀ later, c₀.afterAll (ops ++ later) = (c₀.afterAll ops).afterAll later := by
    intro later
    exact List.foldl_append
  have hshaped : (c₀.afterAll ops).Shaped client (c₀.performed ops) :=
    (shaped_of_wrap h).afterAll ops
  have hepoch : c₀.epoch = 0 := by
    obtain ⟨group, mode, -, rfl⟩ := wrap_eq_ok h
    rfl
  refine ⟨hshaped, ?_, ?_, ?_, ?_, ?_⟩
  · intro mode hmode later
    rw [happend]
    exact mode_afterAll later hmode
  · intro now op e
    rw [operate_eq_error_iff, Consumer.id, hshaped.client_eq]
  · intro now op e hop
    rw [happend]
    exact after_of_error hop
  · intro now op hop
    rw [happend]
    exact state_after hop
  · rw [epoch_afterAll, hepoch, Nat.zero_add]

/-- What is done to a worker on one morning: it drops a topic that it does not have, is handed a
queue, asks for a topic in vain, is suspended, and is handed another queue. -/
def morning : List (Nat × Operation) :=
  [(1, .change (.unsubscribe "t")), (2, .change (.assign [⟨"t", "b", 0⟩])),
    (3, .change (.subscribe "u")), (4, .transition .suspended),
    (5, .change (.assign [⟨"v", "b", 1⟩]))]

/-- A pull client may drop a topic before it chooses.  Once it is handed queues it cannot subscribe
any more, and it is its latest queues that count. -/
theorem representation_of_worker :
    ∃ c₀ c, wrap Rehearsal.worker = .ok c₀ ∧ c = c₀.afterAll morning ∧
      c.mode = some .assign ∧ c.assigned = QueueSet.ofList [⟨"v", "b", 1⟩] ∧
      c.topics = c.assigned.topics ∧ c.epoch = 1 ∧
      c.operate 6 (.change (.subscribe "u")) =
        .error (.modeConflict Rehearsal.worker.id .assign .subscribe) := by
  obtain ⟨c₀, hwrap, hmode, hperformed⟩ : ∃ c₀, wrap Rehearsal.worker = .ok c₀ ∧
      (c₀.afterAll morning).mode = some .assign ∧
      c₀.performed morning = [.change (.unsubscribe "t"), .change (.assign [⟨"t", "b", 0⟩]),
        .transition .suspended, .change (.assign [⟨"v", "b", 1⟩])] :=
    ⟨_, rfl, rfl, rfl⟩
  obtain ⟨hshaped, -, hfails, -, -, hepoch⟩ := representation hwrap morning
  obtain ⟨htopics, queues, hlast, hassigned⟩ := hshaped.assigned hmode
  rw [hperformed] at hlast
  cases hlast
  exact ⟨c₀, _, hwrap, rfl, hmode, hassigned, htopics, hepoch,
    (hfails _ _ _).2 ⟨_, _, hmode, rfl, by decide, rfl⟩⟩

end Consumer

end Embargo
