import Embargo.Proofs.Attendance
import Embargo.Proofs.Reception

/-!
# The moves of a controller

A run is a row of moves, each of which is finished before the next one begins: a hook is received,
an operator drives a consumer, a confirmation goes on, time passes.  What holds of whole states, and
cannot be told of one identity alone, is proved by moves.  The only move with an inside is that of a
confirmation, since the client that is asked may deliver hooks.

* `Controller.Move`, `Controller.Moves` — one move, and any number of them;
* `Controller.run_moves`, `Controller.Reachable.moves` — every run is made of moves;
* `Controller.InOrder` — all that is known of any state between moves, which every move keeps;
* `Confirmation.Utters` — what a confirmation puts on record when it asks;
* `Controller.KeptDuring` — what keeps a property through the turn of a confirmation;
* `Controller.KeptBy`, `Controller.Kept` — what keeps a property through everything that moves are
  made of, while some confirmations act, or any of them;
* `Controller.KeptBy.moves`, `Controller.Kept.reachable` — and so through all moves, and every run.
-/

namespace Embargo

variable {ω : Type}

/-- What a confirmation puts on record when it asks, and what clients remember then. -/
inductive Confirmation.Utters (t : Confirmation) (k : Controller ω) (s : State ω) :
    ω → Occurrence → Prop where
  | notice (n : Notice) : Utters t k s s.memory (.notice n)
  | asked (topic : String) (ok : Bool) :
      Utters t k s (k.environment.query s.memory s.now t.client topic t.group).2
        (.call t.client t.life (.findMembers topic t.group) ok)
  | answered (topic : String) (members : List String) :
      Utters t k s (k.environment.members s.memory s.now t.client topic t.group).2
        (.listing t.client t.life topic t.group members)

namespace Controller

variable {k : Controller ω} {s s' : State ω} {t : Confirmation}

/-! ### Moves -/

/-- What a run is made of. -/
inductive Move (k : Controller ω) : State ω → State ω → Prop where
  | receive {s : State ω} (h : Hook) : Move k s (k.receive none s h)
  | order {s : State ω} (id : ConsumerId) (d : Decision) :
      Move k s (k.drive d id { s with received := .order id d :: s.received })
  | goOn {s : State ω} {limit : Option Nat} {t : Confirmation} {waiting : List Confirmation}
      (hnext : Confirmation.takeNext limit s.confirmations = some (t, waiting)) :
      Move k s (k.goOn t waiting s)
  /-- Time passes, but not beyond a confirmation that waits. -/
  | tick {s : State ω} {now : Nat} (hle : s.now ≤ now)
      (hdue : now = s.now ∨ ∀ t ∈ s.confirmations, now ≤ t.due) : Move k s { s with now }

/-- Any number of moves. -/
abbrev Moves (k : Controller ω) : State ω → State ω → Prop :=
  Relation.ReflTransGen (Move k)

/-- All steps up to a limit are moves. -/
theorem runUntil_moves {limit : Option Nat} (fuel : Nat) :
    ∀ {s s' : State ω}, k.runUntil limit fuel s = some s' → k.Moves s s' := by
  induction fuel with
  | zero =>
    intro s s' h
    rw [runUntil] at h
    split at h <;> cases h
    exact .refl
  | succ fuel ih =>
    intro s s' h
    rw [runUntil] at h
    split at h
    · cases h
      exact .refl
    · rename_i hnext
      exact .head (.goOn hnext) (ih h)

/-- When all steps up to a limit are done, none is left that is due by then. -/
theorem takeNext_of_runUntil {limit : Option Nat} (fuel : Nat) :
    ∀ {s s' : State ω}, k.runUntil limit fuel s = some s' →
      Confirmation.takeNext limit s'.confirmations = none := by
  induction fuel with
  | zero =>
    intro s s' h
    rw [runUntil] at h
    split at h
    · cases h
      assumption
    · cases h
  | succ fuel ih =>
    intro s s' h
    rw [runUntil] at h
    split at h
    · cases h
      assumption
    · exact ih h

theorem advance_moves {patience ms : Nat} (h : k.advance patience ms s = some s') :
    k.Moves s s' := by
  rw [advance, Option.map_eq_some_iff] at h
  obtain ⟨s₁, hrun, rfl⟩ := h
  refine (runUntil_moves _ hrun).tail (.tick (Nat.le_max_left ..) ?_)
  rcases Nat.le_total (s.now + ms) s₁.now with hle | hle
  · exact .inl (Nat.max_eq_left hle)
  -- what is left goes on after the limit
  · refine .inr fun t ht => (Nat.max_eq_right hle).symm ▸ Nat.le_of_lt ?_
    have hdone := takeNext_of_runUntil _ hrun
    simpa using Confirmation.takeNext_eq_none.1 hdone t ht

theorem take_moves {patience : Nat} {i : Input} (h : k.take patience s i = some s') :
    k.Moves s s' := by
  cases i with
  | hook hook =>
    cases h
    exact .single (.receive hook)
  | drive id d =>
    cases h
    exact .single (.order id d)
  | pass ms => exact advance_moves h
  | wait => exact runUntil_moves _ h

/-- Every input is made of moves. -/
theorem react_moves {patience : Nat} {i : Input} (h : k.react patience s i = some s') :
    k.Moves s s' := by
  rw [react, Option.bind_eq_some_iff] at h
  obtain ⟨s₁, htake, hsettle⟩ := h
  exact (take_moves htake).trans (advance_moves hsettle)

/-- **Every run is made of moves.** -/
theorem run_moves {patience : Nat} (inputs : List Input) :
    ∀ {s s' : State ω}, k.run patience s inputs = some s' → k.Moves s s' := by
  induction inputs with
  | nil =>
    intro s s' h
    rw [run_nil, Option.some.injEq] at h
    exact h ▸ .refl
  | cons i inputs ih =>
    intro s s' h
    rw [run_cons, Option.bind_eq_some_iff] at h
    obtain ⟨s₁, hnext, hrun⟩ := h
    exact (react_moves (next_eq_some.1 hnext).1).trans (ih hrun)

variable {policy : Policy} {memory : ω}

theorem Reachable.moves (h : k.Reachable policy memory s) :
    k.Moves (.initial policy memory) s := by
  induction h with
  | start => exact .refl
  | step patience i _ hnext ih => exact ih.trans (react_moves (next_eq_some.1 hnext).1)

/-! ### States between moves -/

/-- All that always holds between moves. -/
structure InOrder (k : Controller ω) (s : State ω) : Prop where
  tidy : s.Tidy
  orderly : ∀ id, (Moment.view (s, none) id).Orderly k.config id

/-- Seen from every identity, a move is made of steps. -/
theorem Move.leads (h : k.Move s s') (hkeyed : s.Keyed) : k.Leads (s, none) (s', none) := by
  cases h with
  | receive hook => exact receive_leads k (fun p hp => by cases hp) s hook
  | order id d => exact order_leads k id d s
  | goOn hnext => exact (goOn_leads hkeyed hnext).1
  | tick hle hdue =>
    refine .of_steps (fun hkeyed => hkeyed) fun id => .tick rfl hle ?_
    exact hdue.imp_right fun hdue t ht => hdue t (List.mem_filter.1 ht).1

/-- Seen from every identity, moves are made of steps. -/
theorem Moves.leads (h : k.Moves s s') (hkeyed : s.Keyed) : k.Leads (s, none) (s', none) := by
  induction h with
  | refl => exact .refl _ _
  | tail _ hlast ih => exact ih.trans (hlast.leads (ih hkeyed).1)

/-! ### Confirmations that are superseded -/

/-- A confirmation that is superseded is discarded, however often it has asked. -/
theorem proceed_of_superseded (k : Controller ω) (hover : subject? t s = none) :
    k.proceed t s = s.report t.id .confirmationDiscarded := by
  rw [Controller.proceed, Controller.conclude_eq_run, hover]
  exact ite_self _

/-! ### What everything keeps -/

/-- A property is kept by everything that a turn is made of, when it is one of the confirmations
that act: by what is delivered meanwhile, by what is put on record, and by the end of the turn. -/
structure KeptDuring (k : Controller ω) (acts : Confirmation → Prop) (P : State ω → Prop) :
    Prop where
  receive : ∀ {s : State ω} (within : Option Confirmation) (h : Hook), s.Tidy → P s →
    P (k.receive within s h)
  report : ∀ {s : State ω} (t : Confirmation) (n : Notice), P s → P (s.report t.id n)
  utter : ∀ {s : State ω} {t : Confirmation} {what : Occurrence} (memory : ω), acts t →
    t.Utters k s memory what → P s → P ({ s with memory }.happen (some t.id) what)
  /-- A confirmation that is not superseded ends; its consumer subscribes. -/
  conclude : ∀ {s : State ω} {t : Confirmation} {c : Consumer} (gone : Bool), s.Tidy → acts t →
    (gone = false → k.config.maxRetries.toNat ≤ t.attempts + 1) → subject? t s = some c →
    c.mode = some .subscribe → P s → P (k.conclude t gone s)
  again : ∀ {s : State ω} {t : Confirmation} (place : Nat), acts t → P s →
    P { s with confirmations := s.confirmations.insertIdx place (t.again k.config s.now) }

/-- A property is kept by everything that moves are made of, as far as it is some confirmations only
that act: all other ones are superseded. -/
structure KeptBy (k : Controller ω) (acts : Confirmation → Prop) (P : State ω → Prop) : Prop extends
    k.KeptDuring acts P where
  order : ∀ {s : State ω} (id : ConsumerId) (d : Decision), s.Tidy → P s →
    P (k.drive d id { s with received := .order id d :: s.received })
  pick : ∀ {s : State ω} {t : Confirmation} {limit : Option Nat} {waiting : List Confirmation},
    Confirmation.takeNext limit s.confirmations = some (t, waiting) → P s →
    P { s with confirmations := waiting, now := max s.now t.due }
  tick : ∀ {s : State ω} (now : Nat), P s → P { s with now }
  superseded : ∀ {s : State ω} {t : Confirmation}, ¬acts t → P s → subject? t s = none

/-- A property is kept by everything that moves are made of, whichever confirmations act. -/
structure Kept (k : Controller ω) (P : State ω → Prop) : Prop where
  receive : ∀ {s : State ω} (within : Option Confirmation) (h : Hook), s.Tidy → P s →
    P (k.receive within s h)
  order : ∀ {s : State ω} (id : ConsumerId) (d : Decision), s.Tidy → P s →
    P (k.drive d id { s with received := .order id d :: s.received })
  utter : ∀ {s : State ω} {t : Confirmation} {what : Occurrence} (memory : ω),
    t.Utters k s memory what → P s → P ({ s with memory }.happen (some t.id) what)
  conclude : ∀ {s : State ω} {t : Confirmation} {c : Consumer} (gone : Bool), s.Tidy →
    subject? t s = some c → c.mode = some .subscribe → P s → P (k.conclude t gone s)
  /-- Neither the confirmations that wait nor the time matter. -/
  elsewhere : ∀ {s : State ω} (confirmations : List Confirmation) (now : Nat), P s →
    P { s with confirmations, now }

namespace Kept

variable {P : State ω → Prop}

/-- What is kept by tending consumers is kept by all but what is received. -/
theorem of_tended (htended : ∀ {s s' : State ω}, s.Tended s' → P s → P s')
    (hreceive : ∀ {s : State ω} (within : Option Confirmation) (h : Hook), s.Tidy → P s →
      P (k.receive within s h))
    (horder : ∀ {s : State ω} (id : ConsumerId) (d : Decision), P s →
      P { s with received := .order id d :: s.received }) : k.Kept P where
  receive := hreceive
  order := fun {s} id d hs hP => htended (s := { s with received := .order id d :: s.received })
    (drive_tended k id d hs.keyed) (horder id d hP)
  utter := fun {s t what} memory hutters hP => by
    have hfaithful : Event.Faithful s.assigned? { time := s.now, who := some t.id, what } := by
      cases hutters <;> trivial
    have hhappen := s.happen_tended (some t.id) what hfaithful
    exact htended (s := s) ⟨rfl, rfl, rfl, hhappen.consumers, hhappen.log⟩ hP
  conclude := fun {s t c} gone _ _ _ hP => htended (conclude_tended k t gone s) hP
  elsewhere := fun {s} confirmations now hP => htended (s := s)
    ⟨rfl, rfl, rfl, fun _ => rfl, [], rfl, fun e he => by cases he⟩ hP

theorem keptBy (h : k.Kept P) : k.KeptBy (fun _ => True) P where
  receive := h.receive
  order := h.order
  report := fun {s} _ n hP => h.utter s.memory (.notice n) hP
  utter := fun memory _ hutters hP => h.utter memory hutters hP
  conclude := fun gone hs _ _ hlive hmode hP => h.conclude gone hs hlive hmode hP
  pick := fun _ hP => h.elsewhere _ _ hP
  again := fun {s _} _ _ hP => h.elsewhere _ s.now hP
  tick := fun {s} now hP => h.elsewhere s.confirmations now hP
  superseded := fun hnot _ => absurd trivial hnot

theorem tidy (k : Controller ω) : k.Kept State.Tidy :=
  .of_tended (fun htended hs => htended.tidy hs) (fun within h hs _ => receive_tidy k within h hs)
    fun _ _ hs => hs.of_eq rfl rfl

end Kept

namespace KeptDuring

variable {acts : Confirmation → Prop} {P : State ω → Prop}

/-- What is kept along with tidiness is kept by each hook of a row. -/
theorem receiveAll (h : k.KeptDuring acts P) (within : Option Confirmation) (hooks : List Hook) :
    ∀ {s : State ω}, s.Tidy → P s → P (hooks.foldl (k.receive within) s) ∧
      (hooks.foldl (k.receive within) s).Tidy := by
  induction hooks with
  | nil => exact fun hs hP => ⟨hP, hs⟩
  | cons hook hooks ih =>
    exact fun hs hP => ih (receive_tidy k within hook hs) (h.receive within hook hs hP)

theorem ask (h : k.KeptDuring acts P) (hacts : acts t) (topic : String) (hs : s.Tidy) (hP : P s) :
    P (k.ask t topic s).2 ∧ (k.ask t topic s).2.Tidy := by
  have hutter : ∀ {s : State ω} {what : Occurrence} (memory : ω), t.Utters k s memory what →
      s.Tidy → P s → P ({ s with memory }.happen (some t.id) what) ∧
        ({ s with memory }.happen (some t.id) what).Tidy :=
    fun memory hutters hs hP =>
      ⟨h.utter memory hacts hutters hP, (Kept.tidy k).utter memory hutters hs⟩
  have hasked : ∀ ok, t.Utters k s _ (.call t.client t.life (.findMembers topic t.group) ok) :=
    .asked topic
  rw [Controller.ask]
  split
  · rename_i hquery
    rw [hquery] at hasked
    exact hutter _ (hasked false) hs hP
  · rename_i hooks memory hquery
    rw [hquery] at hasked
    obtain ⟨hasked, htidy⟩ := hutter memory (hasked true) hs hP
    obtain ⟨hreceived, htidy'⟩ := h.receiveAll (some t) hooks htidy hasked
    exact hutter _ (.answered topic _) htidy' hreceived

theorem isGone (h : k.KeptDuring acts P) (hacts : acts t) (topics : List String) :
    ∀ {s : State ω}, s.Tidy → P s →
      P (k.isGone t topics s).2 ∧ (k.isGone t topics s).2.Tidy := by
  induction topics with
  | nil => exact fun hs hP => ⟨hP, hs⟩
  | cons topic topics ih =>
    intro s hs hP
    obtain ⟨hasked, htidy⟩ := h.ask hacts topic hs hP
    rw [Controller.isGone]
    rcases hask : k.ask t topic s with ⟨result, s₁⟩
    rw [hask] at hasked htidy
    cases result with
    | error e => exact ⟨h.report t _ hasked, (Kept.tidy k).keptBy.report t _ htidy⟩
    | ok members =>
      dsimp only
      split
      · exact ⟨hasked, htidy⟩
      · exact ih htidy hasked

/-- The end of a confirmation, whether it is superseded or not. -/
theorem concluded (h : k.KeptDuring acts P) (hacts : acts t) (gone : Bool) {present : Bool}
    (hspent : gone = false → k.config.maxRetries.toNat ≤ t.attempts + 1) (hs : s.Tidy)
    (hsound : (Moment.view (s, some ⟨t, present⟩) t.id).Sound t.id) (hP : P s) :
    P (k.conclude t gone s) := by
  cases hlive : subject? t s with
  | none =>
    rw [Controller.conclude_eq_run, hlive]
    exact h.report t .confirmationDiscarded hP
  | some c =>
    have hstarted : t.StartedBy c :=
      hsound.startedBy (View.mem_tasks_of_poll (poll_of_id_eq s rfl))
        ((subject?_view ..).trans hlive)
    exact h.conclude gone hs hacts hspent hlive hstarted.mode hP

/-- A confirmation that has been picked keeps what everything keeps. -/
theorem proceed (h : k.KeptDuring acts P) (hacts : acts t) (hs : s.Tidy)
    (hsound : (Moment.view (s, some ⟨t, decide (k.config.maxRetries.toNat ≤ t.attempts)⟩)
      t.id).Sound t.id) (hP : P s) : P (k.proceed t s) := by
  rw [Controller.proceed]
  by_cases hspent : k.config.maxRetries.toNat ≤ t.attempts
  · rw [if_pos hspent]
    exact h.concluded hacts false (fun _ => Nat.le_succ_of_le hspent) hs hsound hP
  rw [if_neg hspent]
  rw [decide_eq_false hspent] at hsound
  cases hlive : subject? t s with
  | none => exact h.report t .confirmationDiscarded hP
  | some c =>
    have hentitled : (Moment.view (s, some ⟨t, false⟩) t.id).Entitled t.id t :=
      .inl fun hnone => by cases (hlive.symm.trans (subject?_view ..).symm).trans hnone
    have hreach := (isGone_leads (k := k) c.topics.toList hs.keyed hentitled hs.keyed).2 t.id
    have hsound₁ := View.Reach.sound hreach hsound
    obtain ⟨hP₁, hs₁⟩ := h.isGone hacts c.topics.toList hs hP
    dsimp only
    rcases hgone : k.isGone t c.topics.toList s with ⟨gone, s₁⟩
    rw [hgone] at hP₁ hs₁ hsound₁
    cases gone with
    | true => exact h.concluded hacts true (fun h => by cases h) hs₁ hsound₁ hP₁
    | false =>
      have hP₂ := h.report t (.stillListed t.client.clientId t.group
        (t.again k.config s₁.now).attempts) hP₁
      have hs₂ := (Kept.tidy k).keptBy.report t (.stillListed t.client.clientId t.group
        (t.again k.config s₁.now).attempts) hs₁
      dsimp only
      split
      · rename_i hspent₁
        have hsound₂ : (Moment.view (s₁.report t.id (.stillListed t.client.clientId t.group
            (t.again k.config s₁.now).attempts), some ⟨t, true⟩) t.id).Sound t.id := by
          rw [State.report, view_happen rfl]
          exact hsound₁
        exact h.concluded (t := t) hacts false (fun _ => hspent₁) hs₂ hsound₂ hP₂
      · exact h.again _ hacts hP₂

end KeptDuring

namespace KeptBy

variable {acts : Confirmation → Prop} {P : State ω → Prop}

/-- Every move keeps what everything keeps. -/
theorem move (h : k.KeptBy acts P) (hmove : k.Move s s') (hs : s.Tidy)
    (hsound : ∀ id, (Moment.view (s, none) id).Sound id) (hP : P s) : P s' := by
  cases hmove with
  | receive hook => exact h.receive none hook hs hP
  | order id d => exact h.order id d hs hP
  | @goOn limit t waiting hnext =>
    have hpicked := h.pick hnext hP
    rw [Controller.goOn]
    by_cases hacts : acts t
    · refine h.proceed hacts ((Kept.tidy k).keptBy.pick hnext hs) ?_ hpicked
      exact View.Reach.sound ((pick_leads hnext hs.keyed).2 _) (hsound _)
    · rw [proceed_of_superseded k (h.superseded hacts hpicked)]
      exact h.report t .confirmationDiscarded hpicked
  | tick hle hdue => exact h.tick _ hP

end KeptBy

/-! ### What every run keeps -/

theorem Move.inOrder (h : k.Move s s') (hs : k.InOrder s) : k.InOrder s' where
  tidy := (Kept.tidy k).keptBy.move h hs.tidy (fun id => (hs.orderly id).sound) hs.tidy
  orderly := fun id =>
    View.Reach.orderly ((h.leads hs.tidy.keyed hs.tidy.keyed).2 id) (hs.orderly id)

theorem Moves.inOrder (h : k.Moves s s') (hs : k.InOrder s) : k.InOrder s' := by
  induction h with
  | refl => exact hs
  | tail _ hlast ih => exact Move.inOrder hlast ih

/-- **What everything keeps, any number of moves keeps.** -/
theorem KeptBy.moves {acts : Confirmation → Prop} {P : State ω → Prop} (hkept : k.KeptBy acts P)
    (h : k.Moves s s') (hs : k.InOrder s) (hP : P s) : P s' := by
  induction h with
  | refl => exact hP
  | tail hbefore hlast ih =>
    have hs₁ := Moves.inOrder hbefore hs
    exact hkept.move hlast hs₁.tidy (fun id => (hs₁.orderly id).sound) ih

theorem inOrder_initial (k : Controller ω) (policy : Policy) (memory : ω) :
    k.InOrder (.initial policy memory) where
  tidy := {
    keyed := keyed_initial policy memory
    running := fun id c hreg => by
      cases (congrArg View.consumer (Moment.view_initial policy memory id)).symm.trans hreg
    unrivalled := rfl }
  orderly := fun id => Moment.view_initial policy memory id ▸
    View.initial_orderly k.config policy id

theorem Reachable.inOrder (h : k.Reachable policy memory s) : k.InOrder s :=
  h.moves.inOrder (inOrder_initial k policy memory)

/-- **What holds at first and is kept by everything always holds.** -/
theorem Kept.reachable {P : State ω → Prop} (hkept : k.Kept P) (h : k.Reachable policy memory s)
    (hP : P (.initial policy memory)) : P s :=
  hkept.keptBy.moves h.moves (inOrder_initial k policy memory) hP

end Controller

end Embargo
