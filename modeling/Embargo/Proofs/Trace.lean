import Embargo.Proofs.Scope

/-!
# What the transitions of a consumer do

A transition is a program of calls, and how the calls are answered is up to the environment.  Here
programs are freed from their environment: all that matters of the answers is which calls succeed.

* `Program.Yields` — the results of a program, each with the commands that lead to it;
* `Program.run_yields` — a run in any environment yields its result, and puts exactly the commands
  into the record;
* `Consumer.Transit` — the table of all transitions: what is called, and what becomes of the
  consumer, in every mode and state;
* `Consumer.transit_of_yields` — the programs follow the table;
* `Consumer.rollBack_yields` — the two ends of a way back.
-/

namespace Embargo

/-! ### The part of a record that is about one client -/

/-- The client that was called or asked about. -/
def Occurrence.client? : Occurrence → Option Client
  | .call client .. => some client
  | .listing client .. => some client
  | _ => none

/-- The calls made for one consumer, and the answers of the broker about it. -/
def Log.about (id : ConsumerId) (l : Log) : Log :=
  l.filter fun e => e.what.client?.map Client.id = some id

theorem Log.about_append (id : ConsumerId) (l m : Log) :
    Log.about id (l ++ m) = Log.about id l ++ Log.about id m :=
  List.filter_append ..

theorem Log.about_cons_of_none (id : ConsumerId) {e : Event} (l : Log)
    (h : e.what.client? = none) : Log.about id (e :: l) = Log.about id l := by
  simp [Log.about, h]

theorem Log.about_cons_of_id_eq {id : ConsumerId} {e : Event} {client : Client} (l : Log)
    (h : e.what.client? = some client) (hid : client.id = id) :
    Log.about id (e :: l) = e :: Log.about id l := by
  simp [Log.about, h, hid]

theorem Log.about_cons_of_id_ne {id : ConsumerId} {e : Event} {client : Client} (l : Log)
    (h : e.what.client? = some client) (hid : client.id ≠ id) :
    Log.about id (e :: l) = Log.about id l := by
  simp [Log.about, h, hid]

/-! ### The results of a program -/

/-- Commands in their order, each with whether it succeeded. -/
abbrev Trace := List (Command × Bool)

namespace Program

variable {α : Type}

/-- A program yields a result when its commands are answered in some way. -/
inductive Yields : Program α → Trace → α → Prop where
  | done (a : α) : Yields (.done a) [] a
  | note {n : Notice} {p : Program α} {tr : Trace} {a : α} :
      Yields p tr a → Yields (.note n p) tr a
  | call {own : Bool} {c : Command} {next : Except Error Unit → Program α} {tr : Trace} {a : α}
      (r : Except Error Unit) :
      Yields (next r) tr a → Yields (.call own c next) ((c, r.isOk) :: tr) a

theorem yields_done {a b : α} {tr : Trace} :
    (Program.done a).Yields tr b ↔ tr = [] ∧ b = a := by
  constructor
  · rintro ⟨⟩
    exact ⟨rfl, rfl⟩
  · rintro ⟨rfl, rfl⟩
    exact .done _

theorem yields_note {n : Notice} {p : Program α} {tr : Trace} {a : α} :
    (Program.note n p).Yields tr a ↔ p.Yields tr a := by
  constructor
  · rintro ⟨⟩
    assumption
  · exact .note

theorem yields_call {own : Bool} {c : Command} {next : Except Error Unit → Program α} {tr : Trace}
    {a : α} :
    (Program.call own c next).Yields tr a ↔
      (∃ e tr', tr = (c, false) :: tr' ∧ (next (.error e)).Yields tr' a) ∨
        ∃ tr', tr = (c, true) :: tr' ∧ (next (.ok ())).Yields tr' a := by
  constructor
  · intro h
    cases h with
    | call r h =>
      cases r with
      | error e => exact .inl ⟨e, _, rfl, h⟩
      | ok => exact .inr ⟨_, rfl, h⟩
  · rintro (⟨e, tr', rfl, h⟩ | ⟨tr', rfl, h⟩)
    · exact .call (.error e) h
    · exact .call (.ok ()) h

/-- The result of a report is the result of what comes after it. -/
theorem yields_report_bind {β : Type} {n : Notice} {f : Unit → Program β} {tr : Trace} {b : β} :
    ((report n).bind f).Yields tr b ↔ (f ()).Yields tr b :=
  yields_note

theorem yields_reportFailure_bind {β : Type} {n : Error → Notice} {r : Except Error Unit}
    {f : Unit → Program β} {tr : Trace} {b : β} :
    ((reportFailure n r).bind f).Yields tr b ↔ (f ()).Yields tr b := by
  cases r with
  | error e => exact yields_note
  | ok => exact Iff.rfl

theorem yields_perform_bind {β : Type} {c : Command} {f : Except Error Unit → Program β}
    {tr : Trace} {b : β} :
    ((controllerCall (perform c)).bind f).Yields tr b ↔
      (∃ e tr', tr = (c, false) :: tr' ∧ (f (.error e)).Yields tr' b) ∨
        ∃ tr', tr = (c, true) :: tr' ∧ (f (.ok ())).Yields tr' b :=
  yields_call

/-! ### Runs yield their results -/

/-- The entries that commands leave in the record, the latest first. -/
def Subject.entries (s : Subject) (now : Nat) (tr : Trace) : Log :=
  (tr.map fun c =>
    { time := now, who := some s.client.id,
      what := .call s.client s.life (.command c.1) c.2 }).reverse

theorem Subject.entries_nil (s : Subject) (now : Nat) : s.entries now [] = [] := rfl

theorem Subject.entries_cons (s : Subject) (now : Nat) (c : Command) (ok : Bool) (tr : Trace) :
    s.entries now ((c, ok) :: tr) =
      s.entries now tr ++
        [{ time := now, who := some s.client.id,
           what := .call s.client s.life (.command c) ok }] := by
  simp [entries]

/-- Of the events of a command, only the command itself is about a client. -/
theorem about_commandEvents (id : ConsumerId) (now : Nat) (s : Subject) (c : Command) (ok : Bool)
    (delivered : List Hook) :
    Log.about id (commandEvents now s c ok delivered).reverse =
      if s.client.id = id then s.entries now [(c, ok)] else [] := by
  have hskipped : ∀ l : List Event, (∀ e ∈ l, e.what.client? = none) → Log.about id l = [] := by
    intro l hl
    rw [Log.about, List.filter_eq_nil_iff]
    intro e he
    simp [hl e he]
  rw [commandEvents, List.reverse_cons, Log.about_append, hskipped _ ?_, List.nil_append]
  · by_cases h : s.client.id = id
    · simp [Log.about, Occurrence.client?, Subject.entries, h]
    · simp [Log.about, Occurrence.client?, h]
  · intro e he
    obtain ⟨hook, rfl⟩ := eq_of_mem_skipped (List.mem_reverse.1 he)
    rfl

/-- **A run yields its result.**  What it adds to the record about a client are the commands that
lead to the result, and they are about the client that the program runs for. -/
theorem run_yields {ω : Type} (env : Environment ω) (now : Nat) (s : Subject) (p : Program α) :
    ∀ (memory : ω) (log : Log), ∃ tr : Trace,
      p.Yields tr (p.run env now s memory log).1 ∧
        ∀ id, Log.about id (p.run env now s memory log).2.2 =
          (if s.client.id = id then s.entries now tr else []) ++ Log.about id log := by
  induction p with
  | done a =>
    intro memory log
    exact ⟨[], .done a, fun id => by simp [run, Subject.entries_nil]⟩
  | note n rest ih =>
    intro memory log
    obtain ⟨tr, hyields, habout⟩ :=
      ih memory ({ time := now, who := some s.client.id, what := .notice n } :: log)
    refine ⟨tr, .note hyields, fun id => ?_⟩
    rw [run, habout id, Log.about_cons_of_none id log rfl]
  | call own c next ih =>
    intro memory log
    obtain ⟨tr, hyields, habout⟩ := ih (env.command memory now s.client c).result
      (env.command memory now s.client c).memory
      ((commandEvents now s c (env.command memory now s.client c).result.isOk
        (env.command memory now s.client c).delivered).reverse ++ log)
    refine ⟨_, .call _ hyields, fun id => ?_⟩
    rw [run, habout id, Log.about_append, about_commandEvents, ← List.append_assoc]
    by_cases h : s.client.id = id
    · rw [if_pos h, if_pos h, if_pos h, Subject.entries_cons]
      simp [Subject.entries]
    · simp [h]

end Program

/-! ### The table of transitions -/

namespace Consumer

open Program

/-- A command for queues, which is not made when there are none. -/
def forQueues (command : List Queue → Command) (queues : List Queue) (ok : Bool) : Trace :=
  if queues.isEmpty then [] else [(command queues, ok)]

/-- The consumer after its stale queues were to be resumed. -/
def released (c : Consumer) (stale : List Queue) (ok : Bool) : Consumer :=
  if ok then c.markResumed stale else c

/-- What is called to carry out a decision, and what it leads to. -/
inductive Transit (now : Nat) (c : Consumer) : Decision → Trace → Outcome → Prop where
  /-- Without a mode there is nothing to do. -/
  | modeless {d : Decision} (hmode : c.mode = none) : Transit now c d [] { consumer := c }
  -- a subscribing consumer is suspended
  | alreadyOut (hmode : c.mode = some .subscribe) (hstate : c.state ≠ .active) :
      Transit now c .suspend [] { consumer := c }
  | flushFailed (hmode : c.mode = some .subscribe) (hstate : c.state = .active) :
      Transit now c .suspend [(.persistOffsets, false)] { consumer := c }
  | leaveFailed (hmode : c.mode = some .subscribe) (hstate : c.state = .active) :
      Transit now c .suspend [(.persistOffsets, true), (.unregister c.group, false)]
        { consumer := c }
  | left (ok : Bool) (hmode : c.mode = some .subscribe) (hstate : c.state = .active) :
      Transit now c .suspend
        [(.persistOffsets, true), (.unregister c.group, true), (.rebalance, ok)]
        { consumer := c.transition now .suspending, leaving := true }
  -- a subscribing consumer is resumed
  | alreadyIn (hmode : c.mode = some .subscribe) (hstate : c.state = .active) :
      Transit now c .resume [] { consumer := c }
  | rejoinFailed (hmode : c.mode = some .subscribe) (hstate : c.state ≠ .active) :
      Transit now c .resume [(.register c.group, false)] { consumer := c }
  | rejoined (ok : Bool) (hmode : c.mode = some .subscribe) (hstate : c.state ≠ .active) :
      Transit now c .resume [(.register c.group, true), (.rebalance, ok)]
        { consumer := c.transition now .active }
  -- a consumer with assigned queues is suspended
  | alreadyPaused (hmode : c.mode = some .assign) (hunpaused : c.unpaused.toList = [])
      (hstale : c.stale.toList = []) (hstate : c.state = .suspended) :
      Transit now c .suspend [] { consumer := c }
  | pauseFailed (hmode : c.mode = some .assign) (hunpaused : c.unpaused.toList ≠ []) :
      Transit now c .suspend [(.pause c.unpaused.toList, false)] { consumer := c }
  | paused (ok : Bool) (hmode : c.mode = some .assign) :
      Transit now c .suspend
        (forQueues .pause c.unpaused.toList true ++ forQueues .resume c.stale.toList ok)
        { consumer := ((c.markPaused c.unpaused.toList).released c.stale.toList ok).settle now }
  -- a consumer with assigned queues is resumed
  | nothingPaused (hmode : c.mode = some .assign) (hpaused : c.paused.toList = [])
      (hstate : c.state ≠ .suspended) : Transit now c .resume [] { consumer := c }
  | resumeFailed (hmode : c.mode = some .assign) (hpaused : c.paused.toList ≠ []) :
      Transit now c .resume [(.resume c.paused.toList, false)] { consumer := c }
  | resumed (hmode : c.mode = some .assign) :
      Transit now c .resume (forQueues .resume c.paused.toList true)
        { consumer := (c.markResumed c.paused.toList).transition now .active }

/-- Entering the suspended state touches the state and its bookkeeping only. -/
theorem settle_eq (now : Nat) (c : Consumer) :
    ∃ epoch last, c.settle now = { c with state := .suspended, epoch, lastTransition := last } := by
  by_cases h : c.state = .suspended
  · exact ⟨c.epoch, c.lastTransition, by rw [settle, if_pos h, ← h]⟩
  · exact ⟨c.epoch + 1, some now, by rw [settle, if_neg h]; rfl⟩

theorem released_eq (c : Consumer) (stale : List Queue) (ok : Bool) :
    ∃ paused, c.released stale ok = { c with paused } := by
  cases ok
  · exact ⟨c.paused, rfl⟩
  · exact ⟨_, rfl⟩

/-- **A transition touches nothing but the state, its bookkeeping and the paused queues**: neither
who the consumer is nor what it consumes. -/
theorem Transit.frame {now : Nat} {c : Consumer} {d : Decision} {tr : Trace} {o : Outcome}
    (h : c.Transit now d tr o) :
    ∃ paused state epoch last,
      o.consumer = { c with paused, state, epoch, lastTransition := last } := by
  cases h with
  | paused ok hmode =>
    obtain ⟨paused, hreleased⟩ := released_eq (c.markPaused c.unpaused.toList) c.stale.toList ok
    obtain ⟨epoch, last, hsettle⟩ :=
      settle_eq now ((c.markPaused c.unpaused.toList).released c.stale.toList ok)
    refine ⟨paused, .suspended, epoch, last, ?_⟩
    show ((c.markPaused c.unpaused.toList).released c.stale.toList ok).settle now = _
    rw [hsettle, hreleased]
    rfl
  | _ => exact ⟨_, _, _, _, rfl⟩

theorem Transit.client_eq {now : Nat} {c : Consumer} {d : Decision} {tr : Trace} {o : Outcome}
    (h : c.Transit now d tr o) : o.consumer.client = c.client := by
  obtain ⟨paused, state, epoch, last, hframe⟩ := h.frame
  rw [hframe]

/-! ### The programs follow the table -/

variable {now : Nat} {c : Consumer} {tr : Trace} {o : Outcome}

theorem transit_of_suspendSubscribed (hmode : c.mode = some .subscribe)
    (h : (c.suspendSubscribed now).Yields tr o) : c.Transit now .suspend tr o := by
  rw [suspendSubscribed] at h
  cases hstate : c.state with
  | suspended =>
    simp only [hstate, pure_eq, bind_eq, yields_report_bind, yields_done] at h
    obtain ⟨rfl, rfl⟩ := h
    exact .alreadyOut hmode (by rw [hstate]; decide)
  | suspending =>
    simp only [hstate, pure_eq, bind_eq, yields_report_bind, yields_done] at h
    obtain ⟨rfl, rfl⟩ := h
    exact .alreadyOut hmode (by rw [hstate]; decide)
  | active =>
    simp only [hstate, pure_eq, bind_eq, yields_report_bind, yields_reportFailure_bind,
      yields_perform_bind, yields_done] at h
    -- one failing exit for each call, and both outcomes of the rebalance
    rcases h with ⟨e, _, rfl, rfl, rfl⟩ | ⟨_, rfl, h⟩
    · exact .flushFailed hmode hstate
    rcases h with ⟨e, _, rfl, rfl, rfl⟩ | ⟨_, rfl, h⟩
    · exact .leaveFailed hmode hstate
    rcases h with ⟨e, _, rfl, rfl, rfl⟩ | ⟨_, rfl, rfl, rfl⟩
    · exact .left false hmode hstate
    · exact .left true hmode hstate

theorem transit_of_resumeSubscribed (hmode : c.mode = some .subscribe)
    (h : (c.resumeSubscribed now).Yields tr o) : c.Transit now .resume tr o := by
  rw [resumeSubscribed] at h
  by_cases hstate : c.state = .active
  · rw [if_pos hstate] at h
    simp only [pure_eq, bind_eq, yields_report_bind, yields_done] at h
    obtain ⟨rfl, rfl⟩ := h
    exact .alreadyIn hmode hstate
  · rw [if_neg hstate] at h
    simp only [pure_eq, bind_eq, yields_report_bind, yields_reportFailure_bind,
      yields_perform_bind, yields_done] at h
    rcases h with ⟨e, _, rfl, rfl, rfl⟩ | ⟨_, rfl, h⟩
    · exact .rejoinFailed hmode hstate
    rcases h with ⟨e, _, rfl, rfl, rfl⟩ | ⟨_, rfl, rfl, rfl⟩
    · exact .rejoined false hmode hstate
    · exact .rejoined true hmode hstate

/-- Releasing no queues changes nothing. -/
theorem released_nil (c : Consumer) (ok : Bool) : c.released [] ok = c := by
  cases ok <;> rfl

/-- Once all assigned queues are paused, stale ones are resumed if that succeeds, and the consumer
is suspended in any case. -/
theorem suspendPaused_yields {stale : List Queue}
    (h : (c.suspendPaused now stale).Yields tr o) :
    ∃ ok, tr = forQueues .resume stale ok ∧
      o = { consumer := (c.released stale ok).settle now } := by
  rw [suspendPaused, releaseStale] at h
  by_cases hstale : stale.isEmpty
  · rw [if_pos hstale] at h
    simp only [pure_eq, bind_eq, bind_done, yields_report_bind, yields_done] at h
    obtain ⟨rfl, rfl⟩ := h
    obtain rfl := List.isEmpty_iff.1 hstale
    exact ⟨true, rfl, by rw [released_nil]⟩
  · rw [if_neg hstale] at h
    simp only [controllerCall_perform, pure_eq, bind_eq, bind_done, bind_call, yields_call] at h
    rcases h with ⟨e, _, rfl, h⟩ | ⟨_, rfl, h⟩
    · simp only [report, bind_note, bind_done, yields_note, yields_done] at h
      obtain ⟨rfl, rfl⟩ := h
      exact ⟨false, by simp [forQueues, hstale], rfl⟩
    · simp only [report, bind_note, bind_done, yields_note, yields_done] at h
      obtain ⟨rfl, rfl⟩ := h
      exact ⟨true, by simp [forQueues, hstale], rfl⟩

theorem transit_of_suspendAssigned (hmode : c.mode = some .assign)
    (h : (c.suspendAssigned now).Yields tr o) : c.Transit now .suspend tr o := by
  rw [suspendAssigned] at h
  by_cases hdone : (c.unpaused.toList.isEmpty && c.stale.toList.isEmpty && c.isPaused) = true
  · rw [if_pos hdone] at h
    simp only [pure_eq, bind_eq, yields_report_bind, yields_done] at h
    obtain ⟨rfl, rfl⟩ := h
    simp only [Bool.and_eq_true, List.isEmpty_iff, isPaused, decide_eq_true_eq] at hdone
    exact .alreadyPaused hmode hdone.1.1 hdone.1.2 hdone.2
  rw [if_neg hdone] at h
  by_cases hunpaused : c.unpaused.toList.isEmpty = true
  · rw [if_pos hunpaused] at h
    obtain ⟨ok, rfl, rfl⟩ := suspendPaused_yields h
    have hnil := List.isEmpty_iff.1 hunpaused
    have hstep : c.Transit now .suspend _ _ := .paused ok hmode
    rw [hnil] at hstep
    exact hstep
  · rw [if_neg hunpaused] at h
    simp only [pure_eq, bind_eq, yields_perform_bind, yields_report_bind, yields_done] at h
    rcases h with ⟨e, _, rfl, rfl, rfl⟩ | ⟨_, rfl, h⟩
    · exact .pauseFailed hmode fun hnil => hunpaused (List.isEmpty_iff.2 hnil)
    · obtain ⟨ok, rfl, rfl⟩ := suspendPaused_yields h
      have hstep : c.Transit now .suspend _ _ := .paused ok hmode
      rwa [show forQueues .pause c.unpaused.toList true = [(.pause c.unpaused.toList, true)] by
        simp [forQueues, hunpaused]] at hstep

theorem transit_of_resumeAssigned (hmode : c.mode = some .assign)
    (h : (c.resumeAssigned now).Yields tr o) : c.Transit now .resume tr o := by
  rw [resumeAssigned] at h
  by_cases hpaused : c.paused.toList.isEmpty = true
  · have hnil := List.isEmpty_iff.1 hpaused
    rw [if_pos hpaused] at h
    by_cases hstate : c.isPaused = true
    · rw [if_pos hstate] at h
      simp only [pure_eq, bind_eq, yields_report_bind, yields_done] at h
      obtain ⟨rfl, rfl⟩ := h
      have hstep : c.Transit now .resume _ _ := .resumed hmode
      rw [hnil] at hstep
      exact hstep
    · rw [if_neg hstate] at h
      simp only [pure_eq, bind_eq, yields_report_bind, yields_done] at h
      obtain ⟨rfl, rfl⟩ := h
      exact .nothingPaused hmode hnil (by simpa [isPaused] using hstate)
  · rw [if_neg hpaused] at h
    simp only [pure_eq, bind_eq, yields_perform_bind, yields_report_bind, yields_done] at h
    rcases h with ⟨e, _, rfl, rfl, rfl⟩ | ⟨_, rfl, rfl, rfl⟩
    · exact .resumeFailed hmode fun hnil => hpaused (List.isEmpty_iff.2 hnil)
    · have hstep : c.Transit now .resume _ _ := .resumed hmode
      rwa [show forQueues .resume c.paused.toList true = [(.resume c.paused.toList, true)] by
        simp [forQueues, hpaused]] at hstep

/-- **The programs follow the table.**  Whatever the environment answers, carrying out a decision is
one of the transitions. -/
theorem transit_of_yields {d : Decision} (h : (c.drive now d).Yields tr o) :
    c.Transit now d tr o := by
  cases hmode : c.mode with
  | none =>
    cases d <;>
    · simp only [drive, suspend, resume, hmode, pure_eq, bind_eq, yields_report_bind,
        yields_done] at h
      obtain ⟨rfl, rfl⟩ := h
      exact .modeless hmode
  | some mode =>
    cases mode <;> cases d <;> simp only [drive, suspend, resume, hmode] at h
    · exact transit_of_suspendSubscribed hmode h
    · exact transit_of_resumeSubscribed hmode h
    · exact transit_of_suspendAssigned hmode h
    · exact transit_of_resumeAssigned hmode h

/-- **A way back has two ends**: the consumer is in its group again, or it stays out and counts as
suspended. -/
theorem rollBack_yields {c' : Consumer} (h : (c.rollBack now).Yields tr c') :
    (tr = [(.register c.group, false)] ∧ c' = c.transition now .suspended) ∨
      ∃ ok, tr = [(.register c.group, true), (.rebalance, ok)] ∧
        c' = c.transition now .active := by
  rw [rollBack] at h
  simp only [pure_eq, bind_eq, yields_perform_bind, yields_report_bind,
    yields_reportFailure_bind, yields_done] at h
  rcases h with ⟨e, _, rfl, rfl, rfl⟩ | ⟨_, rfl, h⟩
  · exact .inl ⟨rfl, rfl⟩
  rcases h with ⟨e, _, rfl, rfl, rfl⟩ | ⟨_, rfl, rfl, rfl⟩
  · exact .inr ⟨false, rfl, rfl⟩
  · exact .inr ⟨true, rfl, rfl⟩

end Consumer

end Embargo
