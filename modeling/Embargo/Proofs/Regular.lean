import Embargo.Transition

/-!
# What transitions are like

Transitions, and the way back into a group, are programs of one kind.  All their calls are made in
the controller's own scope.  How a command ends decides how they go on, with one exception: when
rebalancing fails, this is reported, and they go on as if it had succeeded.

* `Notice.isRebalanceFailure` — reports of failures to rebalance;
* `Program.Regular` — programs of this kind;
* `Program.Scoped` — programs that make every call in the scope where it belongs;
* `Consumer.drive_regular`, `rollBack_regular` — **transitions and the way back are regular**.
-/

namespace Embargo

/-- Whether a failure to rebalance is reported. -/
def Notice.isRebalanceFailure : Notice → Bool
  | .rebalanceAfterLeavingFailed .. => true
  | .rebalanceAfterRejoiningFailed .. => true
  | .rebalanceAfterRollbackFailed _ => true
  | _ => false

namespace Program

variable {α β : Type}

/-- A program reports no skipped hooks by itself, makes its calls in the controller's own scope, and
goes on in the same way however rebalancing ends. -/
inductive Regular : Program α → Prop where
  | done (a : α) : Regular (.done a)
  | note {n : Notice} {rest : Program α} (hn : ∀ hook, n ≠ .hookSkipped hook)
      (hrest : Regular rest) : Regular (.note n rest)
  | call {c : Command} {next : Except Error Unit → Program α} (hc : c ≠ .rebalance)
      (hnext : ∀ r, Regular (next r)) : Regular (.call true c next)
  | rebalance {n : Error → Notice} {rest : Program α} (hn : ∀ e, (n e).isRebalanceFailure = true)
      (hrest : Regular rest) :
      Regular (.call true .rebalance fun r => (reportFailure n r).bind fun _ => rest)

theorem Regular.bind {p : Program α} {f : α → Program β} (hp : p.Regular)
    (hf : ∀ a, (f a).Regular) : (p.bind f).Regular := by
  induction hp with
  | done a => exact hf a
  | note hn _ ih => exact .note hn ih
  | call hc _ ih => exact .call hc ih
  | @rebalance n rest hn _ ih =>
    have hassoc : (fun r => ((reportFailure n r).bind fun _ => rest).bind f) =
        fun r => (reportFailure n r).bind fun _ => rest.bind f := by
      funext r
      cases r <;> simp [reportFailure, report]
    rw [bind_call, hassoc]
    exact .rebalance hn ih

/-- To report something is regular, if it is no skipped hook. -/
theorem regular_report {n : Notice} (hn : ∀ hook, n ≠ .hookSkipped hook) (a : α) :
    (Program.note n (.done a)).Regular :=
  .note hn (.done a)

/-- Every call of a program is made in the controller's own scope if it is one of those that belong
in there, and outside of it otherwise. -/
def Scoped : Program α → Prop
  | .done _ => True
  | .note _ rest => rest.Scoped
  | .call own c next => own = (Call.command c).isScoped ∧ ∀ r, (next r).Scoped

theorem Scoped.bind {p : Program α} {f : α → Program β} (hp : p.Scoped)
    (hf : ∀ a, (f a).Scoped) : (p.bind f).Scoped := by
  induction p with
  | done a => exact hf a
  | note n rest ih => exact ih hp
  | call own c next ih => exact ⟨hp.1, fun r => ih r (hp.2 r)⟩

theorem scoped_reportFailure (n : Error → Notice) (r : Except Error Unit) :
    (reportFailure n r).Scoped := by
  cases r <;> trivial

/-- In regular programs every call is made where it belongs. -/
theorem Regular.scoped {p : Program α} (h : p.Regular) : p.Scoped := by
  induction h with
  | done a => trivial
  | note _ _ ih => exact ih
  | call _ _ ih => exact ⟨rfl, ih⟩
  | rebalance _ _ ih => exact ⟨rfl, fun r => (scoped_reportFailure _ r).bind fun _ => ih⟩

end Program

namespace Consumer

open Program

variable (now : Nat) (c : Consumer)

theorem suspendSubscribed_regular : (c.suspendSubscribed now).Regular := by
  rw [suspendSubscribed]
  cases c.state with
  | suspended => exact regular_report (by simp) _
  | suspending => exact regular_report (by simp) _
  | active =>
    refine .call (by simp) ?_
    intro persisted
    cases persisted with
    | error e => exact regular_report (by simp) _
    | ok =>
      refine .call (by simp) ?_
      intro left
      cases left with
      | error e => exact regular_report (by simp) _
      | ok =>
        refine .rebalance ?_ (regular_report (by simp) _)
        intro e
        rfl

theorem suspendPaused_regular (stale : List Queue) : (c.suspendPaused now stale).Regular := by
  refine Regular.bind ?_ fun c => regular_report (by simp) _
  rw [releaseStale]
  split
  · exact .done c
  · refine .call (by simp) ?_
    intro released
    cases released with
    | error e => exact regular_report (by simp) _
    | ok => exact .done _

theorem suspendAssigned_regular : (c.suspendAssigned now).Regular := by
  rw [suspendAssigned]
  split
  · exact regular_report (by simp) _
  split
  · exact c.suspendPaused_regular now _
  · refine .call (by simp) ?_
    intro paused
    cases paused with
    | error e => exact regular_report (by simp) _
    | ok => exact suspendPaused_regular now _ _

theorem resumeSubscribed_regular : (c.resumeSubscribed now).Regular := by
  rw [resumeSubscribed]
  split
  · exact regular_report (by simp) _
  · refine .call (by simp) ?_
    intro registered
    cases registered with
    | error e => exact regular_report (by simp) _
    | ok =>
      refine .rebalance ?_ (regular_report (by simp) _)
      intro e
      rfl

theorem resumeAssigned_regular : (c.resumeAssigned now).Regular := by
  rw [resumeAssigned]
  split
  · split <;> exact regular_report (by simp) _
  · refine .call (by simp) ?_
    intro resumed
    cases resumed with
    | error e => exact regular_report (by simp) _
    | ok => exact regular_report (by simp) _

/-- **Every transition is regular.** -/
theorem drive_regular (d : Decision) : (c.drive now d).Regular := by
  cases d with
  | suspend =>
    rw [drive, suspend]
    split
    · exact c.suspendSubscribed_regular now
    · exact c.suspendAssigned_regular now
    · exact regular_report (by simp) _
  | resume =>
    rw [drive, resume]
    split
    · exact c.resumeSubscribed_regular now
    · exact c.resumeAssigned_regular now
    · exact regular_report (by simp) _

/-- **The way back is regular.** -/
theorem rollBack_regular : (c.rollBack now).Regular := by
  refine .call (by simp) ?_
  intro registered
  cases registered with
  | error e => exact regular_report (by simp) _
  | ok =>
    refine .rebalance ?_ (regular_report (by simp) _)
    intro e
    rfl

end Consumer

end Embargo
