import Embargo.Config
import Embargo.Consumer

/-!
# Confirmations of group exits

A consumer that has left its group is still listed by the broker for a while.  A confirmation asks
the broker again and again until the consumer is no longer listed, or until it has asked often
enough.  It belongs to one suspension of one consumer, which it knows by the consumer's identity,
by the how-many-eth consumer under that identity it is, and by its epoch; when any of these has
moved on, the confirmation is superseded.

* `Confirmation` — one that is running;
* `Confirmation.start`, `Confirmation.again` — the first poll, and the next one;
* `Confirmation.polls`, `Confirmation.pollsOf` — an upper bound on the polls that are left.
-/

namespace Embargo

/-- A running confirmation. -/
structure Confirmation where
  client : Client
  /-- The how-many-eth consumer under its identity the consumer is. -/
  life : Nat
  epoch : Nat
  group : String
  /-- The polls made so far. -/
  attempts : Nat
  /-- When it goes on. -/
  due : Nat
  deriving DecidableEq

namespace Confirmation

/-- The identity of the consumer. -/
def id (t : Confirmation) : ConsumerId := t.client.id

/-- The confirmation of an exit that has just happened.  Without polls to make it goes on at
once. -/
def start (config : Config) (now life : Nat) (c : Consumer) : Confirmation where
  client := c.client
  life
  epoch := c.epoch
  group := c.group
  attempts := 0
  due := if config.maxRetries = 0 then now else now + config.intervalMs.toNat

/-- The confirmation after one more poll. -/
def again (config : Config) (now : Nat) (t : Confirmation) : Confirmation :=
  { t with attempts := t.attempts + 1, due := now + config.intervalMs.toNat }

/-- How often it may go on. -/
def polls (config : Config) (t : Confirmation) : Nat :=
  config.maxRetries.toNat + 1 - t.attempts

/-- How often several may go on, all together. -/
def pollsOf (config : Config) : List Confirmation → Nat
  | [] => 0
  | t :: ts => t.polls config + pollsOf config ts

theorem pollsOf_append (config : Config) (ts us : List Confirmation) :
    pollsOf config (ts ++ us) = pollsOf config ts + pollsOf config us := by
  induction ts with
  | nil => exact (Nat.zero_add _).symm
  | cons t ts ih => rw [List.cons_append, pollsOf, pollsOf, ih, Nat.add_assoc]

theorem pollsOf_perm (config : Config) {ts us : List Confirmation} (h : ts.Perm us) :
    pollsOf config ts = pollsOf config us := by
  induction h with
  | nil => rfl
  | cons t _ ih => rw [pollsOf, pollsOf, ih]
  | swap t u ts => exact Nat.add_left_comm ..
  | trans _ _ ih ih' => exact ih.trans ih'

/-- Takes the confirmation that goes on first, of several the one that waits longest, out of those
that are waiting; none when it goes on after the limit. -/
def takeNext (limit : Option Nat) : List Confirmation → Option (Confirmation × List Confirmation)
  | [] => none
  | t :: ts =>
      match takeNext limit ts with
      | some (u, us) => if u.due < t.due then some (u, t :: us) else some (t, ts)
      | none => if limit.all (t.due ≤ ·) then some (t, ts) else none

/-! ### Which one goes on first -/

/-- None goes on exactly when all of them go on after the limit. -/
theorem takeNext_eq_none {limit : Option Nat} {ts : List Confirmation} :
    takeNext limit ts = none ↔ ∀ t ∈ ts, limit.all (t.due ≤ ·) = false := by
  induction ts with
  | nil => simp [takeNext]
  | cons u us ih =>
    rw [takeNext]
    cases hnext : takeNext limit us with
    | none =>
      have hus := ih.1 hnext
      by_cases hu : limit.all (u.due ≤ ·)
      · simp [hu]
      · simp only [hu, Bool.false_eq_true, if_false, List.mem_cons, true_iff]
        rintro t (rfl | ht)
        · simpa using hu
        · exact hus t ht
    | some r =>
      have hne : ¬∀ t ∈ us, limit.all (t.due ≤ ·) = false := fun h => by
        rw [ih.2 h] at hnext
        cases hnext
      constructor
      · intro h
        dsimp only at h
        split at h <;> cases h
      · intro h
        exact absurd (fun t ht => h t (List.mem_cons_of_mem u ht)) hne

/-- The confirmation that goes on first is one of those that wait, none of them goes on earlier,
and it goes on within the limit. -/
theorem takeNext_eq_some {limit : Option Nat} {ts rest : List Confirmation} {t : Confirmation}
    (h : takeNext limit ts = some (t, rest)) :
    ts.Perm (t :: rest) ∧ (∀ u ∈ ts, t.due ≤ u.due) ∧ limit.all (t.due ≤ ·) = true := by
  induction ts generalizing t rest with
  | nil => simp [takeNext] at h
  | cons u us ih =>
    rw [takeNext] at h
    cases hnext : takeNext limit us with
    | none =>
      rw [hnext] at h
      by_cases hu : limit.all (u.due ≤ ·)
      · simp only [hu, if_true, Option.some.injEq, Prod.mk.injEq] at h
        obtain ⟨rfl, rfl⟩ := h
        refine ⟨.refl _, fun w hw => ?_, hu⟩
        rcases List.mem_cons.1 hw with rfl | hw
        · exact Nat.le_refl _
        -- the others go on after the limit
        · have hlate := takeNext_eq_none.1 hnext w hw
          cases limit with
          | none => cases hlate
          | some l =>
            simp only [Option.all_some, decide_eq_true_eq, decide_eq_false_iff_not] at hu hlate
            omega
      · simp [hu] at h
    | some r =>
      obtain ⟨hperm, hmin, hlimit⟩ := ih hnext
      rw [hnext] at h
      by_cases hlt : r.1.due < u.due
      · simp only [hlt, if_true, Option.some.injEq, Prod.mk.injEq] at h
        obtain ⟨rfl, rfl⟩ := h
        refine ⟨(hperm.cons u).trans (.swap ..), fun w hw => ?_, hlimit⟩
        rcases List.mem_cons.1 hw with rfl | hw
        · exact Nat.le_of_lt hlt
        · exact hmin w hw
      · simp only [hlt, if_false, Option.some.injEq, Prod.mk.injEq] at h
        obtain ⟨rfl, rfl⟩ := h
        refine ⟨.refl _, fun w hw => ?_, ?_⟩
        · rcases List.mem_cons.1 hw with rfl | hw
          · exact Nat.le_refl _
          · exact Nat.le_trans (Nat.le_of_not_lt hlt) (hmin w hw)
        · cases limit with
          | none => rfl
          | some l =>
            simp only [Option.all_some, decide_eq_true_eq] at hlimit ⊢
            exact Nat.le_trans (Nat.le_of_not_lt hlt) hlimit

end Confirmation

end Embargo
