import Embargo.Proofs.Attendance
import Mathlib.Computability.RegularExpressions

/-!
# The words of a discipline

What is called for a subscribing consumer over its whole life reads as a word of a regular
expression: it leaves its group, comes back, leaves again, and so on, with failed attempts in
between.

* `failedExit`, `leave`, `comeBack`, `attendance` — the expression, from its parts;
* `Attendance.commands_prefix` — **the commands of a subscribing consumer begin such a word**;
* `Adjoins` — what may stand next to what: offsets are flushed right before every attempt to leave,
  and a rebalance stands right behind whatever has succeeded, and nowhere else;
* `Calls.turns` — the successful exits and returns, which take turns;
* `View.InTurn` — members are asked for while the consumer is out of its group, or something has
  interfered;
* `Controller.Reachable.call_discipline` — **the discipline of every consumer in every run**.

Members are asked for between an exit and a return.  A query is not shielded from the hooks that are
delivered while it is made, so the one who asks may be brought back into its group before it asks
for the next topic; only then members are asked for out of turn.
-/

namespace Embargo

open RegularExpression Computability

/-! ### The expression -/

/-- An attempt to leave that fails. -/
def failedExit (group : String) : RegularExpression (Command × Bool) :=
  char (.persistOffsets, false) + char (.persistOffsets, true) * char (.unregister group, false)

/-- A rebalance, whether it succeeds or not. -/
def rebalanced : RegularExpression (Command × Bool) :=
  char (.rebalance, true) + char (.rebalance, false)

/-- An exit, after any number of failed attempts. -/
def leave (group : String) : RegularExpression (Command × Bool) :=
  star (failedExit group) *
    (char (.persistOffsets, true) * (char (.unregister group, true) * rebalanced))

/-- A return, after any number of failed attempts. -/
def comeBack (group : String) : RegularExpression (Command × Bool) :=
  star (char (.register group, false)) * (char (.register group, true) * rebalanced)

/-- Any number of exits, each with its return. -/
def attendance (group : String) : RegularExpression (Command × Bool) :=
  star (leave group * comeBack group)

/-- The commands of a consumer that is in its group. -/
def insideGroup (group : String) : RegularExpression (Command × Bool) :=
  attendance group * star (failedExit group)

/-- The commands of a consumer that is out of its group. -/
def outsideGroup (group : String) : RegularExpression (Command × Bool) :=
  attendance group * (leave group * star (char (.register group, false)))

/-! ### Reading words -/

/-- A command with its outcome is a word of itself. -/
theorem mem_char (x : Command × Bool) : [x] ∈ (char x).matches' :=
  Set.mem_singleton [x]

theorem mem_rebalanced (ok : Bool) : [(.rebalance, ok)] ∈ rebalanced.matches' := by
  rw [rebalanced, matches'_add, Language.add_def]
  cases ok with
  | false => exact .inr (mem_char _)
  | true => exact .inl (mem_char _)

/-- What matches twice in a row. -/
theorem append_mem {p q : RegularExpression (Command × Bool)} {u w : List (Command × Bool)}
    (hu : u ∈ p.matches') (hw : w ∈ q.matches') : u ++ w ∈ (p * q).matches' := by
  rw [matches'_mul]
  exact Language.append_mem_mul hu hw

theorem nil_mem_star (p : RegularExpression (Command × Bool)) : [] ∈ (star p).matches' := by
  rw [matches'_star]
  exact Language.nil_mem_kstar _

/-- One more repetition. -/
theorem append_mem_star {p : RegularExpression (Command × Bool)} {u w : List (Command × Bool)}
    (hu : u ∈ (star p).matches') (hw : w ∈ p.matches') : u ++ w ∈ (star p).matches' := by
  rw [matches'_star] at hu ⊢
  have hle : p.matches'∗ * p.matches' ≤ p.matches'∗ := kstar_mul_le_kstar
  exact hle (Language.append_mem_mul hu hw)

variable {group : String} {u w : List (Command × Bool)}

theorem nil_mem_insideGroup : [] ∈ (insideGroup group).matches' :=
  append_mem (u := []) (nil_mem_star _) (nil_mem_star _)

/-- A failed attempt to leave. -/
theorem insideGroup_failedExit (hu : u ∈ (insideGroup group).matches')
    (hw : w ∈ (failedExit group).matches') : u ++ w ∈ (insideGroup group).matches' := by
  rw [insideGroup, matches'_mul, Language.mem_mul] at hu
  obtain ⟨a, ha, b, hb, rfl⟩ := hu
  rw [List.append_assoc]
  exact append_mem ha (append_mem_star hb hw)

/-- An exit. -/
theorem outsideGroup_of_leave (ok : Bool) (hu : u ∈ (insideGroup group).matches') :
    u ++ [(.persistOffsets, true), (.unregister group, true), (.rebalance, ok)] ∈
      (outsideGroup group).matches' := by
  rw [insideGroup, matches'_mul, Language.mem_mul] at hu
  obtain ⟨a, ha, b, hb, rfl⟩ := hu
  have hleave : b ++ [(.persistOffsets, true), (.unregister group, true), (.rebalance, ok)] ∈
      (leave group).matches' :=
    append_mem hb (append_mem (mem_char _) (append_mem (mem_char _) (mem_rebalanced ok)))
  have hstay := append_mem hleave (nil_mem_star (char (Command.register group, false)))
  rw [List.append_nil] at hstay
  rw [List.append_assoc]
  exact append_mem ha hstay

/-- A failed attempt to come back. -/
theorem outsideGroup_failed (hu : u ∈ (outsideGroup group).matches') :
    u ++ [(.register group, false)] ∈ (outsideGroup group).matches' := by
  rw [outsideGroup, matches'_mul, Language.mem_mul] at hu
  obtain ⟨a, ha, b, hb, rfl⟩ := hu
  rw [matches'_mul, Language.mem_mul] at hb
  obtain ⟨b, hb, d, hd, rfl⟩ := hb
  rw [List.append_assoc, List.append_assoc]
  exact append_mem ha (append_mem hb (append_mem_star hd (mem_char _)))

/-- A return. -/
theorem attendance_of_comeBack (ok : Bool) (hu : u ∈ (outsideGroup group).matches') :
    u ++ [(.register group, true), (.rebalance, ok)] ∈ (attendance group).matches' := by
  rw [outsideGroup, matches'_mul, Language.mem_mul] at hu
  obtain ⟨a, ha, b, hb, rfl⟩ := hu
  rw [matches'_mul, Language.mem_mul] at hb
  obtain ⟨b, hb, d, hd, rfl⟩ := hb
  have hback : d ++ [(.register group, true), (.rebalance, ok)] ∈ (comeBack group).matches' :=
    append_mem hd (append_mem (mem_char _) (mem_rebalanced ok))
  rw [List.append_assoc, List.append_assoc]
  exact append_mem_star ha (append_mem hb hback)

theorem insideGroup_of_attendance (hu : u ∈ (attendance group).matches') :
    u ∈ (insideGroup group).matches' := by
  have hstay := append_mem hu (nil_mem_star (failedExit group))
  rwa [List.append_nil] at hstay

/-- Whoever is in its group can go on to a word of the discipline, and so can whoever is not. -/
theorem exists_attendance_of_outsideGroup (hu : u ∈ (outsideGroup group).matches') :
    ∃ w ∈ (attendance group).matches', u <+: w :=
  ⟨_, attendance_of_comeBack true hu, List.prefix_append ..⟩

theorem exists_attendance_of_insideGroup (hu : u ∈ (insideGroup group).matches') :
    ∃ w ∈ (attendance group).matches', u <+: w := by
  obtain ⟨w, hw, hprefix⟩ := exists_attendance_of_outsideGroup (outsideGroup_of_leave true hu)
  exact ⟨w, hw, (List.prefix_append ..).trans hprefix⟩

/-! ### Commands -/

/-- The words that the commands of a subscribing consumer are, in its group and out of it. -/
theorem Attendance.commands_mem {inside : Bool} {calls : Calls}
    (h : Attendance group inside calls) :
    calls.commands ∈ (if inside then insideGroup group else outsideGroup group).matches' := by
  induction h with
  | nil => exact nil_mem_insideGroup
  | flushFailed _ ih =>
    rw [Calls.commands_append]
    refine insideGroup_failedExit ih ?_
    rw [failedExit, matches'_add, Language.add_def]
    exact .inl (mem_char _)
  | leaveFailed _ ih =>
    rw [Calls.commands_append]
    refine insideGroup_failedExit ih ?_
    rw [failedExit, matches'_add, Language.add_def]
    exact .inr (append_mem (mem_char _) (mem_char _))
  | left ok _ ih =>
    rw [Calls.commands_append]
    exact outsideGroup_of_leave ok ih
  | asked topic ok _ ih =>
    rw [Calls.commands_append]
    exact (List.append_nil _).symm ▸ ih
  | rejoinFailed _ ih =>
    rw [Calls.commands_append]
    exact outsideGroup_failed ih
  | rejoined ok _ ih =>
    rw [Calls.commands_append]
    exact insideGroup_of_attendance (attendance_of_comeBack ok ih)

/-- **The commands of a subscribing consumer begin a word of the discipline.** -/
theorem Attendance.commands_prefix {inside : Bool} {calls : Calls}
    (h : Attendance group inside calls) :
    ∃ w ∈ (attendance group).matches', calls.commands <+: w := by
  have hmem := h.commands_mem
  cases inside with
  | false => exact exists_attendance_of_outsideGroup hmem
  | true => exact exists_attendance_of_insideGroup hmem

/-! ### What stands next to what -/

/-- A call that succeeds in leaving a group or in joining it. -/
def IsTurn (x : Call × Bool) : Prop :=
  ∃ group, x = (.command (.unregister group), true) ∨ x = (.command (.register group), true)

/-- A call may stand right behind another one: offsets are flushed right before every attempt to
leave, and a rebalance stands right behind every turn, and nowhere else. -/
def Adjoins (x y : Call × Bool) : Prop :=
  (∀ group ok, y = (.command (.unregister group), ok) → x = (.command .persistOffsets, true)) ∧
    (IsTurn x ↔ ∃ ok, y = (.command .rebalance, ok))

/-- Calls may begin with a call, as far as it has to stand behind another one. -/
def Begins (y : Call × Bool) : Prop :=
  (∀ group ok, y ≠ (.command (.unregister group), ok)) ∧ ∀ ok, y ≠ (.command .rebalance, ok)

/-- Calls that leave nothing open may be followed by calls that need nothing. -/
theorem isChain_append {calls calls' : Calls} (h : calls.IsChain Adjoins)
    (hend : ∀ x ∈ calls.getLast?, ¬IsTurn x) (h' : calls'.IsChain Adjoins)
    (hbegin : ∀ y ∈ calls'.head?, Begins y) : (calls ++ calls').IsChain Adjoins := by
  refine h.append h' fun x hx y hy => ⟨fun g ok heq => ?_, fun hturn => ?_, fun hrebalance => ?_⟩
  · exact absurd heq ((hbegin y hy).1 g ok)
  · exact absurd hturn (hend x hx)
  · obtain ⟨ok, heq⟩ := hrebalance
    exact absurd heq ((hbegin y hy).2 ok)

/-- The successful exits and returns among calls: an exit is `false`, a return is `true`. -/
def Calls.turns (calls : Calls) : List Bool :=
  calls.filterMap fun
    | (.command (.unregister _), true) => some false
    | (.command (.register _), true) => some true
    | _ => none

theorem Calls.turns_append (calls calls' : Calls) :
    (calls ++ calls').turns = calls.turns ++ calls'.turns :=
  List.filterMap_append ..

theorem Calls.turns_append_of_nil (calls : Calls) {calls' : Calls} (h : calls'.turns = []) :
    (calls ++ calls').turns = calls.turns := by
  rw [turns_append, h, List.append_nil]

/-- Turns alternate, beginning with an exit: the turns at even places are exits. -/
def Alternates (turns : List Bool) : Prop :=
  ∀ i b, turns[i]? = some b → b = decide (i % 2 = 1)

theorem Alternates.snoc {turns : List Bool} {b : Bool} (h : Alternates turns)
    (hb : b = decide (turns.length % 2 = 1)) : Alternates (turns ++ [b]) := by
  intro i b' hi
  rcases Nat.lt_trichotomy i turns.length with hlt | rfl | hgt
  · rw [List.getElem?_append_left hlt] at hi
    exact h i b' hi
  · rw [List.getElem?_append_right (Nat.le_refl _), Nat.sub_self] at hi
    cases hi
    exact hb
  · rw [List.getElem?_eq_none (by rw [List.length_append, List.length_singleton]; omega)] at hi
    cases hi

/-- The turns of a subscribing consumer alternate, and it is in its group after an even number of
them. -/
theorem Attendance.alternates {inside : Bool} {calls : Calls}
    (h : Attendance group inside calls) :
    Alternates calls.turns ∧ inside = decide (calls.turns.length % 2 = 0) := by
  induction h with
  | nil => exact ⟨fun i b hi => (by cases hi), rfl⟩
  | flushFailed _ ih =>
    rw [Calls.turns_append_of_nil _ rfl]
    exact ih
  | leaveFailed _ ih =>
    rw [Calls.turns_append_of_nil _ rfl]
    exact ih
  | left ok _ ih =>
    obtain ⟨halternates, hinside⟩ := ih
    have heven := of_decide_eq_true hinside.symm
    rw [Calls.turns_append]
    refine ⟨halternates.snoc (decide_eq_false (by omega)).symm, (decide_eq_false ?_).symm⟩
    rw [List.length_append]
    show ¬(_ + 1) % 2 = 0
    omega
  | asked topic ok _ ih =>
    rw [Calls.turns_append_of_nil _ rfl]
    exact ih
  | rejoinFailed _ ih =>
    rw [Calls.turns_append_of_nil _ rfl]
    exact ih
  | rejoined ok _ ih =>
    obtain ⟨halternates, hinside⟩ := ih
    have hodd := of_decide_eq_false hinside.symm
    rw [Calls.turns_append]
    refine ⟨halternates.snoc (decide_eq_true (by omega)).symm, (decide_eq_true ?_).symm⟩
    rw [List.length_append]
    show (_ + 1) % 2 = 0
    omega

/-- Calls leave nothing open when each stands where it may and the last one is no turn. -/
def Closed (calls : Calls) : Prop :=
  calls.IsChain Adjoins ∧ (∀ y ∈ calls.head?, Begins y) ∧ ∀ x ∈ calls.getLast?, ¬IsTurn x

theorem Closed.append {calls calls' : Calls} (h : Closed calls) (h' : Closed calls') :
    Closed (calls ++ calls') := by
  obtain ⟨hchain, hbegin, hend⟩ := h
  obtain ⟨hchain', hbegin', hend'⟩ := h'
  refine ⟨isChain_append hchain hend hchain' hbegin', fun y hy => ?_, fun x hx => ?_⟩
  · rw [List.head?_append] at hy
    cases hhead : calls.head? with
    | none => rw [hhead] at hy; exact hbegin' y hy
    | some z => rw [hhead] at hy; exact hbegin y (hhead ▸ hy)
  · rw [List.getLast?_append] at hx
    cases hlast : calls'.getLast? with
    | none => rw [hlast] at hx; exact hend x hx
    | some z => rw [hlast] at hx; exact hend' x (hlast ▸ hx)

/-- The calls of a subscribing consumer leave nothing open. -/
theorem Attendance.closed {inside : Bool} {calls : Calls}
    (h : Attendance group inside calls) : Closed calls := by
  induction h with
  | nil => exact ⟨.nil, fun y hy => (by cases hy), fun x hx => (by cases hx)⟩
  | flushFailed _ ih => exact ih.append (by simp [Closed, Begins, IsTurn])
  | leaveFailed _ ih => exact ih.append (by simp [Closed, Begins, Adjoins, IsTurn])
  | left ok _ ih => exact ih.append (by simp [Closed, Begins, Adjoins, IsTurn])
  | asked topic ok _ ih => exact ih.append (by simp [Closed, Begins, IsTurn])
  | rejoinFailed _ ih => exact ih.append (by simp [Closed, Begins, IsTurn])
  | rejoined ok _ ih => exact ih.append (by simp [Closed, Begins, Adjoins, IsTurn])

/-- A subscribing consumer has no queues to pause or to resume. -/
theorem Attendance.no_queues {inside : Bool} {calls : Calls}
    (h : Attendance group inside calls) :
    ∀ x ∈ calls, ∀ queues, x.1 ≠ .command (.pause queues) ∧ x.1 ≠ .command (.resume queues) := by
  induction h with
  | nil => simp
  | flushFailed _ ih => exact List.forall_mem_append.2 ⟨ih, by simp⟩
  | leaveFailed _ ih => exact List.forall_mem_append.2 ⟨ih, by simp⟩
  | left ok _ ih => exact List.forall_mem_append.2 ⟨ih, by simp⟩
  | asked topic ok _ ih => exact List.forall_mem_append.2 ⟨ih, by simp⟩
  | rejoinFailed _ ih => exact List.forall_mem_append.2 ⟨ih, by simp⟩
  | rejoined ok _ ih => exact List.forall_mem_append.2 ⟨ih, by simp⟩

/-! ### Queries -/

/-- Whether an event is a query for the members of a group, made for the `life`-th consumer under an
identity. -/
def Event.Asks (id : ConsumerId) (life : Nat) (group : String) (e : Event) : Prop :=
  ∃ client topic ok, e.what = .call client life (.findMembers topic group) ok ∧ client.id = id

/-- A subscribing consumer asks for the members of its own group. -/
theorem Attendance.group_eq {inside : Bool} {calls : Calls} (h : Attendance group inside calls)
    {topic group' : String} {ok : Bool} (hmem : (.findMembers topic group', ok) ∈ calls) :
    group' = group := by
  induction h with
  | nil => cases hmem
  | asked topic ok _ ih =>
    rcases List.mem_append.1 hmem with hold | hnew
    · exact ih hold
    · cases List.mem_singleton.1 hnew
      rfl
  | _ =>
    rename_i ih
    exact ih ((List.mem_append.1 hmem).resolve_right (by simp))

namespace View

variable {config : Config} {id : ConsumerId} {v v' : View} {life time : Nat}

/-- A delivery about a consumer has come from inside a query that was made for it at a time. -/
def Interfered (id : ConsumerId) (life time : Nat) (v : View) : Prop :=
  ∃ t, t.id = id ∧ t.life = life ∧ t.due = time ∧ v.Disturbed id t

/-- Members are asked for while the consumer is out of its group, or something has interfered. -/
def InTurn (id : ConsumerId) (v : View) : Prop :=
  ∀ later e earlier life group, v.record = later ++ e :: earlier → e.Asks id life group →
    Attendance group false (Log.calls id life earlier) ∨ v.Interfered id life e.time

theorem Interfered.mono (hreceived : ∀ d ∈ v.received, d ∈ v'.received)
    (h : v.Interfered id life time) : v'.Interfered id life time := by
  obtain ⟨t, hid, hlife, hdue, d, hd, hrest⟩ := h
  exact ⟨t, hid, hlife, hdue, d, hreceived d hd, hrest⟩

/-- Events that are no queries may join a record in which members are asked for in turn. -/
theorem InTurn.of_grows (h : v.InTurn id) (new : Log) (hrecord : v'.record = new ++ v.record)
    (hreceived : ∀ d ∈ v.received, d ∈ v'.received)
    (hnew : ∀ e ∈ new, ∀ life group, ¬e.Asks id life group) : v'.InTurn id := by
  intro later e earlier life group hsplit hasks
  rw [hrecord] at hsplit
  rcases List.append_eq_append_iff.1 hsplit with ⟨between, -, hold⟩ | ⟨between, rfl, hold⟩
  · exact (h between e earlier life group hold hasks).imp_right (Interfered.mono hreceived)
  · cases between with
    | nil => exact (h [] e earlier life group hold.symm hasks).imp_right (Interfered.mono hreceived)
    | cons x between =>
      obtain ⟨rfl, -⟩ := List.cons.inj hold
      exact absurd hasks (hnew e (List.mem_append_right _ List.mem_cons_self) life group)

/-- The commands of a transition are no queries. -/
theorem not_asks_of_mem_entries {subject : Program.Subject} {now : Nat} {tr : Trace} {e : Event}
    (he : e ∈ subject.entries now tr) (life : Nat) (group : String) : ¬e.Asks id life group := by
  obtain ⟨command, ok, -, rfl⟩ := Program.Subject.mem_entries he
  rintro ⟨client, topic, ok', hwhat, -⟩
  cases hwhat

theorem Effect.inTurn (h : Effect config id v v') (hv : v.InTurn id) : v'.InTurn id := by
  have hnone : ∀ e ∈ ([] : Log), ∀ life group, ¬e.Asks id life group := fun e he => by cases he
  cases h with
  | drive hreg htransit =>
    exact hv.of_grows _ rfl (fun d hd => hd) fun e he => not_asks_of_mem_entries he
  | _ => exact hv.of_grows [] rfl (fun d hd => hd) hnone

/-- **Every step asks in turn**, but for queries that something has interfered with. -/
theorem Step.inTurn (h : Step config id v v') (hv : v.Orderly config id) (hturn : v.InTurn id) :
    v'.InTurn id := by
  have hnone : ∀ e ∈ ([] : Log), ∀ life group, ¬e.Asks id life group := fun e he => by cases he
  have hall : ∀ d ∈ v.received, d ∈ v.received := fun d hd => hd
  cases h with
  | deliver d hwithin heffects =>
    exact heffects.keeps Effect.inTurn (hturn.of_grows [] rfl
      (fun d' hd' => List.mem_cons_of_mem d hd') hnone)
  | @ask t topic ok hpoll hentitled =>
    have ht : t ∈ v.tasks := mem_tasks_of_poll hpoll
    intro later e earlier life group hsplit hasks
    rcases List.cons_eq_append_iff.1 hsplit with ⟨rfl, hquery⟩ | ⟨later', -, hold⟩
    · obtain ⟨rfl, rfl⟩ := List.cons.inj hquery
      obtain ⟨client, topic', ok', hwhat, hid⟩ := hasks
      cases hwhat
      rcases hentitled with hlive | hdisturbed
      · obtain ⟨c, hlive⟩ := Option.ne_none_iff_exists'.1 hlive
        exact .inl (hv.attendance ht hlive)
      -- polls are neither early nor late
      · exact .inr ⟨t, hid, rfl, Nat.le_antisymm (hv.tracked.picked _ hpoll)
          (hv.tracked.early t ht), hdisturbed⟩
    · exact (hturn later' e earlier life group hold hasks).imp_right (Interfered.mono hall)
  | answer topic members hpoll =>
    refine hturn.of_grows [_] rfl hall fun e he life group => ?_
    rw [List.mem_singleton.1 he]
    rintro ⟨client, topic', ok, hwhat, -⟩
    cases hwhat
  | rollBack hpoll hover hlive hyields =>
    exact hturn.of_grows _ rfl hall fun e he => not_asks_of_mem_entries he
  | _ => exact hturn.of_grows [] rfl hall hnone

theorem Reach.inTurn (h : Reach config id v v') (hv : v.Orderly config id)
    (hturn : v.InTurn id) : v'.InTurn id :=
  (h.keeps (P := fun w => w.Orderly config id ∧ w.InTurn id)
    (fun hstep hw => ⟨hstep.orderly hw.1, hstep.inTurn hw.1 hw.2⟩) ⟨hv, hturn⟩).2

end View

/-! ### The discipline in a run -/

/-- The discipline of a subscribing consumer over its whole life, as a record tells it. -/
structure KeepsDiscipline (outOfTurn : Nat → Prop) (id : ConsumerId) (life : Nat) (group : String)
    (log : Log) : Prop where
  /-- Its commands begin a word of the discipline. -/
  word : ∃ w ∈ (attendance group).matches', (Log.calls id life log).commands <+: w
  /-- Members of its group are asked for after an exit and its rebalance, and before the next
  return, unless they are asked for out of turn. -/
  queries : ∀ later e earlier group', log = later ++ e :: earlier → e.Asks id life group' →
    group' = group ∧
      ((Log.calls id life earlier).commands ∈ (outsideGroup group).matches' ∨ outOfTurn e.time)
  /-- No queues are paused or resumed. -/
  noQueues : ∀ x ∈ Log.calls id life log, ∀ queues,
    x.1 ≠ .command (.pause queues) ∧ x.1 ≠ .command (.resume queues)
  /-- Offsets are flushed right before every attempt to leave, and a rebalance stands right behind
  every exit and every return, and nowhere else. -/
  closed : Closed (Log.calls id life log)
  /-- Exits and returns take turns, the first of them an exit. -/
  turns : Alternates (Log.calls id life log).turns

/-- A query in a record is among the calls. -/
theorem Event.Asks.mem_calls {id : ConsumerId} {life : Nat} {group : String} {e : Event}
    (h : e.Asks id life group) (later earlier : Log) :
    ∃ topic ok, (.findMembers topic group, ok) ∈ Log.calls id life (later ++ e :: earlier) := by
  obtain ⟨time, who, what⟩ := e
  obtain ⟨client, topic, ok, rfl, hid⟩ := h
  refine ⟨topic, ok, ?_⟩
  rw [Log.calls_append, Log.calls_cons_call, if_pos ⟨hid, rfl⟩]
  exact List.mem_append_left _ (List.mem_append_right _ (List.mem_singleton_self _))

theorem Attendance.keepsDiscipline {outOfTurn : Nat → Prop} {id : ConsumerId} {life : Nat}
    {inside : Bool} {log : Log} (h : Attendance group inside (Log.calls id life log))
    (hqueries : ∀ later e earlier group', log = later ++ e :: earlier → e.Asks id life group' →
      Attendance group' false (Log.calls id life earlier) ∨ outOfTurn e.time) :
    KeepsDiscipline outOfTurn id life group log where
  word := h.commands_prefix
  queries := by
    intro later e earlier group' hsplit hasks
    obtain ⟨topic, ok, hmem⟩ := hasks.mem_calls later earlier
    obtain rfl : group' = group := h.group_eq (hsplit ▸ hmem)
    exact ⟨rfl, (hqueries later e earlier group' hsplit hasks).imp_left fun hout =>
      hout.commands_mem⟩
  noQueues := h.no_queues
  closed := h.closed
  turns := h.alternates.1

/-- A delivery about a consumer has come from inside a query that was made for it at a time. -/
def State.Interfered {ω : Type} (s : State ω) (id : ConsumerId) (life time : Nat) : Prop :=
  ∃ d ∈ s.received, d.concerns id ∧
    ∃ t, d.within = some t ∧ t.id = id ∧ t.life = life ∧ t.due = time

namespace Controller

variable {ω : Type} {k : Controller ω} {policy : Policy} {memory : ω} {s : State ω}
  {id : ConsumerId} {life : Nat}

/-- In every run members are asked for in turn, but for queries that something has interfered
with. -/
theorem Reachable.inTurn (h : k.Reachable policy memory s) {later earlier : Log} {e : Event}
    {group : String} (hsplit : s.log = later ++ e :: earlier) (hasks : e.Asks id life group) :
    Attendance group false (Log.calls id life earlier) ∨ s.Interfered id life e.time := by
  have hinitial : (View.initial policy).InTurn id := by
    intro later e earlier life group hsplit
    cases later <;> cases hsplit
  have hturn := View.Reach.inTurn (h.reach id) (View.initial_orderly k.config policy id) hinitial
  have hasked := hasks
  obtain ⟨client, topic, ok, hwhat, hid⟩ := hasked
  have habout : Log.about id s.log = Log.about id later ++ e :: Log.about id earlier := by
    rw [hsplit, Log.about_append, Log.about_cons_of_id_eq _ (by rw [hwhat]; rfl) hid]
  rcases hturn _ e _ life group habout hasks with hout | ⟨t, hid, hlife, hdue, d, hd, hc, hw⟩
  · rw [Log.calls_about] at hout
    exact .inl hout
  · exact .inr ⟨d, hd, hc, t, hw, hid, hlife, hdue⟩

/-- Nothing is called for a consumer that is yet to come. -/
theorem Reachable.calls_eq_nil_of_lt (h : k.Reachable policy memory s) (hlife : s.life id < life) :
    Log.calls id life s.log = [] :=
  (Log.calls_about s.log).symm.trans ((h.sound id).calls_eq_nil_of_lt hlife)

/-- **The discipline of every consumer in every run.**  Whatever is delivered and however calls are
answered, the calls made for a consumer pause and resume queues only, or they keep the discipline of
a subscribing consumer; members are asked for out of turn only when a delivery about the consumer
has come from inside another query, which was made for it at the same time.  The mode of a
registered consumer says which it is. -/
theorem Reachable.call_discipline (h : k.Reachable policy memory s) (id : ConsumerId) :
    (∀ life, OnlyQueues (Log.calls id life s.log) ∨
      ∃ group, KeepsDiscipline (s.Interfered id life) id life group s.log) ∧
    ∀ c, s.consumer? id = some c →
      (c.mode = none → Log.calls id (s.life id) s.log = []) ∧
      (c.mode = some .assign → OnlyQueues (Log.calls id (s.life id) s.log)) ∧
      (c.mode = some .subscribe →
        KeepsDiscipline (s.Interfered id (s.life id)) id (s.life id) c.group s.log) := by
  have hregistered : ∀ c, s.consumer? id = some c →
      (c.mode = none → Log.calls id (s.life id) s.log = []) ∧
      (c.mode = some .assign → OnlyQueues (Log.calls id (s.life id) s.log)) ∧
      (c.mode = some .subscribe →
        KeepsDiscipline (s.Interfered id (s.life id)) id (s.life id) c.group s.log) := by
    intro c hreg
    have hconduct := h.conduct hreg
    refine ⟨fun hmode => ?_, fun hmode => ?_, fun hmode => ?_⟩
    · rwa [Consumer.Conduct, hmode] at hconduct
    · rwa [Consumer.conduct_of_assign hmode] at hconduct
    · rw [Consumer.conduct_of_subscribe hmode] at hconduct
      exact hconduct.keepsDiscipline fun _ _ _ _ hsplit hasks => h.inTurn hsplit hasks
  refine ⟨fun life => ?_, hregistered⟩
  rcases Nat.lt_trichotomy life (s.life id) with hpast | rfl | hfuture
  · have hcalls : Log.calls id life s.log = (Moment.view (s, none) id).record.calls id life :=
      (Log.calls_about s.log).symm
    rcases (h.conducted id).past life hpast with ⟨hqueues, -⟩ | ⟨group, inside, hattendance, -⟩
    · exact .inl (hcalls ▸ hqueues)
    · rw [← hcalls] at hattendance
      exact .inr ⟨group,
        hattendance.keepsDiscipline fun _ _ _ _ hsplit hasks => h.inTurn hsplit hasks⟩
  · cases hreg : s.consumer? id with
    | none =>
      have hnone : Log.calls id (s.life id) s.log = [] :=
        (Log.calls_about s.log).symm.trans ((h.sound id).calls_eq_nil hreg)
      exact .inl fun x hx => by rw [hnone] at hx; cases hx
    | some c =>
      obtain ⟨hnone, hassign, hsubscribe⟩ := hregistered c hreg
      cases hmode : c.mode with
      | none => exact .inl fun x hx => by rw [hnone hmode] at hx; cases hx
      | some mode =>
        cases mode with
        | assign => exact .inl (hassign hmode)
        | subscribe => exact .inr ⟨c.group, hsubscribe hmode⟩
  · exact .inl fun x hx => by rw [h.calls_eq_nil_of_lt hfuture] at hx; cases hx

/-- What has been called for the newcomer so far. -/
theorem Reachable.call_discipline_of_newcomer :
    ∃ s c, Rehearsal.stage.run 0 (.initial (.prohibiting ["t"]) {}) Rehearsal.entrance = some s ∧
      s.consumer? Rehearsal.newcomer.id = some c ∧ c.mode = some .subscribe ∧
      KeepsDiscipline (s.Interfered Rehearsal.newcomer.id (s.life Rehearsal.newcomer.id))
        Rehearsal.newcomer.id (s.life Rehearsal.newcomer.id) c.group s.log := by
  obtain ⟨s, c, hrun, hreg, -, hmode⟩ := Rehearsal.entrance_suspends
  have hreachable : Rehearsal.stage.Reachable (.prohibiting ["t"]) {} s := Reachable.start.run hrun
  exact ⟨s, c, hrun, hreg, hmode,
    ((hreachable.call_discipline Rehearsal.newcomer.id).2 c hreg).2.2 hmode⟩

/-- A script in which the newcomer gives up its prohibited topic while it is asked for members. -/
def reconsidering : Rehearsal.Script :=
  Rehearsal.Script.withPart {} Rehearsal.newcomer.handle
    { members := Std.ExtTreeMap.insert ∅ "t" [[]]
      reentered := Std.ExtTreeMap.insert ∅ "find_consumer_ids"
        [.lifecycle Rehearsal.newcomer (.unsubscribe "t")] }

/-- **The discipline of queries does need that condition**: the newcomer that reconsiders is asked
for members again when it is back in its group. -/
theorem exists_query_out_of_turn :
    ∃ s, Rehearsal.stage.run 0 (.initial (.prohibiting ["t"]) reconsidering)
        (Rehearsal.entrance ++
          [.hook (.lifecycle Rehearsal.newcomer (.subscribe "u")), .pass 1000]) = some s ∧
      ¬KeepsDiscipline (fun _ => False) Rehearsal.newcomer.id 0 "g" s.log := by
  -- what follows the second query in the record, and what had been called before it
  have hrun : (Rehearsal.stage.run 0 (.initial (.prohibiting ["t"]) reconsidering)
      (Rehearsal.entrance ++
        [.hook (.lifecycle Rehearsal.newcomer (.subscribe "u")), .pass 1000])).map
        (fun s => ((s.log.drop 4).head?.map Event.what,
          (Log.calls Rehearsal.newcomer.id 0 (s.log.drop 4).tail).commands)) =
      some (some (.call Rehearsal.newcomer 0 (.findMembers "u" "g") true),
        [(.persistOffsets, true), (.unregister "g", true), (.rebalance, true),
          (.register "g", true), (.rebalance, true)]) := by
    decide +kernel
  obtain ⟨s, hs, hfacts⟩ := Option.map_eq_some_iff.1 hrun
  obtain ⟨hquery, hcommands⟩ := Prod.mk.inj hfacts
  obtain ⟨e, hhead, hwhat⟩ := Option.map_eq_some_iff.1 hquery
  obtain ⟨earlier, hdrop⟩ := List.head?_eq_some_iff.1 hhead
  have hsplit : s.log = s.log.take 4 ++ e :: earlier := hdrop ▸ (List.take_append_drop 4 s.log).symm
  rw [hdrop, List.tail_cons] at hcommands
  refine ⟨s, hs, fun hkeeps => ?_⟩
  have hin := (hkeeps.queries _ e earlier "g" hsplit ⟨_, _, _, hwhat, rfl⟩).2
  rw [hcommands, or_false, ← RegularExpression.rmatch_iff_matches'] at hin
  revert hin
  decide

end Controller

end Embargo
