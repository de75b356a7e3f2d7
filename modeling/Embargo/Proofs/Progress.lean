import Embargo.Proofs.Simulation
import Mathlib.Logic.Hydra

/-!
# Inputs come to an end

An input leads to a state when the confirmations that it makes go on are done at some point.  They
poll a bounded number of times, so only confirmations that clients start while they are asked for
members can keep the clock at work.

* `Environment.Quiet` — clients that do no such thing;
* `Controller.goOn_waiting` — what waits after one step of a confirmation;
* `Controller.react_isSome_of_quiet` — **every input leads to a state, without any patience**, when
  clients are quiet;
* `Controller.exists_react_eq_some` — **every input but waiting leads to a state**, with patience,
  when polls take time: what is started in the meantime waits for later;
* `Controller.react_mono` — more patience leads to the same state;
* `Controller.react_stuck` — and when commands return, that is not stuck.
-/

namespace Embargo

/-- No hooks are delivered while members are asked for. -/
def Environment.Quiet {ω : Type} (env : Environment ω) : Prop :=
  ∀ memory now client topic group hooks memory',
    env.query memory now client topic group = (.ok hooks, memory') → hooks = []

namespace Controller

variable {ω : Type} {k : Controller ω} {s s' : State ω} {t : Confirmation}

/-! ### What waits after a step -/

theorem conclude_confirmations (k : Controller ω) (t : Confirmation) (gone : Bool) (s : State ω) :
    (k.conclude t gone s).confirmations = s.confirmations := by
  rw [conclude_eq_run]
  split
  · rfl
  · split <;> rfl

/-- With quiet clients a query touches nothing but their memory and the record. -/
theorem ask_of_quiet (hquiet : k.environment.Quiet) (t : Confirmation) (topic : String)
    (s : State ω) : ∃ memory log, (k.ask t topic s).2 = { s with memory, log } := by
  rw [ask]
  split
  · exact ⟨_, _, rfl⟩
  · rename_i hooks memory hquery
    obtain rfl := hquiet _ _ _ _ _ _ _ hquery
    exact ⟨_, _, rfl⟩

theorem isGone_of_quiet (hquiet : k.environment.Quiet) (t : Confirmation) (topics : List String) :
    ∀ s : State ω, ∃ memory log, (k.isGone t topics s).2 = { s with memory, log } := by
  induction topics with
  | nil => exact fun s => ⟨s.memory, s.log, rfl⟩
  | cons topic topics ih =>
    intro s
    obtain ⟨memory, log, hasked⟩ := ask_of_quiet hquiet t topic s
    rw [isGone]
    rcases hask : k.ask t topic s with ⟨result, s₁⟩
    rw [hask] at hasked
    dsimp only at hasked
    subst hasked
    cases result with
    | error e => exact ⟨_, _, rfl⟩
    | ok members =>
      dsimp only
      split
      · exact ⟨memory, log, rfl⟩
      · obtain ⟨memory', log', hrest⟩ := ih { s with memory, log }
        exact ⟨memory', log', hrest⟩

/-- What a confirmation leaves when it goes on: itself, if it asks again; and what clients have
started while they were asked. -/
structure Left (k : Controller ω) (t : Confirmation) (now : Nat)
    (again started : List Confirmation) : Prop where
  asksAgain : again = [] ∨
    again = [t.again k.config now] ∧ t.attempts + 1 < k.config.maxRetries.toNat
  wasAsked : ∀ u ∈ started, t.attempts < k.config.maxRetries.toNat ∧
    ∃ life c, u = Confirmation.start k.config now life c
  nothing : k.environment.Quiet → started = []

/-- What waits after a step of a confirmation: what has been waiting, and what the step leaves. -/
theorem proceed_waiting (k : Controller ω) (t : Confirmation) (s : State ω) :
    ∃ again started, k.Left t s.now again started ∧
      (k.proceed t s).confirmations.Perm (again ++ (s.confirmations ++ started)) := by
  have hnothing : k.Left t s.now [] [] :=
    ⟨.inl rfl, fun u hu => absurd hu List.not_mem_nil, fun _ => rfl⟩
  rw [proceed]
  by_cases hspent : k.config.maxRetries.toNat ≤ t.attempts
  · rw [if_pos hspent, conclude_confirmations]
    exact ⟨[], [], hnothing, by rw [List.append_nil]; exact .refl _⟩
  rw [if_neg hspent]
  cases subject? t s with
  | none => exact ⟨[], [], hnothing, by rw [List.append_nil]; exact .refl _⟩
  | some c =>
    obtain ⟨hnow, ⟨started, hwaiting, hstarted⟩, -⟩ := isGone_still k t c.topics.toList s
    have hquiet : k.environment.Quiet → started = [] := by
      intro hquiet
      obtain ⟨memory, log, hpolled⟩ := isGone_of_quiet hquiet t c.topics.toList s
      rw [hpolled] at hwaiting
      exact List.self_eq_append_right.1 hwaiting
    have hstarted' : ∀ u ∈ started, t.attempts < k.config.maxRetries.toNat ∧
        ∃ life c, u = Confirmation.start k.config s.now life c :=
      fun u hu => ⟨Nat.lt_of_not_le hspent, hstarted u hu⟩
    dsimp only
    rcases hgone : k.isGone t c.topics.toList s with ⟨gone, s₁⟩
    rw [hgone] at hnow hwaiting
    cases gone with
    | true =>
      refine ⟨[], started, ⟨.inl rfl, hstarted', hquiet⟩, ?_⟩
      rw [conclude_confirmations, hwaiting]
      exact .refl _
    | false =>
      dsimp only
      split
      · refine ⟨[], started, ⟨.inl rfl, hstarted', hquiet⟩, ?_⟩
        rw [conclude_confirmations]
        exact .of_eq hwaiting
      · rename_i hleft
        refine ⟨[t.again k.config s.now], started,
          ⟨.inr ⟨rfl, Nat.lt_of_not_le hleft⟩, hstarted', hquiet⟩, ?_⟩
        have hplace : s.confirmations.length ≤ s₁.confirmations.length := by
          rw [hwaiting, List.length_append]
          exact Nat.le_add_right ..
        rw [← hwaiting, ← hnow]
        exact List.perm_insertIdx _ _ hplace

/-- What waits after the confirmation that is next has gone on. -/
theorem goOn_waiting (k : Controller ω) (t : Confirmation) (waiting : List Confirmation)
    (s : State ω) :
    ∃ again started, k.Left t (max s.now t.due) again started ∧
      (k.goOn t waiting s).confirmations.Perm (again ++ (waiting ++ started)) :=
  proceed_waiting k t { s with confirmations := waiting, now := max s.now t.due }

/-! ### Quiet clients -/

/-- The polls that are left all together. -/
def load (k : Controller ω) (s : State ω) : Nat :=
  Confirmation.pollsOf k.config s.confirmations

/-- No confirmation has polled more often than it may. -/
def Within (k : Controller ω) (s : State ω) : Prop :=
  ∀ t ∈ s.confirmations, t.attempts ≤ k.config.maxRetries.toNat

/-- With quiet clients every step leaves fewer polls. -/
theorem goOn_load (hquiet : k.environment.Quiet) {limit : Option Nat}
    {waiting : List Confirmation} (hwithin : k.Within s)
    (hnext : Confirmation.takeNext limit s.confirmations = some (t, waiting)) :
    k.load (k.goOn t waiting s) < k.load s ∧ k.Within (k.goOn t waiting s) := by
  obtain ⟨hperm, -, -⟩ := Confirmation.takeNext_eq_some hnext
  obtain ⟨again, started, hleft, hwaiting⟩ := goOn_waiting k t waiting s
  have ht : t.attempts ≤ k.config.maxRetries.toNat :=
    hwithin t (hperm.mem_iff.2 List.mem_cons_self)
  obtain rfl := hleft.nothing hquiet
  rw [List.append_nil] at hwaiting
  have hload : k.load s = t.polls k.config + Confirmation.pollsOf k.config waiting :=
    Confirmation.pollsOf_perm k.config hperm
  have hload' : k.load (k.goOn t waiting s) =
      Confirmation.pollsOf k.config again + Confirmation.pollsOf k.config waiting :=
    (Confirmation.pollsOf_perm k.config hwaiting).trans (Confirmation.pollsOf_append ..)
  rw [hload, hload']
  refine ⟨?_, fun u hu => ?_⟩
  · rcases hleft.asksAgain with rfl | ⟨rfl, -⟩
    · simp only [Confirmation.pollsOf, Confirmation.polls]
      omega
    · simp only [Confirmation.pollsOf, Confirmation.polls, Confirmation.again]
      omega
  · rcases List.mem_append.1 (hwaiting.mem_iff.1 hu) with hagain | hold
    · rcases hleft.asksAgain with rfl | ⟨rfl, hmore⟩
      · cases hagain
      · rw [List.mem_singleton.1 hagain]
        exact Nat.le_of_lt hmore
    · exact hwithin u (hperm.mem_iff.2 (List.mem_cons_of_mem t hold))

/-- With quiet clients the steps up to a limit are done when there are no polls left to make. -/
theorem runUntil_isSome_of_quiet (hquiet : k.environment.Quiet) (limit : Option Nat) (fuel : Nat) :
    ∀ {s : State ω}, k.Within s → k.load s ≤ fuel →
      ∃ s', k.runUntil limit fuel s = some s' ∧ k.Within s' := by
  induction fuel with
  | zero =>
    intro s hwithin hfuel
    rw [runUntil]
    cases hnext : Confirmation.takeNext limit s.confirmations with
    | none => exact ⟨s, rfl, hwithin⟩
    | some r => exact absurd (goOn_load hquiet hwithin hnext).1 (by omega)
  | succ fuel ih =>
    intro s hwithin hfuel
    rw [runUntil]
    cases hnext : Confirmation.takeNext limit s.confirmations with
    | none => exact ⟨s, rfl, hwithin⟩
    | some r =>
      obtain ⟨hload, hwithin'⟩ := goOn_load hquiet hwithin hnext
      exact ih hwithin' (by omega)

theorem advance_isSome_of_quiet (hquiet : k.environment.Quiet) (patience ms : Nat)
    (hwithin : k.Within s) : ∃ s', k.advance patience ms s = some s' ∧ k.Within s' := by
  obtain ⟨s', hrun, hwithin'⟩ := runUntil_isSome_of_quiet hquiet (some (s.now + ms))
    (k.budget patience s) hwithin (Nat.le_add_right ..)
  exact ⟨{ s' with now := max s'.now (s.now + ms) }, by rw [advance, hrun, Option.map_some],
    hwithin'⟩

/-- Confirmations that have just been started have not polled yet. -/
theorem Still.within (h : k.Still s s') (hwithin : k.Within s) : k.Within s' := by
  obtain ⟨-, ⟨started, hwaiting, hstarted⟩, -⟩ := h
  intro t ht
  rw [hwaiting] at ht
  rcases List.mem_append.1 ht with hold | hnew
  · exact hwithin t hold
  · obtain ⟨life, c, rfl⟩ := hstarted t hnew
    exact Nat.zero_le _

/-- What an input brings with it keeps the confirmations within their bounds. -/
theorem take_isSome_of_quiet (hquiet : k.environment.Quiet) (patience : Nat) (i : Input)
    (hwithin : k.Within s) : ∃ s', k.take patience s i = some s' ∧ k.Within s' := by
  cases i with
  | hook h => exact ⟨_, rfl, (receive_still k none s h).within hwithin⟩
  | drive id d => exact ⟨_, rfl, (order_still k id d s).within hwithin⟩
  | pass ms => exact advance_isSome_of_quiet hquiet patience ms hwithin
  | wait => exact runUntil_isSome_of_quiet hquiet none _ hwithin (Nat.le_add_right ..)

/-- **With quiet clients every input leads to a state**, however little patience there is. -/
theorem react_isSome_of_quiet (hquiet : k.environment.Quiet) (patience : Nat) (i : Input)
    (hwithin : k.Within s) : ∃ s', k.react patience s i = some s' := by
  obtain ⟨s₁, htake, hwithin₁⟩ := take_isSome_of_quiet hquiet patience i hwithin
  obtain ⟨s', hsettle, -⟩ := advance_isSome_of_quiet hquiet patience 0 hwithin₁
  exact ⟨s', by rw [react, htake, Option.bind_some, settle, hsettle]⟩

/-! ### Patience -/

/-- More fuel leads to the same state. -/
theorem runUntil_mono {limit : Option Nat} {fuel more : Nat} (hle : fuel ≤ more) :
    ∀ {s s' : State ω}, k.runUntil limit fuel s = some s' → k.runUntil limit more s = some s' := by
  induction fuel generalizing more with
  | zero =>
    intro s s' h
    rw [runUntil] at h
    cases hnext : Confirmation.takeNext limit s.confirmations with
    | none => cases more <;> rw [runUntil, hnext] <;> rwa [hnext] at h
    | some r => rw [hnext] at h; cases h
  | succ fuel ih =>
    intro s s' h
    obtain ⟨more, rfl⟩ := Nat.exists_eq_succ_of_ne_zero (Nat.ne_of_gt (Nat.lt_of_lt_of_le
      (Nat.succ_pos fuel) hle))
    rw [runUntil] at h ⊢
    cases hnext : Confirmation.takeNext limit s.confirmations with
    | none => rwa [hnext] at h
    | some r =>
      rw [hnext] at h
      exact ih (Nat.le_of_succ_le_succ hle) h

theorem advance_mono {patience more ms : Nat} (hle : patience ≤ more)
    (h : k.advance patience ms s = some s') : k.advance more ms s = some s' := by
  rw [advance, Option.map_eq_some_iff] at h ⊢
  obtain ⟨s₁, hrun, hs₁⟩ := h
  exact ⟨s₁, runUntil_mono (Nat.add_le_add_left hle _) hrun, hs₁⟩

theorem take_mono {patience more : Nat} {i : Input} (hle : patience ≤ more)
    (h : k.take patience s i = some s') : k.take more s i = some s' := by
  cases i with
  | hook hook => exact h
  | drive id d => exact h
  | pass ms => exact advance_mono hle h
  | wait => exact runUntil_mono (Nat.add_le_add_left hle _) h

/-- **More patience leads to the same state.** -/
theorem react_mono {patience more : Nat} {i : Input} (hle : patience ≤ more)
    (h : k.react patience s i = some s') : k.react more s i = some s' := by
  rw [react, Option.bind_eq_some_iff] at h ⊢
  obtain ⟨s₁, htake, hsettle⟩ := h
  exact ⟨s₁, take_mono hle htake, advance_mono hle hsettle⟩

theorem next_mono {patience more : Nat} {i : Input} (hle : patience ≤ more)
    (h : k.next patience s i = some s') : k.next more s i = some s' := by
  obtain ⟨hreact, hstuck⟩ := next_eq_some.1 h
  exact next_eq_some.2 ⟨react_mono hle hreact, hstuck⟩

/-! ### Polls that take time -/

/-- How far before the end of a limit a confirmation goes on; nought when it goes on later. -/
def ahead (limit : Nat) (t : Confirmation) : Nat :=
  limit + 1 - t.due

/-- When polls take time, a step replaces a confirmation by later ones. -/
theorem goOn_ahead (hinterval : 0 < k.config.intervalMs.toNat) {limit : Nat}
    {waiting : List Confirmation}
    (hnext : Confirmation.takeNext (some limit) s.confirmations = some (t, waiting)) :
    Relation.CutExpand (· < ·)
      ((k.goOn t waiting s).confirmations.map (ahead limit) : Multiset Nat)
      (s.confirmations.map (ahead limit) : Multiset Nat) := by
  obtain ⟨hperm, -, hlimit⟩ := Confirmation.takeNext_eq_some hnext
  obtain ⟨again, started, hleft, hwaiting⟩ := goOn_waiting k t waiting s
  have hdue : t.due ≤ limit := by simpa using hlimit
  have hlater : ∀ u ∈ again ++ started, ahead limit u < ahead limit t := by
    intro u hu
    have hudue : u.due = max s.now t.due + k.config.intervalMs.toNat := by
      rcases List.mem_append.1 hu with hagain | hstarted
      · rcases hleft.asksAgain with rfl | ⟨rfl, -⟩
        · cases hagain
        · rw [List.mem_singleton.1 hagain]
          rfl
      · obtain ⟨hasked, life, c, rfl⟩ := hleft.wasAsked u hstarted
        refine if_neg fun hzero => ?_
        rw [hzero] at hasked
        exact absurd hasked (Nat.not_lt_zero _)
    have hge : t.due ≤ max s.now t.due := Nat.le_max_right ..
    simp only [ahead]
    omega
  refine ⟨((again ++ started).map (ahead limit) : List Nat), ahead limit t, fun n hn => ?_, ?_⟩
  · obtain ⟨u, hu, rfl⟩ := List.mem_map.1 (Multiset.mem_coe.1 hn)
    exact hlater u hu
  · rw [Multiset.coe_eq_coe.2 (hwaiting.map (ahead limit)),
      Multiset.coe_eq_coe.2 (hperm.map (ahead limit))]
    simp only [List.map_append, List.map_cons, ← Multiset.coe_add, ← Multiset.cons_coe,
      ← Multiset.singleton_add]
    ac_rfl

/-- When polls take time, the steps up to a limit are done at some point. -/
theorem exists_runUntil_eq_some (hinterval : 0 < k.config.intervalMs.toNat) (limit : Nat)
    (s : State ω) : ∃ fuel s', k.runUntil (some limit) fuel s = some s' := by
  have hwf : WellFounded (Relation.CutExpand (· < · : Nat → Nat → Prop)) :=
    (wellFounded_lt (α := Nat)).cutExpand
  induction hm : (s.confirmations.map (ahead limit) : Multiset Nat) using hwf.induction
    generalizing s with
  | _ m ih =>
    subst hm
    cases hnext : Confirmation.takeNext (some limit) s.confirmations with
    | none => exact ⟨0, s, by rw [runUntil, hnext]⟩
    | some r =>
      obtain ⟨fuel, s', hrun⟩ := ih _ (goOn_ahead hinterval hnext) (k.goOn r.1 r.2 s) rfl
      exact ⟨fuel + 1, s', by rw [runUntil, hnext]; exact hrun⟩

theorem exists_advance_eq_some (hinterval : 0 < k.config.intervalMs.toNat) (ms : Nat)
    (s : State ω) : ∃ patience s', k.advance patience ms s = some s' := by
  obtain ⟨fuel, s', hrun⟩ := exists_runUntil_eq_some hinterval (s.now + ms) s
  refine ⟨fuel, { s' with now := max s'.now (s.now + ms) }, ?_⟩
  have hbudget : fuel ≤ k.budget fuel s := Nat.le_add_left ..
  rw [advance, runUntil_mono hbudget hrun, Option.map_some]

/-- **When polls take time, every input but waiting leads to a state**, whatever clients do, and
patience is all that it takes. -/
theorem exists_react_eq_some (hinterval : 0 < k.config.intervalMs.toNat) (s : State ω) {i : Input}
    (hi : i ≠ .wait) : ∃ patience s', k.react patience s i = some s' := by
  have htaken : ∃ patience s', k.take patience s i = some s' := by
    cases i with
    | hook h => exact ⟨0, _, rfl⟩
    | drive id d => exact ⟨0, _, rfl⟩
    | pass ms => exact exists_advance_eq_some hinterval ms s
    | wait => exact absurd rfl hi
  obtain ⟨n, s₁, htake⟩ := htaken
  obtain ⟨m, s', hsettle⟩ := exists_advance_eq_some hinterval 0 s₁
  refine ⟨max n m, s', ?_⟩
  rw [react, take_mono (Nat.le_max_left n m) htake, Option.bind_some, settle,
    advance_mono (Nat.le_max_right n m) hsettle]

/-! ### Commands that return -/

section Prompt

variable (henv : k.environment.Prompt)
include henv

theorem conclude_stuck (t : Confirmation) (gone : Bool) (s : State ω) :
    (k.conclude t gone s).stuck = s.stuck := by
  rw [conclude_eq_run]
  split
  · rfl
  · split
    · rfl
    · dsimp only
      rw [Program.waits_of_prompt henv]
      exact Bool.or_false _

theorem proceed_stuck (t : Confirmation) (s : State ω) : (k.proceed t s).stuck = s.stuck := by
  rw [proceed]
  split
  · exact conclude_stuck henv t false s
  split
  · rfl
  · rename_i c hlive
    have hasked := (isGone_still k t c.topics.toList s).stuck henv
    dsimp only
    rcases hgone : k.isGone t c.topics.toList s with ⟨gone, s₁⟩
    rw [hgone] at hasked
    cases gone with
    | true => exact (conclude_stuck henv t true s₁).trans hasked
    | false =>
      dsimp only
      split
      · exact (conclude_stuck henv _ false _).trans hasked
      · exact hasked

theorem runUntil_stuck {limit : Option Nat} (fuel : Nat) :
    ∀ {s s' : State ω}, k.runUntil limit fuel s = some s' → s'.stuck = s.stuck := by
  induction fuel with
  | zero =>
    intro s s' h
    rw [runUntil] at h
    split at h <;> cases h
    rfl
  | succ fuel ih =>
    intro s s' h
    rw [runUntil] at h
    split at h
    · cases h
      rfl
    · exact (ih h).trans (proceed_stuck henv _ _)

theorem advance_stuck {patience ms : Nat} (h : k.advance patience ms s = some s') :
    s'.stuck = s.stuck := by
  rw [advance, Option.map_eq_some_iff] at h
  obtain ⟨s₁, hrun, rfl⟩ := h
  have hstuck : s₁.stuck = s.stuck := runUntil_stuck henv _ hrun
  exact hstuck

theorem take_stuck {patience : Nat} {i : Input} (h : k.take patience s i = some s') :
    s'.stuck = s.stuck := by
  cases i with
  | hook hook =>
    cases h
    exact (receive_still k none s hook).stuck henv
  | drive id d =>
    cases h
    exact (order_still k id d s).stuck henv
  | pass ms => exact advance_stuck henv h
  | wait => exact runUntil_stuck henv _ h

/-- **When commands return, no input gets the controller stuck.** -/
theorem react_stuck {patience : Nat} {i : Input} (h : k.react patience s i = some s') :
    s'.stuck = s.stuck := by
  rw [react, Option.bind_eq_some_iff] at h
  obtain ⟨s₁, htake, hsettle⟩ := h
  exact (advance_stuck henv hsettle).trans (take_stuck henv htake)

/-- So whatever comes of an input, a run goes on from there. -/
theorem next_eq_react (hs : s.stuck = false) (patience : Nat) (i : Input) :
    k.next patience s i = k.react patience s i := by
  rw [next]
  cases hreact : k.react patience s i with
  | none => rfl
  | some s' => rw [Option.filter_some, react_stuck henv hreact, hs, Bool.not_false, if_pos rfl]

end Prompt

end Controller

end Embargo
