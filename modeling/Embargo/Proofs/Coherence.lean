import Embargo.Proofs.Bookkeeping
import Embargo.Proofs.Handoff

/-!
# What a controller holds fits together

Consumers are registered under their identities, changes wait for identities that nobody has
registered under, and a consumer has a mode that fits its kind, its state and its queues.  Nobody
checks any of this where it is relied on; it holds because everything that happens keeps it.

* `Consumer.Fitting` — the mode fits the kind and the assigned queues, which is up to the changes
  that a consumer has accepted;
* `Consumer.Coherent` — this, and what transitions have to keep;
* `State.ids_status` — operators see the registered consumers in the order of their identities;
* `View.Step.fitting`, `View.Reach.coherent` — whatever happens, registered consumers are coherent;
* `Controller.Reachable.store_coherent` — **registry, cache and status fit together**.
-/

namespace Embargo

/-! ### Consumers that fit together -/

namespace Consumer

variable {c c' : Consumer} {client : Client}

/-- The mode of a consumer fits its kind, and the queues that it was handed. -/
structure Fitting (c : Consumer) : Prop where
  push : c.client.kind = .push → c.mode = some .subscribe
  assigned : c.assigned ≠ ∅ → c.mode = some .assign

/-- All parts of a consumer fit together. -/
structure Coherent (c : Consumer) : Prop where
  sound : c.Sound
  fitting : c.Fitting
  paused : c.paused ≠ ∅ → c.mode = some .assign ∧ c.state = .suspended

theorem mode_of_wrap (h : wrap client = .ok c) (hkind : client.kind = .push) :
    c.mode = some .subscribe := by
  rw [wrap] at h
  split at h
  · cases h
  · split at h
    · cases h
    · cases h
      simp only [hkind]

theorem wrap_fitting (h : wrap client = .ok c) : c.Fitting where
  push := fun hkind => mode_of_wrap h (client_of_wrap h ▸ hkind)
  assigned := fun hne => by
    obtain ⟨group, mode, -, rfl⟩ := wrap_eq_ok h
    exact absurd rfl hne

/-- A change that a consumer accepts fits its mode, or fixes it. -/
theorem apply_fitting {change : Change} (h : c.Fitting) (happly : c.apply change = .ok c') :
    c'.Fitting := by
  cases change with
  | subscribe topic =>
    rw [apply, subscribe] at happly
    cases hclaim : c.claim .subscribe with
    | error e => rw [hclaim] at happly; cases happly
    | ok c₁ =>
      rw [hclaim] at happly
      cases happly
      obtain ⟨rfl, hmode⟩ := claim_eq_ok hclaim
      refine ⟨fun _ => rfl, fun hne => ?_⟩
      rcases hmode with hnone | hsubscribe
      · cases hnone.symm.trans (h.assigned hne)
      · cases hsubscribe.symm.trans (h.assigned hne)
  | unsubscribe topic =>
    rw [apply, unsubscribe] at happly
    split at happly
    · cases happly
    · cases happly
      exact ⟨h.push, h.assigned⟩
  | assign queues =>
    rw [apply, assign] at happly
    cases hclaim : c.claim .assign with
    | error e => rw [hclaim] at happly; cases happly
    | ok c₁ =>
      rw [hclaim] at happly
      cases happly
      obtain ⟨rfl, hmode⟩ := claim_eq_ok hclaim
      refine ⟨fun hkind => ?_, fun _ => rfl⟩
      -- the mode of a push client is fixed from the beginning
      rcases hmode with hnone | hassign
      · cases hnone.symm.trans (h.push hkind)
      · cases hassign.symm.trans (h.push hkind)

/-- How far a consumer takes part does not matter for its mode. -/
theorem Fitting.of_pristine_eq (h : c.Fitting) (heq : c'.pristine = c.pristine) : c'.Fitting := by
  have hpristine : c.pristine.Fitting := ⟨h.push, h.assigned⟩
  rw [← heq] at hpristine
  exact ⟨hpristine.push, hpristine.assigned⟩

/-- A consumer without a mode has nothing, and takes part in consumption. -/
theorem Coherent.modeless (h : c.Coherent) (hmode : c.mode = none) :
    c.state = .active ∧ c.topics = ∅ ∧ c.assigned = ∅ ∧ c.paused = ∅ := by
  obtain ⟨hstate, htopics⟩ := h.sound.modeless hmode
  refine ⟨hstate, Std.ExtTreeSet.eq_empty_iff_forall_not_mem.2 htopics, ?_, ?_⟩
  · by_contra hne
    cases hmode.symm.trans (h.fitting.assigned hne)
  · by_contra hne
    cases hmode.symm.trans (h.paused hne).1

/-- A subscribing consumer has paused nothing. -/
theorem Coherent.paused_of_subscribe (h : c.Coherent) (hmode : c.mode = some .subscribe) :
    c.paused = ∅ := by
  by_contra hne
  cases hmode.symm.trans (h.paused hne).1

end Consumer

namespace View

variable {config : Config} {policy : Policy} {id : ConsumerId} {v v' : View} {c : Consumer}

/-- The mode of the registered consumer fits. -/
def Fitting (v : View) : Prop := ∀ c, v.consumer = some c → c.Fitting

theorem Effect.fitting (h : Effect config id v v') (hv : v.Fitting) : v'.Fitting := by
  intro c' hc'
  cases h with
  | install => exact hv c' hc'
  | register _ _ hwrap =>
    cases hc'
    exact Consumer.wrap_fitting hwrap
  | revise hreg happly =>
    cases hc'
    exact Consumer.apply_fitting (hv _ hreg) happly
  | remove => cases hc'
  | drive hreg htransit =>
    cases hc'
    exact (hv _ hreg).of_pristine_eq htransit.pristine_eq

/-- **Every step keeps the mode fitting**: only changes touch what it has to fit. -/
theorem Step.fitting (h : Step config id v v') (hv : v.Fitting) : v'.Fitting := by
  cases h with
  | deliver d _ heffects => exact heffects.keeps (P := View.Fitting) (fun h => h.fitting) hv
  | confirm _ hlive =>
    intro c' hc'
    cases hc'
    exact (hv _ (of_subject? hlive).1).of_pristine_eq rfl
  | rollBack _ _ hlive hyields =>
    intro c' hc'
    cases hc'
    exact (hv _ (of_subject? hlive).1).of_pristine_eq (Consumer.rollBack_pristine_eq hyields)
  | _ => exact hv

/-- Whatever steps lead to, a registered consumer is coherent. -/
theorem Reach.coherent (h : Reach config id (View.initial policy) v) (hreg : v.consumer = some c) :
    c.Coherent where
  sound := (h.sound (initial_sound policy id)).consumer c hreg
  fitting := h.keeps (P := View.Fitting) (fun h => h.fitting) (fun c hc => by cases hc) c hreg
  paused := ((h.bookkept (initial_sound policy id) (initial_bookkept policy id)).current c
    hreg).suspended

end View

/-! ### What operators see -/

variable {ω : Type}

namespace State

variable {s : State ω}

theorem mem_toList_registry {id : ConsumerId} {c : Consumer} :
    (id, c) ∈ s.registry.toList ↔ s.consumer? id = some c :=
  Std.ExtTreeMap.mem_toList_iff_getElem?_eq_some

/-- Operators see the registered consumers in the order of their identities. -/
theorem ids_status (hkeyed : s.Keyed) : s.status.map (·.id) = s.registry.ids := by
  rw [Registry.ids, ← Std.ExtTreeMap.map_fst_toList_eq_keys, status, List.map_map]
  exact List.map_congr_left fun r hr => hkeyed r.1 r.2 (mem_toList_registry.1 hr)

theorem ids_increasing (s : State ω) : s.registry.ids.Pairwise fun a b => a.raw < b.raw := by
  have hordered : s.registry.ids.Pairwise fun a b => compare a b = .lt :=
    Std.ExtTreeMap.ordered_keys
  exact hordered.imp fun h => compareOfLessAndEq_eq_lt.1 h

theorem mem_status {st : Consumer.Status} :
    st ∈ s.status ↔ ∃ id c, s.consumer? id = some c ∧ c.status = st := by
  rw [status, List.mem_map]
  constructor
  · rintro ⟨⟨id, c⟩, hmem, rfl⟩
    exact ⟨id, c, mem_toList_registry.1 hmem, rfl⟩
  · rintro ⟨id, c, hreg, rfl⟩
    exact ⟨(id, c), mem_toList_registry.2 hreg, rfl⟩

end State

/-! ### Every run keeps this -/

namespace Controller

variable {k : Controller ω} {policy : Policy} {memory : ω} {s : State ω} {id : ConsumerId}
  {c : Consumer}

/-- Nothing waits for a registered consumer. -/
theorem Reachable.cache_eq_none (h : k.Reachable policy memory s)
    (hreg : s.consumer? id = some c) : s.cache.get? id = none := by
  obtain ⟨hregistered, hwaiting⟩ := h.handed id
  rw [hreg, Option.map_some, eq_comm, Reports.registered?, Option.map_eq_some_iff] at hregistered
  obtain ⟨fresh, hfresh, -⟩ := hregistered
  rw [hwaiting, Reports.waiting?, hfresh]
  exact if_pos (.inl rfl)

/-- Every registered consumer is coherent. -/
theorem Reachable.coherent (h : k.Reachable policy memory s) (hreg : s.consumer? id = some c) :
    c.Coherent :=
  (h.reach id).coherent hreg

/-- **Registry, cache and status fit together.**  Every registered consumer carries the identity
that it is registered under, is not shut down, and has no changes waiting for it.  Without a mode it
takes part in consumption, has nothing, and nothing has been called for it; push clients subscribe;
only subscribing consumers are ever suspending, and only consumers that were handed queues have any,
assigned or paused.  Operators see exactly the registered consumers, in the order of their
identities and each of them once, and those are paused that are suspended. -/
theorem Reachable.store_coherent (h : k.Reachable policy memory s) :
    (∀ id c, s.consumer? id = some c →
      c.id = id ∧ c.shutDown = false ∧ s.cache.get? id = none ∧
      (c.mode = none → c.state = .active ∧ c.topics = ∅ ∧ c.assigned = ∅ ∧ c.paused = ∅ ∧
        Log.calls id (s.life id) s.log = []) ∧
      (c.client.kind = .push → c.mode = some .subscribe) ∧
      (c.state = .suspending → c.mode = some .subscribe) ∧
      (c.assigned ≠ ∅ ∨ c.paused ≠ ∅ → c.mode = some .assign)) ∧
    (s.status.map (·.id)).Pairwise (fun a b => a.raw < b.raw) ∧
    (∀ id, id ∈ s.status.map (·.id) ↔ (s.consumer? id).isSome) ∧
    ∀ st ∈ s.status, ∃ c, s.consumer? st.id = some c ∧ st = c.status ∧
      (st.paused = true ↔ c.state = .suspended) := by
  refine ⟨fun id c hreg => ?_, ?_, fun id => ?_, fun st hst => ?_⟩
  · have hcoherent := h.coherent hreg
    refine ⟨h.keyed id c hreg, hcoherent.sound.running, h.cache_eq_none hreg,
      fun hmode => ?_, hcoherent.fitting.push, hcoherent.sound.suspending, ?_⟩
    · obtain ⟨hstate, htopics, hassigned, hpaused⟩ := hcoherent.modeless hmode
      have hconduct := h.conduct hreg
      rw [Consumer.Conduct, hmode] at hconduct
      exact ⟨hstate, htopics, hassigned, hpaused, hconduct⟩
    · rintro (hassigned | hpaused)
      · exact hcoherent.fitting.assigned hassigned
      · exact (hcoherent.paused hpaused).1
  · rw [State.ids_status h.keyed]
    exact s.ids_increasing
  · rw [State.ids_status h.keyed]
    exact Registry.mem_ids
  · obtain ⟨id, c, hreg, rfl⟩ := State.mem_status.1 hst
    have hid : c.status.id = id := h.keyed id c hreg
    exact ⟨c, hid.symm ▸ hreg, rfl, decide_eq_true_iff⟩

/-- The worker starts before the newcomer, but operators see the newcomer first; of the two, only
the worker is paused already. -/
theorem Reachable.store_coherent_of_two :
    ∃ s, Rehearsal.stage.run 0 (.initial (.prohibiting ["t"]) {})
        (Rehearsal.shift ++ Rehearsal.entrance) = some s ∧
      s.status.map (fun st => (st.id, st.paused)) =
        [(Rehearsal.newcomer.id, false), (Rehearsal.worker.id, true)] ∧
      (s.status.map (·.id)).Pairwise (fun a b => a.raw < b.raw) ∧
      ∀ st ∈ s.status, ∃ c, s.consumer? st.id = some c ∧ st = c.status ∧
        (st.paused = true ↔ c.state = .suspended) := by
  have hrun : ((Rehearsal.stage.run 0 (.initial (.prohibiting ["t"]) {})
      (Rehearsal.shift ++ Rehearsal.entrance)).map fun s =>
        s.status.map fun st => (st.id, st.paused)) =
          some [(Rehearsal.newcomer.id, false), (Rehearsal.worker.id, true)] := by
    decide +kernel
  obtain ⟨s, hs, hstatus⟩ := Option.map_eq_some_iff.1 hrun
  have hreachable : Rehearsal.stage.Reachable (.prohibiting ["t"]) {} s := Reachable.start.run hs
  obtain ⟨-, hordered, -, hshown⟩ := hreachable.store_coherent
  exact ⟨s, hs, hstatus, hordered, hshown⟩

end Controller

end Embargo
