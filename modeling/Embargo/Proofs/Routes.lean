import Embargo.Proofs.Consultations
import Embargo.Proofs.Reentry
import Embargo.Proofs.Spelling
import Mathlib.Data.List.DropRight

/-!
# Every route leads to the same policy

A new policy reaches the controller in several ways: through the two hooks for policies, as a
document, and as the policy to begin with.  Some of them clean the topic names before they hand the
policy on, and all of them have them cleaned again; since cleaning twice is cleaning once, nobody
can tell the routes apart.

* `Text.trim_trim`, `Policy.normalized_normalized` — cleaning twice is cleaning once;
* `Policy.Brings` — the hooks that bring a policy;
* `Controller.deliver_of_brings` — they all do the same to any state;
* `State.after`, `Controller.advance_after` — what has been received before makes no difference to
  what happens next;
* `Controller.Reachable.policy_routes_agree` — **all routes agree**, and a document that cannot be
  read changes nothing.
-/

namespace Embargo

/-! ### Cleaning twice -/

namespace Text

/-- What is left of a text has no blanks at its ends. -/
theorem trimChars_trimChars (cs : List Char) : trimChars (trimChars cs) = trimChars cs := by
  have hfront : trimFront (trimChars cs) = trimChars cs := by
    have hprefix : trimChars cs <+: trimFront cs := List.rdropWhile_prefix isBlank (trimFront cs)
    cases htrimmed : trimChars cs with
    | nil => rfl
    | cons c rest =>
      -- the first character is the one that was first once the blanks in front were gone
      rw [htrimmed] at hprefix
      obtain ⟨blanks, hblanks⟩ := hprefix
      have hkept : (trimFront cs).dropWhile isBlank = trimFront cs :=
        List.dropWhile_idempotent isBlank cs
      rw [← hblanks, List.cons_append, List.dropWhile_eq_self_iff] at hkept
      exact List.dropWhile_cons_of_neg (hkept (Nat.succ_pos _))
  rw [trimChars, hfront]
  exact List.rdropWhile_idempotent isBlank (trimFront cs)

theorem trim_trim (s : String) : trim (trim s) = trim s := by
  rw [trim, toList_trim, trimChars_trimChars, trim]

end Text

namespace Policy

/-- **To clean the topic names twice is to clean them once**, though names may fall together. -/
theorem normalized_normalized (p : Policy) : p.normalized.normalized = p.normalized := by
  have htopics : p.normalized.normalized.topics = p.normalized.topics := by
    refine Std.ExtTreeSet.ext_mem fun t => ?_
    rw [mem_normalized]
    constructor
    · rintro ⟨hne, u, hu, rfl⟩
      obtain ⟨-, w, hw, rfl⟩ := mem_normalized.1 hu
      exact mem_normalized.2 ⟨hne, w, hw, (Text.trim_trim w).symm⟩
    · intro ht
      obtain ⟨hne, w, -, rfl⟩ := mem_normalized.1 ht
      exact ⟨hne, _, ht, Text.trim_trim w⟩
  exact congrArg (Policy.mk p.enabled) htopics

/-- A hook that brings a policy: as it is, cleaned already, or in any of its documents. -/
inductive Brings (p : Policy) : Hook → Prop where
  | update : Brings p (.policyUpdate p)
  | delivery : Brings p (.policyDelivery p)
  | cleanUpdate : Brings p (.policyUpdate p.normalized)
  | cleanDelivery : Brings p (.policyDelivery p.normalized)
  | document {text : String} (h : p.IsDocument text) : Brings p (.policyDocument text)

end Policy

variable {ω : Type}

/-- A state in which other things had been received before. -/
def State.after (received : List Delivery) (s : State ω) : State ω :=
  { s with received := s.received ++ received }

namespace Controller

variable {k : Controller ω} {policy : Policy} {memory : ω} {s : State ω} {p : Policy} {h : Hook}

/-! ### The same is done -/

theorem updatePolicy_normalized (k : Controller ω) (p : Policy) (s : State ω) :
    k.updatePolicy p.normalized s = k.updatePolicy p s := by
  rw [updatePolicy_outside, updatePolicy_outside, install, install, Policy.normalized_normalized]

theorem updatePolicyDocument_of_isDocument (k : Controller ω) {text : String}
    (hdocument : p.IsDocument text) (s : State ω) :
    k.updatePolicyDocument text s = (.ok (), k.updatePolicy p s) := by
  rw [updatePolicyDocument_outside, Policy.ofDocument_of_isDocument hdocument]
  exact congrArg _ (updatePolicy_normalized k p s)

/-- **Whatever hook brings a policy, the same is done.** -/
theorem deliver_of_brings (k : Controller ω) (hbrings : p.Brings h) (s : State ω) :
    k.deliver s h = k.updatePolicy p s := by
  cases hbrings with
  | update => rfl
  | delivery => rfl
  | cleanUpdate => exact updatePolicy_normalized k p s
  | cleanDelivery => exact updatePolicy_normalized k p s
  | document hdocument =>
    rw [deliver_policyDocument, updatePolicyDocument_of_isDocument k hdocument]

/-- The policy that is brought is in force afterwards, without blanks around its names. -/
theorem updatePolicy_current (k : Controller ω) (p : Policy) (hs : s.Tidy) :
    (k.updatePolicy p s).policy.current = p.normalized := by
  have hannounced : ({ (install p s).happen none
      (.notice (.sweepStarted (install p s).registry.size)) with sweeps := s.sweeps + 1 } :
        State ω).Tidy := hs.of_eq rfl rfl
  exact congrArg Policy.Store.current
    (sweep_consultations k (k.sweepOrder s.sweeps s.registry.ids) hannounced).1

/-! ### What happens next -/

/-- What has been received before makes no difference while time passes. -/
theorem advance_after (k : Controller ω) (patience ms : Nat) (received : List Delivery)
    (s : State ω) :
    k.advance patience ms (s.after received) =
      (k.advance patience ms s).map (State.after received) := by
  have hretold : State.retold some (· ++ received) = State.after (ω := ω) received := by
    funext s
    simp only [State.retold, Log.retold, List.filterMap_some, State.after]
  rw [← hretold]
  exact advance_retold (Retells.refl k) (fun d ds => List.cons_append) patience ms s

/-- What a hook leads to is what it does, and what happens then. -/
theorem react_hook (k : Controller ω) (patience : Nat) (s : State ω) (h : Hook) :
    k.react patience s (.hook h) =
      (k.settle patience { k.deliver s h with received := [] }).map
        (State.after (.hook h none :: s.received)) := by
  rw [react, take, Option.bind_some, receive, deliver_received]
  exact advance_after k patience 0 _ { k.deliver s h with received := [] }

/-- A document that cannot be read changes nothing. -/
theorem react_unreadable (k : Controller ω) (patience : Nat) {text : String} {e : Error}
    (htext : Policy.ofDocument text = .error e) (hsettled : ∀ t ∈ s.confirmations, s.now < t.due) :
    k.react patience s (.hook (.policyDocument text)) =
      some { s with received := .hook (.policyDocument text) none :: s.received } := by
  have hunchanged : k.deliver s (.policyDocument text) = s := by
    rw [deliver_policyDocument, updatePolicyDocument_outside, htext]
  rw [react_hook, hunchanged]
  exact congrArg (Option.map _)
    (advance_of_settled (s := { s with received := [] }) k patience hsettled)

/-- **All routes of a policy agree.**  To begin with a policy is to begin with it cleaned.  In any
state that runs lead to, every hook that brings a policy does what the others do, without any
difference in the state or in what is called, and afterwards too nothing differs but the list of
what has been received; the cleaned policy is in force then.  A document that cannot be read is
refused with an error of its own kind, and leaves everything as it is. -/
theorem Reachable.policy_routes_agree (hs : k.Reachable policy memory s) (p : Policy) :
    (State.initial p memory = State.initial p.normalized memory ∧
      (State.initial p memory).policy.current = p.normalized) ∧
    (k.updatePolicy p s).policy.current = p.normalized ∧
    (∀ h, p.Brings h →
      k.deliver s h = k.updatePolicy p s ∧
      ∀ patience, k.react patience s (.hook h) =
        (k.settle patience { k.updatePolicy p s with received := [] }).map
          (State.after (.hook h none :: s.received))) ∧
    (∀ text, p.IsDocument text →
      k.updatePolicyDocument text s = (.ok (), k.updatePolicy p s)) ∧
    ∀ text e, Policy.ofDocument text = .error e →
      (∃ message, e = .policy message) ∧ k.updatePolicyDocument text s = (.error e, s) ∧
      ∀ patience, k.react patience s (.hook (.policyDocument text)) =
        some { s with received := .hook (.policyDocument text) none :: s.received } := by
  refine ⟨⟨?_, rfl⟩, updatePolicy_current k p hs.inOrder.tidy, fun h hbrings => ⟨?_, ?_⟩,
    fun text hdocument => updatePolicyDocument_of_isDocument k hdocument s,
    fun text e htext => ⟨?_, ?_, ?_⟩⟩
  · rw [State.initial, State.initial, Policy.normalized_normalized]
  · exact deliver_of_brings k hbrings s
  · intro patience
    rw [react_hook, deliver_of_brings k hbrings]
  · rw [Policy.ofDocument] at htext
    split at htext
    · cases htext
      exact ⟨_, rfl⟩
    · cases htext
  · rw [updatePolicyDocument_outside, htext]
  · exact fun patience => react_unreadable k patience htext hs.settled

/-- While the newcomer consumes, a document comes that names its topic with blanks around it, and
then one that cannot be read: the first one does what the policy itself does, and has the newcomer
leave its group, and the second one does nothing. -/
theorem Reachable.policy_routes_agree_of_newcomer :
    ∃ s, Rehearsal.stage.run 0 (.initial .disabled {}) Rehearsal.entrance = some s ∧
      Rehearsal.stage.deliver s (.policyDocument (Policy.toDocument ⟨true, .ofList [" t ", ""]⟩)) =
        Rehearsal.stage.updatePolicy ⟨true, .ofList [" t ", ""]⟩ s ∧
      ((Rehearsal.stage.updatePolicy ⟨true, .ofList [" t ", ""]⟩ s).consumer?
        Rehearsal.newcomer.id).map Consumer.state = some .suspending ∧
      (Rehearsal.stage.updatePolicyDocument "" s).2 = s := by
  have hrun : ((Rehearsal.stage.run 0 (.initial .disabled {}) Rehearsal.entrance).map fun s =>
      ((Rehearsal.stage.updatePolicy ⟨true, .ofList [" t ", ""]⟩ s).consumer?
        Rehearsal.newcomer.id).map Consumer.state) = some (some .suspending) := by
    decide +kernel
  obtain ⟨s, hs, hstate⟩ := Option.map_eq_some_iff.1 hrun
  have hreachable : Rehearsal.stage.Reachable .disabled {} s := Reachable.start.run hs
  obtain ⟨-, -, hagree, -, hrefused⟩ :=
    hreachable.policy_routes_agree ⟨true, .ofList [" t ", ""]⟩
  have hdocument : Policy.IsDocument ⟨true, .ofList [" t ", ""]⟩
      (Policy.toDocument ⟨true, .ofList [" t ", ""]⟩) :=
    Policy.isDocument_documentChars _ fun t => Std.ExtTreeSet.mem_toList
  exact ⟨s, hs, (hagree _ (.document hdocument)).1, hstate,
    congrArg Prod.snd (hrefused "" _ rfl).2.1⟩

end Controller

end Embargo
